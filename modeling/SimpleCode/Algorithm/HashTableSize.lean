import SimpleCode.Foundations.Buckets
import SimpleCode.Algorithm.HashTableMap

set_option autoImplicit false

namespace SimpleCode.Algorithm

open Foundations

namespace HashTable

variable {ν : Type} {table : HashTable ν}

lemma getElements_loaded (mode : HashTableMode) {n : UInt16} (hn : n ≠ 0)
    (es : List (HashTableElement ν)) : (loaded table mode n es).getElements.Perm es := by
  change ((List.range n.toNat).flatMap fun i => es.filter fun e => slot e.key n = i).Perm es
  induction es with
  | nil => simp
  | cons e es ih =>
    have hstore : (fun i => (e :: es).filter fun e => slot e.key n = i)
        = Function.update (fun i => es.filter fun e => slot e.key n = i) (slot e.key n)
          (e :: es.filter fun f => slot f.key n = slot e.key n) := by
      funext i
      by_cases hi : i = slot e.key n
      · subst hi
        rw [Function.update_self, List.filter_cons_of_pos (by simp)]
      · rw [Function.update_of_ne hi, List.filter_cons_of_neg (by simpa using Ne.symm hi)]
    rw [hstore]
    exact (perm_flatMap_update List.nodup_range (List.mem_range.mpr (slot_lt e.key hn))
      (List.Perm.refl _)).trans (List.Perm.cons e ih)

lemma resizeAt_loaded (depth : ℕ) {len : ℕ} (hratio : table.keyRatio = 4)
    (hdistinct : (table.getElements.map HashTableElement.key).Nodup) (hpos : 1 ≤ len)
    (hlen : len ≤ 65535) (hroom : table.getElements.length ≤ 4 * len)
    (hsome : table.getElements.isEmpty = false) :
    resizeAt (depth + 1) table len
      = .ok (loaded table table.mode (UInt16.ofNat len) table.getElements.reverse, 0) := by
  obtain ⟨htoNat, hn⟩ := slots_of_lt len hpos hlen
  have hfold := foldlM_loaded (resizeAt depth) .modeAllRef hratio hn []
    table.getElements.reverse (by rwa [List.nil_append, List.map_reverse, List.nodup_reverse])
    (by rwa [List.nil_append, List.length_reverse, htoNat])
  rw [resizeAt, hsome, if_neg Bool.false_ne_true]
  change (table.getElements.reverse.foldlM (addWith (resizeAt depth))
    (loaded table .modeAllRef (UInt16.ofNat len) []) >>= _) = _
  rw [hfold]
  rfl

lemma resizeAt_ret {depth len : ℕ} {table' : HashTable ν} {ret : ℤ}
    (h : resizeAt depth table len = .ok (table', ret)) : ret = 0 ∨ ret = -1 ∧ table' = table := by
  cases depth with
  | zero => cases h
  | succ depth =>
    rw [resizeAt] at h
    split at h
    · cases h
      exact .inr ⟨rfl, rfl⟩
    · obtain ⟨moved, -, hmoved⟩ := bind_eq_ok.mp h
      cases hmoved
      exact .inl rfl

structure Exact (table : HashTable ν) : Prop where
  ratio : table.keyRatio = 4
  distinct : (table.getElements.map HashTableElement.key).Nodup
  count : table.keyCount = table.getElements.length

lemma Exact.resize (h : table.Exact) (depth : ℕ) (allocated : Bool) {len : ℕ} (hpos : 1 ≤ len)
    (hlen : len ≤ 65535) (hroom : table.keyCount ≤ 4 * len) :
    ∃ table' ret, table.resize (depth + 1) allocated len = .ok (table', ret)
      ∧ ret = (if table.getElements = [] then -1 else if allocated then 0 else -2)
      ∧ (ret = 0 → table'.getElements.Perm table.getElements
        ∧ (∀ i, ∀ e ∈ table'.storeHouse i, slot e.key (UInt16.ofNat len) = i)
        ∧ table'.keyNum.toNat = len ∧ table'.keyCount = table.keyCount
        ∧ table'.mode = table.mode) := by
  by_cases hempty : table.getElements = []
  · refine ⟨table, -1, ?_, (if_pos hempty).symm, nofun⟩
    rw [HashTable.resize, if_pos (List.isEmpty_iff.mpr hempty)]
  · have hsome : table.getElements.isEmpty = false := by
      rwa [List.isEmpty_eq_false_iff]
    rw [if_neg hempty]
    cases allocated with
    | false =>
      refine ⟨table, -2, ?_, rfl, nofun⟩
      rw [HashTable.resize, hsome]
      rfl
    | true =>
      obtain ⟨htoNat, hn⟩ := slots_of_lt len hpos hlen
      have hresize := resizeAt_loaded depth h.ratio h.distinct hpos hlen (h.count ▸ hroom) hsome
      refine ⟨loaded table table.mode (UInt16.ofNat len) table.getElements.reverse, 0, ?_, rfl,
        fun _ => ⟨?_, ?_, htoNat, ?_, rfl⟩⟩
      · rw [HashTable.resize, hsome, ← hresize]
        rfl
      · exact (getElements_loaded table.mode hn _).trans (List.reverse_perm _)
      · intro i e he
        simp only [loaded, List.mem_filter, decide_eq_true_eq] at he
        exact he.2
      · rw [h.count]
        exact List.length_reverse

lemma resize_unchanged {depth len : ℕ} {allocated : Bool} {table' : HashTable ν} {ret : ℤ}
    (h : table.resize depth allocated len = .ok (table', ret)) (hret : ret = -1 ∨ ret = -2) :
    table' = table := by
  rw [HashTable.resize] at h
  split at h
  · cases h
    rfl
  · split at h
    · rcases resizeAt_ret h with rfl | ⟨-, rfl⟩
      · exact absurd hret (by decide)
      · rfl
    · cases h
      rfl

theorem resize_preserves (depth : ℕ) (allocated : Bool) (table : HashTable ν) (len : ℕ) :
    (table.Exact → 1 ≤ len → len ≤ 65535 → table.keyCount ≤ 4 * len →
      ∃ table' ret, table.resize (depth + 1) allocated len = .ok (table', ret)
        ∧ ret = (if table.getElements = [] then -1 else if allocated then 0 else -2)
        ∧ (ret = 0 → table'.getElements.Perm table.getElements
          ∧ (∀ i, ∀ e ∈ table'.storeHouse i, slot e.key (UInt16.ofNat len) = i)
          ∧ table'.keyNum.toNat = len ∧ table'.keyCount = table.keyCount
          ∧ table'.mode = table.mode))
      ∧ ∀ table' ret, table.resize (depth + 1) allocated len = .ok (table', ret) →
        ret = -1 ∨ ret = -2 → table' = table :=
  ⟨fun h => h.resize depth allocated, fun _ _ => resize_unchanged⟩

theorem resize_preserves_two :
    ∃ table' : HashTable ℕ, ∃ ret,
      HashTable.resize 1 true ⟨Function.update (fun _ => []) 62 [⟨[1], 10, 1⟩, ⟨[2], 20, 1⟩],
        .modeCopy, 2, 128, 4⟩ 300 = .ok (table', ret) ∧ ret = 0 := by
  obtain ⟨table', ret, hresize, hret, -⟩ := (resize_preserves 0 true
    (⟨Function.update (fun _ => []) 62 [⟨[1], 10, 1⟩, ⟨[2], 20, 1⟩], .modeCopy, 2, 128, 4⟩ :
      HashTable ℕ) 300).1
    ⟨rfl, by decide +kernel, by decide +kernel⟩ (by decide) (by decide) (by decide)
  exact ⟨table', ret, hresize, hret.trans (by decide +kernel)⟩

lemma length_getElements : table.getElements.length
    = ((List.range table.keyNum.toNat).map fun i => (table.storeHouse i).length).sum := by
  rw [getElements, List.length_flatMap]

lemma length_getElements_update (n : UInt16) {i : ℕ} (hi : i < n.toNat)
    (store : ℕ → List (HashTableElement ν)) (chain : List (HashTableElement ν)) :
    ((List.range n.toNat).map fun j => (Function.update store i chain j).length).sum
        + (store i).length
      = ((List.range n.toNat).map fun j => (store j).length).sum + chain.length := by
  generalize n.toNat = k at hi
  induction k with
  | zero => exact absurd hi (Nat.not_lt_zero i)
  | succ k ih =>
    simp only [List.range_succ, List.map_append, List.map_singleton, List.sum_append,
      List.sum_singleton]
    rcases Nat.lt_succ_iff_lt_or_eq.mp hi with hlt | rfl
    · rw [Function.update_of_ne (Nat.ne_of_gt hlt)]
      have := ih hlt
      omega
    · have hsame : (List.range i).map (fun j => (Function.update store i chain j).length)
          = (List.range i).map fun j => (store j).length := by
        apply List.map_congr_left
        intro j hj
        rw [Function.update_of_ne (Nat.ne_of_lt (List.mem_range.mp hj))]
      rw [hsame, Function.update_self]
      omega

lemma length_le_getElements (h : table.keyNum ≠ 0) (key : Bytes) :
    (table.storeHouse (slot key table.keyNum)).length ≤ table.getElements.length := by
  rw [length_getElements]
  apply List.le_sum_of_mem
  exact List.mem_map.mpr ⟨_, List.mem_range.mpr (slot_lt key h), rfl⟩

lemma length_replaceNext (element : HashTableElement ν) (chain : List (HashTableElement ν)) :
    (replaceNext element chain).1.length
      = if (replaceNext element chain).2 then chain.length + 1 else chain.length := by
  induction chain with
  | nil => rfl
  | cons temp chain ih =>
    rw [replaceNext_cons]
    split
    · rfl
    · simp only [List.length_cons, ih]
      split <;> rfl

lemma length_removeFrom {key : Bytes} {before chain rest : List (HashTableElement ν)}
    (h : removeFrom key before chain = some rest) : rest.length < (before ++ chain).length := by
  induction chain generalizing before with
  | nil => cases h
  | cons temp chain ih =>
    rw [removeFrom_cons] at h
    split at h
    · split at h
      · cases h
        simp
        omega
      · cases h
        simp
    · have := ih h
      simp only [List.length_append, List.length_cons, List.length_nil] at this ⊢
      omega

lemma insertElement_counts (h : table.keyNum ≠ 0) (element : HashTableElement ν) :
    ∃ table' added, table.insertElement element = .ok table' ∧ added ≤ 1
      ∧ table'.keyNum = table.keyNum ∧ table'.keyRatio = table.keyRatio
      ∧ table'.keyCount = table.keyCount + added
      ∧ table'.getElements.length = table.getElements.length + added := by
  have hslot := slot_lt element.key h
  rw [insertElement, doHash_eq h, ok_bind]
  cases hc : table.storeHouse (slot element.key table.keyNum) with
  | nil =>
    refine ⟨_, 1, rfl, le_rfl, rfl, rfl, rfl, ?_⟩
    have hsum := length_getElements_update table.keyNum hslot table.storeHouse [element]
    rw [hc] at hsum
    rw [length_getElements, length_getElements]
    exact hsum
  | cons head chain =>
    have hsum := length_getElements_update table.keyNum hslot table.storeHouse
      (head :: (replaceNext element chain).1)
    rw [hc, List.length_cons, List.length_cons, length_replaceNext] at hsum
    cases hnew : (replaceNext element chain).2 with
    | false =>
      refine ⟨_, 0, rfl, Nat.zero_le 1, rfl, rfl, if_neg (by simp [hnew]), ?_⟩
      rw [length_getElements, length_getElements]
      simp only [hnew, Bool.false_eq_true, if_false] at hsum
      dsimp only
      omega
    | true =>
      refine ⟨_, 1, rfl, le_rfl, rfl, rfl, if_pos hnew, ?_⟩
      rw [length_getElements, length_getElements]
      simp only [hnew, if_true] at hsum
      dsimp only
      omega

lemma removeElement_counts (h : table.keyNum ≠ 0) (key : Bytes) :
    ∃ table' ret, table.removeElement key = .ok (table', ret)
      ∧ table'.keyNum = table.keyNum ∧ table'.keyRatio = table.keyRatio
      ∧ (table' = table ∨ table'.keyCount = table.keyCount - 1
        ∧ table'.getElements.length + 1 ≤ table.getElements.length) := by
  have hslot := slot_lt key h
  rw [removeElement, doHash_eq h, ok_bind]
  cases hr : removeFrom key [] (table.storeHouse (slot key table.keyNum)) with
  | none => exact ⟨table, -1, rfl, rfl, rfl, .inl rfl⟩
  | some chain =>
    refine ⟨_, 0, rfl, rfl, rfl, .inr ⟨rfl, ?_⟩⟩
    have hsum := length_getElements_update table.keyNum hslot table.storeHouse chain
    have hlen := length_removeFrom hr
    rw [List.nil_append] at hlen
    rw [length_getElements, length_getElements]
    dsimp only
    omega

lemma foldlM_counts (resize : HashTable ν → ℕ → Except Fault (HashTable ν × ℤ))
    (es : List (HashTableElement ν)) (hratio : table.keyRatio = 4) (hn : table.keyNum ≠ 0)
    (hcount : table.keyCount = table.getElements.length)
    (hroom : table.keyCount + es.length ≤ 4 * table.keyNum.toNat) :
    ∃ table', es.foldlM (addWith resize) table = .ok table'
      ∧ table'.keyNum = table.keyNum ∧ table'.keyRatio = 4
      ∧ table'.keyCount = table'.getElements.length
      ∧ table'.keyCount ≤ table.keyCount + es.length := by
  induction es generalizing table with
  | nil => exact ⟨table, rfl, rfl, hratio, hcount, le_rfl⟩
  | cons element es ih =>
    obtain ⟨mid, added, hinsert, hadded, hnum, hmratio, hmcount, hmlength⟩ :=
      insertElement_counts hn element
    rw [List.length_cons] at hroom
    have hsmall : ¬ table.keyRatio ≤ table.keyCount / table.keyNum.toNat := by
      rw [hratio, not_le]
      exact Nat.div_lt_of_lt_mul (by omega)
    obtain ⟨table', hfold, hnum', hratio', hcount', hle⟩ := ih (hmratio.trans hratio)
      (by rwa [hnum]) (by omega) (by rw [hnum]; omega)
    refine ⟨table', ?_, hnum'.trans hnum, hratio', hcount', ?_⟩
    · rw [List.foldlM_cons, addWith, if_neg hn, if_neg hsmall, hinsert, ok_bind]
      exact hfold
    · rw [List.length_cons]
      omega

lemma resizeAt_counts (depth len : ℕ) (hratio : table.keyRatio = 4)
    (hn : UInt16.ofNat len ≠ 0) (hsome : table.getElements ≠ [])
    (hroom : table.getElements.length ≤ 4 * (UInt16.ofNat len).toNat) :
    ∃ table', resizeAt (depth + 1) table len = .ok (table', 0)
      ∧ table'.keyNum = UInt16.ofNat len ∧ table'.keyRatio = 4
      ∧ table'.keyCount = table'.getElements.length
      ∧ table'.keyCount ≤ table.getElements.length := by
  obtain ⟨moved, hfold, hnum, hratio', hcount, hle⟩ :=
    @foldlM_counts ν { table with
        storeHouse := fun _ => []
        keyNum := UInt16.ofNat len
        mode := .modeAllRef
        keyCount := 0 }
      (resizeAt depth) table.getElements.reverse hratio hn (by simp [length_getElements])
      (by rwa [List.length_reverse, Nat.zero_add])
  refine ⟨{ moved with mode := table.mode }, ?_, hnum, hratio', hcount, ?_⟩
  · rw [resizeAt, List.isEmpty_eq_false_iff.mpr hsome, if_neg Bool.false_ne_true, hfold]
    rfl
  · rwa [List.length_reverse, Nat.zero_add] at hle

lemma resizeAt_zero (depth : ℕ) {len : ℕ} (hn : UInt16.ofNat len = 0)
    (hsome : table.getElements ≠ []) :
    resizeAt (depth + 1) table len = .error .divisionByZero := by
  rw [resizeAt, List.isEmpty_eq_false_iff.mpr hsome, if_neg Bool.false_ne_true]
  cases hes : table.getElements.reverse with
  | nil => exact absurd (List.reverse_eq_nil_iff.mp hes) hsome
  | cons element es =>
    rw [List.foldlM_cons, addWith, if_pos hn]
    rfl

structure Sized (table : HashTable ν) : Prop where
  ratio : table.keyRatio = 4
  slots : ∃ k ≤ 15, table.keyNum.toNat = 2 ^ k
  counted : table.getElements.length ≤ table.keyCount
  load : table.getElements.length ≤ 4 * table.keyNum.toNat

lemma Sized.pos (h : table.Sized) : table.keyNum ≠ 0 := by
  obtain ⟨k, -, hk⟩ := h.slots
  intro h0
  rw [h0] at hk
  exact absurd hk.symm (pow_ne_zero k two_ne_zero)

lemma Sized.size_pos (h : table.Sized) : 0 < table.keyNum.toNat := by
  obtain ⟨k, -, hk⟩ := h.slots
  rw [hk]
  exact Nat.two_pow_pos k

lemma sized_new (mode : HashTableMode) : (new mode : HashTable ν).Sized where
  ratio := rfl
  slots := ⟨7, by decide, rfl⟩
  counted := by simp [length_getElements, new]
  load := by simp [length_getElements, new]

lemma Sized.insert (h : table.Sized) (element : HashTableElement ν)
    (hroom : table.getElements.length < 4 * table.keyNum.toNat) :
    ∃ table', table.insertElement element = .ok table' ∧ table'.Sized := by
  obtain ⟨table', added, hinsert, hadded, hnum, hratio, hcount, hlength⟩ :=
    insertElement_counts h.pos element
  have hcounted := h.counted
  refine ⟨table', hinsert, hratio.trans h.ratio, ?_, ?_, ?_⟩
  · rw [hnum]
    exact h.slots
  · omega
  · rw [hnum]
    omega

lemma Sized.removeElement (h : table.Sized) (key : Bytes) :
    ∃ table' ret, table.removeElement key = .ok (table', ret) ∧ table'.Sized := by
  obtain ⟨table', ret, hremove, hnum, hratio, rfl | ⟨hless, hlength⟩⟩ :=
    removeElement_counts h.pos key
  · exact ⟨table', ret, hremove, h⟩
  · have hcounted := h.counted
    have hload := h.load
    refine ⟨table', ret, hremove, hratio.trans h.ratio, ?_, ?_, ?_⟩
    · rw [hnum]
      exact h.slots
    · omega
    · rw [hnum]
      omega

-- The doubling that the call asks for does not reach 65536 slots.
def Doubles (table : HashTable ν) : Prop :=
  table.getElements ≠ [] → table.keyRatio ≤ table.keyCount / table.keyNum.toNat →
    table.keyNum.toNat * 2 < 65536

lemma Sized.double (h : table.Sized) (hlt : table.keyNum.toNat * 2 < 65536) :
    (UInt16.ofNat (table.keyNum.toNat * 2)).toNat = table.keyNum.toNat * 2
      ∧ UInt16.ofNat (table.keyNum.toNat * 2) ≠ 0 ∧ ∃ k ≤ 15, table.keyNum.toNat * 2 = 2 ^ k := by
  have hpos := h.size_pos
  obtain ⟨k, hk, hnum⟩ := h.slots
  have hk15 : k ≠ 15 := by
    rintro rfl
    rw [hnum] at hlt
    exact absurd hlt (by decide)
  obtain ⟨htoNat, hn⟩ := slots_of_lt (table.keyNum.toNat * 2) (by omega) (by omega)
  exact ⟨htoNat, hn, k + 1, by omega, by rw [hnum, pow_succ]⟩

lemma Sized.add (h : table.Sized) (depth : ℕ) (key : Bytes) (value : ν) (valueLen : ℕ)
    (hdoubles : table.Doubles) :
    ∃ table', table.add (depth + 1) key value valueLen = .ok (table', 0) ∧ table'.Sized := by
  have hpos := h.size_pos
  have hload := h.load
  have hcounted := h.counted
  rw [HashTable.add, addWith, if_neg h.pos]
  by_cases hfull : table.keyRatio ≤ table.keyCount / table.keyNum.toNat
  · rw [if_pos hfull]
    by_cases hempty : table.getElements = []
    · obtain ⟨table', hinsert, hsized⟩ := h.insert ⟨key, value, valueLen⟩
        (by rw [hempty, List.length_nil]; omega)
      refine ⟨table', ?_, hsized⟩
      rw [resizeAt, if_pos (List.isEmpty_iff.mpr hempty), ok_bind]
      dsimp only
      rw [hinsert]
      rfl
    · obtain ⟨htoNat, hn, hslots⟩ := h.double (hdoubles hempty hfull)
      obtain ⟨mid, hresize, hnum, hratio, hcount, hle⟩ := resizeAt_counts depth
        (table.keyNum.toNat * 2) h.ratio hn hempty (by rw [htoNat]; omega)
      have hmid : mid.Sized := by
        refine ⟨hratio, ?_, hcount.ge, ?_⟩
        · rwa [hnum, htoNat]
        · rw [hnum, htoNat]
          omega
      obtain ⟨table', hinsert, hsized⟩ := hmid.insert ⟨key, value, valueLen⟩
        (by rw [hnum, htoNat]; omega)
      refine ⟨table', ?_, hsized⟩
      rw [hresize, ok_bind]
      dsimp only
      rw [hinsert]
      rfl
  · rw [if_neg hfull]
    rw [h.ratio, Nat.le_div_iff_mul_le hpos] at hfull
    obtain ⟨table', hinsert, hsized⟩ := h.insert ⟨key, value, valueLen⟩ (by omega)
    refine ⟨table', ?_, hsized⟩
    rw [hinsert]
    rfl

lemma Sized.add_stops (h : table.Sized) (depth : ℕ) (key : Bytes) (value : ν) (valueLen : ℕ)
    (hdoubles : ¬ table.Doubles) :
    table.add (depth + 1) key value valueLen = .error .divisionByZero := by
  rw [Doubles] at hdoubles
  push Not at hdoubles
  obtain ⟨hsome, hfull, hbig⟩ := hdoubles
  have hzero : UInt16.ofNat (table.keyNum.toNat * 2) = 0 := by
    obtain ⟨k, hk, hnum⟩ := h.slots
    have hk15 : k = 15 := by
      by_contra hne
      have hle : 2 ^ k ≤ 2 ^ 14 := Nat.pow_le_pow_right two_pos (by omega)
      omega
    rw [hnum, hk15]
    decide
  rw [HashTable.add, addWith, if_neg h.pos, if_pos hfull, resizeAt_zero depth hzero hsome]
  rfl

lemma Sized.keyCount_ne_zero (h : table.Sized) {key : Bytes} (hkey : table.hasKey key = .ok 1) :
    table.keyCount ≠ 0 := by
  rw [HashTable.hasKey, doHash_eq h.pos, ok_bind] at hkey
  have hchain : table.storeHouse (slot key table.keyNum) ≠ [] := by
    intro hnil
    rw [hnil] at hkey
    exact absurd (Except.ok.inj hkey) (by simp [findIn])
  have hlength := length_le_getElements h.pos key
  have hcounted := h.counted
  have := List.length_pos_of_ne_nil hchain
  omega

lemma Sized.remove (h : table.Sized) (depth : ℕ) {key : Bytes} (hkey : table.hasKey key = .ok 1) :
    ∃ table' ret, table.remove (depth + 1) key = .ok (table', ret) ∧ table'.Sized := by
  have hcount := h.keyCount_ne_zero hkey
  have hcounted := h.counted
  rw [HashTable.remove, if_neg hcount]
  by_cases hsparse : table.keyRatio ≤ table.keyNum.toNat / table.keyCount
  · rw [if_pos hsparse]
    rw [h.ratio, Nat.le_div_iff_mul_le (Nat.pos_of_ne_zero hcount)] at hsparse
    by_cases hempty : table.getElements = []
    · rw [resizeAt, if_pos (List.isEmpty_iff.mpr hempty), ok_bind]
      exact h.removeElement key
    · obtain ⟨k, hk, hnum⟩ := h.slots
      have hk2 : 2 ≤ k := by
        by_contra hlt
        have hle : 2 ^ k ≤ 2 ^ 1 := Nat.pow_le_pow_right two_pos (by omega)
        omega
      have hhalf : table.keyNum.toNat / 2 = 2 ^ (k - 1) := by
        rw [hnum]
        rw [Nat.div_eq_of_eq_mul_left two_pos]
        rw [← pow_succ]
        congr 1
        omega
      have hlt := table.keyNum.toNat_lt
      obtain ⟨htoNat, hn⟩ := slots_of_lt (table.keyNum.toNat / 2) (by omega) (by omega)
      obtain ⟨mid, hresize, hmnum, hratio, hmcount, hle⟩ := resizeAt_counts depth
        (table.keyNum.toNat / 2) h.ratio hn hempty (by rw [htoNat]; omega)
      have hmid : mid.Sized := by
        refine ⟨hratio, ⟨k - 1, by omega, ?_⟩, hmcount.ge, ?_⟩
        · rw [hmnum, htoNat, hhalf]
        · rw [hmnum, htoNat]
          omega
      rw [hresize, ok_bind]
      exact hmid.removeElement key
  · rw [if_neg hsparse]
    exact h.removeElement key

end HashTable

section Lifetime

variable {ν : Type} {table : HashTable ν}

namespace HashTable

def step (depth : ℕ) (table : HashTable ν) (c : HashCall ν) : Option (HashTable ν) :=
  match table.call depth c with
  | .error _ => none
  | .ok (table, _) => some table

def RemovesPresent (table : HashTable ν) : HashCall ν → Prop
  | .remove key => table.hasKey key = .ok 1
  | _ => True

def GrowsInRange (table : HashTable ν) : HashCall ν → Prop
  | .add _ _ _ => table.Doubles
  | _ => True

lemma Sized.step (h : table.Sized) (depth : ℕ) {c : HashCall ν} (hpresent : table.RemovesPresent c)
    (hrange : table.GrowsInRange c) :
    ∃ table', table.step (depth + 1) c = some table' ∧ table'.Sized := by
  cases c with
  | add key value valueLen =>
    obtain ⟨table', hadd, hsized⟩ := h.add depth key value valueLen hrange
    exact ⟨table', by rw [HashTable.step, HashTable.call, hadd]; rfl, hsized⟩
  | remove key =>
    obtain ⟨table', ret, hremove, hsized⟩ := h.remove depth hpresent
    exact ⟨table', by rw [HashTable.step, HashTable.call, hremove]; rfl, hsized⟩
  | lookup key =>
    refine ⟨table, ?_, h⟩
    rw [HashTable.step, HashTable.call, HashTable.lookup, doHash_eq h.pos]
    rfl
  | hasKey key =>
    refine ⟨table, ?_, h⟩
    rw [HashTable.step, HashTable.call, HashTable.hasKey, doHash_eq h.pos]
    rfl

lemma Sized.step_stops (h : table.Sized) (depth : ℕ) {c : HashCall ν}
    (hrange : ¬ table.GrowsInRange c) : table.step (depth + 1) c = none := by
  cases c with
  | add key value valueLen =>
    rw [HashTable.step, HashTable.call, h.add_stops depth key value valueLen hrange]
    rfl
  | _ => exact absurd trivial hrange

theorem keyNum_positive_iff (depth : ℕ) (mode : HashTableMode) {calls : List (HashCall ν)}
    (h : MeetsAlong (step (depth + 1)) RemovesPresent (new mode) calls) :
    (∀ pre, pre <+: calls →
        ∃ table, run (step (depth + 1)) (new mode) pre = some table ∧ table.keyNum ≠ 0)
      ↔ MeetsAlong (step (depth + 1)) GrowsInRange (new mode) calls :=
  reaches_iff (fun _ h => Sized.pos h) (fun _ _ h => Sized.step h depth)
    (fun _ _ _ h _ hrange hstep => nomatch hstep.symm.trans (Sized.step_stops h depth hrange))
    (sized_new mode) h

variable {m : Bytes → Option ν}

lemma Holds.addChain_absent (h : Holds table m) {key : Bytes} (hkey : m key = none) :
    ∀ e ∈ (table.addChain key).head?, e.key ≠ key := by
  have habsent : ∀ e ∈ table.getElements, e.key ≠ key := by
    rintro e he rfl
    have := (h.getElements_content e.key e.value).mpr ⟨e, he, rfl, rfl⟩
    exact absurd (hkey.symm.trans this) nofun
  intro e he
  have hmem := List.mem_of_mem_head? he
  rw [addChain] at hmem
  split at hmem
  · exact habsent e (List.mem_reverse.mp (List.mem_of_mem_filter hmem))
  · refine habsent e (List.mem_flatMap.mpr ⟨_, List.mem_range.mpr (slot_lt key h.size), hmem⟩)

lemma Holds.add_new (h : Holds table m) (hsized : table.Sized) {depth : ℕ} {key : Bytes} {value : ν}
    {valueLen : ℕ} {table' : HashTable ν} (hkey : m key = none)
    (hstep : table.step (depth + 1) (.add key value valueLen) = some table') :
    Holds table' (Function.update m key (some value)) ∧ table'.Sized := by
  have hdoubles : table.Doubles := by
    by_contra hd
    exact absurd (hstep.symm.trans (hsized.step_stops depth hd)) nofun
  obtain ⟨t, hadd, hsized'⟩ := hsized.add depth key value valueLen hdoubles
  obtain ⟨u, hadd', hholds⟩ := add_holds h depth value valueLen
    (fun hfull => hdoubles (by
      rw [← List.length_pos_iff, h.getElements_length]
      apply Nat.pos_of_ne_zero
      intro h0
      rw [h0, Nat.zero_div, h.ratio] at hfull
      exact absurd hfull (by decide)) hfull)
    (h.addChain_absent hkey)
  rw [HashTable.step, HashTable.call, hadd] at hstep
  obtain rfl := Option.some.inj hstep
  rw [hadd] at hadd'
  cases hadd'
  exact ⟨hholds, hsized'⟩

lemma Holds.add_all {depth : ℕ} {value : ν} {valueLen : ℕ} {keys : List Bytes}
    {table' : HashTable ν} (h : Holds table m) (hsized : table.Sized) (hkeys : keys.Nodup)
    (hnew : ∀ key ∈ keys, m key = none)
    (hrun : run (step (depth + 1)) table (keys.map fun key => .add key value valueLen)
      = some table') :
    ∃ m', Holds table' m' ∧ table'.Sized
      ∧ ∀ key, (m' key).isSome ↔ (m key).isSome ∨ key ∈ keys := by
  induction keys generalizing table m with
  | nil =>
    cases hrun
    exact ⟨m, h, hsized, fun key => by simp⟩
  | cons key keys ih =>
    rw [List.nodup_cons] at hkeys
    rw [List.forall_mem_cons] at hnew
    obtain ⟨mid, hstep, hrest⟩ := run_cons.mp hrun
    obtain ⟨hmid, hmsized⟩ := h.add_new hsized hnew.1 hstep
    obtain ⟨m', hm', hsized', hmem⟩ := ih hmid hmsized hkeys.2 (by
      intro k hk
      rw [Function.update_of_ne (ne_of_mem_of_not_mem hk hkeys.1)]
      exact hnew.2 k hk) hrest
    refine ⟨m', hm', hsized', fun k => ?_⟩
    rw [hmem, List.mem_cons]
    by_cases hk : k = key
    · simp [hk]
    · simp [hk]

lemma keys_length_le {depth : ℕ} {mode : HashTableMode} {value : ν} {valueLen : ℕ}
    {keys : List Bytes} {table' : HashTable ν} (hkeys : keys.Nodup)
    (hrun : run (step (depth + 1)) (new mode) (keys.map fun key => .add key value valueLen)
      = some table') : keys.length ≤ 4 * 2 ^ 15 := by
  obtain ⟨m', hholds, hsized, hmem⟩ := (holds_new mode).add_all (sized_new mode) hkeys
    (fun _ _ => rfl) hrun
  have hcount : table'.keyCount = keys.length := by
    have hset : {key | (m' key).isSome} = (keys.toFinset : Set Bytes) := by
      ext key
      simp [hmem]
    rw [hholds.keyCount_eq, hset, Set.ncard_coe_finset, List.toFinset_card_of_nodup hkeys]
  obtain ⟨k, hk, hnum⟩ := hsized.slots
  have hpow : 2 ^ k ≤ 2 ^ 15 := Nat.pow_le_pow_right two_pos hk
  have hload := hholds.load
  omega

def numberKey (i : ℕ) : Bytes := [UInt8.ofNat i, UInt8.ofNat (i / 256), UInt8.ofNat (i / 65536)]

lemma nodup_numberKeys {n : ℕ} (hn : n ≤ 2 ^ 24) : ((List.range n).map numberKey).Nodup := by
  refine List.Nodup.map_on ?_ List.nodup_range
  intro i hi j hj h
  rw [List.mem_range] at hi hj
  simp only [numberKey, List.cons.injEq, ← UInt8.toNat_inj, UInt8.toNat_ofNat'] at h
  omega

def numberedAdds (n : ℕ) : List (HashCall ℕ) :=
  ((List.range n).map numberKey).map fun key => .add key 0 4

lemma removesPresent_adds (depth : ℕ) (keys : List Bytes) (value : ν) (valueLen : ℕ) :
    MeetsAlong (step depth) RemovesPresent table (keys.map fun key => .add key value valueLen) := by
  induction keys generalizing table with
  | nil => trivial
  | cons key keys ih => exact ⟨trivial, fun _ _ => ih⟩

lemma Holds.keyCount_add {table' : HashTable ν} {key : Bytes} {value : ν} (h : Holds table m)
    (h' : Holds table' (Function.update m key (some value))) : table'.keyCount ≤ table.keyCount + 1 := by
  have hset : {k | (Function.update m key (some value) k).isSome} = insert key {k | (m k).isSome} := by
    ext k
    by_cases hk : k = key
    · simp [hk]
    · simp [hk]
  rw [h'.keyCount_eq, hset, h.keyCount_eq]
  exact Set.ncard_insert_le _ _

lemma Holds.growsInRange_adds (h : Holds table m) (hsized : table.Sized) (depth : ℕ) {value : ν} {valueLen : ℕ}
    {keys : List Bytes} (hkeys : keys.Nodup) (hnew : ∀ key ∈ keys, m key = none)
    (hcount : table.keyCount + keys.length ≤ 4 * 2 ^ 15) :
    MeetsAlong (step (depth + 1)) GrowsInRange table (keys.map fun key => .add key value valueLen) := by
  induction keys generalizing table m with
  | nil => trivial
  | cons key keys ih =>
    rw [List.nodup_cons] at hkeys
    rw [List.forall_mem_cons] at hnew
    rw [List.length_cons] at hcount
    refine ⟨fun _ hfull => ?_, fun table' hstep => ?_⟩
    · rw [h.ratio, Nat.le_div_iff_mul_le hsized.size_pos] at hfull
      omega
    · obtain ⟨h', hsized'⟩ := h.add_new hsized hnew.1 hstep
      have hle := h.keyCount_add h'
      refine ih h' hsized' hkeys.2 (fun k hk => ?_) (by omega)
      rw [Function.update_of_ne (ne_of_mem_of_not_mem hk hkeys.1)]
      exact hnew.2 k hk

lemma removesPresent_numberedAdds {depth n : ℕ} :
    MeetsAlong (step depth) RemovesPresent (new .modeCopy) (numberedAdds n) :=
  removesPresent_adds depth _ 0 4

lemma growsInRange_numberedAdds {depth n : ℕ} (hn : n ≤ 4 * 2 ^ 15) :
    MeetsAlong (step (depth + 1)) GrowsInRange (new .modeCopy) (numberedAdds n) := by
  refine (holds_new .modeCopy).growsInRange_adds (sized_new .modeCopy) depth (nodup_numberKeys (by omega))
    (fun _ _ => rfl) ?_
  rw [List.length_map, List.length_range]
  exact (Nat.zero_add n).trans_le hn

-- The last of 513 adds finds four keys in each of 128 slots.
theorem keyNum_positive_iff_grown :
    ∃ table, run (step 1) (new .modeCopy) (numberedAdds 513) = some table ∧ table.keyNum ≠ 0 := by
  generalize hn : 513 = n
  have hpositive := (keyNum_positive_iff 0 .modeCopy (removesPresent_numberedAdds (n := n))).mpr
  exact hpositive (growsInRange_numberedAdds (by omega)) _ List.prefix_rfl

lemma keyNum_wraps_of {n : ℕ} (hn : 4 * 2 ^ 15 < n) (hmax : n ≤ 2 ^ 24) :
    MeetsAlong (step 1) RemovesPresent (new .modeCopy) (numberedAdds n)
      ∧ ¬ ∀ pre, pre <+: numberedAdds n →
        ∃ table, run (step 1) (new .modeCopy) pre = some table ∧ table.keyNum ≠ 0 := by
  refine ⟨removesPresent_numberedAdds, fun h => ?_⟩
  obtain ⟨table, hrun, -⟩ := h (numberedAdds n) List.prefix_rfl
  have hle := keys_length_le (nodup_numberKeys hmax) hrun
  rw [List.length_map, List.length_range] at hle
  omega

-- The last of these adds finds four keys in each of 32768 slots.
theorem keyNum_wraps :
    MeetsAlong (step 1) RemovesPresent (new .modeCopy) (numberedAdds 131073)
      ∧ ¬ ∀ pre, pre <+: numberedAdds 131073 →
        ∃ table, run (step 1) (new .modeCopy) pre = some table ∧ table.keyNum ≠ 0 :=
  keyNum_wraps_of (by decide) (by decide)

end HashTable

end Lifetime

end SimpleCode.Algorithm
