import Mathlib.Algebra.BigOperators.Group.Finset.Basic
import Mathlib.Data.Set.Card
import SimpleCode.Algorithm.HashTable
import SimpleCode.Foundations.Runs

set_option autoImplicit false

namespace SimpleCode.Algorithm

open Foundations

lemma slot_lt (key : Bytes) {n : UInt16} (hn : n ≠ 0) : slot key n < n.toNat := by
  rw [slot, UInt16.toNat_mod]
  apply Nat.mod_lt
  apply Nat.pos_of_ne_zero
  intro h
  exact hn (UInt16.toNat_inj.mp h)

namespace HashTable

variable {ν : Type}

section Chain

variable {key : Bytes} {element temp : HashTableElement ν} {chain pre post : List (HashTableElement ν)}

lemma replaceNext_cons : replaceNext element (temp :: chain)
    = if temp.key = element.key then (element :: chain, false)
      else (temp :: (replaceNext element chain).1, (replaceNext element chain).2) := by
  rw [replaceNext]
  by_cases h : temp.key = element.key
  · rw [if_neg (by simp [h]), if_pos h]
  · split <;> rfl

lemma removeFrom_cons (before : List (HashTableElement ν)) : removeFrom key before (temp :: chain)
    = if temp.key = key then
        if before.length ≤ 1 then some chain else some (before ++ chain)
      else removeFrom key (before ++ [temp]) chain := by
  rw [removeFrom]
  by_cases h : temp.key = key
  · rw [if_neg (by simp [h])]
  · rw [if_neg h, ite_self]

lemma findIn_cons : findIn key (temp :: chain)
    = if temp.key = key then some temp.value else findIn key chain := by
  rw [findIn]
  by_cases h : temp.key = key
  · rw [if_neg (by simp [h])]
  · rw [if_neg h, ite_self]

lemma mem_middle {x : HashTableElement ν} :
    x ∈ pre ++ temp :: post ↔ x = temp ∨ x ∈ pre ++ post := by
  rw [List.mem_append, List.mem_cons, or_left_comm, List.mem_append]

lemma absent_or_split (key : Bytes) (chain : List (HashTableElement ν)) :
    (∀ e ∈ chain, e.key ≠ key)
      ∨ ∃ pre e post, chain = pre ++ e :: post ∧ e.key = key ∧ ∀ x ∈ pre, x.key ≠ key := by
  induction chain with
  | nil => exact .inl fun _ h => absurd h List.not_mem_nil
  | cons temp chain ih =>
    by_cases h : temp.key = key
    · exact .inr ⟨[], temp, chain, rfl, h, fun _ h => absurd h List.not_mem_nil⟩
    · rcases ih with ih | ⟨pre, e, post, rfl, he, hpre⟩
      · exact .inl (List.forall_mem_cons.mpr ⟨h, ih⟩)
      · exact .inr ⟨temp :: pre, e, post, rfl, he, List.forall_mem_cons.mpr ⟨h, hpre⟩⟩

lemma replaceNext_absent (h : ∀ e ∈ chain, e.key ≠ element.key) :
    replaceNext element chain = (chain ++ [element], true) := by
  induction chain with
  | nil => rfl
  | cons temp chain ih =>
    rw [List.forall_mem_cons] at h
    rw [replaceNext_cons, if_neg h.1, ih h.2]
    rfl

lemma replaceNext_found (hpre : ∀ e ∈ pre, e.key ≠ element.key) (h : temp.key = element.key) :
    replaceNext element (pre ++ temp :: post) = (pre ++ element :: post, false) := by
  induction pre with
  | nil =>
    rw [List.nil_append, replaceNext_cons, if_pos h]
    rfl
  | cons first pre ih =>
    rw [List.forall_mem_cons] at hpre
    rw [List.cons_append, replaceNext_cons, if_neg hpre.1, ih hpre.2]
    rfl

lemma removeFrom_absent (before : List (HashTableElement ν)) (h : ∀ e ∈ chain, e.key ≠ key) :
    removeFrom key before chain = none := by
  induction chain generalizing before with
  | nil => rfl
  | cons temp chain ih =>
    rw [List.forall_mem_cons] at h
    rw [removeFrom_cons, if_neg h.1, ih _ h.2]

lemma removeFrom_found (before : List (HashTableElement ν)) (hpre : ∀ e ∈ pre, e.key ≠ key)
    (h : temp.key = key) : removeFrom key before (pre ++ temp :: post)
      = some (if (before ++ pre).length ≤ 1 then post else before ++ pre ++ post) := by
  induction pre generalizing before with
  | nil =>
    rw [List.nil_append, removeFrom_cons, if_pos h, List.append_nil]
    split <;> rfl
  | cons first pre ih =>
    rw [List.forall_mem_cons] at hpre
    rw [List.cons_append, removeFrom_cons, if_neg hpre.1, ih _ hpre.2, List.append_assoc before,
      List.singleton_append]

lemma findIn_eq_some_iff {v : ν} (h : (chain.map HashTableElement.key).Nodup) :
    findIn key chain = some v ↔ ∃ e ∈ chain, e.key = key ∧ e.value = v := by
  induction chain with
  | nil => simp [findIn]
  | cons temp chain ih =>
    rw [List.map_cons, List.nodup_cons] at h
    simp only [findIn_cons, List.exists_mem_cons_iff]
    split
    · next hk =>
      rw [Option.some.injEq]
      refine ⟨fun hv => .inl ⟨hk, hv⟩, ?_⟩
      rintro (⟨-, hv⟩ | ⟨e, he, hek, -⟩)
      · exact hv
      · exact absurd (List.mem_map.mpr ⟨e, he, hek.trans hk.symm⟩) h.1
    · next hk =>
      rw [ih h.2]
      refine ⟨.inr, ?_⟩
      rintro (⟨hk', -⟩ | h)
      · exact absurd hk' hk
      · exact h

end Chain

structure Holds (table : HashTable ν) (m : Bytes → Option ν) : Prop where
  ratio : table.keyRatio = 4
  size : table.keyNum ≠ 0
  load : table.keyCount ≤ 4 * table.keyNum.toNat
  placed : ∀ i, ∀ e ∈ table.storeHouse i, slot e.key table.keyNum = i
  distinct : ∀ i, ((table.storeHouse i).map HashTableElement.key).Nodup
  count : table.keyCount = ∑ i ∈ Finset.range table.keyNum.toNat, (table.storeHouse i).length
  content : ∀ key v, m key = some v ↔
    ∃ e ∈ table.storeHouse (slot key table.keyNum), e.key = key ∧ e.value = v

variable {table : HashTable ν} {m : Bytes → Option ν} {key : Bytes}

lemma doHash_eq (h : table.keyNum ≠ 0) (key : Bytes) :
    doHash key table.keyNum = .ok (slot key table.keyNum) := if_neg h

lemma holds_new (mode : HashTableMode) : Holds (new mode : HashTable ν) fun _ => none where
  ratio := rfl
  size := by
    change (128 : UInt16) ≠ 0
    decide
  load := Nat.zero_le _
  placed _ _ h := absurd h List.not_mem_nil
  distinct _ := List.nodup_nil
  count := by simp [new]
  content _ _ := ⟨nofun, fun ⟨_, h, _⟩ => absurd h List.not_mem_nil⟩

lemma Holds.replace (h : Holds table m) {m' : Bytes → Option ν}
    {chain : List (HashTableElement ν)} {count : ℕ}
    (hplaced : ∀ e ∈ chain, slot e.key table.keyNum = slot key table.keyNum)
    (hdistinct : (chain.map HashTableElement.key).Nodup)
    (hcount : count + (table.storeHouse (slot key table.keyNum)).length
      = table.keyCount + chain.length)
    (hload : count ≤ 4 * table.keyNum.toNat)
    (hother : ∀ k, slot k table.keyNum ≠ slot key table.keyNum → m' k = m k)
    (hcontent : ∀ k v, slot k table.keyNum = slot key table.keyNum →
      (m' k = some v ↔ ∃ e ∈ chain, e.key = k ∧ e.value = v)) :
    Holds { table with
      storeHouse := Function.update table.storeHouse (slot key table.keyNum) chain
      keyCount := count } m' where
  ratio := h.ratio
  size := h.size
  load := hload
  placed i e he := by
    by_cases hi : i = slot key table.keyNum
    · subst hi
      simp only [Function.update_self] at he
      exact hplaced e he
    · simp only [Function.update_of_ne hi] at he
      exact h.placed i e he
  distinct i := by
    by_cases hi : i = slot key table.keyNum
    · subst hi
      simp only [Function.update_self]
      exact hdistinct
    · simp only [Function.update_of_ne hi]
      exact h.distinct i
  count := by
    have hmem : slot key table.keyNum ∈ Finset.range table.keyNum.toNat :=
      Finset.mem_range.mpr (slot_lt key h.size)
    have hold := h.count
    rw [← Finset.add_sum_erase _ _ hmem] at hold
    dsimp only
    rw [← Finset.add_sum_erase _ _ hmem, Function.update_self]
    have hrest : ∑ i ∈ (Finset.range table.keyNum.toNat).erase (slot key table.keyNum),
        (Function.update table.storeHouse (slot key table.keyNum) chain i).length
        = ∑ i ∈ (Finset.range table.keyNum.toNat).erase (slot key table.keyNum),
          (table.storeHouse i).length := by
      apply Finset.sum_congr rfl
      intro i hi
      rw [Function.update_of_ne (Finset.ne_of_mem_erase hi)]
    rw [hrest]
    omega
  content k v := by
    by_cases hk : slot k table.keyNum = slot key table.keyNum
    · simp only [hk, Function.update_self]
      exact hcontent k v hk
    · simp only [Function.update_of_ne hk]
      rw [hother k hk]
      exact h.content k v

def Describes (chain : List (HashTableElement ν)) (n : UInt16) (key : Bytes)
    (m : Bytes → Option ν) : Prop :=
  ∀ k v, slot k n = slot key n → (m k = some v ↔ ∃ e ∈ chain, e.key = k ∧ e.value = v)

lemma describes_put {chain pre post : List (HashTableElement ν)} {n : UInt16}
    {element : HashTableElement ν} (h : Describes chain n element.key m)
    (hmem : ∀ e, e.key ≠ element.key → (e ∈ chain ↔ e ∈ pre ++ post))
    (habsent : ∀ e ∈ pre ++ post, e.key ≠ element.key) :
    Describes (pre ++ element :: post) n element.key
      (Function.update m element.key (some element.value)) := by
  intro k v hk
  by_cases hkey : k = element.key
  · subst hkey
    rw [Function.update_self, Option.some.injEq]
    refine ⟨fun hv => ⟨element, by simp, rfl, hv⟩, ?_⟩
    rintro ⟨e, he, hek, hv⟩
    rcases List.mem_append.mp he with he | he
    · exact absurd hek (habsent e (List.mem_append_left post he))
    · rcases List.mem_cons.mp he with rfl | he
      · exact hv
      · exact absurd hek (habsent e (List.mem_append_right pre he))
  · rw [Function.update_of_ne hkey, h k v hk]
    constructor
    · rintro ⟨e, he, rfl, hv⟩
      exact ⟨e, mem_middle.mpr (.inr ((hmem e hkey).mp he)), rfl, hv⟩
    · rintro ⟨e, he, rfl, hv⟩
      refine ⟨e, (hmem e hkey).mpr ((mem_middle.mp he).resolve_left fun h => ?_), rfl, hv⟩
      exact hkey (congrArg HashTableElement.key h)

lemma Holds.absent (h : Holds table m) {pre post : List (HashTableElement ν)}
    {e : HashTableElement ν}
    (hchain : table.storeHouse (slot key table.keyNum) = pre ++ e :: post) (he : e.key = key) :
    ∀ x ∈ pre ++ post, x.key ≠ key := by
  have hnodup := h.distinct (slot key table.keyNum)
  rw [hchain, List.map_append, List.map_cons, List.nodup_middle, List.nodup_cons,
    ← List.map_append, he] at hnodup
  intro x hx hxk
  exact hnodup.1 (List.mem_map.mpr ⟨x, hx, hxk⟩)

lemma insertElement_holds (h : Holds table m) (element : HashTableElement ν)
    (hhead : ∀ e ∈ (table.storeHouse (slot element.key table.keyNum)).head?, e.key ≠ element.key)
    (hroom : table.keyCount < 4 * table.keyNum.toNat) :
    ∃ table', table.insertElement element = .ok table'
      ∧ Holds table' (Function.update m element.key (some element.value)) := by
  have hdescribes : Describes (table.storeHouse (slot element.key table.keyNum)) table.keyNum
      element.key m := by
    intro k v hk
    rw [h.content k v, hk]
  have hother : ∀ k, slot k table.keyNum ≠ slot element.key table.keyNum →
      Function.update m element.key (some element.value) k = m k := by
    intro k hk
    exact Function.update_of_ne (fun hkey => hk (congrArg (slot · table.keyNum) hkey)) _ _
  have hplaced := h.placed (slot element.key table.keyNum)
  have hdistinct := h.distinct (slot element.key table.keyNum)
  rcases absent_or_split element.key (table.storeHouse (slot element.key table.keyNum)) with
    habsent | ⟨pre, e, post, hchain, he, hpre⟩
  · have hadd : table.insertElement element = .ok { table with
        storeHouse := Function.update table.storeHouse (slot element.key table.keyNum)
          (table.storeHouse (slot element.key table.keyNum) ++ [element])
        keyCount := table.keyCount + 1 } := by
      rw [insertElement, doHash_eq h.size]
      cases hc : table.storeHouse (slot element.key table.keyNum) with
      | nil => simp only [ok_bind, hc]; rfl
      | cons head chain =>
        rw [hc, List.forall_mem_cons] at habsent
        simp only [ok_bind, hc, replaceNext_absent habsent.2]
        rfl
    refine ⟨_, hadd, h.replace ?_ ?_ ?_ hroom hother ?_⟩
    · intro x hx
      rcases List.mem_append.mp hx with hx | hx
      · exact hplaced x hx
      · rw [List.mem_singleton.mp hx]
    · rw [List.map_append, List.nodup_append]
      refine ⟨hdistinct, List.nodup_singleton _, ?_⟩
      intro a ha b hb
      obtain ⟨x, hx, rfl⟩ := List.mem_map.mp ha
      obtain ⟨y, hy, rfl⟩ := List.mem_map.mp hb
      rw [List.mem_singleton.mp hy]
      exact habsent x hx
    · simp only [List.length_append, List.length_singleton]
      omega
    · exact describes_put hdescribes (fun x _ => by rw [List.append_nil])
        (by rwa [List.append_nil])
  · have habsent := h.absent hchain he
    have hadd : table.insertElement element = .ok { table with
        storeHouse := Function.update table.storeHouse (slot element.key table.keyNum)
          (pre ++ element :: post)
        keyCount := table.keyCount } := by
      cases pre with
      | nil =>
        rw [hchain] at hhead
        exact absurd he (hhead e rfl)
      | cons head pre =>
        rw [List.forall_mem_cons] at hpre
        rw [insertElement, doHash_eq h.size]
        simp only [ok_bind, hchain, List.cons_append, replaceNext_found hpre.2 he]
        rfl
    refine ⟨_, hadd, h.replace ?_ ?_ ?_ h.load hother ?_⟩
    · intro x hx
      rcases mem_middle.mp hx with rfl | hx
      · rfl
      · refine hplaced x ?_
        rw [hchain]
        exact mem_middle.mpr (.inr hx)
    · rw [hchain, List.map_append, List.map_cons, he] at hdistinct
      rw [List.map_append, List.map_cons]
      exact hdistinct
    · rw [hchain]
      simp only [List.length_append, List.length_cons]
    · refine describes_put hdescribes (fun x hx => ?_) habsent
      rw [hchain]
      exact mem_middle.trans (or_iff_right fun h => hx (h ▸ he))

lemma removeElement_holds (h : Holds table m) (key : Bytes)
    (hsecond : ∀ e ∈ (table.storeHouse (slot key table.keyNum))[1]?, e.key ≠ key) :
    ∃ table', table.removeElement key = .ok (table', if (m key).isSome then 0 else -1)
      ∧ Holds table' (Function.update m key none) := by
  have hcontent : ∀ v, m key = some v ↔
      ∃ e ∈ table.storeHouse (slot key table.keyNum), e.key = key ∧ e.value = v := h.content key
  rcases absent_or_split key (table.storeHouse (slot key table.keyNum)) with
    habsent | ⟨pre, e, post, hchain, he, hpre⟩
  · have hnone : m key = none := by
      rw [Option.eq_none_iff_forall_ne_some]
      intro v hv
      obtain ⟨e, he, hek, -⟩ := (hcontent v).mp hv
      exact habsent e he hek
    refine ⟨table, ?_, ?_⟩
    · rw [removeElement, doHash_eq h.size, hnone]
      simp only [ok_bind, removeFrom_absent [] habsent]
      rfl
    · rw [← hnone, Function.update_eq_self]
      exact h
  · have hsome : m key = some e.value := by
      rw [hcontent]
      exact ⟨e, hchain ▸ mem_middle.mpr (.inl rfl), he, rfl⟩
    have habsent := h.absent hchain he
    have hcut : (if ([] ++ pre).length ≤ 1 then post else [] ++ pre ++ post) = pre ++ post := by
      match pre, hchain with
      | [], _ => rfl
      | [first], hchain =>
        rw [hchain] at hsecond
        exact absurd he (hsecond e rfl)
      | first :: second :: pre, _ => exact if_neg (by simp)
    refine ⟨{ table with
      storeHouse := Function.update table.storeHouse (slot key table.keyNum) (pre ++ post)
      keyCount := table.keyCount - 1 }, ?_, ?_⟩
    · rw [removeElement, doHash_eq h.size, hsome]
      simp only [ok_bind, hchain, removeFrom_found [] hpre he, hcut]
      rfl
    · have hsub : (pre ++ post).Sublist (table.storeHouse (slot key table.keyNum)) := by
        rw [hchain]
        exact (List.Sublist.refl pre).append (List.sublist_cons_self e post)
      have hpos : 0 < table.keyCount := by
        rw [h.count]
        apply Finset.sum_pos' fun _ _ => Nat.zero_le _
        refine ⟨slot key table.keyNum, Finset.mem_range.mpr (slot_lt key h.size), ?_⟩
        rw [hchain]
        simp
      refine h.replace (fun x hx => h.placed _ x (hsub.subset hx))
        ((h.distinct _).sublist (hsub.map _)) ?_ ((Nat.sub_le _ _).trans h.load) ?_ ?_
      · rw [hchain]
        simp only [List.length_append, List.length_cons]
        omega
      · intro k hk
        exact Function.update_of_ne (fun hkey => hk (congrArg (slot · table.keyNum) hkey)) _ _
      · intro k v hk
        by_cases hkey : k = key
        · subst hkey
          rw [Function.update_self]
          exact ⟨nofun, fun ⟨x, hx, hxk, _⟩ => absurd hxk (habsent x hx)⟩
        · rw [Function.update_of_ne hkey, h.content k v, hk, hchain]
          constructor
          · rintro ⟨x, hx, rfl, hv⟩
            exact ⟨x, (mem_middle.mp hx).resolve_left fun h => hkey (h ▸ he), rfl, hv⟩
          · rintro ⟨x, hx, hxk, hv⟩
            exact ⟨x, mem_middle.mpr (.inr hx), hxk, hv⟩

def loaded (table : HashTable ν) (mode : HashTableMode) (n : UInt16)
    (es : List (HashTableElement ν)) : HashTable ν :=
  { table with
    storeHouse := fun i => es.filter fun e => slot e.key n = i
    mode := mode
    keyCount := es.length
    keyNum := n }

lemma addWith_loaded {resize : HashTable ν → ℕ → Except Fault (HashTable ν × ℤ)}
    {mode : HashTableMode} {n : UInt16} (hratio : table.keyRatio = 4) (hn : n ≠ 0)
    {es : List (HashTableElement ν)} {element : HashTableElement ν}
    (hnew : ∀ e ∈ es, e.key ≠ element.key) (hroom : es.length < 4 * n.toNat) :
    addWith resize (loaded table mode n es) element
      = .ok (loaded table mode n (es ++ [element])) := by
  have hsmall : ¬ (loaded table mode n es).keyRatio
      ≤ (loaded table mode n es).keyCount / (loaded table mode n es).keyNum.toNat := by
    change ¬ table.keyRatio ≤ es.length / n.toNat
    rw [hratio, not_le]
    exact Nat.div_lt_of_lt_mul (by omega)
  have hput : (loaded table mode n es).insertElement element = .ok { loaded table mode n es with
      storeHouse := Function.update (loaded table mode n es).storeHouse (slot element.key n)
        (es.filter (fun e => slot e.key n = slot element.key n) ++ [element])
      keyCount := es.length + 1 } := by
    have hstore : (loaded table mode n es).storeHouse (slot element.key n)
      = es.filter fun e => slot e.key n = slot element.key n := rfl
    have hold : ∀ e ∈ es.filter (fun e => slot e.key n = slot element.key n),
        e.key ≠ element.key := fun e he => hnew e (List.mem_of_mem_filter he)
    have hsize : (loaded table mode n es).keyNum ≠ 0 := hn
    have hkey : (loaded table mode n es).keyNum = n := rfl
    rw [insertElement, doHash_eq hsize, ok_bind, hkey]
    dsimp only
    cases hc : es.filter fun e => slot e.key n = slot element.key n with
    | nil =>
      rw [hstore, hc]
      rfl
    | cons head chain =>
      rw [hc, List.forall_mem_cons] at hold
      simp only [hstore, hc, replaceNext_absent hold.2]
      rfl
  have hstore : Function.update (loaded table mode n es).storeHouse (slot element.key n)
      (es.filter (fun e => slot e.key n = slot element.key n) ++ [element])
      = (loaded table mode n (es ++ [element])).storeHouse := by
    funext i
    simp only [loaded, List.filter_append]
    by_cases hi : i = slot element.key n
    · subst hi
      rw [Function.update_self, List.filter_cons_of_pos (by simp)]
      rfl
    · rw [Function.update_of_ne hi, List.filter_cons_of_neg (by simpa using Ne.symm hi),
        List.filter_nil, List.append_nil]
  have hsize : (loaded table mode n es).keyNum ≠ 0 := hn
  rw [addWith, if_neg hsize, if_neg hsmall, hput, hstore]
  simp only [loaded, List.length_append, List.length_singleton]

lemma foldlM_loaded (resize : HashTable ν → ℕ → Except Fault (HashTable ν × ℤ))
    (mode : HashTableMode) {n : UInt16} (hratio : table.keyRatio = 4) (hn : n ≠ 0)
    (done es : List (HashTableElement ν))
    (hdistinct : ((done ++ es).map HashTableElement.key).Nodup)
    (hroom : (done ++ es).length ≤ 4 * n.toNat) :
    es.foldlM (addWith resize) (loaded table mode n done)
      = .ok (loaded table mode n (done ++ es)) := by
  induction es generalizing done with
  | nil =>
    rw [List.append_nil]
    rfl
  | cons element es ih =>
    have hnew : ∀ e ∈ done, e.key ≠ element.key := by
      rw [List.map_append, List.nodup_append] at hdistinct
      intro e he
      exact hdistinct.2.2 e.key (List.mem_map_of_mem he) element.key
        (List.mem_map_of_mem List.mem_cons_self)
    rw [List.append_cons] at hdistinct hroom ⊢
    rw [List.foldlM_cons, addWith_loaded hratio hn hnew, ok_bind]
    · exact ih _ hdistinct hroom
    · simp only [List.length_append, List.length_singleton] at hroom
      omega

lemma holds_loaded {mode : HashTableMode} {n : UInt16} (hratio : table.keyRatio = 4) (hn : n ≠ 0)
    {es : List (HashTableElement ν)} (hdistinct : (es.map HashTableElement.key).Nodup)
    (hload : es.length ≤ 4 * n.toNat)
    (hcontent : ∀ k v, m k = some v ↔ ∃ e ∈ es, e.key = k ∧ e.value = v) :
    Holds (loaded table mode n es) m where
  ratio := hratio
  size := hn
  load := hload
  placed i e he := by
    simp only [loaded, List.mem_filter, decide_eq_true_eq] at he
    exact he.2
  distinct i := hdistinct.sublist (List.filter_sublist.map _)
  count := by
    simp only [loaded]
    clear hdistinct hload hcontent
    induction es with
    | nil => simp
    | cons e es ih =>
      have hone : ∑ i ∈ Finset.range n.toNat, (if slot e.key n = i then 1 else 0) = 1 := by
        rw [Finset.sum_ite_eq, if_pos (Finset.mem_range.mpr (slot_lt e.key hn))]
      rw [List.length_cons, ih, ← hone, ← Finset.sum_add_distrib]
      apply Finset.sum_congr rfl
      intro i _
      rw [List.filter_cons]
      by_cases hi : slot e.key n = i
      · simp [hi]
      · simp [hi]
  content k v := by
    simp only [loaded, List.mem_filter, decide_eq_true_eq]
    rw [hcontent]
    constructor
    · rintro ⟨e, he, rfl, hv⟩
      exact ⟨e, ⟨he, rfl⟩, rfl, hv⟩
    · rintro ⟨e, ⟨he, -⟩, hk, hv⟩
      exact ⟨e, he, hk, hv⟩

lemma Holds.mem_getElements (h : Holds table m) {e : HashTableElement ν} :
    e ∈ table.getElements ↔ e ∈ table.storeHouse (slot e.key table.keyNum) := by
  rw [getElements, List.mem_flatMap]
  constructor
  · rintro ⟨i, -, he⟩
    rwa [h.placed i e he]
  · intro he
    exact ⟨_, List.mem_range.mpr (slot_lt e.key h.size), he⟩

lemma Holds.getElements_content (h : Holds table m) (k : Bytes) (v : ν) :
    m k = some v ↔ ∃ e ∈ table.getElements, e.key = k ∧ e.value = v := by
  rw [h.content]
  constructor
  · rintro ⟨e, he, rfl, hv⟩
    exact ⟨e, h.mem_getElements.mpr he, rfl, hv⟩
  · rintro ⟨e, he, rfl, hv⟩
    exact ⟨e, h.mem_getElements.mp he, rfl, hv⟩

lemma Holds.getElements_distinct (h : Holds table m) :
    (table.getElements.map HashTableElement.key).Nodup := by
  rw [getElements, List.map_flatMap, List.nodup_flatMap]
  refine ⟨fun i _ => h.distinct i, ?_⟩
  apply List.nodup_range.pairwise_of_forall_ne
  intro i _ j _ hij key hki hkj
  obtain ⟨e, he, rfl⟩ := List.mem_map.mp hki
  obtain ⟨f, hf, hfe⟩ := List.mem_map.mp hkj
  exact hij ((h.placed i e he).symm.trans ((congrArg (slot · table.keyNum) hfe).symm.trans
    (h.placed j f hf)))

lemma Holds.getElements_length (h : Holds table m) : table.getElements.length = table.keyCount := by
  rw [getElements, List.length_flatMap, h.count]
  rfl

lemma slots_of_lt (len : ℕ) (hpos : 1 ≤ len) (hlen : len ≤ 65535) :
    (UInt16.ofNat len).toNat = len ∧ UInt16.ofNat len ≠ 0 := by
  have htoNat : (UInt16.ofNat len).toNat = len := by
    rw [UInt16.toNat_ofNat']
    exact Nat.mod_eq_of_lt (by omega)
  refine ⟨htoNat, fun h0 => ?_⟩
  rw [h0] at htoNat
  exact absurd htoNat (Nat.ne_of_lt hpos)

theorem resizeAt_holds (h : Holds table m) (depth len : ℕ) (hpos : 0 < len)
    (hlen : len < 65536) (hroom : table.keyCount ≤ 4 * len) (hne : table.keyCount ≠ 0) :
    resizeAt (depth + 1) table len
        = .ok (loaded table table.mode (UInt16.ofNat len) table.getElements.reverse, 0)
      ∧ Holds (loaded table table.mode (UInt16.ofNat len) table.getElements.reverse) m
      ∧ (UInt16.ofNat len).toNat = len := by
  obtain ⟨htoNat, hn⟩ := slots_of_lt len hpos (by omega)
  have hdistinct : (table.getElements.reverse.map HashTableElement.key).Nodup := by
    rw [List.map_reverse, List.nodup_reverse]
    exact h.getElements_distinct
  have hload : table.getElements.reverse.length ≤ 4 * (UInt16.ofNat len).toNat := by
    rw [List.length_reverse, h.getElements_length, htoNat]
    exact hroom
  refine ⟨?_, ?_, htoNat⟩
  · have hsome : table.getElements.isEmpty = false := by
      rw [List.isEmpty_eq_false_iff, ← List.length_pos_iff, h.getElements_length]
      exact Nat.pos_of_ne_zero hne
    have hfold := foldlM_loaded (resizeAt depth) .modeAllRef h.ratio hn []
      table.getElements.reverse hdistinct hload
    rw [resizeAt, hsome, if_neg Bool.false_ne_true]
    change (table.getElements.reverse.foldlM (addWith (resizeAt depth))
      (loaded table .modeAllRef (UInt16.ofNat len) []) >>= _) = _
    rw [hfold]
    rfl
  · apply holds_loaded h.ratio hn hdistinct hload
    intro k v
    rw [h.getElements_content]
    simp only [List.mem_reverse]

def rehashed (table : HashTable ν) (len : ℕ) (key : Bytes) : List (HashTableElement ν) :=
  table.getElements.reverse.filter fun e =>
    slot e.key (UInt16.ofNat len) = slot key (UInt16.ofNat len)

def addChain (table : HashTable ν) (key : Bytes) : List (HashTableElement ν) :=
  if table.keyRatio ≤ table.keyCount / table.keyNum.toNat then
    table.rehashed (table.keyNum.toNat * 2) key
  else table.storeHouse (slot key table.keyNum)

def removeChain (table : HashTable ν) (key : Bytes) : List (HashTableElement ν) :=
  if table.keyRatio ≤ table.keyNum.toNat / table.keyCount then
    table.rehashed (table.keyNum.toNat / 2) key
  else table.storeHouse (slot key table.keyNum)

lemma Holds.size_pos (h : Holds table m) : 0 < table.keyNum.toNat :=
  (Nat.zero_le _).trans_lt (slot_lt [] h.size)

theorem add_holds (h : Holds table m) (depth : ℕ) (value : ν) (valueLen : ℕ)
    (hgrow : table.keyRatio ≤ table.keyCount / table.keyNum.toNat → table.keyNum.toNat * 2 < 65536)
    (hhead : ∀ e ∈ (table.addChain key).head?, e.key ≠ key) :
    ∃ table', table.add (depth + 1) key value valueLen = .ok (table', 0)
      ∧ Holds table' (Function.update m key (some value)) := by
  have hsize := h.size_pos
  have hload := h.load
  rw [add, addWith, if_neg h.size]
  by_cases hfull : table.keyRatio ≤ table.keyCount / table.keyNum.toNat
  · have hne : table.keyCount ≠ 0 := by
      intro h0
      rw [h0, Nat.zero_div, h.ratio] at hfull
      exact absurd hfull (by decide)
    obtain ⟨hresize, hloaded, htoNat⟩ := resizeAt_holds h depth (table.keyNum.toNat * 2)
      (Nat.mul_pos hsize Nat.two_pos) (hgrow hfull) (by omega) hne
    rw [if_pos hfull, hresize]
    rw [addChain, if_pos hfull] at hhead
    obtain ⟨table', hinsert, hholds⟩ := insertElement_holds hloaded ⟨key, value, valueLen⟩ hhead (by
      change table.getElements.reverse.length < 4 * (UInt16.ofNat _).toNat
      rw [List.length_reverse, h.getElements_length, htoNat]
      omega)
    refine ⟨table', ?_, hholds⟩
    rw [ok_bind]
    dsimp only
    rw [hinsert]
    rfl
  · rw [addChain, if_neg hfull] at hhead
    rw [h.ratio, Nat.le_div_iff_mul_le hsize] at hfull
    obtain ⟨table', hinsert, hholds⟩ := insertElement_holds h ⟨key, value, valueLen⟩ hhead
      (by omega)
    refine ⟨table', ?_, hholds⟩
    rw [if_neg (by rwa [h.ratio, Nat.le_div_iff_mul_le hsize]), hinsert]
    rfl

theorem remove_holds (h : Holds table m) (depth : ℕ) (hne : table.keyCount ≠ 0)
    (hsecond : ∀ e ∈ (table.removeChain key)[1]?, e.key ≠ key) :
    ∃ table', table.remove (depth + 1) key = .ok (table', if (m key).isSome then 0 else -1)
      ∧ Holds table' (Function.update m key none) := by
  rw [remove, if_neg hne]
  by_cases hsparse : table.keyRatio ≤ table.keyNum.toNat / table.keyCount
  · rw [removeChain, if_pos hsparse] at hsecond
    have hnum := table.keyNum.toNat_lt
    have hpos := Nat.pos_of_ne_zero hne
    have hroom : table.keyCount * 4 ≤ table.keyNum.toNat := by
      rw [h.ratio, Nat.le_div_iff_mul_le hpos] at hsparse
      omega
    obtain ⟨hresize, hloaded, -⟩ := resizeAt_holds h depth (table.keyNum.toNat / 2)
      (by omega) (by omega) (by omega) hne
    obtain ⟨table', hremove, hholds⟩ := removeElement_holds hloaded key hsecond
    refine ⟨table', ?_, hholds⟩
    rw [if_pos hsparse, hresize, ok_bind]
    exact hremove
  · rw [removeChain, if_neg hsparse] at hsecond
    obtain ⟨table', hremove, hholds⟩ := removeElement_holds h key hsecond
    refine ⟨table', ?_, hholds⟩
    rw [if_neg hsparse, hremove]

lemma lookup_holds (h : Holds table m) (key : Bytes) : table.lookup key = .ok (m key) := by
  rw [lookup, doHash_eq h.size, ok_bind]
  refine congrArg Except.ok (Option.ext fun v => ?_)
  rw [h.content, findIn_eq_some_iff (h.distinct _)]

lemma hasKey_holds (h : Holds table m) (key : Bytes) :
    table.hasKey key = .ok (if (m key).isSome then 1 else 0) := by
  have hlookup := lookup_holds h key
  rw [lookup, doHash_eq h.size, ok_bind] at hlookup
  rw [hasKey, doHash_eq h.size, ok_bind, Except.ok.inj hlookup]
  rfl

lemma Holds.keyCount_eq (h : Holds table m) :
    table.keyCount = {key | (m key).isSome}.ncard := by
  have hkeys : {key | (m key).isSome}
      = ((table.getElements.map HashTableElement.key).toFinset : Set Bytes) := by
    ext key
    rw [Set.mem_ofPred_eq, Option.isSome_iff_exists, Finset.mem_coe, List.mem_toFinset,
      List.mem_map]
    constructor
    · rintro ⟨v, hv⟩
      obtain ⟨e, he, hk, -⟩ := (h.getElements_content key v).mp hv
      exact ⟨e, he, hk⟩
    · rintro ⟨e, he, hk⟩
      exact ⟨e.value, (h.getElements_content key e.value).mpr ⟨e, he, hk, rfl⟩⟩
  rw [hkeys, Set.ncard_coe_finset, List.toFinset_card_of_nodup h.getElements_distinct,
    List.length_map, h.getElements_length]

end HashTable

section Session

variable {ν : Type}

inductive HashCall (ν : Type)
  | add (key : Bytes) (value : ν) (valueLen : ℕ)
  | remove (key : Bytes)
  | lookup (key : Bytes)
  | hasKey (key : Bytes)

inductive Answer (ν : Type)
  | code (ret : ℤ)
  | value (found : Option ν)
deriving DecidableEq

def HashTable.call (depth : ℕ) (table : HashTable ν) :
    HashCall ν → Except Fault (HashTable ν × Answer ν)
  | .add key value valueLen => do
    let (table, ret) ← table.add depth key value valueLen
    pure (table, .code ret)
  | .remove key => do
    let (table, ret) ← table.remove depth key
    pure (table, .code ret)
  | .lookup key => do pure (table, .value (← table.lookup key))
  | .hasKey key => do pure (table, .code (← table.hasKey key))

def mapCall (m : Bytes → Option ν) : HashCall ν → (Bytes → Option ν) × Answer ν
  | .add key value _ => (Function.update m key (some value), .code 0)
  | .remove key => (Function.update m key none, .code (if (m key).isSome then 0 else -1))
  | .lookup key => (m, .value (m key))
  | .hasKey key => (m, .code (if (m key).isSome then 1 else 0))

-- A table beside the finite map, with what both answered so far.
structure Session (ν : Type) where
  table : HashTable ν
  map : Bytes → Option ν
  answers : List (Answer ν)
  expected : List (Answer ν)

namespace Session

def new (mode : HashTableMode) : Session ν := ⟨.new mode, fun _ => none, [], []⟩

def step (depth : ℕ) (s : Session ν) (c : HashCall ν) : Option (Session ν) :=
  match s.table.call depth c with
  | .error _ => none
  | .ok (table, answer) =>
    some ⟨table, (mapCall s.map c).1, s.answers ++ [answer], s.expected ++ [(mapCall s.map c).2]⟩

-- The key to add is not at the head of the chain that the walk goes through, and the doubling
-- fits 16 bits; the key to remove is not the second of its chain, and the table is not empty.
def Clear (s : Session ν) : HashCall ν → Prop
  | .add key _ _ =>
    (s.table.keyRatio ≤ s.table.keyCount / s.table.keyNum.toNat →
      s.table.keyNum.toNat * 2 < 65536)
    ∧ ∀ e ∈ (s.table.addChain key).head?, e.key ≠ key
  | .remove key => s.table.keyCount ≠ 0 ∧ ∀ e ∈ (s.table.removeChain key)[1]?, e.key ≠ key
  | _ => True

structure Agrees (s : Session ν) : Prop where
  holds : s.table.Holds s.map
  answers : s.answers = s.expected

lemma agrees_step (depth : ℕ) {s : Session ν} {c : HashCall ν} (h : s.Agrees) (hc : s.Clear c) :
    ∃ s', s.step (depth + 1) c = some s' ∧ s'.Agrees := by
  have hcall : ∃ table, s.table.call (depth + 1) c = .ok (table, (mapCall s.map c).2)
      ∧ table.Holds (mapCall s.map c).1 := by
    cases c with
    | add key value valueLen =>
      obtain ⟨table, hadd, hholds⟩ := HashTable.add_holds h.holds depth value valueLen hc.1 hc.2
      exact ⟨table, by rw [HashTable.call, hadd]; rfl, hholds⟩
    | remove key =>
      obtain ⟨table, hremove, hholds⟩ := HashTable.remove_holds h.holds depth hc.1 hc.2
      exact ⟨table, by rw [HashTable.call, hremove]; rfl, hholds⟩
    | lookup key =>
      exact ⟨s.table, by rw [HashTable.call, HashTable.lookup_holds h.holds]; rfl, h.holds⟩
    | hasKey key =>
      exact ⟨s.table, by rw [HashTable.call, HashTable.hasKey_holds h.holds]; rfl, h.holds⟩
  obtain ⟨table, hcall, hholds⟩ := hcall
  refine ⟨_, by rw [step, hcall], hholds, ?_⟩
  rw [h.answers]

theorem run_refines_map (depth : ℕ) (mode : HashTableMode) {calls : List (HashCall ν)}
    (h : MeetsAlong (step (depth + 1)) Clear (new mode) calls) :
    ∃ s, run (step (depth + 1)) (new mode) calls = some s ∧ s.answers = s.expected
      ∧ s.table.keyCount = {key | (s.map key).isSome}.ncard := by
  obtain ⟨s, hrun, hs⟩ := run_of_meetsAlong (fun _ _ => agrees_step depth)
    ⟨HashTable.holds_new mode, rfl⟩ h
  exact ⟨s, hrun, hs.answers, hs.holds.keyCount_eq⟩

instance Clear.decidable (s : Session ν) : ∀ c, Decidable (s.Clear c)
  | .add _ _ _ => inferInstanceAs (Decidable (_ ∧ _))
  | .remove _ => inferInstanceAs (Decidable (_ ∧ _))
  | .lookup _ => inferInstanceAs (Decidable True)
  | .hasKey _ => inferInstanceAs (Decidable True)

-- The keys share a slot. The one behind the head is overwritten; the removal, which makes the table smaller,
-- finds it at the head.
def chainCalls : List (HashCall ℕ) :=
  [.add [1] 10 1, .add [2] 20 1, .add [2] 30 1, .lookup [2], .remove [2], .lookup [2], .hasKey [1]]

theorem run_refines_map_chain : ∃ s, run (step 1) (new .modeCopy) chainCalls = some s ∧ s.answers = s.expected
    ∧ s.table.keyCount = {key | (s.map key).isSome}.ncard :=
  run_refines_map 0 .modeCopy (by decide +kernel)

-- A key at the head of its chain is not overwritten, the key behind it takes it along when it is
-- removed, and a removal from the empty table divides by zero. Keys of one byte share a slot.
theorem run_departs_from_map :
    (run (step 1) (new .modeCopy) [.add [1] 10 1, .add [1] 20 1, .lookup [1]]).map
        (fun s => (s.answers, s.expected))
      = some ([.code 0, .code 0, .value (some 10)], [.code 0, .code 0, .value (some 20)])
    ∧ (run (step 1) (new .modeCopy) [.add [1] 10 1, .add [2] 20 1, .remove [1], .lookup [2]]).map
        (fun s => (s.answers, s.expected))
      = some ([.code 0, .code 0, .code 0, .value none],
          [.code 0, .code 0, .code 0, .value (some 20)])
    ∧ step 1 (new .modeCopy : Session ℕ) (.remove [1]) = none := by
  refine ⟨by decide +kernel, by decide +kernel, rfl⟩

end Session

end Session

end SimpleCode.Algorithm
