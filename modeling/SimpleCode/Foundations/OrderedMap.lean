import SimpleCode.Foundations.Bytes

set_option autoImplicit false

/-! `std::map` and `std::multimap` as lists of entries in key order. The multimap inserts behind
the entries of an equal key, so that each key keeps its values in the order of insertion. -/

namespace SimpleCode.Foundations

variable {κ ν : Type} [LinearOrder κ]

structure OrderedMap (κ ν : Type) [LinearOrder κ] where
  entries : List (κ × ν)
  sorted : entries.Pairwise fun a b => a.1 < b.1

namespace OrderedMap

def empty : OrderedMap κ ν := ⟨[], .nil⟩

def insertEntry (k : κ) (v : ν) : List (κ × ν) → List (κ × ν)
  | [] => [(k, v)]
  | e :: es =>
    if k < e.1 then (k, v) :: e :: es
    else if k = e.1 then (k, v) :: es
    else e :: insertEntry k v es

lemma mem_insertEntry {k : κ} {v : ν} {es : List (κ × ν)} {a : κ × ν}
    (h : a ∈ insertEntry k v es) : a = (k, v) ∨ a ∈ es := by
  induction es with
  | nil => simpa [insertEntry] using h
  | cons e es ih =>
    rw [insertEntry] at h
    split_ifs at h <;> simp only [List.mem_cons] at h ⊢ <;> tauto

lemma insertEntry_sorted (k : κ) (v : ν) {es : List (κ × ν)}
    (h : es.Pairwise fun a b => a.1 < b.1) :
    (insertEntry k v es).Pairwise fun a b => a.1 < b.1 := by
  induction es with
  | nil => simp [insertEntry]
  | cons e es ih =>
    have he := List.pairwise_cons.mp h
    rw [insertEntry]
    split_ifs with hlt heq
    · apply List.pairwise_cons.mpr ⟨?_, h⟩
      intro a ha
      obtain rfl | ha := List.mem_cons.mp ha
      · exact hlt
      · exact hlt.trans (he.1 a ha)
    · exact List.pairwise_cons.mpr ⟨fun a ha => heq ▸ he.1 a ha, he.2⟩
    · apply List.pairwise_cons.mpr ⟨?_, ih he.2⟩
      intro a ha
      obtain rfl | ha := mem_insertEntry ha
      · exact lt_of_le_of_ne (not_lt.mp hlt) (Ne.symm heq)
      · exact he.1 a ha

def insert (m : OrderedMap κ ν) (k : κ) (v : ν) : OrderedMap κ ν :=
  ⟨insertEntry k v m.entries, insertEntry_sorted k v m.sorted⟩

def find? (m : OrderedMap κ ν) (k : κ) : Option ν :=
  (m.entries.find? fun e => e.1 = k).map Prod.snd

@[simp] lemma find?_empty (k : κ) : (empty : OrderedMap κ ν).find? k = none := rfl

@[simp] lemma find?_insert_self (m : OrderedMap κ ν) (k : κ) (v : ν) :
    (m.insert k v).find? k = some v := by
  obtain ⟨es, h⟩ := m
  change ((insertEntry k v es).find? fun e => e.1 = k).map Prod.snd = some v
  clear h
  induction es with
  | nil => simp [insertEntry]
  | cons e es ih =>
    rw [insertEntry]
    split_ifs with hlt heq
    · simp
    · simp
    · rw [List.find?_cons_of_neg (by simpa using Ne.symm heq)]
      exact ih

lemma find?_insert_of_ne (m : OrderedMap κ ν) {k l : κ} (v : ν) (hne : l ≠ k) :
    (m.insert k v).find? l = m.find? l := by
  obtain ⟨es, h⟩ := m
  change ((insertEntry k v es).find? fun e => e.1 = l).map Prod.snd =
    (es.find? fun e => e.1 = l).map Prod.snd
  clear h
  induction es with
  | nil => simp [insertEntry, hne.symm]
  | cons e es ih =>
    rw [insertEntry]
    split_ifs with hlt heq
    · rw [List.find?_cons_of_neg (by simpa using hne.symm)]
    · rw [List.find?_cons_of_neg (by simpa using hne.symm),
        List.find?_cons_of_neg (by simpa [← heq] using hne.symm)]
    · by_cases hl : e.1 = l
      · rw [List.find?_cons_of_pos (by simpa using hl), List.find?_cons_of_pos (by simpa using hl)]
      · rw [List.find?_cons_of_neg (by simpa using hl), List.find?_cons_of_neg (by simpa using hl)]
        exact ih

lemma find?_insert (m : OrderedMap κ ν) (k l : κ) (v : ν) [Decidable (l = k)] :
    (m.insert k v).find? l = if l = k then some v else m.find? l := by
  split_ifs with h
  · rw [h, find?_insert_self]
  · exact find?_insert_of_ne m v h

lemma find?_eq_some {m : OrderedMap κ ν} {k : κ} {v : ν} :
    m.find? k = some v ↔ (k, v) ∈ m.entries := by
  obtain ⟨es, h⟩ := m
  change (es.find? fun e => e.1 = k).map Prod.snd = some v ↔ (k, v) ∈ es
  induction es with
  | nil => simp
  | cons e es ih =>
    have he := List.pairwise_cons.mp h
    by_cases hk : e.1 = k
    · have hn : (k, v) ∉ es := fun hm => absurd (he.1 _ hm) (by simp [hk])
      rw [List.find?_cons_of_pos (by simpa using hk)]
      simp only [Option.map_some, Option.some.injEq, List.mem_cons, hn, or_false, Prod.ext_iff, hk,
        true_and, eq_comm]
    · have hne : (k, v) ≠ e := fun h => hk (by rw [← h])
      rw [List.find?_cons_of_neg (by simpa using hk), ih he.2, List.mem_cons]
      simp [hne]

def erase (m : OrderedMap κ ν) (k : κ) : OrderedMap κ ν :=
  ⟨m.entries.filter fun e => e.1 ≠ k, m.sorted.filter _⟩

lemma find?_erase (m : OrderedMap κ ν) (k l : κ) [Decidable (l = k)] :
    (m.erase k).find? l = if l = k then none else m.find? l := by
  rw [find?, erase, find?, List.find?_filter]
  split_ifs with h
  · subst h
    simp
  · congr 2
    funext e
    by_cases he : e.1 = l
    · simp [he, h]
    · simp [he]

-- `std::map::insert`, which leaves an entry of the key as it is
def insertNew (m : OrderedMap κ ν) (k : κ) (v : ν) : OrderedMap κ ν :=
  if (m.find? k).isSome then m else m.insert k v

lemma isSome_find?_insertNew (m : OrderedMap κ ν) (k l : κ) (v : ν) [Decidable (l = k)] :
    ((m.insertNew k v).find? l).isSome = (decide (l = k) || (m.find? l).isSome) := by
  rw [insertNew]
  by_cases hl : l = k
  · subst hl
    split_ifs with h
    · simp [h]
    · simp
  · split_ifs with h
    · simp [hl]
    · rw [find?_insert_of_ne m v hl]
      simp [hl]

def keys (m : OrderedMap κ ν) : List κ := m.entries.map Prod.fst

lemma nodup_keys (m : OrderedMap κ ν) : m.keys.Nodup := by
  rw [keys, List.nodup_iff_pairwise_ne, List.pairwise_map]
  exact m.sorted.imp ne_of_lt

lemma mem_keys {m : OrderedMap κ ν} {k : κ} : k ∈ m.keys ↔ (m.find? k).isSome := by
  rw [Option.isSome_iff_exists, keys, List.mem_map]
  constructor
  · rintro ⟨e, he, rfl⟩
    exact ⟨e.2, find?_eq_some.mpr he⟩
  · rintro ⟨v, hv⟩
    exact ⟨(k, v), find?_eq_some.mp hv, rfl⟩

lemma filter_entries (m : OrderedMap κ ν) (k : κ) :
    m.entries.filter (fun e => e.1 = k) = (m.find? k).toList.map fun v => (k, v) := by
  obtain ⟨es, h⟩ := m
  change es.filter (fun e => e.1 = k)
    = ((es.find? fun e => e.1 = k).map Prod.snd).toList.map fun v => (k, v)
  induction es with
  | nil => rfl
  | cons e es ih =>
    have he := List.pairwise_cons.mp h
    by_cases hk : e.1 = k
    · have hrest : es.filter (fun e => e.1 = k) = [] := List.filter_eq_nil_iff.mpr fun a ha hak =>
        absurd (he.1 a ha) (by simp [hk, of_decide_eq_true hak])
      rw [List.filter_cons_of_pos (by simpa using hk), List.find?_cons_of_pos (by simpa using hk), hrest,
        ← hk]
      rfl
    · rw [List.filter_cons_of_neg (by simpa using hk), List.find?_cons_of_neg (by simpa using hk)]
      exact ih he.2

def pushBack (m : OrderedMap κ (List ν)) (k : κ) (v : ν) : OrderedMap κ (List ν) :=
  m.insert k ((m.find? k).getD [] ++ [v])

section Group

variable {α : Type}

def group (key : α → κ) (val : α → ν) (xs : List α) : OrderedMap κ (List ν) :=
  xs.foldl (fun m x => m.pushBack (key x) (val x)) empty

theorem find?_group (key : α → κ) (val : α → ν) (xs : List α) (k : κ) :
    (group key val xs).find? k
      = if xs.filter (fun x => key x = k) = [] then none
        else some ((xs.filter fun x => key x = k).map val) := by
  induction xs using List.reverseRecOn with
  | nil => rfl
  | append_singleton xs x ih =>
    rw [group, List.foldl_append, ← group, List.foldl_cons, List.foldl_nil, pushBack, find?_insert,
      List.filter_append]
    by_cases hk : k = key x
    · subst hk
      have hne : xs.filter (fun y => key y = key x) ++ [x] ≠ [] := by simp
      rw [if_pos rfl, ih, List.filter_cons_of_pos (by simp), List.filter_nil, if_neg hne,
        List.map_append]
      by_cases h : xs.filter (fun y => key y = key x) = []
      · rw [if_pos h, h]
        rfl
      · rw [if_neg h]
        rfl
    · rw [if_neg hk, ih, List.filter_cons_of_neg (by simpa using Ne.symm hk), List.filter_nil,
        List.append_nil]

end Group

end OrderedMap

structure OrderedMultimap (κ ν : Type) [LinearOrder κ] where
  entries : List (κ × ν)
  sorted : entries.Pairwise fun a b => a.1 ≤ b.1

namespace OrderedMultimap

@[ext] lemma ext {m n : OrderedMultimap κ ν} (h : m.entries = n.entries) : m = n := by
  cases m
  cases n
  simpa using h

def empty : OrderedMultimap κ ν := ⟨[], .nil⟩

def insertEntry (x : κ × ν) : List (κ × ν) → List (κ × ν)
  | [] => [x]
  | e :: es => if x.1 < e.1 then x :: e :: es else e :: insertEntry x es

lemma mem_insertEntry {x : κ × ν} {es : List (κ × ν)} {a : κ × ν} :
    a ∈ insertEntry x es ↔ a = x ∨ a ∈ es := by
  induction es with
  | nil => simp [insertEntry]
  | cons e es ih =>
    rw [insertEntry]
    split_ifs
    · simp
    · simp only [List.mem_cons, ih]
      tauto

lemma insertEntry_sorted (x : κ × ν) {es : List (κ × ν)}
    (h : es.Pairwise fun a b => a.1 ≤ b.1) :
    (insertEntry x es).Pairwise fun a b => a.1 ≤ b.1 := by
  induction es with
  | nil => simp [insertEntry]
  | cons e es ih =>
    have he := List.pairwise_cons.mp h
    rw [insertEntry]
    split_ifs with hlt
    · apply List.pairwise_cons.mpr ⟨?_, h⟩
      intro a ha
      obtain rfl | ha := List.mem_cons.mp ha
      · exact hlt.le
      · exact hlt.le.trans (he.1 a ha)
    · apply List.pairwise_cons.mpr ⟨?_, ih he.2⟩
      intro a ha
      obtain rfl | ha := mem_insertEntry.mp ha
      · exact not_lt.mp hlt
      · exact he.1 a ha

def insert (m : OrderedMultimap κ ν) (k : κ) (v : ν) : OrderedMultimap κ ν :=
  ⟨insertEntry (k, v) m.entries, insertEntry_sorted (k, v) m.sorted⟩

/-- The values from `lower_bound(k)` to `upper_bound(k)`. -/
def values (m : OrderedMultimap κ ν) (k : κ) : List ν :=
  (m.entries.filter fun e => e.1 = k).map Prod.snd

def eraseIf (m : OrderedMultimap κ ν) (p : κ × ν → Bool) : OrderedMultimap κ ν :=
  ⟨m.entries.filter fun e => !p e, m.sorted.filter _⟩

def size (m : OrderedMultimap κ ν) : ℕ := m.entries.length

@[simp] lemma values_empty (k : κ) : (empty : OrderedMultimap κ ν).values k = [] := rfl

@[simp] lemma values_insert_self (m : OrderedMultimap κ ν) (k : κ) (v : ν) :
    (m.insert k v).values k = m.values k ++ [v] := by
  obtain ⟨es, h⟩ := m
  change ((insertEntry (k, v) es).filter fun e => e.1 = k).map Prod.snd =
    (es.filter fun e => e.1 = k).map Prod.snd ++ [v]
  induction es with
  | nil => simp [insertEntry]
  | cons e es ih =>
    have he := List.pairwise_cons.mp h
    rw [insertEntry]
    split_ifs with hlt
    · -- every entry from here on has a larger key
      have hn : (e :: es).filter (fun e => e.1 = k) = [] := by
        apply List.filter_eq_nil_iff.mpr
        intro a ha
        have hka : k < a.1 := by
          obtain rfl | ha := List.mem_cons.mp ha
          · exact hlt
          · exact hlt.trans_le (he.1 a ha)
        simpa using hka.ne'
      rw [List.filter_cons_of_pos (by simp), hn]
      rfl
    · by_cases hk : e.1 = k
      · rw [List.filter_cons_of_pos (by simpa using hk), List.filter_cons_of_pos (by simpa using hk),
          List.map_cons, List.map_cons, ih he.2, List.cons_append]
      · rw [List.filter_cons_of_neg (by simpa using hk), List.filter_cons_of_neg (by simpa using hk),
          ih he.2]

lemma values_insert_of_ne (m : OrderedMultimap κ ν) {k l : κ} (v : ν) (hne : l ≠ k) :
    (m.insert k v).values l = m.values l := by
  obtain ⟨es, h⟩ := m
  change ((insertEntry (k, v) es).filter fun e => e.1 = l).map Prod.snd =
    (es.filter fun e => e.1 = l).map Prod.snd
  clear h
  induction es with
  | nil => simp [insertEntry, hne.symm]
  | cons e es ih =>
    rw [insertEntry]
    split_ifs with hlt
    · rw [List.filter_cons_of_neg (by simpa using hne.symm)]
    · by_cases hl : e.1 = l
      · rw [List.filter_cons_of_pos (by simpa using hl), List.filter_cons_of_pos (by simpa using hl),
          List.map_cons, List.map_cons, ih]
      · rw [List.filter_cons_of_neg (by simpa using hl), List.filter_cons_of_neg (by simpa using hl),
          ih]

lemma values_eraseIf (m : OrderedMultimap κ ν) (p : κ × ν → Bool) (k : κ) :
    (m.eraseIf p).values k = (m.values k).filter fun v => !p (k, v) := by
  change ((m.entries.filter fun e => !p e).filter fun e => e.1 = k).map Prod.snd =
    ((m.entries.filter fun e => e.1 = k).map Prod.snd).filter fun v => !p (k, v)
  rw [List.filter_map, List.filter_filter, List.filter_filter]
  congr 1
  apply List.filter_congr
  intro e _
  by_cases hk : e.1 = k
  · simp [← hk]
  · simp [hk]

lemma mem_values {m : OrderedMultimap κ ν} {k : κ} {v : ν} :
    v ∈ m.values k ↔ (k, v) ∈ m.entries := by
  simp only [values, List.mem_map, List.mem_filter, decide_eq_true_eq]
  constructor
  · rintro ⟨⟨k', v'⟩, ⟨hm, rfl⟩, rfl⟩
    exact hm
  · intro h
    exact ⟨(k, v), ⟨h, rfl⟩, rfl⟩

lemma head_le {e f : κ × ν} {es fs : List (κ × ν)} (h : (f :: fs).Pairwise fun a b => a.1 ≤ b.1)
    (hv : ((e :: es).filter fun a => a.1 = e.1).map Prod.snd =
      ((f :: fs).filter fun a => a.1 = e.1).map Prod.snd) : f.1 ≤ e.1 := by
  have hne : (f :: fs).filter (fun a => a.1 = e.1) ≠ [] := by
    intro he
    rw [he, List.filter_cons_of_pos (by simp)] at hv
    cases hv
  obtain ⟨a, ha⟩ := List.exists_mem_of_ne_nil _ hne
  obtain ⟨hmem, hkey⟩ := List.mem_filter.mp ha
  replace hkey : a.1 = e.1 := by simpa using hkey
  obtain rfl | hmem := List.mem_cons.mp hmem
  · exact hkey.le
  · exact hkey ▸ (List.pairwise_cons.mp h).1 a hmem

theorem ext_values {m n : OrderedMultimap κ ν} (h : ∀ k, m.values k = n.values k) : m = n := by
  obtain ⟨es, hs⟩ := m
  obtain ⟨fs, ht⟩ := n
  apply ext
  change es = fs
  replace h : ∀ k, (es.filter fun a => a.1 = k).map Prod.snd =
    (fs.filter fun a => a.1 = k).map Prod.snd := h
  induction es generalizing fs with
  | nil =>
    cases fs with
    | nil => rfl
    | cons f fs => simpa using h f.1
  | cons e es ih =>
    cases fs with
    | nil => simpa using h e.1
    | cons f fs =>
      have hkey : e.1 = f.1 := le_antisymm (head_le hs (h f.1).symm) (head_le ht (h e.1))
      have hhead := h e.1
      rw [List.filter_cons_of_pos (by simp), List.filter_cons_of_pos (by simp [hkey]),
        List.map_cons, List.map_cons, List.cons.injEq] at hhead
      obtain rfl : e = f := Prod.ext hkey hhead.1
      have htail : es = fs := by
        apply ih (List.pairwise_cons.mp hs).2 fs (List.pairwise_cons.mp ht).2
        intro k
        have hk := h k
        by_cases he : e.1 = k
        · rw [List.filter_cons_of_pos (by simpa using he),
            List.filter_cons_of_pos (by simpa using he), List.map_cons, List.map_cons,
            List.cons.injEq] at hk
          exact hk.2
        · rw [List.filter_cons_of_neg (by simpa using he),
            List.filter_cons_of_neg (by simpa using he)] at hk
          exact hk
      rw [htail]

lemma size_eraseIf (m : OrderedMultimap κ ν) (p : κ × ν → Bool) (k : κ)
    (hp : ∀ e, p e = true → e.1 = k) :
    m.size + ((m.eraseIf p).values k).length = (m.eraseIf p).size + (m.values k).length := by
  have hlen : ∀ es : List (κ × ν), es.length + (es.filter fun e => e.1 = k && !p e).length =
      (es.filter fun e => !p e).length + (es.filter fun e => e.1 = k).length := by
    intro es
    induction es with
    | nil => rfl
    | cons e es ih =>
      by_cases hpe : p e = true
      · have hk := hp e hpe
        simp [hpe, hk]
        omega
      · by_cases hk : e.1 = k <;> simp [hpe, hk] <;> omega
  have hm := hlen m.entries
  simp only [size, eraseIf, values, List.length_map, List.filter_filter]
  omega

def Alike (S : κ → ν → ν → Prop) (m n : OrderedMultimap κ ν) : Prop :=
  List.Forall₂ (fun a b => a.1 = b.1 ∧ S a.1 a.2 b.2) m.entries n.entries

variable {S : κ → ν → ν → Prop} {m n : OrderedMultimap κ ν}

lemma Alike.insert (h : Alike S m n) {k : κ} {v w : ν} (hvw : S k v w) :
    Alike S (m.insert k v) (n.insert k w) := by
  change List.Forall₂ _ (insertEntry (k, v) m.entries) (insertEntry (k, w) n.entries)
  unfold Alike at h
  generalize m.entries = es at h ⊢
  generalize n.entries = fs at h ⊢
  induction h with
  | nil => exact .cons ⟨rfl, hvw⟩ .nil
  | cons hab hrest ih =>
    rw [insertEntry, insertEntry, ← hab.1]
    split_ifs
    · exact .cons ⟨rfl, hvw⟩ (.cons hab hrest)
    · exact .cons hab ih

lemma Alike.eraseIf (h : Alike S m n) {p q : κ × ν → Bool}
    (hpq : ∀ k v w, S k v w → p (k, v) = q (k, w)) : Alike S (m.eraseIf p) (n.eraseIf q) := by
  apply List.rel_filter ?_ h
  rintro ⟨k, v⟩ ⟨l, w⟩ ⟨hkl, hvw⟩
  obtain rfl : k = l := hkl
  have hp := hpq k v w hvw
  simp only [hp]

lemma Alike.size (h : Alike S m n) : m.size = n.size := List.Forall₂.length_eq h

lemma Alike.values (h : Alike S m n) (k : κ) :
    List.Forall₂ (S k) (m.values k) (n.values k) := by
  unfold Alike at h
  unfold OrderedMultimap.values
  generalize m.entries = es at h ⊢
  generalize n.entries = fs at h ⊢
  induction h with
  | nil => exact .nil
  | @cons a b _ _ hab _ ih =>
    by_cases hk : a.1 = k
    · rw [List.filter_cons_of_pos (by simpa using hk),
        List.filter_cons_of_pos (by simpa using hab.1.symm.trans hk), List.map_cons, List.map_cons]
      exact .cons (hk ▸ hab.2) ih
    · rw [List.filter_cons_of_neg (by simpa using hk),
        List.filter_cons_of_neg (by simpa [← hab.1] using hk)]
      exact ih

end OrderedMultimap

end SimpleCode.Foundations
