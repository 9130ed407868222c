import SimpleCode.Foundations.OrderedMap

set_option autoImplicit false

/-! Iterators of `std::multimap`: an iterator is the place of its element among the elements that the
container had at first. Erasing an element invalidates its own iterator and no other. -/

namespace SimpleCode.Foundations

inductive ErasedIterator
  | erasedIterator
deriving DecidableEq

structure Nodes {α : Type} (xs : List α) where
  erased : List ℕ

namespace Nodes

variable {α : Type} {xs : List α}

def intact (xs : List α) : Nodes xs := ⟨[]⟩

def contents (c : Nodes xs) : List α :=
  (xs.zipIdx.filter fun e => e.2 ∉ c.erased).map Prod.fst

-- `*it`
def get (c : Nodes xs) (it : ℕ) : Except ErasedIterator α :=
  if it ∈ c.erased then .error .erasedIterator
  else match xs[it]? with
    | none => .error .erasedIterator
    | some x => .ok x

def erase (c : Nodes xs) (it : ℕ) : Except ErasedIterator (Nodes xs) := do
  let _ ← c.get it
  return ⟨it :: c.erased⟩

-- `it++`, where the place behind the last one stands for `end()`
def next (c : Nodes xs) (it : ℕ) : Except ErasedIterator ℕ := do
  let _ ← c.get it
  return ((List.range xs.length).find? fun n => it < n ∧ n ∉ c.erased).getD xs.length

@[simp] lemma contents_intact : (intact xs).contents = xs := by
  simp [contents, intact]

lemma contents_sublist (c : Nodes xs) : c.contents.Sublist xs := by
  have h := (List.filter_sublist (p := fun e : α × ℕ => e.2 ∉ c.erased) (l := xs.zipIdx)).map Prod.fst
  rwa [List.zipIdx_map_fst] at h

lemma get_intact {it : ℕ} (h : it < xs.length) : (intact xs).get it = .ok xs[it] := by
  simp [get, intact, h]

lemma erase_intact {it : ℕ} (h : it < xs.length) : (intact xs).erase it = .ok ⟨[it]⟩ := by
  rw [erase, get_intact h]
  rfl

lemma next_erased (c : Nodes xs) {it : ℕ} (h : it ∈ c.erased) :
    c.next it = .error .erasedIterator := by
  rw [next, get, if_pos h]
  rfl

lemma find_range_succ {it n : ℕ} (h : it < n) :
    ((List.range n).find? fun m => it < m).getD n = it + 1 := by
  induction n with
  | zero => exact absurd h (Nat.not_lt_zero it)
  | succ n ih =>
    rw [List.range_succ, List.find?_append]
    obtain hlt | rfl := Nat.lt_succ_iff_lt_or_eq.mp h
    · have hsome : ((List.range n).find? fun m => decide (it < m)).isSome ∨ it + 1 = n := by
        by_cases hn : it + 1 = n
        · exact .inr hn
        · left
          rw [List.find?_isSome]
          exact ⟨it + 1, List.mem_range.mpr (by omega), by simp⟩
      have hd := ih hlt
      cases hf : (List.range n).find? fun m => decide (it < m) with
      | some m =>
        rw [hf] at hd
        simpa using hd
      | none =>
        rw [hf] at hsome
        simp only [Option.isSome_none, Bool.false_eq_true, false_or] at hsome
        simp [hlt, hsome]
    · have hnone : ((List.range it).find? fun m => decide (it < m)) = none := by
        rw [List.find?_eq_none]
        intro m hm
        have := List.mem_range.mp hm
        simp
        omega
      simp [hnone]

lemma next_intact {it : ℕ} (h : it < xs.length) : (intact xs).next it = .ok (it + 1) := by
  rw [next, get_intact h]
  change Except.ok _ = Except.ok (it + 1)
  congr 1
  simpa [intact] using find_range_succ h

end Nodes

namespace OrderedMultimap

variable {κ ν : Type} [LinearOrder κ] (m : OrderedMultimap κ ν)

def lowerBound (k : κ) : ℕ := m.entries.findIdx fun e => k ≤ e.1

def upperBound (k : κ) : ℕ := m.entries.findIdx fun e => k < e.1

lemma upperBound_le (k : κ) : m.upperBound k ≤ m.entries.length := List.findIdx_le_length

lemma key_of_lt_upperBound {k : κ} {i : ℕ} (hi : i < m.entries.length)
    (hlo : m.lowerBound k ≤ i) (hup : i < m.upperBound k) : m.entries[i].1 = k := by
  have hle : m.entries[i].1 ≤ k := by
    have h := List.not_of_lt_findIdx hup
    simpa using h
  have hlow : m.lowerBound k < m.entries.length := hlo.trans_lt hi
  have hk : k ≤ m.entries[m.lowerBound k].1 := by
    have h := List.findIdx_getElem (w := hlow)
    exact of_decide_eq_true h
  obtain heq | hlt := hlo.eq_or_lt
  · subst heq
    exact hle.antisymm hk
  · exact hle.antisymm (hk.trans (List.pairwise_iff_getElem.mp m.sorted _ _ hlow hi hlt))

lemma lowerBound_le_upperBound (k : κ) : m.lowerBound k ≤ m.upperBound k := by
  apply List.findIdx_le_findIdx
  intro e _ h
  exact decide_eq_true (of_decide_eq_true h).le

lemma mem_values_of_lt_upperBound {k : κ} {i : ℕ} (hi : i < m.entries.length)
    (hlo : m.lowerBound k ≤ i) (hup : i < m.upperBound k) : m.entries[i].2 ∈ m.values k := by
  have he : m.entries[i] = (k, m.entries[i].2) := Prod.ext (m.key_of_lt_upperBound hi hlo hup) rfl
  exact mem_values.mpr (he ▸ List.getElem_mem hi)

lemma mem_equalRange {k : κ} {v : ν} : v ∈ m.values k ↔
    ∃ i, ∃ h : i < m.entries.length, m.lowerBound k ≤ i ∧ i < m.upperBound k ∧
      m.entries[i] = (k, v) := by
  rw [mem_values]
  constructor
  · intro hmem
    obtain ⟨i, hi, he⟩ := List.getElem_of_mem hmem
    refine ⟨i, hi, ?_, ?_, he⟩
    · apply not_lt.mp
      intro hlt
      have h := List.not_of_lt_findIdx hlt
      simp [he] at h
    · apply List.lt_findIdx_of_not hi
      intro j hj
      have hji : m.entries[j].1 ≤ m.entries[i].1 := by
        obtain rfl | hlt := hj.eq_or_lt
        · exact le_rfl
        · exact List.pairwise_iff_getElem.mp m.sorted _ _ _ hi hlt
      simpa [he] using hji
  · rintro ⟨i, hi, -, -, he⟩
    exact he ▸ List.getElem_mem hi

end OrderedMultimap

end SimpleCode.Foundations
