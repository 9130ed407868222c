import SimpleCode.Algorithm.MergeSortFiles

set_option autoImplicit false

/-! The stable merge sort: the records are numbered as they are read, and the merge sort compares
the numbers last. No file has as many records as the numbers have values. -/

namespace SimpleCode.Algorithm.StableMergeSort

open Foundations Foundations.Comp
open FileSort (Role Callbacks)

structure NumberedRecord (ρ : Type) where
  number : ℕ
  record : ρ
deriving DecidableEq

-- What the files hold. The temporary files have a number before each record.
inductive Item (ρ : Type)
  | number (n : ℕ)
  | record (r : ρ)
deriving DecidableEq

section Model

variable {ρ : Type}

def read : List (Item ρ) → Option ρ × List (Item ρ)
  | .record r :: file => (some r, file)
  | file => (none, file)

def freadNumber : List (Item ρ) → Option ℕ × List (Item ρ)
  | .number n :: file => (some n, file)
  | file => (none, file)

def readRecord (role : Role) (f : List (Item ρ)) (recordNumber : ℕ) :
    Option (NumberedRecord ρ) × List (Item ρ) × ℕ :=
  match role with
  | .unsorted =>
    let (r, f) := read f
    (r.map fun r => ⟨recordNumber, r⟩, f, recordNumber + 1)
  | _ =>
    let (number, f) := freadNumber f
    let (r, f) := read f
    (r.map fun r => ⟨number.getD 0, r⟩, f, recordNumber)

def writeRecord (role : Role) (f : List (Item ρ)) (buf : NumberedRecord ρ) : List (Item ρ) :=
  match role with
  | .sorted => f ++ [.record buf.record]
  | _ => f ++ [.number buf.number] ++ [.record buf.record]

def compareRecords (compare : ρ → ρ → ℤ) (p q : NumberedRecord ρ) : ℤ :=
  let n := compare p.record q.record
  if n = 0 then if p.number < q.number then -1 else 1 else n

def callbacks : Callbacks (List (Item ρ)) ℕ (NumberedRecord ρ) := ⟨[], readRecord, writeRecord⟩

def stableMergeSort (compare : ρ → ρ → ℤ) (blockSize : ℕ) (unsorted : List (Item ρ)) :
    Comp Empty (List (Item ρ) × ℕ) :=
  FileSort.mergeSort callbacks (compareRecords compare) blockSize unsorted 0

end Model

section Numbers

variable {ρ : Type}

def numbered : ℕ → List ρ → List (NumberedRecord ρ)
  | _, [] => []
  | n, r :: rs => ⟨n, r⟩ :: numbered (n + 1) rs

lemma delivers_numbered (n : ℕ) (rs : List ρ) :
    callbacks.Delivers (rs.map .record) n (numbered n rs) := by
  induction rs generalizing n with
  | nil => exact ⟨[], n + 1, rfl⟩
  | cons r rs ih => exact ⟨rs.map .record, n + 1, rfl, ih (n + 1)⟩

lemma file_temporary (ps : List (NumberedRecord ρ)) :
    callbacks.file .temporary ps = ps.flatMap fun p => [.number p.number, .record p.record] := by
  have hfrom (f : List (Item ρ)) : ps.foldl (writeRecord .temporary) f
      = f ++ ps.flatMap fun p => [.number p.number, .record p.record] := by
    induction ps generalizing f with
    | nil => exact (List.append_nil f).symm
    | cons p ps ih =>
      rw [List.foldl_cons, ih, List.flatMap_cons, ← List.append_assoc]
      exact congrArg (· ++ _) (List.append_assoc f _ _)
  exact hfrom []

lemma file_sorted (ps : List (NumberedRecord ρ)) :
    callbacks.file .sorted ps = (ps.map NumberedRecord.record).map .record := by
  have hfrom (f : List (Item ρ)) : ps.foldl (writeRecord .sorted) f
      = f ++ (ps.map NumberedRecord.record).map .record := by
    induction ps generalizing f with
    | nil => exact (List.append_nil f).symm
    | cons p ps ih =>
      rw [List.foldl_cons, ih]
      exact List.append_assoc f _ _
  exact hfrom []

lemma readsBack_callbacks : (callbacks (ρ := ρ)).ReadsBack where
  next p ps n := by
    refine ⟨n, ?_⟩
    rw [file_temporary, file_temporary]
    rfl
  end_ n := ⟨n, rfl⟩

lemma map_record_numbered (n : ℕ) (rs : List ρ) :
    (numbered n rs).map NumberedRecord.record = rs := by
  induction rs generalizing n with
  | nil => rfl
  | cons r rs ih => exact congrArg (r :: ·) (ih (n + 1))

lemma le_of_mem_numbered {n : ℕ} {rs : List ρ} {p : NumberedRecord ρ} (hp : p ∈ numbered n rs) :
    n ≤ p.number := by
  induction rs generalizing n with
  | nil => exact absurd hp List.not_mem_nil
  | cons r rs ih =>
    rcases List.mem_cons.mp hp with rfl | hp
    · exact le_rfl
    · exact (Nat.le_succ n).trans (ih hp)

lemma pairwise_numbered (n : ℕ) (rs : List ρ) :
    (numbered n rs).Pairwise fun p q => p.number < q.number := by
  induction rs generalizing n with
  | nil => exact List.Pairwise.nil
  | cons r rs ih => exact List.Pairwise.cons (fun _ hq => le_of_mem_numbered hq) (ih (n + 1))

lemma numbers_distinct {n : ℕ} {rs : List ρ} {p q : NumberedRecord ρ} (hp : p ∈ numbered n rs)
    (hq : q ∈ numbered n rs) (h : p.number = q.number) : p = q := by
  have hnodup : ((numbered n rs).map NumberedRecord.number).Nodup :=
    List.pairwise_map.mpr ((pairwise_numbered n rs).imp Nat.ne_of_lt)
  exact List.inj_on_of_nodup_map hnodup hp hq h

end Numbers

section Stability

variable {ρ : Type}

def byNumber (c : Comparison ρ) : Comparison (NumberedRecord ρ) where
  compare p q := if c.compare p.record q.record = 0 then (p.number : ℤ) - q.number
    else c.compare p.record q.record
  flip p q := by
    have hflip := c.flip p.record q.record
    have hback := c.flip q.record p.record
    split_ifs <;> omega
  trans p q r := by
    have hpq := c.flip p.record q.record
    have hqp := c.flip q.record p.record
    have hqr := c.flip q.record r.record
    have hrq := c.flip r.record q.record
    have hpr := c.flip p.record r.record
    have hrp := c.flip r.record p.record
    have htrans := c.trans p.record q.record r.record
    have hleft := c.trans q.record r.record p.record
    have hright := c.trans r.record p.record q.record
    split_ifs <;> omega

variable {c : Comparison ρ}

lemma follows_byNumber : (byNumber c).Follows (compareRecords c.compare) where
  le p q := by
    unfold byNumber compareRecords
    dsimp only
    split_ifs <;> omega
  ge p q := by
    have hflip := c.flip p.record q.record
    have hback := c.flip q.record p.record
    unfold byNumber compareRecords
    dsimp only
    split_ifs <;> omega

lemma le_of_byNumber {p q : NumberedRecord ρ} (h : (byNumber c).compare p q ≤ 0) :
    c.compare p.record q.record ≤ 0 := by
  unfold byNumber at h
  dsimp only at h
  split_ifs at h <;> omega

lemma number_le_of_byNumber {p q : NumberedRecord ρ} {a : ρ} (hp : c.compare a p.record = 0)
    (hq : c.compare a q.record = 0) (h : (byNumber c).compare p q ≤ 0) : p.number ≤ q.number := by
  have hpq : c.compare p.record q.record = 0 := c.keys.trans (c.keys.symm hp) hq
  unfold byNumber at h
  dsimp only at h
  rw [if_pos hpq] at h
  omega

lemma filter_of_sorted {n : ℕ} {rs : List ρ} {ps : List (NumberedRecord ρ)}
    (hperm : ps.Perm (numbered n rs)) (hsorted : (byNumber c).Sorted ps) (a : ρ) :
    (ps.map NumberedRecord.record).filter (c.compare a · = 0)
      = rs.filter (c.compare a · = 0) := by
  let equal : NumberedRecord ρ → Bool := fun p => decide (c.compare a p.record = 0)
  have hnumbers : (ps.filter equal).Pairwise fun p q => p.number ≤ q.number := by
    refine List.pairwise_filter.mpr (hsorted.imp fun h hp hq => ?_)
    exact number_le_of_byNumber (of_decide_eq_true hp) (of_decide_eq_true hq) h
  have hinput : ((numbered n rs).filter equal).Pairwise fun p q => p.number ≤ q.number :=
    ((pairwise_numbered n rs).imp Nat.le_of_lt).filter _
  have hfilter : ps.filter equal = (numbered n rs).filter equal := by
    refine List.Perm.eq_of_pairwise (fun p q hp hq hpq hqp => ?_) hnumbers hinput (hperm.filter _)
    have hp := hperm.mem_iff.mp (List.mem_of_mem_filter hp)
    exact numbers_distinct hp (List.mem_of_mem_filter hq) (le_antisymm hpq hqp)
  rw [List.filter_map, ← map_record_numbered n rs, List.filter_map]
  exact congrArg _ hfilter

end Stability

section Correctness

theorem stableMergeSort_stable {ρ : Type} (c : Comparison ρ) (blockSize : ℕ) (unsorted : List ρ) :
    ∃ sorted, (stableMergeSort c.compare blockSize (unsorted.map .record)).Returns
        (sorted.map .record, unsorted.length)
      ∧ sorted.Perm unsorted ∧ c.Sorted sorted
      ∧ ∀ a, sorted.filter (c.compare a · = 0) = unsorted.filter (c.compare a · = 0) := by
  obtain ⟨ps, hret, hperm, hsorted⟩ :=
    MergeSort.mergeSort_returns (follows_byNumber (c := c)) blockSize (numbered 0 unsorted)
  have hmap := map_record_numbered 0 unsorted
  have hlength := congrArg List.length hmap
  rw [List.length_map] at hlength
  refine ⟨ps.map NumberedRecord.record, ?_, ?_, ?_, filter_of_sorted hperm hsorted⟩
  · rw [← file_sorted, ← hlength]
    exact FileSort.mergeSort_simulates readsBack_callbacks follows_byNumber (delivers_numbered 0 unsorted) hret
  · exact (hperm.map _).trans (.of_eq hmap)
  · exact List.pairwise_map.mpr (hsorted.imp le_of_byNumber)

def firstByte : Comparison (UInt8 × UInt8) where
  compare a b := (a.1.toNat : ℤ) - b.1.toNat
  flip a b := by omega
  trans a b c := by omega

theorem stableMergeSort_stable_five : ∃ sorted,
    (stableMergeSort firstByte.compare 2
        ([(5, 0), (3, 1), (5, 2), (3, 3), (4, 4)].map .record)).Returns (sorted.map .record, 5)
      ∧ sorted.Perm [(5, 0), (3, 1), (5, 2), (3, 3), (4, 4)] ∧ firstByte.Sorted sorted
      ∧ ∀ a, sorted.filter (firstByte.compare a · = 0)
        = [(5, 0), (3, 1), (5, 2), (3, 3), (4, 4)].filter (firstByte.compare a · = 0) :=
  stableMergeSort_stable firstByte 2 [(5, 0), (3, 1), (5, 2), (3, 3), (4, 4)]

end Correctness

end SimpleCode.Algorithm.StableMergeSort
