import SimpleCode.Foundations.Iterators
import SimpleCode.KeepingSettingModify.ModifyRecord

set_option autoImplicit false

/-! `deleteModifyRecordByTimeStamp` with its iterators: the loop erases the element that its iterator
points to and increments that iterator afterwards. -/

namespace SimpleCode.KeepingSettingModify

open Foundations Foundations.Bytes

namespace MappingSettingModifyRecord

abbrev Record := Bytes × ParametersItem

def Equal (timeStamp : Bytes) (record : Record) : Bool :=
  dateTimeCompare record.2.modifyTimeStamp timeStamp = 0

def deleteRound {records : List Record} (timeStamp : Bytes) (state : Nodes records × ℕ) :
    Comp ErasedIterator (Nodes records × ℕ) := do
  let (m, first) := state
  let record ← Comp.ofExcept (m.get first)
  let m ← if Equal timeStamp record then Comp.ofExcept (m.erase first) else pure m
  let first ← Comp.ofExcept (m.next first)
  return (m, first)

def deleteLoop {records : List Record} (timeStamp : Bytes) (second : ℕ) :
    Nodes records × ℕ → Comp ErasedIterator (Nodes records × ℕ) :=
  Comp.loop (fun state => state.2 ≠ second) (deleteRound timeStamp)

def deleteByIterators (s : MappingSettingModifyRecord) (name timeStamp : Bytes) :
    Comp ErasedIterator (ℤ × MappingSettingModifyRecord) := do
  let m := s.paramModifyRecordMap
  if m.values name = [] then return (-1, s)
  let (left, _) ← deleteLoop timeStamp (m.upperBound name) (.intact m.entries, m.lowerBound name)
  return (0, { s with
    paramModifyRecordMap := ⟨left.contents, m.sorted.sublist left.contents_sublist⟩ })

/-- No iterator of an erased record is used, and exactly the records of the name with an equal stamp
are gone. -/
def DeletesExactly (s : MappingSettingModifyRecord) (name timeStamp : Bytes) : Prop :=
  ∃ r t, (s.deleteByIterators name timeStamp).Returns (r, t) ∧
    t.paramModifyRecordMap.entries = s.paramModifyRecordMap.entries.filter fun record =>
      ¬ (record.1 = name ∧ dateTimeCompare record.2.modifyTimeStamp timeStamp = 0)

section Loop

variable {records : List Record} {timeStamp : Bytes} {first second : ℕ}

lemma deleteRound_keeps (h : first < records.length) (hne : Equal timeStamp records[first] = false) :
    (deleteRound timeStamp (Nodes.intact records, first)).Returns (.intact records, first + 1) := by
  refine ⟨0, ?_⟩
  simp [deleteRound, Nodes.get_intact h, hne, Nodes.next_intact h, Comp.run_bind, Comp.bindRun,
    -bind_pure_comp]

lemma deleteRound_erases (h : first < records.length) (he : Equal timeStamp records[first] = true) :
    (deleteRound timeStamp (Nodes.intact records, first)).Yields (.error .erasedIterator) := by
  have hnext : (⟨[first]⟩ : Nodes records).next first = .error .erasedIterator :=
    Nodes.next_erased _ (List.mem_singleton.mpr rfl)
  refine ⟨0, ?_⟩
  simp [deleteRound, Nodes.get_intact h, he, Nodes.erase_intact h, hnext, Comp.run_bind,
    Comp.bindRun, -bind_pure_comp]

lemma deleteLoop_returns (hsecond : second ≤ records.length) (hle : first ≤ second)
    (hne : ∀ i, ∀ h : i < second, first ≤ i → Equal timeStamp records[i] = false) :
    (deleteLoop timeStamp second (Nodes.intact records, first)).Returns
      (.intact records, second) := by
  induction hk : second - first generalizing first with
  | zero =>
    obtain rfl : first = second := by omega
    exact Comp.loop_end (by simp)
  | succ k ih =>
    have hlt : first < second := by omega
    refine Comp.loop_step (by simpa using hlt.ne)
      (deleteRound_keeps (hlt.trans_le hsecond) (hne first hlt le_rfl)) ?_
    exact ih (by omega) (fun i hi hfi => hne i hi (by omega)) (by omega)

lemma deleteLoop_faults {i : ℕ} (hsecond : second ≤ records.length) (hi : i < second)
    (he : Equal timeStamp records[i] = true) (hfi : first ≤ i) :
    (deleteLoop timeStamp second (Nodes.intact records, first)).Yields
      (.error .erasedIterator) := by
  induction hk : i - first generalizing first with
  | zero =>
    obtain rfl : i = first := by omega
    refine (Comp.yields_loop_more (by simpa using hi.ne)).mpr ?_
    exact Comp.yields_bind_error (deleteRound_erases (hi.trans_le hsecond) he) _
  | succ k ih =>
    have hlt : first < second := by omega
    refine (Comp.yields_loop_more (by simpa using hlt.ne)).mpr ?_
    have hlen : first < records.length := hlt.trans_le hsecond
    by_cases hfirst : Equal timeStamp records[first] = true
    · exact Comp.yields_bind_error (deleteRound_erases hlen hfirst) _
    · apply (Comp.yields_bind_of_returns (deleteRound_keeps hlen (by simpa using hfirst))).mpr
      exact ih (by omega) (by omega)

end Loop

variable {s : MappingSettingModifyRecord} {name timeStamp : Bytes}

lemma deleteByIterators_returns
    (h : ∀ record ∈ s.paramModifyRecordMap.values name,
      dateTimeCompare record.modifyTimeStamp timeStamp ≠ 0) :
    (s.deleteByIterators name timeStamp).Returns
      (s.deleteModifyRecordByTimeStamp name timeStamp) := by
  rw [deleteByIterators, deleteModifyRecordByTimeStamp]
  by_cases hvalues : s.paramModifyRecordMap.values name = []
  · rw [if_pos hvalues, if_pos hvalues]
    exact Comp.yields_pure.mpr rfl
  · rw [if_neg hvalues, if_neg hvalues]
    have hloop : (deleteLoop timeStamp (s.paramModifyRecordMap.upperBound name)
        (.intact s.paramModifyRecordMap.entries, s.paramModifyRecordMap.lowerBound name)).Returns
          (.intact _, s.paramModifyRecordMap.upperBound name) := by
      apply deleteLoop_returns (s.paramModifyRecordMap.upperBound_le name)
        (s.paramModifyRecordMap.lowerBound_le_upperBound name)
      intro i hi hlo
      have hlen := hi.trans_le (s.paramModifyRecordMap.upperBound_le name)
      exact decide_eq_false (h _ (s.paramModifyRecordMap.mem_values_of_lt_upperBound hlen hlo hi))
    apply Comp.returns_bind.mpr
    refine ⟨_, hloop, Comp.yields_pure.mpr ?_⟩
    have hall : s.paramModifyRecordMap.entries.filter (fun record =>
        !(record.1 = name && dateTimeCompare record.2.modifyTimeStamp timeStamp = 0)) =
          s.paramModifyRecordMap.entries := by
      apply List.filter_eq_self.mpr
      intro record hrecord
      by_cases hname : record.1 = name
      · simpa [hname] using h record.2 (OrderedMultimap.mem_values.mpr (hname ▸ hrecord))
      · simp [hname]
    simp only [OrderedMultimap.eraseIf, hall, Nodes.contents_intact]

lemma deleteByIterators_faults {record : ParametersItem}
    (hrecord : record ∈ s.paramModifyRecordMap.values name)
    (he : dateTimeCompare record.modifyTimeStamp timeStamp = 0) :
    (s.deleteByIterators name timeStamp).Yields (.error .erasedIterator) := by
  have hvalues : s.paramModifyRecordMap.values name ≠ [] := List.ne_nil_of_mem hrecord
  obtain ⟨i, hi, hlo, hup, hat⟩ := s.paramModifyRecordMap.mem_equalRange.mp hrecord
  rw [deleteByIterators, if_neg hvalues]
  apply Comp.yields_bind.mpr
  refine .inr ⟨_, deleteLoop_faults (s.paramModifyRecordMap.upperBound_le name) hup ?_ hlo, rfl⟩
  simpa [hat, Equal] using he

theorem deleteByIterators_refines {r : ℤ × MappingSettingModifyRecord}
    (h : (s.deleteByIterators name timeStamp).Returns r) :
    r = s.deleteModifyRecordByTimeStamp name timeStamp := by
  apply h.unique (deleteByIterators_returns _)
  intro record hrecord he
  cases Comp.Yields.unique h (deleteByIterators_faults hrecord he)

lemma entries_delete (s : MappingSettingModifyRecord) (name timeStamp : Bytes) :
    (s.deleteModifyRecordByTimeStamp name timeStamp).2.paramModifyRecordMap.entries =
      s.paramModifyRecordMap.entries.filter fun record =>
        ¬ (record.1 = name ∧ dateTimeCompare record.2.modifyTimeStamp timeStamp = 0) := by
  unfold deleteModifyRecordByTimeStamp
  split_ifs with hvalues
  · apply Eq.symm
    apply List.filter_eq_self.mpr
    intro record hrecord
    have hname : record.1 ≠ name := by
      rintro rfl
      exact List.ne_nil_of_mem (OrderedMultimap.mem_values.mpr hrecord) hvalues
    simp [hname]
  · apply List.filter_congr
    intro record _
    simp

theorem deletesExactly_iff : s.DeletesExactly name timeStamp ↔
    ∀ record ∈ s.paramModifyRecordMap.values name,
      dateTimeCompare record.modifyTimeStamp timeStamp ≠ 0 := by
  constructor
  · rintro ⟨r, t, hreturns, -⟩ record hrecord he
    cases Comp.Yields.unique hreturns (deleteByIterators_faults hrecord he)
  · intro h
    exact ⟨_, (s.deleteModifyRecordByTimeStamp name timeStamp).2, deleteByIterators_returns h,
      entries_delete s name timeStamp⟩

def volRecord : ParametersItem where
  paramName := bytes "vol"
  modifyTimeStamp := bytes "2012-Jan-01 08:02:05.521"

def single : MappingSettingModifyRecord :=
  { init true with paramModifyRecordMap := OrderedMultimap.empty.insert (bytes "vol") volRecord }

theorem single_not_deletesExactly :
    ¬ single.DeletesExactly (bytes "vol") (bytes "2012-Jan-01 08:02:05.521") := by
  rintro ⟨r, t, hreturns, -⟩
  have hrecord : volRecord ∈ single.paramModifyRecordMap.values (bytes "vol") :=
    List.mem_singleton.mpr rfl
  cases Comp.Yields.unique hreturns (deleteByIterators_faults hrecord (by decide))

end MappingSettingModifyRecord

end SimpleCode.KeepingSettingModify
