import SimpleCode.KeepingSettingModify.Loading
import SimpleCode.KeepingSettingModify.RecordDeletion

set_option autoImplicit false

namespace SimpleCode.KeepingSettingModify

open Foundations Foundations.Bytes

inductive Fault
  | outOfRange
  | erasedIterator
deriving DecidableEq, Repr

namespace MappingSettingModifyRecord

-- `dereplicationRound`, with the iterators of its deletion.
def roundByIterators (name : Bytes) (s : MappingSettingModifyRecord) :
    Comp ErasedIterator MappingSettingModifyRecord := do
  let tmpSize : ℤ := s.paramModifyRecordMap.size
  let timeStamp := s.paramStatisticsMapping.getStatisticsRecordTimeStamps name
  let (_, s) ← s.deleteByIterators name timeStamp
  let deleteSize := tmpSize - s.paramModifyRecordMap.size
  let s := { s with
    paramStatisticsMapping :=
      (s.paramStatisticsMapping.modifyStatisticsRecordCount name .minus deleteSize).2 }
  let timeStamp := (s.getModifyRecordEarliestTimeStamp name timeStamp).2
  return { s with
    paramStatisticsMapping :=
      (s.paramStatisticsMapping.modifyStatisticsRecordTimeStamps name timeStamp).2 }

def nameByIterators (s : MappingSettingModifyRecord) (name : Bytes) :
    Comp ErasedIterator MappingSettingModifyRecord :=
  Comp.loop
    (fun s => s.paramStatisticsMapping.getStatisticsRecordCount name > countOfParamInModifyFileMax)
    (roundByIterators name) s

def passByIterators (s : MappingSettingModifyRecord) :
    Comp ErasedIterator MappingSettingModifyRecord :=
  s.paramStatisticsMapping.paramStatisticsMap.entries.foldlM
    (fun s paramStatistic => s.nameByIterators paramStatistic.2.paramName) s

def loadByIterators (s : MappingSettingModifyRecord) (file : Bytes) :
    Comp Fault MappingSettingModifyRecord := do
  let s ← (Comp.ofExcept (s.loadRecords file)).mapError fun _ => .outOfRange
  s.passByIterators.mapError fun _ => .erasedIterator

variable {s : MappingSettingModifyRecord} {name : Bytes}

section Round

lemma roundByIterators_returns
    (h : ∀ record ∈ s.records name, dateTimeCompare record.modifyTimeStamp
      (s.paramStatisticsMapping.getStatisticsRecordTimeStamps name) ≠ 0) :
    (roundByIterators name s).Returns (dereplicationRound name s) :=
  Comp.returns_bind.mpr ⟨_, deleteByIterators_returns h, Comp.yields_pure.mpr rfl⟩

lemma roundByIterators_faults {record : ParametersItem} (hrecord : record ∈ s.records name)
    (he : dateTimeCompare record.modifyTimeStamp
      (s.paramStatisticsMapping.getStatisticsRecordTimeStamps name) = 0) :
    (roundByIterators name s).Yields (.error .erasedIterator) :=
  Comp.yields_bind_error (deleteByIterators_faults hrecord he) _

lemma roundByIterators_refines {t : MappingSettingModifyRecord}
    (h : (roundByIterators name s).Returns t) : t = dereplicationRound name s := by
  apply h.unique (roundByIterators_returns _)
  intro record hrecord he
  cases Comp.Yields.unique h (roundByIterators_faults hrecord he)

end Round

theorem nameByIterators_refines {t : MappingSettingModifyRecord}
    (h : (s.nameByIterators name).Returns t) : (s.dereplicationName name).Returns t := by
  have hround (u v w : MappingSettingModifyRecord) (huw : u = w) (hv : (roundByIterators name u).Returns v) :
      ∃ v', (pure (dereplicationRound name w) : Comp OutOfRange MappingSettingModifyRecord).Returns v'
        ∧ v = v' := by
    subst huw
    obtain rfl := roundByIterators_refines hv
    exact ⟨_, Comp.yields_pure.mpr rfl, rfl⟩
  obtain ⟨u, hu, rfl⟩ : ∃ u, (s.dereplicationName name).Returns u ∧ t = u :=
    Comp.loop_simulates (fun s t => s = t) (by rintro s t rfl; rfl)
      (fun u v w huw _ hv => hround u v w huw hv) rfl h
  exact hu

theorem passByIterators_refines {t : MappingSettingModifyRecord} (h : s.passByIterators.Returns t) :
    s.dereplicationModifyRecordParamMap.Returns t := by
  rw [passByIterators] at h
  rw [dereplicationModifyRecordParamMap]
  generalize s.paramStatisticsMapping.paramStatisticsMap.entries = entries at h ⊢
  induction entries generalizing s with
  | nil =>
    obtain rfl := Except.ok.inj (Comp.yields_pure.mp h)
    exact Comp.yields_pure.mpr rfl
  | cons entry entries ih =>
    rw [List.foldlM_cons] at h ⊢
    obtain ⟨u, hu, h⟩ := Comp.returns_bind.mp h
    exact Comp.returns_bind.mpr ⟨u, nameByIterators_refines hu, ih h⟩

section Names

variable {p : ParamStatistics}

lemma compare_eq_zero_iff (h : s.Agrees)
    (hp : s.paramStatisticsMapping.paramStatisticsMap.find? name = some p) {record : ParametersItem}
    (hrecord : record ∈ s.records name) :
    dateTimeCompare record.modifyTimeStamp
      (s.paramStatisticsMapping.getStatisticsRecordTimeStamps name) = 0
        ↔ stampRank record = rank p.earliestTimeStamp := by
  rw [MappingSettingStatistics.getStatisticsRecordTimeStamps, hp]
  exact dateTimeCompare_eq_zero (h.kept name record hrecord).2.2 (h.known name p hp).2.2

lemma nameByIterators_more {r : Except ErasedIterator MappingSettingModifyRecord}
    (h : s.paramStatisticsMapping.getStatisticsRecordCount name > countOfParamInModifyFileMax) :
    (s.nameByIterators name).Yields r ↔
      (roundByIterators name s >>= fun s => s.nameByIterators name).Yields r :=
  Comp.yields_loop_more (decide_eq_true h)

lemma nameByIterators_idle
    (h : ¬ s.paramStatisticsMapping.getStatisticsRecordCount name > countOfParamInModifyFileMax) :
    (s.nameByIterators name).Returns s :=
  Comp.loop_end (decide_eq_false h)

lemma round_attained (h : s.Agrees) (ha : Attained s name) :
    (roundByIterators name s).Yields (.error .erasedIterator) := by
  obtain ⟨p, hp, record, hrecord, he⟩ := ha
  exact roundByIterators_faults hrecord ((compare_eq_zero_iff h hp hrecord).mpr he)

lemma nameByIterators_faults (h : s.Agrees) (hn : AcceptedName name)
    (hlen : 10 < (s.records name).length) :
    (s.nameByIterators name).Yields (.error .erasedIterator) := by
  have hmore {t : MappingSettingModifyRecord} (ht : t.Agrees) (hl : 10 < (t.records name).length) :
      t.paramStatisticsMapping.getStatisticsRecordCount name > countOfParamInModifyFileMax := by
    by_contra hle
    have hcount := MappingSettingStatistics.getCount_le hn hle
    rw [ht.count] at hcount
    change ((t.records name).length : ℤ) ≤ 10 at hcount
    omega
  rw [nameByIterators_more (hmore h hlen)]
  by_cases ha : Attained s name
  · exact Comp.yields_bind_error (round_attained h ha) _
  obtain ⟨-, p, hp⟩ := records_ne_nil h (hmore h hlen)
  have hne : s.records name ≠ [] := by
    intro hnil
    simp [hnil] at hlen
  have hround : (roundByIterators name s).Returns (dereplicationRound name s) :=
    roundByIterators_returns fun record hrecord he =>
      ha ⟨p, hp, record, hrecord, (compare_eq_zero_iff h hp hrecord).mp he⟩
  obtain ⟨hattained, -⟩ | ⟨-, hrecords, hattained⟩ := round_progress h hp hne
  · exact absurd hattained ha
  have hagrees := round_agrees h hp hne
  rw [Comp.yields_bind_of_returns hround, nameByIterators_more (hmore hagrees (hrecords ▸ hlen))]
  exact Comp.yields_bind_error (round_attained hagrees hattained) _

lemma idle_of_short (h : s.Agrees) (hlen : (s.records name).length ≤ 10) :
    ¬ s.paramStatisticsMapping.getStatisticsRecordCount name > countOfParamInModifyFileMax := by
  intro hgt
  have hcount := MappingSettingStatistics.getCount_gt hgt
  rw [h.count] at hcount
  change ((s.records name).length : ℤ) > 10 at hcount
  omega

end Names

section Pass

lemma passByIterators_idle (h : ∀ name,
    ¬ s.paramStatisticsMapping.getStatisticsRecordCount name > countOfParamInModifyFileMax) :
    s.passByIterators.Returns s := by
  have hpass (entries : List (Bytes × ParamStatistics)) :
      (entries.foldlM (fun s e => nameByIterators s e.2.paramName) s).Returns s := by
    induction entries with
    | nil => exact Comp.yields_pure.mpr rfl
    | cons e entries ih =>
      rw [List.foldlM_cons]
      exact Comp.returns_bind.mpr ⟨s, nameByIterators_idle (h e.2.paramName), ih⟩
  exact hpass _

lemma names_fault (names : List Bytes) (hn : ∀ name ∈ names, AcceptedName name) (h : s.Agrees)
    (hmem : name ∈ names) (hlen : 10 < (s.records name).length) :
    (names.foldlM nameByIterators s).Yields (.error .erasedIterator) := by
  induction names with
  | nil => exact absurd hmem List.not_mem_nil
  | cons l names ih =>
    obtain ⟨hl, hn⟩ := List.forall_mem_cons.mp hn
    rw [List.foldlM_cons]
    by_cases hlong : 10 < (s.records l).length
    · exact Comp.yields_bind_error (nameByIterators_faults h hl hlong) _
    · have hidle : (s.nameByIterators l).Returns s :=
        nameByIterators_idle (idle_of_short h (not_lt.mp hlong))
      rw [Comp.yields_bind_of_returns hidle]
      rcases List.mem_cons.mp hmem with rfl | hmem
      · exact absurd hlen hlong
      · exact ih hn hmem

lemma passByIterators_faults (h : s.Agrees) (hlen : 10 < (s.records name).length) :
    s.passByIterators.Yields (.error .erasedIterator) := by
  obtain ⟨p, hp⟩ : ∃ p, s.paramStatisticsMapping.paramStatisticsMap.find? name = some p := by
    have hcount := h.count name
    change _ = ((s.records name).length : ℤ) at hcount
    rw [MappingSettingStatistics.recordCount] at hcount
    cases hf : s.paramStatisticsMapping.paramStatisticsMap.find? name with
    | none =>
      rw [hf] at hcount
      simp only [Option.map_none, Option.getD_none] at hcount
      omega
    | some p => exact ⟨p, rfl⟩
  have hknown : ∀ e ∈ s.paramStatisticsMapping.paramStatisticsMap.entries,
      e.2.paramName = e.1 ∧ AcceptedName e.1 := by
    intro e he
    have hk := h.known e.1 e.2 (OrderedMap.find?_eq_some.mpr he)
    exact ⟨hk.1, hk.2.1⟩
  rw [passByIterators, ← List.foldlM_map]
  refine names_fault _ (fun l hl => ?_) h (List.mem_map.mpr ⟨(name, p), ?_, (h.known name p hp).1⟩) hlen
  · obtain ⟨e, he, rfl⟩ := List.mem_map.mp hl
    exact (hknown e he).1 ▸ (hknown e he).2
  · exact OrderedMap.find?_eq_some.mp hp

/-- On a store that agrees with its statistics the pass either has nothing to delete or uses an iterator that
it has erased. -/
theorem passByIterators_returns_iff (h : s.Agrees) {t : MappingSettingModifyRecord} :
    s.passByIterators.Returns t ↔ t = s ∧ ∀ name, (s.records name).length ≤ 10 := by
  constructor
  · intro hret
    have hshort : ∀ name, (s.records name).length ≤ 10 := by
      intro name
      by_contra hlong
      cases Comp.Yields.unique hret (passByIterators_faults h (not_le.mp hlong))
    have hidle := passByIterators_idle fun name => idle_of_short h (hshort name)
    exact ⟨hret.unique hidle, hshort⟩
  · rintro ⟨rfl, hshort⟩
    exact passByIterators_idle fun name => idle_of_short h (hshort name)

end Pass

end MappingSettingModifyRecord

end SimpleCode.KeepingSettingModify
