import SimpleCode.KeepingSettingModify.DateTimeOrder
import SimpleCode.KeepingSettingModify.ModifyRecord

set_option autoImplicit false

namespace SimpleCode.KeepingSettingModify

open Foundations Foundations.Bytes

def AcceptedName (name : Bytes) : Prop := name ≠ errorParamItem.paramName ∧ name ≠ []

def Accepted (item : ParametersItem) : Prop :=
  AcceptedName item.paramName ∧ item.modifyTimeStamp ≠ []

instance (name : Bytes) : Decidable (AcceptedName name) := by
  unfold AcceptedName
  infer_instance

instance (item : ParametersItem) : Decidable (Accepted item) := by
  unfold Accepted
  infer_instance

lemma not_accepted {item : ParametersItem} :
    ¬ Accepted item ↔ item.paramName = errorParamItem.paramName ∨ item.paramName = [] ∨
      item.modifyTimeStamp = [] := by
  simp only [Accepted, AcceptedName, ne_eq]
  tauto

namespace MappingSettingStatistics

variable (s : MappingSettingStatistics)

def recordCount (name : Bytes) : ℤ :=
  ((s.paramStatisticsMap.find? name).map ParamStatistics.recordCount).getD 0

variable {s} {name l : Bytes} {p : ParamStatistics}

lemma recordCount_of_find (h : s.paramStatisticsMap.find? name = some p) :
    s.recordCount name = p.recordCount := by
  simp [recordCount, h]

lemma find_modify_minus (hn : AcceptedName name) (hp : s.paramStatisticsMap.find? name = some p)
    (step : ℤ) :
    (s.modifyStatisticsRecordCount name .minus step).2.paramStatisticsMap.find? l =
      if l = name then some { p with recordCount := p.recordCount - step }
      else s.paramStatisticsMap.find? l := by
  simp only [modifyStatisticsRecordCount, hn.1, hn.2, or_self, if_false, hp]
  rw [OrderedMap.find?_insert]

lemma find_modify_add (hn : AcceptedName name) (hp : s.paramStatisticsMap.find? name = some p)
    (step : ℤ) :
    (s.modifyStatisticsRecordCount name .add step).2.paramStatisticsMap.find? l =
      if l = name then some { p with recordCount := p.recordCount + 1 }
      else s.paramStatisticsMap.find? l := by
  simp only [modifyStatisticsRecordCount, hn.1, hn.2, or_self, if_false, hp]
  rw [OrderedMap.find?_insert]

lemma find_modify_timeStamps (hn : AcceptedName name) {t : Bytes} (ht : t ≠ [])
    (hp : s.paramStatisticsMap.find? name = some p) :
    (s.modifyStatisticsRecordTimeStamps name t).2.paramStatisticsMap.find? l =
      if l = name then some { p with earliestTimeStamp := t }
      else s.paramStatisticsMap.find? l := by
  simp only [modifyStatisticsRecordTimeStamps, hn.1, hn.2, ht, or_self, if_false, hp]
  rw [OrderedMap.find?_insert]

def counted (found : Option ParamStatistics) (item : ParametersItem) : ParamStatistics :=
  match found with
  | none => ⟨item.paramName, item.modifyTimeStamp, 1⟩
  | some p =>
    if dateTimeCompare p.earliestTimeStamp item.modifyTimeStamp > 0 then
      ⟨item.paramName, item.modifyTimeStamp, p.recordCount + 1⟩
    else { p with recordCount := p.recordCount + 1 }

lemma find_update {item : ParametersItem} (h : Accepted item) :
    (s.updateStatisticsRecord item).2.paramStatisticsMap.find? l =
      if l = item.paramName then
        some (counted (s.paramStatisticsMap.find? item.paramName) item)
      else s.paramStatisticsMap.find? l := by
  obtain ⟨hn, ht⟩ := h
  simp only [updateStatisticsRecord, hn.1, hn.2, ht, or_self, if_false]
  cases hf : s.paramStatisticsMap.find? item.paramName with
  | none =>
    rw [find_modify_add hn (OrderedMap.find?_insert_self _ _ _)]
    simp only [counted, OrderedMap.find?_insert]
    split_ifs <;> rfl
  | some p =>
    by_cases hc : dateTimeCompare p.earliestTimeStamp item.modifyTimeStamp > 0
    · simp only [hc, if_true]
      rw [find_modify_add hn (OrderedMap.find?_insert_self _ _ _)]
      simp only [counted, hc, if_true, OrderedMap.find?_insert]
      split_ifs <;> rfl
    · simp only [hc, if_false]
      rw [find_modify_add hn hf]
      simp only [counted, hc, if_false]

lemma update_rejected {item : ParametersItem} (h : ¬ Accepted item) :
    s.updateStatisticsRecord item = (-1, s) := by
  simp only [updateStatisticsRecord, not_accepted.mp h, if_true]

lemma getCount_gt (h : s.getStatisticsRecordCount name > countOfParamInModifyFileMax) :
    s.recordCount name > 10 := by
  unfold getStatisticsRecordCount countOfParamInModifyFileMax at h
  split_ifs at h
  · omega
  · cases hf : s.paramStatisticsMap.find? name with
    | none => simp [hf] at h
    | some p => simpa [recordCount, hf] using h

lemma getCount_le (hn : AcceptedName name)
    (h : ¬ s.getStatisticsRecordCount name > countOfParamInModifyFileMax) :
    s.recordCount name ≤ 10 := by
  simp only [getStatisticsRecordCount, countOfParamInModifyFileMax, hn.1, hn.2, or_self,
    if_false] at h
  cases hf : s.paramStatisticsMap.find? name with
  | none => simp [recordCount, hf]
  | some p => simpa [recordCount, hf] using h

end MappingSettingStatistics

def Kept (m : OrderedMultimap Bytes ParametersItem) : Prop :=
  ∀ name, ∀ r ∈ m.values name, r.paramName = name ∧ Accepted r

structure Agree (m : OrderedMultimap Bytes ParametersItem) (st : MappingSettingStatistics) :
    Prop where
  kept : Kept m
  known : ∀ name p, st.paramStatisticsMap.find? name = some p →
    p.paramName = name ∧ AcceptedName name ∧ p.earliestTimeStamp ≠ []
  count : ∀ name, st.recordCount name = (m.values name).length
  earliest : ∀ name p, st.paramStatisticsMap.find? name = some p →
    ∀ r ∈ m.values name, rank p.earliestTimeStamp ≤ rank r.modifyTimeStamp

lemma Kept.empty : Kept .empty := fun _ _ hr => by simp at hr

lemma Kept.insert {m : OrderedMultimap Bytes ParametersItem} (h : Kept m) {item : ParametersItem}
    (ha : Accepted item) : Kept (m.insert item.paramName item) := by
  intro name r hr
  by_cases hn : name = item.paramName
  · subst hn
    rw [OrderedMultimap.values_insert_self, List.mem_append, List.mem_singleton] at hr
    obtain hr | rfl := hr
    · exact h _ r hr
    · exact ⟨rfl, ha⟩
  · rw [OrderedMultimap.values_insert_of_ne m item hn] at hr
    exact h name r hr

lemma Kept.eraseIf {m : OrderedMultimap Bytes ParametersItem} (h : Kept m)
    (p : Bytes × ParametersItem → Bool) : Kept (m.eraseIf p) := by
  intro name r hr
  rw [OrderedMultimap.values_eraseIf] at hr
  exact h name r (List.mem_of_mem_filter hr)

lemma Agree.init : Agree .empty .init where
  kept := .empty
  known _ _ hp := by simp [MappingSettingStatistics.init] at hp
  count _ := by simp [MappingSettingStatistics.recordCount, MappingSettingStatistics.init]
  earliest _ _ hp := by simp [MappingSettingStatistics.init] at hp

lemma Agree.congr {m : OrderedMultimap Bytes ParametersItem} {st st' : MappingSettingStatistics}
    (h : Agree m st) (he : st'.paramStatisticsMap = st.paramStatisticsMap) : Agree m st' where
  kept := h.kept
  known := by
    rw [he]
    exact h.known
  count := by
    unfold MappingSettingStatistics.recordCount
    rw [he]
    exact h.count
  earliest := by
    rw [he]
    exact h.earliest

theorem Agree.update {m : OrderedMultimap Bytes ParametersItem} {st : MappingSettingStatistics}
    (h : Agree m st) {item : ParametersItem} (ha : Accepted item) :
    Agree (m.insert item.paramName item) (st.updateStatisticsRecord item).2 where
  kept := h.kept.insert ha
  known name p hp := by
    rw [MappingSettingStatistics.find_update ha] at hp
    split_ifs at hp with hn
    · subst hn
      obtain rfl := Option.some.inj hp
      cases hf : st.paramStatisticsMap.find? item.paramName with
      | none => exact ⟨rfl, ha.1, ha.2⟩
      | some q =>
        have hq := h.known _ q hf
        simp only [MappingSettingStatistics.counted]
        split_ifs
        · exact ⟨rfl, ha.1, ha.2⟩
        · exact hq
    · exact h.known name p hp
  count name := by
    unfold MappingSettingStatistics.recordCount
    rw [MappingSettingStatistics.find_update ha]
    have hc := h.count name
    unfold MappingSettingStatistics.recordCount at hc
    split_ifs with hn
    · subst hn
      rw [OrderedMultimap.values_insert_self, List.length_append]
      cases hf : st.paramStatisticsMap.find? item.paramName with
      | none =>
        have h0 : (0 : ℤ) = (m.values item.paramName).length := by simpa [hf] using hc
        simp [MappingSettingStatistics.counted, ← h0]
      | some q =>
        have hq : q.recordCount = (m.values item.paramName).length := by simpa [hf] using hc
        simp only [MappingSettingStatistics.counted]
        split_ifs <;> simp [hq]
    · rw [OrderedMultimap.values_insert_of_ne m item hn]
      exact hc
  earliest name p hp r hr := by
    rw [MappingSettingStatistics.find_update ha] at hp
    split_ifs at hp with hn
    · subst hn
      obtain rfl := Option.some.inj hp
      rw [OrderedMultimap.values_insert_self, List.mem_append, List.mem_singleton] at hr
      cases hf : st.paramStatisticsMap.find? item.paramName with
      | none =>
        have hc : (0 : ℤ) = (m.values item.paramName).length := by
          simpa [MappingSettingStatistics.recordCount, hf] using h.count item.paramName
        have h0 : m.values item.paramName = [] := List.length_eq_zero_iff.mp (by omega)
        obtain rfl : r = item := by simpa [h0] using hr
        exact le_rfl
      | some q =>
        have hq := (h.known _ q hf).2.2
        have hold := h.earliest _ q hf
        have hcmp := dateTimeCompare_pos hq ha.2
        simp only [MappingSettingStatistics.counted]
        split_ifs with hc
        · have hlt := hcmp.mp hc
          obtain hr | rfl := hr
          · exact hlt.le.trans (hold r hr)
          · exact le_rfl
        · obtain hr | rfl := hr
          · exact hold r hr
          · exact not_lt.mp fun hlt => hc (hcmp.mpr hlt)
    · rw [OrderedMultimap.values_insert_of_ne m item hn] at hr
      exact h.earliest name p hp r hr

end SimpleCode.KeepingSettingModify
