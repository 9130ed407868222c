import SimpleCode.Foundations.Retention
import SimpleCode.KeepingSettingModify.Agreement

set_option autoImplicit false

/-! `dereplicationModifyRecordParamMap` on a store that agrees with its statistics: it ends, and
every name is left with its retained history. -/

namespace SimpleCode.KeepingSettingModify

open Foundations Foundations.Bytes

def stampRank (r : ParametersItem) : Rank := rank r.modifyTimeStamp

def retained (records : List ParametersItem) : List ParametersItem := retain stampRank 10 records

lemma earlier_foldl {records : List ParametersItem} (hr : ∀ r ∈ records, r.modifyTimeStamp ≠ [])
    {t₀ : Bytes} (h₀ : t₀ ≠ []) :
    let t := records.foldl (fun t r =>
      if dateTimeCompare t r.modifyTimeStamp > 0 then r.modifyTimeStamp else t) t₀
    (t = t₀ ∨ ∃ r ∈ records, t = r.modifyTimeStamp) ∧ rank t ≤ rank t₀ ∧
      ∀ r ∈ records, rank t ≤ stampRank r := by
  induction records generalizing t₀ with
  | nil => simp
  | cons r records ih =>
    have hrs : r.modifyTimeStamp ≠ [] := hr r (by simp)
    have hrest : ∀ r ∈ records, r.modifyTimeStamp ≠ [] := fun x hx => hr x (by simp [hx])
    have hcmp := dateTimeCompare_pos h₀ hrs
    simp only [List.foldl_cons]
    split_ifs with hc
    · obtain ⟨hmem, hle, hall⟩ := ih hrest hrs
      have hlt := hcmp.mp hc
      refine ⟨.inr ?_, hle.trans hlt.le, ?_⟩
      · obtain ht | ⟨x, hx, ht⟩ := hmem
        · exact ⟨r, by simp, ht⟩
        · exact ⟨x, by simp [hx], ht⟩
      · intro x hx
        obtain rfl | hx := List.mem_cons.mp hx
        · exact hle
        · exact hall x hx
    · obtain ⟨hmem, hle, hall⟩ := ih hrest h₀
      have hge : rank t₀ ≤ stampRank r := not_lt.mp fun hlt => hc (hcmp.mpr hlt)
      refine ⟨?_, hle, ?_⟩
      · obtain ht | ⟨x, hx, ht⟩ := hmem
        · exact .inl ht
        · exact .inr ⟨x, by simp [hx], ht⟩
      · intro x hx
        obtain rfl | hx := List.mem_cons.mp hx
        · exact hle.trans hge
        · exact hall x hx

namespace MappingSettingModifyRecord

variable (s : MappingSettingModifyRecord)

def records (name : Bytes) : List ParametersItem := s.paramModifyRecordMap.values name

abbrev Agrees : Prop := Agree s.paramModifyRecordMap s.paramStatisticsMapping

variable {s} {name : Bytes}

lemma earliest_spec (hk : Kept s.paramModifyRecordMap) (hn : name ≠ []) (hne : s.records name ≠ [])
    (t₀ : Bytes) :
    (∃ r ∈ s.records name, (s.getModifyRecordEarliestTimeStamp name t₀).2 = r.modifyTimeStamp) ∧
      ∀ r ∈ s.records name, rank (s.getModifyRecordEarliestTimeStamp name t₀).2 ≤ stampRank r := by
  have hstamps : ∀ r ∈ s.records name, r.modifyTimeStamp ≠ [] := fun r hr => (hk name r hr).2.2
  unfold records at hne hstamps ⊢
  simp only [getModifyRecordEarliestTimeStamp, hn, if_false]
  cases hv : s.paramModifyRecordMap.values name with
  | nil => exact absurd hv hne
  | cons r rs =>
    rw [hv] at hstamps
    obtain ⟨hmem, -, hall⟩ := earlier_foldl hstamps (hstamps r (by simp))
    refine ⟨?_, hall⟩
    obtain ht | hx := hmem
    · exact ⟨r, by simp, ht⟩
    · exact hx

lemma earliest_none (h : s.records name = []) (t₀ : Bytes) :
    (s.getModifyRecordEarliestTimeStamp name t₀).2 = t₀ := by
  unfold records at h
  simp only [getModifyRecordEarliestTimeStamp, h]
  split_ifs <;> rfl

def later (timeStamp : Bytes) (rs : List ParametersItem) : List ParametersItem :=
  rs.filter fun r => stampRank r ≠ rank timeStamp

section Round

variable {p : ParamStatistics} (h : s.Agrees) (hp : s.paramStatisticsMapping.paramStatisticsMap.find?
  name = some p) (hne : s.records name ≠ [])

include h hp hne

lemma delete_spec :
    ((s.deleteModifyRecordByTimeStamp name p.earliestTimeStamp).2.records name =
        later p.earliestTimeStamp (s.records name)) ∧
      ∀ l ≠ name,
        (s.deleteModifyRecordByTimeStamp name p.earliestTimeStamp).2.records l = s.records l := by
  have ht := (h.known name p hp).2.2
  unfold records at hne
  simp only [deleteModifyRecordByTimeStamp, hne, if_false, records,
    OrderedMultimap.values_eraseIf]
  constructor
  · apply List.filter_congr
    intro r hr
    have hr' := (h.kept name r hr).2.2
    by_cases hq : rank r.modifyTimeStamp = rank p.earliestTimeStamp <;>
      simp [stampRank, dateTimeCompare_eq_zero hr' ht, hq]
  · intro l hl
    simp [hl]

lemma delete_size :
    (s.paramModifyRecordMap.size : ℤ) -
        (s.deleteModifyRecordByTimeStamp name p.earliestTimeStamp).2.paramModifyRecordMap.size =
      (s.records name).length - (later p.earliestTimeStamp (s.records name)).length := by
  have hd := (delete_spec h hp hne).1
  unfold records at hd hne ⊢
  rw [← hd]
  simp only [deleteModifyRecordByTimeStamp, hne, if_false]
  have hsize := s.paramModifyRecordMap.size_eraseIf (fun record =>
    record.1 = name && dateTimeCompare record.2.modifyTimeStamp p.earliestTimeStamp = 0) name
    (fun e he => by simpa using (Bool.and_eq_true_iff.mp he).1)
  omega

lemma round_spec :
    ∃ t, ((later p.earliestTimeStamp (s.records name) = [] ∧ t = p.earliestTimeStamp) ∨
        (∃ r ∈ later p.earliestTimeStamp (s.records name), t = r.modifyTimeStamp) ∧
          ∀ r ∈ later p.earliestTimeStamp (s.records name), rank t ≤ stampRank r) ∧
      (dereplicationRound name s).records name = later p.earliestTimeStamp (s.records name) ∧
      (∀ l ≠ name, (dereplicationRound name s).records l = s.records l) ∧
      ∀ l, (dereplicationRound name s).paramStatisticsMapping.paramStatisticsMap.find? l =
        if l = name then some ⟨p.paramName, t, (later p.earliestTimeStamp (s.records name)).length⟩
        else s.paramStatisticsMapping.paramStatisticsMap.find? l := by
  obtain ⟨hpn, hn, ht⟩ := h.known name p hp
  obtain ⟨hrec, hother⟩ := delete_spec h hp hne
  have hsize := delete_size h hp hne
  have hget : s.paramStatisticsMapping.getStatisticsRecordTimeStamps name = p.earliestTimeStamp := by
    simp [MappingSettingStatistics.getStatisticsRecordTimeStamps, hp]
  have hcount : p.recordCount = (s.records name).length := by
    rw [← MappingSettingStatistics.recordCount_of_find hp]
    exact h.count name
  have hst : (s.deleteModifyRecordByTimeStamp name p.earliestTimeStamp).2.paramStatisticsMapping =
      s.paramStatisticsMapping := by
    unfold deleteModifyRecordByTimeStamp
    split_ifs <;> rfl
  have hkept : Kept
      (s.deleteModifyRecordByTimeStamp name p.earliestTimeStamp).2.paramModifyRecordMap := by
    unfold deleteModifyRecordByTimeStamp
    split_ifs
    · exact h.kept
    · exact h.kept.eraseIf _
  set s₁ := (s.deleteModifyRecordByTimeStamp name p.earliestTimeStamp).2 with hs₁
  set d : ℤ := s.paramModifyRecordMap.size - s₁.paramModifyRecordMap.size with hd
  set s₂ : MappingSettingModifyRecord := { s₁ with
    paramStatisticsMapping := (s.paramStatisticsMapping.modifyStatisticsRecordCount name .minus
      d).2 } with hs₂
  set t := (s₂.getModifyRecordEarliestTimeStamp name p.earliestTimeStamp).2 with ht₂
  have hround : dereplicationRound name s = { s₂ with
      paramStatisticsMapping :=
        (s₂.paramStatisticsMapping.modifyStatisticsRecordTimeStamps name t).2 } := by
    simp only [dereplicationRound, hget, ← hs₁, hst, ← hd, ← hs₂, ← ht₂]
    rfl
  have hrec₂ : s₂.records name = later p.earliestTimeStamp (s.records name) := hrec
  have hbound : (later p.earliestTimeStamp (s.records name) = [] ∧ t = p.earliestTimeStamp) ∨
      (∃ r ∈ later p.earliestTimeStamp (s.records name), t = r.modifyTimeStamp) ∧
        ∀ r ∈ later p.earliestTimeStamp (s.records name), rank t ≤ stampRank r := by
    by_cases he : later p.earliestTimeStamp (s.records name) = []
    · exact .inl ⟨he, earliest_none (hrec₂.trans he) _⟩
    · have hmin := earliest_spec (s := s₂) hkept hn.2 (hrec₂ ▸ he) p.earliestTimeStamp
      rw [hrec₂] at hmin
      exact .inr hmin
  have htne : t ≠ [] := by
    obtain ⟨-, he⟩ | ⟨⟨r, hr, he⟩, -⟩ := hbound
    · exact he ▸ ht
    · exact he ▸ (h.kept name r (List.mem_of_mem_filter hr)).2.2
  have hfind := MappingSettingStatistics.find_modify_minus (l := name) hn hp d
  rw [if_pos rfl] at hfind
  rw [hround]
  refine ⟨t, hbound, hrec, hother, fun l => ?_⟩
  change (s₂.paramStatisticsMapping.modifyStatisticsRecordTimeStamps name
    t).2.paramStatisticsMap.find? l = _
  rw [MappingSettingStatistics.find_modify_timeStamps hn htne hfind]
  split_ifs with hl
  · have hnew : p.recordCount - d = (later p.earliestTimeStamp (s.records name)).length := by
      omega
    rw [hnew]
  · exact (MappingSettingStatistics.find_modify_minus hn hp d).trans (if_neg hl)

theorem round_agrees : (dereplicationRound name s).Agrees := by
  obtain ⟨t, hbound, hrec, hother, hfind⟩ := round_spec h hp hne
  obtain ⟨hpn, hn, ht⟩ := h.known name p hp
  have hkept : Kept (dereplicationRound name s).paramModifyRecordMap := by
    intro l r hr
    replace hr : r ∈ (dereplicationRound name s).records l := hr
    by_cases hl : l = name
    · subst hl
      rw [hrec] at hr
      exact h.kept l r (List.mem_of_mem_filter hr)
    · rw [hother l hl] at hr
      exact h.kept l r hr
  refine ⟨hkept, fun l q hq => ?_, fun l => ?_, fun l q hq r hr => ?_⟩
  · rw [hfind] at hq
    split_ifs at hq with hl
    · obtain rfl := Option.some.inj hq
      have htne : t ≠ [] := by
        obtain ⟨-, he⟩ | ⟨⟨r, hr, he⟩, -⟩ := hbound
        · exact he ▸ ht
        · exact he ▸ (h.kept name r (List.mem_of_mem_filter hr)).2.2
      exact ⟨hpn.trans hl.symm, hl ▸ hn, htne⟩
    · exact h.known l q hq
  · unfold MappingSettingStatistics.recordCount
    rw [hfind]
    split_ifs with hl
    · subst hl
      exact congrArg (fun rs => (List.length rs : ℤ)) hrec.symm
    · exact (h.count l).trans (congrArg (fun rs => (List.length rs : ℤ)) (hother l hl).symm)
  · replace hr : r ∈ (dereplicationRound name s).records l := hr
    rw [hfind] at hq
    split_ifs at hq with hl
    · subst hl
      obtain rfl := Option.some.inj hq
      rw [hrec] at hr
      obtain ⟨he, -⟩ | ⟨-, hall⟩ := hbound
      · exact absurd hr (he ▸ List.not_mem_nil)
      · exact hall r hr
    · rw [hother l hl] at hr
      exact h.earliest l q hq r hr

end Round

lemma round_frame (name : Bytes) (s : MappingSettingModifyRecord) :
    (dereplicationRound name s).mutex = s.mutex ∧
      (dereplicationRound name s).isModifyRecordMappingLoaded =
        s.isModifyRecordMappingLoaded := by
  unfold dereplicationRound deleteModifyRecordByTimeStamp
  split_ifs <;> exact ⟨rfl, rfl⟩

def Attained (s : MappingSettingModifyRecord) (name : Bytes) : Prop :=
  ∃ p, s.paramStatisticsMapping.paramStatisticsMap.find? name = some p ∧
    ∃ r ∈ s.records name, stampRank r = rank p.earliestTimeStamp

section Name

variable {p : ParamStatistics} (h : s.Agrees) (hp : s.paramStatisticsMapping.paramStatisticsMap.find?
  name = some p)

include h hp

lemma round_progress (hne : s.records name ≠ []) :
    (Attained s name ∧ (dereplicationRound name s).records name =
        dropLowest stampRank (s.records name)) ∨
      (¬ Attained s name ∧ (dereplicationRound name s).records name = s.records name ∧
        Attained (dereplicationRound name s) name) := by
  obtain ⟨t, hbound, hrec, hother, hfind⟩ := round_spec h hp hne
  have hlow := h.earliest name p hp
  by_cases ha : ∃ r ∈ s.records name, stampRank r = rank p.earliestTimeStamp
  · refine .inl ⟨⟨p, hp, ha⟩, ?_⟩
    obtain ⟨r, hr, he⟩ := ha
    rw [hrec, dropLowest_eq stampRank hr fun y hy => he ▸ hlow y hy]
    simp only [later, he]
  · have hall : later p.earliestTimeStamp (s.records name) = s.records name := by
      apply List.filter_eq_self.mpr
      intro r hr
      simpa using fun he => ha ⟨r, hr, he⟩
    have hnot : ¬ Attained s name := by
      rintro ⟨q, hq, hr⟩
      obtain rfl := Option.some.inj (hp.symm.trans hq)
      exact ha hr
    refine .inr ⟨hnot, hrec.trans hall, ?_⟩
    obtain ⟨he, -⟩ | ⟨⟨r, hr, ht⟩, -⟩ := hbound
    · exact absurd (hall.symm.trans he) hne
    · refine ⟨_, (hfind name).trans (if_pos rfl), r, hrec ▸ hr, ?_⟩
      simp only [stampRank, ht]

end Name

lemma records_ne_nil (h : s.Agrees)
    (hc : s.paramStatisticsMapping.getStatisticsRecordCount name > countOfParamInModifyFileMax) :
    10 < (s.records name).length ∧
      ∃ p, s.paramStatisticsMapping.paramStatisticsMap.find? name = some p := by
  have hgt := MappingSettingStatistics.getCount_gt hc
  rw [h.count] at hgt
  refine ⟨by unfold records; omega, ?_⟩
  rw [← h.count, MappingSettingStatistics.recordCount] at hgt
  cases hf : s.paramStatisticsMapping.paramStatisticsMap.find? name with
  | none => simp [hf] at hgt
  | some p => exact ⟨p, rfl⟩

open Classical in
theorem dereplicationName_returns (h : s.Agrees) (hn : AcceptedName name) :
    ∃ t, (s.dereplicationName name).Returns t ∧ t.Agrees ∧
      t.records name = retained (s.records name) ∧ (∀ l ≠ name, t.records l = s.records l) ∧
      t.mutex = s.mutex ∧ t.isModifyRecordMappingLoaded = s.isModifyRecordMappingLoaded := by
  let Inv (t : MappingSettingModifyRecord) : Prop := t.Agrees ∧
    retained (t.records name) = retained (s.records name) ∧ (∀ l ≠ name, t.records l = s.records l) ∧
    t.mutex = s.mutex ∧ t.isModifyRecordMappingLoaded = s.isModifyRecordMappingLoaded
  let μ (t : MappingSettingModifyRecord) : ℕ :=
    2 * (t.records name).length + if Attained t name then 0 else 1
  have hstep : ∀ t, Inv t → decide (t.paramStatisticsMapping.getStatisticsRecordCount name >
      countOfParamInModifyFileMax) = true → ∃ u, (pure (dereplicationRound name t) :
        Comp OutOfRange MappingSettingModifyRecord).Returns u ∧ Inv u ∧ μ u < μ t := by
    rintro t ⟨ht, hret, hoth, hmut, hload⟩ hc
    obtain ⟨hlen, p, hp⟩ := records_ne_nil ht (of_decide_eq_true hc)
    have hne : t.records name ≠ [] := by
      intro he
      simp [he] at hlen
    obtain ⟨-, -, -, hother, -⟩ := round_spec ht hp hne
    have hframe := round_frame name t
    refine ⟨_, by simp, ⟨round_agrees ht hp hne, ?_, fun l hl => (hother l hl).trans (hoth l hl),
      hframe.1.trans hmut, hframe.2.trans hload⟩, ?_⟩
    · obtain ⟨-, hr⟩ | ⟨-, hr, -⟩ := round_progress ht hp hne
      · rw [hr, ← hret, retained, retained, retain_of_lt stampRank 10 hlen]
      · rw [hr, hret]
    · obtain ⟨ha, hr⟩ | ⟨ha, hr, ha'⟩ := round_progress ht hp hne
      · have hdrop := dropLowest_length stampRank hne
        simp only [μ, hr, if_pos ha]
        split_ifs <;> omega
      · simp only [μ, hr, if_neg ha, if_pos ha']
        omega
  obtain ⟨t, hret, ⟨ht, hr, hoth, hmut, hload⟩, hc⟩ :=
    Comp.loop_returns Inv μ hstep s ⟨h, rfl, fun _ _ => rfl, rfl, rfl⟩
  have hle := MappingSettingStatistics.getCount_le hn (of_decide_eq_false hc)
  rw [ht.count] at hle
  have hlen : (t.records name).length ≤ 10 := by
    unfold records
    omega
  refine ⟨t, hret, ht, ?_, hoth, hmut, hload⟩
  rw [← hr, retained, retain_of_le stampRank 10 hlen]

lemma dereplicationNames_returns (names : List Bytes) (hn : ∀ name ∈ names, AcceptedName name)
    (h : s.Agrees) :
    ∃ t, (names.foldlM dereplicationName s).Returns t ∧ t.Agrees ∧
      (∀ l, t.records l = if l ∈ names then retained (s.records l) else s.records l) ∧
      t.mutex = s.mutex ∧ t.isModifyRecordMappingLoaded = s.isModifyRecordMappingLoaded := by
  induction names generalizing s with
  | nil => exact ⟨s, by simp [Comp.Returns], h, by simp, rfl, rfl⟩
  | cons name names ih =>
    obtain ⟨t, hret, ht, hname, hoth, hmut, hload⟩ := dereplicationName_returns h (hn name (by simp))
    obtain ⟨u, huret, hu, hrec, hmut', hload'⟩ := ih (fun l hl => hn l (by simp [hl])) ht
    refine ⟨u, ?_, hu, fun l => ?_, hmut'.trans hmut, hload'.trans hload⟩
    · rw [List.foldlM_cons]
      exact Comp.returns_bind.mpr ⟨t, hret, huret⟩
    · rw [hrec]
      by_cases hl : l = name
      · subst hl
        simp only [List.mem_cons_self, if_true, hname]
        split_ifs
        · exact retain_retain stampRank 10 _
        · rfl
      · simp [hl, hoth l hl]

theorem dereplication_returns (h : s.Agrees) :
    ∃ t, s.dereplicationModifyRecordParamMap.Returns t ∧ t.Agrees ∧
      (∀ l, t.records l = retained (s.records l)) ∧ t.mutex = s.mutex ∧
      t.isModifyRecordMappingLoaded = s.isModifyRecordMappingLoaded := by
  let entries := s.paramStatisticsMapping.paramStatisticsMap.entries
  have hknown : ∀ e ∈ entries, e.2.paramName = e.1 ∧ AcceptedName e.1 := by
    intro e he
    have hk := h.known e.1 e.2 (OrderedMap.find?_eq_some.mpr he)
    exact ⟨hk.1, hk.2.1⟩
  have hnames : ∀ name ∈ entries.map fun e => e.2.paramName, AcceptedName name := by
    intro name hname
    obtain ⟨e, he, rfl⟩ := List.mem_map.mp hname
    exact (hknown e he).1 ▸ (hknown e he).2
  obtain ⟨t, hret, ht, hrec, hframe⟩ := dereplicationNames_returns _ hnames h
  rw [List.foldlM_map] at hret
  refine ⟨t, hret, ht, fun l => ?_, hframe⟩
  rw [hrec]
  split_ifs with hl
  · rfl
  · -- a name without an entry has no records
    have hnone : s.paramStatisticsMapping.paramStatisticsMap.find? l = none := by
      apply Option.eq_none_iff_forall_ne_some.mpr
      intro p hp
      apply hl
      have he := OrderedMap.find?_eq_some.mp hp
      exact List.mem_map.mpr ⟨(l, p), he, (hknown _ he).1⟩
    have hcount : (0 : ℤ) = (s.records l).length := by
      rw [records, ← h.count l]
      simp [MappingSettingStatistics.recordCount, hnone]
    rw [retained, retain_of_le stampRank 10 (by omega)]

end MappingSettingModifyRecord

end SimpleCode.KeepingSettingModify
