import SimpleCode.KeepingSettingModify.ErasingPass

set_option autoImplicit false

/-! When loading a record file returns. Below a line with an `=` that is not the header of this version the
statistics count records which the multimap does not hold, and no round deletes anything. -/

namespace SimpleCode.KeepingSettingModify

open Foundations Foundations.Bytes

namespace MappingSettingStatistics

variable {s : MappingSettingStatistics} {name l : Bytes} {p : ParamStatistics}

lemma count_minus_zero (hp : s.paramStatisticsMap.find? name = some p) :
    ∃ q, (s.modifyStatisticsRecordCount l .minus 0).2.paramStatisticsMap.find? name = some q ∧
      q.recordCount = p.recordCount := by
  unfold modifyStatisticsRecordCount
  split_ifs
  · exact ⟨p, hp, rfl⟩
  · cases hl : s.paramStatisticsMap.find? l with
    | none => exact ⟨p, hp, rfl⟩
    | some q =>
      simp only [OrderedMap.find?_insert]
      split_ifs with he
      · subst he
        obtain rfl := Option.some.inj (hp.symm.trans hl)
        exact ⟨_, rfl, by simp⟩
      · exact ⟨p, hp, rfl⟩

lemma count_timeStamps (t : Bytes) (hp : s.paramStatisticsMap.find? name = some p) :
    ∃ q, (s.modifyStatisticsRecordTimeStamps l t).2.paramStatisticsMap.find? name = some q ∧
      q.recordCount = p.recordCount := by
  unfold modifyStatisticsRecordTimeStamps
  split_ifs
  · exact ⟨p, hp, rfl⟩
  · cases hl : s.paramStatisticsMap.find? l with
    | none => exact ⟨p, hp, rfl⟩
    | some q =>
      simp only [OrderedMap.find?_insert]
      split_ifs with he
      · subst he
        obtain rfl := Option.some.inj (hp.symm.trans hl)
        exact ⟨_, rfl, rfl⟩
      · exact ⟨p, hp, rfl⟩

end MappingSettingStatistics

namespace MappingSettingModifyRecord

variable {s : MappingSettingModifyRecord} {name : Bytes}

def Stuck (name : Bytes) (s : MappingSettingModifyRecord) : Prop :=
  s.paramModifyRecordMap = .empty ∧ AcceptedName name ∧
    ∃ p, s.paramStatisticsMapping.paramStatisticsMap.find? name = some p ∧ 10 < p.recordCount

lemma Stuck.round (h : Stuck name s) (l : Bytes) : Stuck name (dereplicationRound l s) := by
  obtain ⟨hm, hn, p, hp, hc⟩ := h
  have hdel : ∀ t, s.deleteModifyRecordByTimeStamp l t = (-1, s) := by
    intro t
    simp [deleteModifyRecordByTimeStamp, hm]
  obtain ⟨q, hq, hqc⟩ := MappingSettingStatistics.count_minus_zero (l := l) hp
  obtain ⟨r, hr, hrc⟩ := MappingSettingStatistics.count_timeStamps (l := l)
    ((getModifyRecordEarliestTimeStamp { s with
      paramStatisticsMapping := (s.paramStatisticsMapping.modifyStatisticsRecordCount l .minus
        0).2 } l (s.paramStatisticsMapping.getStatisticsRecordTimeStamps l)).2) hq
  simp only [Stuck, dereplicationRound, hdel, sub_self]
  exact ⟨hm, hn, r, hr, by omega⟩

lemma Stuck.count (h : Stuck name s) :
    s.paramStatisticsMapping.getStatisticsRecordCount name > countOfParamInModifyFileMax := by
  obtain ⟨-, hn, p, hp, hc⟩ := h
  simpa [MappingSettingStatistics.getStatisticsRecordCount, hn.1, hn.2, hp,
    countOfParamInModifyFileMax] using hc

lemma Stuck.roundByIterators (h : Stuck name s) (l : Bytes) :
    (roundByIterators l s).Returns (dereplicationRound l s) := by
  refine roundByIterators_returns fun record hrecord => ?_
  rw [records, h.1] at hrecord
  exact absurd hrecord List.not_mem_nil

lemma Stuck.diverges (h : Stuck name s) (t : MappingSettingModifyRecord) :
    ¬ (s.nameByIterators name).Returns t :=
  Comp.loop_diverges (Stuck name) (fun _ hs => decide_eq_true hs.count)
    (fun s hs => ⟨dereplicationRound name s, hs.roundByIterators name, hs.round name⟩) s h _

lemma Stuck.others (h : Stuck name s) {l : Bytes} {t : MappingSettingModifyRecord}
    (ht : (s.nameByIterators l).Returns t) : Stuck name t := by
  apply Comp.loop_invariant (Stuck name) ?_ h ht
  intro u v hu _ hv
  obtain rfl := roundByIterators_refines hv
  exact hu.round l

lemma Stuck.pass_diverges {names : List Bytes} (hmem : name ∈ names) (h : Stuck name s)
    (t : MappingSettingModifyRecord) : ¬ (names.foldlM nameByIterators s).Returns t := by
  induction names generalizing s with
  | nil => exact absurd hmem List.not_mem_nil
  | cons l names ih =>
    intro hr
    rw [List.foldlM_cons] at hr
    obtain ⟨u, hu, hr⟩ := Comp.returns_bind.mp hr
    obtain rfl | hmem := List.mem_cons.mp hmem
    · exact h.diverges u hu
    · exact ih hmem (h.others hu) hr

/-- How many records of a name the lines below the first hold. -/
def recordsOfName (file name : Bytes) : ℕ :=
  ((lineItems (getlines file).tail).filter fun item => item.paramName = name).length

/-- The first line has no `=`, and none of the others is read. -/
def Unread (file : Bytes) : Prop := ∀ line ∈ (getlines file).head?, ¬ bytes "=" <:+: line

section Load

variable (created : Bool) {file line : Bytes} {lines : List Bytes} (h : Parses (parsedLines file))

lemma filled_idle (hfew : ∀ name, (filled created file).paramStatisticsMapping.recordCount name ≤ 10) :
    (filled created file).passByIterators.Returns (filled created file) := by
  refine passByIterators_idle fun name hgt => ?_
  have hcount := MappingSettingStatistics.getCount_gt hgt
  have hle := hfew name
  omega

lemma filled_unread (hu : Unread file) (name : Bytes) :
    (filled created file).paramStatisticsMapping.recordCount name = 0 := by
  cases hg : getlines file with
  | nil =>
    simp only [filled, hg]
    rfl
  | cons line lines =>
    have hf := find_eq_none.mpr (hu line (by rw [hg]; rfl))
    simp only [filled, hg, hf, if_true]
    rfl

lemma filled_counted (hg : getlines file = line :: lines) (hf : bytes "=" <:+: line) :
    (filled created file).paramStatisticsMapping = countItems ⟨.empty, true⟩ (lineItems lines) := by
  have hne : find (bytes "=") line ≠ none := fun he => find_eq_none.mp he hf
  simp only [filled, hg, if_neg hne]

lemma filled_count (hg : getlines file = line :: lines) (hf : bytes "=" <:+: line) (name : Bytes) :
    (filled created file).paramStatisticsMapping.recordCount name = recordsOfName file name := by
  rw [filled_counted created hg hf, count_items _ (fun _ => accepted_of_mem), recordsOfName, hg,
    List.tail_cons]

include h

lemma loadByIterators_returns {t : MappingSettingModifyRecord} :
    ((init created).loadByIterators file).Returns t ↔ (filled created file).passByIterators.Returns t := by
  rw [loadByIterators, loadRecords_eq created h]
  refine Comp.returns_bind.trans ?_
  simp only [Comp.returns_mapError, Comp.yields_ofExcept, Except.ok.injEq, exists_eq_left]

lemma load_returns_few (hfew : ∀ name, (filled created file).paramStatisticsMapping.recordCount name ≤ 10) :
    ∃ t, ((init created).loadByIterators file).Returns t :=
  ⟨_, (loadByIterators_returns created h).mpr (filled_idle created hfew)⟩

lemma load_faults_many (hg : getlines file = versionHeader :: lines) {name : Bytes}
    (hmany : 10 < recordsOfName file name) : ¬ ∃ t, ((init created).loadByIterators file).Returns t := by
  rintro ⟨t, ht⟩
  have hagrees := filled_agrees created hg
  obtain ⟨-, hshort⟩ := (passByIterators_returns_iff hagrees).mp ((loadByIterators_returns created h).mp ht)
  have hcount := hagrees.count name
  rw [filled_count created hg (by decide)] at hcount
  have hle : ((filled created file).paramModifyRecordMap.values name).length ≤ 10 := hshort name
  omega

end Load

section Foreign

variable (created : Bool) {file line : Bytes} {lines : List Bytes} (h : Parses (parsedLines file))
  (hg : getlines file = line :: lines) (hl : line ≠ versionHeader) (hf : bytes "=" <:+: line)

include h hg hl hf

lemma load_diverges_many {name : Bytes} (hmany : 10 < recordsOfName file name) :
    ¬ ∃ t, ((init created).loadByIterators file).Returns t := by
  have hstat := filled_counted created hg hf
  have hcount := filled_count created hg hf name
  obtain ⟨p, hp⟩ : ∃ p, (filled created file).paramStatisticsMapping.paramStatisticsMap.find? name =
      some p := by
    cases hfind : (filled created file).paramStatisticsMapping.paramStatisticsMap.find? name with
    | none =>
      simp only [MappingSettingStatistics.recordCount, hfind, Option.map_none,
        Option.getD_none] at hcount
      omega
    | some p => exact ⟨p, rfl⟩
  rw [MappingSettingStatistics.recordCount_of_find hp] at hcount
  have hagree := agree_count (lineItems lines) fun _ => accepted_of_mem
  obtain ⟨hpn, hn, -⟩ := hagree.known name p (hstat ▸ hp)
  have hstuck : Stuck name (filled created file) := by
    refine ⟨?_, hn, p, hp, by omega⟩
    simp only [filled, hg, if_neg hl]
  rintro ⟨t, ht⟩
  rw [loadByIterators_returns created h, passByIterators, ← List.foldlM_map] at ht
  refine hstuck.pass_diverges (List.mem_map.mpr ⟨(name, p), ?_, hpn⟩) t ht
  exact OrderedMap.find?_eq_some.mp hp

end Foreign

/-- The load returns exactly where it reads no record, or has none to delete. -/
theorem load_returns_iff (created : Bool) {file : Bytes} (h : Parses (parsedLines file)) :
    (∃ t, ((init created).loadByIterators file).Returns t) ↔
      Unread file ∨ ∀ name, recordsOfName file name ≤ 10 := by
  by_cases hu : Unread file
  · refine iff_of_true (load_returns_few created h fun name => ?_) (.inl hu)
    rw [filled_unread created hu]
    decide
  obtain ⟨line, lines, hg, hf⟩ : ∃ line lines, getlines file = line :: lines ∧ bytes "=" <:+: line := by
    simp only [Unread, not_forall, not_not] at hu
    obtain ⟨line, hmem, hf⟩ := hu
    obtain ⟨lines, hg⟩ := List.head?_eq_some_iff.mp hmem
    exact ⟨line, lines, hg, hf⟩
  rw [or_iff_right hu]
  constructor
  · intro hret name
    by_contra hmany
    rw [not_le] at hmany
    by_cases hl : line = versionHeader
    · exact load_faults_many created h (hl ▸ hg) hmany hret
    · exact load_diverges_many created h hg hl hf hmany hret
  · intro hfew
    refine load_returns_few created h fun name => ?_
    rw [filled_count created hg hf]
    exact_mod_cast hfew name

def fileOf (header : Bytes) (count : ℕ) : Bytes :=
  header ++ [10] ++ (List.replicate count (bytes
    "Parameter[ p ] @<t> modified by[  ]from[  ]to[  ]into file[  ].\n")).flatten

theorem load_returns_iff_ten :
    (∃ t, ((init true).loadByIterators (fileOf versionHeader 10)).Returns t) ∧
      ¬ ∃ t, ((init true).loadByIterators (fileOf versionHeader 11)).Returns t := by
  have hten : lineItems (getlines (fileOf versionHeader 10)).tail = List.replicate 10 _ := rfl
  refine ⟨(load_returns_iff true (by decide +kernel)).mpr (.inr fun name => ?_), ?_⟩
  · rw [recordsOfName, hten]
    exact (List.length_filter_le _ _).trans (List.length_replicate).le
  · rw [load_returns_iff true (by decide +kernel)]
    rintro (hu | hfew)
    · exact hu versionHeader (by decide +kernel) (by decide)
    · exact absurd (hfew (bytes "p")) (by decide +kernel)

theorem load_foreign_diverges :
    ¬ ∀ (created : Bool) (file : Bytes), Parses (parsedLines file) →
      ∃ t, ((init created).loadByIterators file).Returns t := by
  intro h
  have hparses : Parses (parsedLines (fileOf (bytes "a=b") 11)) := by decide +kernel
  have hlines : getlines (fileOf (bytes "a=b") 11) =
      bytes "a=b" :: (getlines (fileOf (bytes "a=b") 11)).tail := by
    decide +kernel
  have hmany : 10 < recordsOfName (fileOf (bytes "a=b") 11) (bytes "p") := by decide +kernel
  exact load_diverges_many true hparses hlines (by decide) (by decide) hmany
    (h true (fileOf (bytes "a=b") 11) hparses)

end MappingSettingModifyRecord

end SimpleCode.KeepingSettingModify
