import SimpleCode.KeepingSettingModify.Keeping
import SimpleCode.KeepingSettingModify.Loading

set_option autoImplicit false

/-! What the store is for: a history of at most ten records for every name. After a load every `set`
adds one record to the history of its name, and the statistics keep counting the records. -/

namespace SimpleCode.KeepingSettingModify

open Foundations Foundations.Bytes

abbrev Histories := Bytes → List ParametersItem

def Histories.add (h : Histories) (item : ParametersItem) : Histories := fun name =>
  if Accepted item ∧ name = item.paramName then retained (h name ++ [item]) else h name

structure Settled (s : MappingSettingModifyRecord) (h : Histories) : Prop where
  agrees : s.Agrees
  loaded : s.isModifyRecordMappingLoaded = true
  records : ∀ name, s.records name = h name
  short : ∀ name, (h name).length ≤ 10

lemma decimal_ne_nil {width : ℕ} (h : 0 < width) (n : ℕ) :
    SettingModifyRecordKeeping.decimal width n ≠ [] := by
  intro he
  have hlen := congrArg List.length he
  simp only [SettingModifyRecordKeeping.decimal, List.length_append, List.length_replicate,
    List.length_nil] at hlen
  omega

lemma modifyTimeStamp_ne_nil (clock : Clock) :
    SettingModifyRecordKeeping.modifyTimeStamp clock ≠ [] := by
  have hyear := decimal_ne_nil (show 0 < 4 by omega) clock.dateTime.year.toNat
  simp [SettingModifyRecordKeeping.modifyTimeStamp, hyear]

namespace MappingSettingModifyRecord

variable {s : MappingSettingModifyRecord} {item : ParametersItem}

lemma update_accepted (hl : s.isModifyRecordMappingLoaded = true) (ha : Accepted item) :
    s.updateModifyRecordParamMap item = (0, { s with
      paramStatisticsMapping := (s.paramStatisticsMapping.updateStatisticsRecord item).2
      paramModifyRecordMap := s.paramModifyRecordMap.insert item.paramName item }) := by
  rw [updateModifyRecordParamMap, if_neg (mt not_accepted.mpr (not_not.mpr ha))]
  simp [hl]

lemma update_refused (ha : ¬ Accepted item) : s.updateModifyRecordParamMap item = (-1, s) := by
  rw [updateModifyRecordParamMap, if_pos (not_accepted.mp ha)]

lemma update_agrees (h : s.Agrees) (hl : s.isModifyRecordMappingLoaded = true)
    (item : ParametersItem) :
    (s.updateModifyRecordParamMap item).2.Agrees ∧
      (s.updateModifyRecordParamMap item).2.isModifyRecordMappingLoaded = true ∧
      ∀ l, (s.updateModifyRecordParamMap item).2.records l =
        if Accepted item ∧ l = item.paramName then s.records l ++ [item] else s.records l := by
  by_cases ha : Accepted item
  · rw [update_accepted hl ha]
    refine ⟨Agree.update h ha, hl, fun l => ?_⟩
    simp only [ha, true_and, records]
    split_ifs with hn
    · subst hn
      exact OrderedMultimap.values_insert_self _ _ _
    · exact OrderedMultimap.values_insert_of_ne _ _ hn
  · rw [update_refused ha]
    exact ⟨h, hl, fun l => by simp [ha]⟩

end MappingSettingModifyRecord

namespace SettingModifyRecordKeeping

variable (sensitive : List Bytes) {s : SettingModifyRecordKeeping} {h : Histories}

theorem set_settled (hs : Settled s.paramModifyRecordMapping h) (name value : Bytes) (module : ℤ)
    (fileTag : Bytes) (clock : Clock) :
    ∃ t, (s.set sensitive name value module fileTag clock).Returns t ∧
      Settled t.paramModifyRecordMapping
        (h.add (s.initialParamItem name value module fileTag clock)) := by
  set item := s.initialParamItem name value module fileTag clock with hitem
  obtain ⟨hagrees, hloaded, hrecords⟩ :=
    MappingSettingModifyRecord.update_agrees hs.agrees hs.loaded item
  obtain ⟨m, hret, hm, hrec, -, hload⟩ :=
    MappingSettingModifyRecord.dereplication_returns hagrees
  have hhist : ∀ l, m.records l = h.add item l := by
    intro l
    rw [hrec, hrecords, hs.records l]
    simp only [Histories.add]
    split_ifs
    · rfl
    · exact retain_of_le stampRank 10 (hs.short l)
  refine ⟨_, Comp.returns_bind.mpr ⟨m, hret, Comp.yields_pure.mpr rfl⟩, hm,
    hload.trans hloaded, hhist, fun l => ?_⟩
  rw [← hhist, hrec]
  exact retain_length stampRank 10 _

theorem load_settled (created : Bool) (configFiles : List (Option Bytes)) {file : Bytes}
    {lines : List Bytes} (hf : getlines file = versionHeader :: lines) (hp : Parses lines) :
    ∃ t, ((init created).load sensitive configFiles file).Returns t ∧
      Settled t.paramModifyRecordMapping fun name =>
        retained ((lineItems lines).filter fun item => item.paramName = name) := by
  obtain ⟨m, hret, hm, hrec, -, hload⟩ :=
    MappingSettingModifyRecord.load_returns created hf hp
  exact ⟨_, Comp.returns_bind.mpr ⟨m, hret, Comp.yields_pure.mpr rfl⟩, hm, hload, hrec,
    fun l => retain_length stampRank 10 _⟩

end SettingModifyRecordKeeping

namespace Process

variable (sensitive : List Bytes) {p : Process} {h : Histories}

def item (p : Process) (call : SetCall) : ParametersItem :=
  p.keeping.initialParamItem call.name call.value call.module call.fileTag call.clock

lemma item_stamp (p : Process) (call : SetCall) : (p.item call).modifyTimeStamp ≠ [] := by
  simp only [item, SettingModifyRecordKeeping.initialParamItem]
  exact modifyTimeStamp_ne_nil call.clock

lemma set_settled (hp : Settled p.keeping.paramModifyRecordMapping h) (call : SetCall) :
    ∃ q, (p.step sensitive (.set call)).Returns q ∧
      Settled q.keeping.paramModifyRecordMapping (h.add (p.item call)) := by
  obtain ⟨t, ht, hs⟩ := SettingModifyRecordKeeping.set_settled sensitive hp call.name call.value
    call.module call.fileTag call.clock
  exact ⟨{ p with keeping := t }, Comp.returns_bind.mpr ⟨t, ht, Comp.yields_pure.mpr rfl⟩, hs⟩

lemma sets_settled (hp : Settled p.keeping.paramModifyRecordMapping h) (calls : List SetCall) :
    ∃ q, (p.run sensitive (calls.map .set)).Returns q ∧
      ∃ h', Settled q.keeping.paramModifyRecordMapping h' := by
  induction calls generalizing p h with
  | nil => exact ⟨p, Comp.yields_pure.mpr rfl, h, hp⟩
  | cons call calls ih =>
    obtain ⟨q, hq, hs⟩ := set_settled sensitive hp call
    obtain ⟨r, hr, hs'⟩ := ih hs
    exact ⟨r, Comp.returns_bind.mpr ⟨q, hq, hr⟩, hs'⟩

lemma loadThenSet_settled (created : Bool) (configFiles : List (Option Bytes)) {file : Bytes}
    {lines : List Bytes} (hf : getlines file = versionHeader :: lines) (hp : Parses lines)
    (calls : List SetCall) :
    ∃ p, (loadThenSet sensitive created file configFiles calls).Returns p ∧
      ∃ h, Settled p.keeping.paramModifyRecordMapping h := by
  obtain ⟨t, ht, hs⟩ := SettingModifyRecordKeeping.load_settled sensitive created configFiles hf hp
  have hload : ((start created file).step sensitive (.load configFiles)).Returns
      { start created file with keeping := t } :=
    Comp.returns_bind.mpr ⟨t, ht, Comp.yields_pure.mpr rfl⟩
  obtain ⟨q, hq, hs'⟩ := sets_settled sensitive (p := { start created file with keeping := t }) hs
    calls
  exact ⟨q, Comp.returns_bind.mpr ⟨_, hload, hq⟩, hs'⟩

/-- After a load and any `set` calls every count is the number of records of its name. -/
theorem loadThenSet_counts (created : Bool) (configFiles : List (Option Bytes)) {file : Bytes}
    {lines : List Bytes} (hf : getlines file = versionHeader :: lines) (hp : Parses lines)
    (calls : List SetCall) :
    ∃ p, (loadThenSet sensitive created file configFiles calls).Returns p ∧
      ∀ name, p.keeping.paramModifyRecordMapping.paramStatisticsMapping.recordCount name =
        (p.records name).length := by
  obtain ⟨p, hret, h, hs⟩ := loadThenSet_settled sensitive created configFiles hf hp calls
  exact ⟨p, hret, hs.agrees.count⟩

def someClock : Clock where
  dateTime := ⟨2012, 1, 1, 8, 2, 5, by decide⟩
  nsec := 521000000

def someCall : SetCall := ⟨bytes "p", bytes "v", 1, bytes "system", someClock⟩

def callAt (milli : ℕ) : SetCall := { someCall with clock := { someClock with nsec := milli * 1000000 } }

def lineAt (name second : Bytes) : Bytes :=
  bytes "Parameter[ " ++ name ++ bytes " ] @<2011-Mar-02 10:20:" ++ second ++
    bytes ".007> modified by[ TR069 ]from[ a ]to[ b ]into file[ ./yx_config_system.ini ].\n"

def someFile : Bytes := bytes "CFversion=1.0\n" ++ lineAt (bytes "q") (bytes "59") ++
  [bytes "41", bytes "12", bytes "43", bytes "12", bytes "45", bytes "46", bytes "47", bytes "48"].flatMap
    (lineAt (bytes "p"))

theorem loadThenSet_counts_trimmed :
    ∃ p, (loadThenSet [] true someFile [] ([3, 1, 2].map callAt)).Returns p ∧
      ∀ name, p.keeping.paramModifyRecordMapping.paramStatisticsMapping.recordCount name =
        (p.records name).length :=
  loadThenSet_counts [] true []
    (show getlines someFile = versionHeader :: (getlines someFile).tail by decide +kernel)
    (show Parses (getlines someFile).tail by decide +kernel) _

end Process

end SimpleCode.KeepingSettingModify
