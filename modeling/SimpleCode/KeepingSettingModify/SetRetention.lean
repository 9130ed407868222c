import SimpleCode.KeepingSettingModify.ErasingPass
import SimpleCode.KeepingSettingModify.Histories

set_option autoImplicit false

/-! The retention that the comment on `dereplicationModifyRecordParamMap` describes: a full history gives up one
earliest entry for the new one. -/

namespace SimpleCode.KeepingSettingModify

open Foundations Foundations.Bytes

namespace SettingModifyRecordKeeping

variable (sensitive : List Bytes)

-- `load` and `set`, with the iterators of the deletion.
def loadByIterators (s : SettingModifyRecordKeeping) (configFiles : List (Option Bytes)) (recordFile : Bytes) :
    Comp Fault SettingModifyRecordKeeping := do
  let paramConfigFileMapping := (loadConfigFileParam sensitive s.paramConfigFileMapping configFiles).2
  let paramModifyRecordMapping ← s.paramModifyRecordMapping.loadByIterators recordFile
  return { s with paramConfigFileMapping, paramModifyRecordMapping }

def setByIterators (s : SettingModifyRecordKeeping) (name value : Bytes) (module : ℤ) (fileTag : Bytes)
    (clock : Clock) : Comp Fault SettingModifyRecordKeeping := do
  let paramItem := s.initialParamItem name value module fileTag clock
  let paramModifyRecordMapping ←
    (s.paramModifyRecordMapping.updateModifyRecordParamMap paramItem).2.passByIterators.mapError
      fun _ => .erasedIterator
  let paramConfigFileMapping :=
    (updateConfigFileParamMap sensitive s.paramConfigFileMapping paramItem.paramName paramItem.newValue).2
  return { s with paramItem, paramModifyRecordMapping, paramConfigFileMapping }

end SettingModifyRecordKeeping

/-- One entry more, up to ten, and what goes is earliest. -/
structure RetentionHolds (before after : Histories) (item : ParametersItem) : Prop where
  count : (after item.paramName).length = min ((before item.paramName).length + 1) 10
  dropped : ∃ dropped,
    Interleaves (after item.paramName) dropped (before item.paramName ++ [item]) ∧
      ∀ d ∈ dropped, ∀ r ∈ before item.paramName ++ [item],
        dateTimeCompare d.modifyTimeStamp r.modifyTimeStamp ≤ 0
  others : ∀ l ≠ item.paramName, after l = before l

lemma interleaves_nil {α : Type} (xs : List α) : Interleaves xs [] xs := by
  induction xs with
  | nil => exact .nil
  | cons x xs ih => exact ih.left x

lemma retentionHolds_appended {before after : Histories} {item : ParametersItem}
    (hlt : (before item.paramName).length < 10) (hself : after item.paramName = before item.paramName ++ [item])
    (hothers : ∀ l ≠ item.paramName, after l = before l) : RetentionHolds before after item := by
  refine ⟨?_, ⟨[], hself ▸ interleaves_nil _, by simp⟩, hothers⟩
  rw [hself, List.length_append, List.length_singleton]
  omega

namespace Process

variable (sensitive : List Bytes)

def loadByIterators (p : Process) (configFiles : List (Option Bytes)) : Comp Fault Process := do
  let keeping ← p.keeping.loadByIterators sensitive configFiles p.recordFile
  return { p with keeping }

def setByIterators (p : Process) (call : SetCall) : Comp Fault Process := do
  let keeping ← p.keeping.setByIterators sensitive call.name call.value call.module call.fileTag call.clock
  return { p with keeping }

def loadThenSetByIterators (mutexCreated : Bool) (recordFile : Bytes) (configFiles : List (Option Bytes))
    (calls : List SetCall) : Comp Fault Process := do
  let p ← (start mutexCreated recordFile).loadByIterators sensitive configFiles
  calls.foldlM (setByIterators sensitive) p

structure Short (s : MappingSettingModifyRecord) : Prop where
  agrees : s.Agrees
  loaded : s.isModifyRecordMappingLoaded = true
  length_le : ∀ name, (s.records name).length ≤ 10

variable {sensitive} {p q : Process} {call : SetCall}

section Set

def updated (p : Process) (call : SetCall) : MappingSettingModifyRecord :=
  (p.keeping.paramModifyRecordMapping.updateModifyRecordParamMap (p.item call)).2

lemma setByIterators_returns (hagrees : (p.updated call).Agrees)
    (hshort : ∀ name, ((p.updated call).records name).length ≤ 10) :
    ∃ q, (p.setByIterators sensitive call).Returns q ∧ q.keeping.paramModifyRecordMapping = p.updated call := by
  have hpass := (MappingSettingModifyRecord.passByIterators_returns_iff hagrees).mpr ⟨rfl, hshort⟩
  have hset : (p.keeping.setByIterators sensitive call.name call.value call.module call.fileTag call.clock).Returns _ :=
    Comp.returns_bind.mpr ⟨p.updated call, Comp.returns_mapError.mpr hpass, Comp.yields_pure.mpr rfl⟩
  exact ⟨_, Comp.returns_bind.mpr ⟨_, hset, Comp.yields_pure.mpr rfl⟩, rfl⟩

lemma of_setByIterators (hagrees : (p.updated call).Agrees) (h : (p.setByIterators sensitive call).Returns q) :
    q.keeping.paramModifyRecordMapping = p.updated call
      ∧ ∀ name, ((p.updated call).records name).length ≤ 10 := by
  obtain ⟨keeping, hk, hq⟩ := Comp.returns_bind.mp h
  obtain ⟨m, hm, hk⟩ := Comp.returns_bind.mp hk
  obtain ⟨rfl, hshort⟩ :=
    (MappingSettingModifyRecord.passByIterators_returns_iff hagrees).mp (Comp.returns_mapError.mp hm)
  obtain rfl := Except.ok.inj (Comp.yields_pure.mp hk)
  obtain rfl := Except.ok.inj (Comp.yields_pure.mp hq)
  exact ⟨rfl, hshort⟩

lemma Short.set (hp : Short p.keeping.paramModifyRecordMapping) (h : (p.setByIterators sensitive call).Returns q) :
    Short q.keeping.paramModifyRecordMapping := by
  obtain ⟨hagrees, hloaded, -⟩ :=
    MappingSettingModifyRecord.update_agrees hp.agrees hp.loaded (p.item call)
  obtain ⟨hq, hshort⟩ := of_setByIterators hagrees h
  exact ⟨hq ▸ hagrees, hq ▸ hloaded, hq ▸ hshort⟩

end Set

section Load

open MappingSettingModifyRecord

lemma parses_of_loadLines {s t : MappingSettingModifyRecord} {lines : List Bytes}
    (h : s.loadModifyRecordLines true lines = .ok t) : Parses lines := by
  induction lines generalizing s with
  | nil => exact List.forall_mem_nil _
  | cons line lines ih =>
    obtain ⟨item, hitem, h⟩ := bind_eq_ok.mp h
    refine List.forall_mem_cons.mpr ⟨fun herror => ?_, ih h⟩
    cases hitem.symm.trans herror

lemma parses_of_load {created : Bool} {file : Bytes} {lines : List Bytes} {t : MappingSettingModifyRecord}
    (hg : getlines file = versionHeader :: lines) (h : (init created).loadRecords file = .ok t) : Parses lines := by
  obtain ⟨stat, -, h⟩ := bind_eq_ok.mp h
  obtain ⟨s, h, -⟩ := bind_eq_ok.mp h
  rw [hg, load_cons, if_pos rfl] at h
  exact parses_of_loadLines h

lemma Short.load {created : Bool} {configFiles : List (Option Bytes)} {file : Bytes} {lines : List Bytes}
    (hg : getlines file = versionHeader :: lines)
    (h : ((start created file).loadByIterators sensitive configFiles).Returns p) :
    Short p.keeping.paramModifyRecordMapping := by
  obtain ⟨keeping, hk, hp⟩ := Comp.returns_bind.mp h
  obtain ⟨m, hm, hk⟩ := Comp.returns_bind.mp hk
  obtain rfl := Except.ok.inj (Comp.yields_pure.mp hk)
  obtain rfl := Except.ok.inj (Comp.yields_pure.mp hp)
  obtain ⟨s, hs, hpass⟩ := Comp.returns_bind.mp hm
  have hs : (init created).loadRecords file = .ok s :=
    (Comp.yields_ofExcept.mp (Comp.returns_mapError.mp hs)).symm
  have hparses : Parses (parsedLines file) := by
    have hf : find (bytes "=") versionHeader ≠ none := by decide
    simpa only [parsedLines, hg, if_neg hf] using parses_of_load hg hs
  obtain rfl := Except.ok.inj (hs.symm.trans (loadRecords_eq created hparses))
  have hagrees := filled_agrees created hg
  obtain ⟨rfl, hshort⟩ := (passByIterators_returns_iff hagrees).mp (Comp.returns_mapError.mp hpass)
  exact ⟨hagrees, rfl, hshort⟩

lemma Short.loadThenSet {created : Bool} {configFiles : List (Option Bytes)} {file : Bytes} {lines : List Bytes}
    (hg : getlines file = versionHeader :: lines) {calls : List SetCall}
    (h : (loadThenSetByIterators sensitive created file configFiles calls).Returns p) :
    Short p.keeping.paramModifyRecordMapping := by
  obtain ⟨q, hq, hp⟩ := Comp.returns_bind.mp h
  exact Comp.foldlM_invariant (fun p => Short p.keeping.paramModifyRecordMapping)
    (fun _ _ _ _ hs hset => hs.set hset) (Short.load hg hq) hp

end Load

section Retention

lemma records_set (hp : Short p.keeping.paramModifyRecordMapping)
    (hq : q.keeping.paramModifyRecordMapping = p.updated call) (l : Bytes) :
    q.records l = if Accepted (p.item call) ∧ l = (p.item call).paramName then p.records l ++ [p.item call]
      else p.records l := by
  obtain ⟨-, -, hrecords⟩ := MappingSettingModifyRecord.update_agrees hp.agrees hp.loaded (p.item call)
  rw [records, hq]
  exact hrecords l

lemma set_retains (hp : Short p.keeping.paramModifyRecordMapping) (hn : AcceptedName call.name)
    (hlt : (p.records call.name).length < 10) : ∃ q, (p.setByIterators sensitive call).Returns q
      ∧ RetentionHolds p.records q.records (p.item call) := by
  have ha : Accepted (p.item call) := ⟨hn, p.item_stamp call⟩
  obtain ⟨hagrees, -, -⟩ := MappingSettingModifyRecord.update_agrees hp.agrees hp.loaded (p.item call)
  have hshort : ∀ name, ((p.updated call).records name).length ≤ 10 := by
    intro name
    have hrecords := records_set (q := { p with keeping := { p.keeping with
      paramModifyRecordMapping := p.updated call } }) hp rfl name
    change (p.updated call).records name = _ at hrecords
    rw [hrecords]
    split_ifs with hname
    · rw [hname.2, List.length_append, List.length_singleton]
      exact hlt
    · exact hp.length_le name
  obtain ⟨q, hq, hmap⟩ : ∃ q, (p.setByIterators sensitive call).Returns q
      ∧ q.keeping.paramModifyRecordMapping = p.updated call := setByIterators_returns hagrees hshort
  refine ⟨q, hq, retentionHolds_appended hlt ?_ fun l hl => ?_⟩
  · exact (records_set hp hmap _).trans (if_pos ⟨ha, rfl⟩)
  · exact (records_set hp hmap l).trans (if_neg fun h => hl h.2)

lemma of_set_retains (hp : Short p.keeping.paramModifyRecordMapping)
    (hq : (p.setByIterators sensitive call).Returns q) (hr : RetentionHolds p.records q.records (p.item call)) :
    AcceptedName call.name ∧ (p.records call.name).length < 10 := by
  obtain ⟨hagrees, -, -⟩ := MappingSettingModifyRecord.update_agrees hp.agrees hp.loaded (p.item call)
  obtain ⟨hmap, hshort⟩ := of_setByIterators hagrees hq
  have hcount := hr.count
  rw [records_set hp hmap] at hcount
  have hlast := hshort (p.item call).paramName
  rw [← hmap] at hlast
  change (q.records (p.item call).paramName).length ≤ 10 at hlast
  rw [records_set hp hmap] at hlast
  by_cases ha : Accepted (p.item call)
  · rw [if_pos ⟨ha, rfl⟩, List.length_append, List.length_singleton] at hlast
    exact ⟨ha.1, hlast⟩
  · -- A name that is not kept has no records.
    rw [if_neg fun h => ha h.1] at hcount
    have hnil : p.records (p.item call).paramName = [] := by
      refine List.eq_nil_iff_forall_not_mem.mpr fun r hr => ha ⟨?_, p.item_stamp call⟩
      obtain ⟨hname, haccepted⟩ := hp.agrees.kept _ r hr
      exact hname ▸ haccepted.1
    rw [hnil] at hcount
    exact absurd hcount (by decide)

/-- A `set` keeps the histories exactly where it has no record to delete. -/
theorem set_retention_iff {created : Bool} {configFiles : List (Option Bytes)} {file : Bytes}
    {lines : List Bytes} (hg : getlines file = versionHeader :: lines) {calls : List SetCall}
    (hp : (loadThenSetByIterators sensitive created file configFiles calls).Returns p) :
    (∃ q, (p.setByIterators sensitive call).Returns q ∧ RetentionHolds p.records q.records (p.item call)) ↔
      AcceptedName call.name ∧ (p.records call.name).length < 10 := by
  have hshort := Short.loadThenSet hg hp
  constructor
  · rintro ⟨q, hq, hr⟩
    exact of_set_retains hshort hq hr
  · rintro ⟨hn, hlt⟩
    exact set_retains hshort hn hlt

theorem set_retention_iff_ninth : ∃ p, (loadThenSetByIterators [] true someFile []
      [callAt 1]).Returns p ∧ (p.records (bytes "p")).length = 9 ∧
    ∃ q, (p.setByIterators [] (callAt 2)).Returns q ∧
      RetentionHolds p.records q.records (p.item (callAt 2)) := by
  have hrun : (do
      let p ← loadThenSetByIterators [] true someFile [] [callAt 1]
      return (p.records (bytes "p")).length).Returns 9 := ⟨3, by decide +kernel⟩
  obtain ⟨p, hp, hlen⟩ := Comp.returns_bind.mp hrun
  have hlen : (p.records (bytes "p")).length = 9 := (Except.ok.inj (Comp.yields_pure.mp hlen)).symm
  have hg : getlines someFile = versionHeader :: (getlines someFile).tail := by decide +kernel
  refine ⟨p, hp, hlen, (set_retention_iff hg hp).mpr ⟨by decide, ?_⟩⟩
  exact hlen.trans_lt (by decide)

-- The eleventh of eleven `set` calls, one a second, has a record to delete.
theorem set_retention_faults :
    ¬ ∀ (sensitive : List Bytes) (created : Bool) (configFiles : List (Option Bytes)) (file : Bytes)
        (lines : List Bytes), getlines file = versionHeader :: lines →
      ∀ (calls : List SetCall) (call : SetCall) (p : Process),
      (loadThenSetByIterators sensitive created file configFiles calls).Returns p →
      ∃ q, (p.setByIterators sensitive call).Returns q ∧
        RetentionHolds p.records q.records (p.item call) := by
  intro h
  let calls := [1, 2, 3, 4, 5, 6, 7, 8, 9, 10].map callAt
  have hrun : (do
      let p ← loadThenSetByIterators [] true (bytes "CFversion=1.0\n") [] calls
      return (p.records (bytes "p")).length).Returns 10 := ⟨3, by decide +kernel⟩
  obtain ⟨p, hp, hlen⟩ := Comp.returns_bind.mp hrun
  have hlen : (p.records (bytes "p")).length = 10 := (Except.ok.inj (Comp.yields_pure.mp hlen)).symm
  have hg : getlines (bytes "CFversion=1.0\n") = versionHeader :: [] := by decide
  obtain ⟨q, hq, hr⟩ := h [] true [] (bytes "CFversion=1.0\n") [] hg calls (callAt 11) p hp
  obtain ⟨-, hlt⟩ := of_set_retains (Short.loadThenSet hg hp) hq hr
  change (p.records (bytes "p")).length < 10 at hlt
  omega

end Retention

end Process

end SimpleCode.KeepingSettingModify
