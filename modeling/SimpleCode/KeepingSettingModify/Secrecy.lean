import SimpleCode.KeepingSettingModify.Histories

set_option autoImplicit false

namespace SimpleCode.KeepingSettingModify

open Foundations Foundations.Bytes Threads MappingSettingModifyRecord

variable {sensitive : List Bytes}

structure SameRecord (sensitive : List Bytes) (name : Bytes) (r r' : ParametersItem) : Prop where
  rest : { r with newValue := [] } = { r' with newValue := [] }
  value : name ∉ sensitive → r = r'

section Record

variable {name : Bytes} {r r' : ParametersItem} (h : SameRecord sensitive name r r')

include h

lemma SameRecord.paramName : r.paramName = r'.paramName := by
  have hname := congrArg ParametersItem.paramName h.rest
  exact hname

lemma SameRecord.stamp : r.modifyTimeStamp = r'.modifyTimeStamp := by
  have hstamp := congrArg ParametersItem.modifyTimeStamp h.rest
  exact hstamp

lemma SameRecord.format :
    formatRecord sensitive (name, r) = formatRecord sensitive (name, r') := by
  by_cases hs : name ∈ sensitive
  · have hsource := congrArg ParametersItem.sourceModule h.rest
    have hfile := congrArg ParametersItem.modifiedFile h.rest
    simp only at hsource hfile
    simp only [formatRecord, hs, if_true, h.stamp, hsource, hfile]
  · rw [h.value hs]

end Record

lemma SameRecord.refl (name : Bytes) (r : ParametersItem) : SameRecord sensitive name r r :=
  ⟨rfl, fun _ => rfl⟩

lemma earlier_same {name : Bytes} {rs rs' : List ParametersItem}
    (h : List.Forall₂ (SameRecord sensitive name) rs rs') (t : Bytes) :
    (rs.foldl (fun t r => if dateTimeCompare t r.modifyTimeStamp > 0 then r.modifyTimeStamp
      else t) t) =
      rs'.foldl (fun t r => if dateTimeCompare t r.modifyTimeStamp > 0 then r.modifyTimeStamp
        else t) t := by
  induction h generalizing t with
  | nil => rfl
  | cons hab _ ih =>
    rw [List.foldl_cons, List.foldl_cons, hab.stamp]
    exact ih _

structure SameStore (sensitive : List Bytes) (s s' : MappingSettingModifyRecord) : Prop where
  records : OrderedMultimap.Alike (SameRecord sensitive) s.paramModifyRecordMap
    s'.paramModifyRecordMap
  statistics : s.paramStatisticsMapping = s'.paramStatisticsMapping
  mutex : s.mutex = s'.mutex
  loaded : s.isModifyRecordMappingLoaded = s'.isModifyRecordMappingLoaded

section Store

variable {s s' : MappingSettingModifyRecord} (h : SameStore sensitive s s')

include h

lemma SameStore.update {item item' : ParametersItem}
    (hi : SameRecord sensitive item.paramName item item') :
    SameStore sensitive (s.updateModifyRecordParamMap item).2
      (s'.updateModifyRecordParamMap item').2 := by
  have hcount : s.paramStatisticsMapping.updateStatisticsRecord item =
      s'.paramStatisticsMapping.updateStatisticsRecord item' := by
    rw [h.statistics]
    unfold MappingSettingStatistics.updateStatisticsRecord
    rw [hi.paramName, hi.stamp]
  unfold updateModifyRecordParamMap
  simp only [← hi.paramName, ← hi.stamp, ← hcount, ← h.loaded]
  split_ifs
  · exact h
  · exact ⟨h.records.insert hi, rfl, h.mutex, rfl⟩
  · exact ⟨h.records.insert hi, h.statistics, h.mutex, rfl⟩

lemma SameStore.delete (name timeStamp : Bytes) :
    SameStore sensitive (s.deleteModifyRecordByTimeStamp name timeStamp).2
      (s'.deleteModifyRecordByTimeStamp name timeStamp).2 := by
  have hnil : s.paramModifyRecordMap.values name = [] ↔
      s'.paramModifyRecordMap.values name = [] := by
    rw [← List.length_eq_zero_iff, ← List.length_eq_zero_iff, (h.records.values name).length_eq]
  unfold deleteModifyRecordByTimeStamp
  simp only [hnil]
  split_ifs
  · exact h
  · refine ⟨h.records.eraseIf fun k v w hvw => ?_, h.statistics, h.mutex, h.loaded⟩
    rw [hvw.stamp]

lemma SameStore.earliest (name timeStamp : Bytes) :
    s.getModifyRecordEarliestTimeStamp name timeStamp =
      s'.getModifyRecordEarliestTimeStamp name timeStamp := by
  have hvalues := h.records.values name
  unfold getModifyRecordEarliestTimeStamp
  generalize s.paramModifyRecordMap.values name = rs at hvalues
  generalize s'.paramModifyRecordMap.values name = rs' at hvalues
  cases hvalues with
  | nil => rfl
  | cons hab hrest =>
    have hfold := earlier_same (.cons hab hrest)
    simp only [hab.stamp, hfold]

lemma SameStore.withStatistics {st st' : MappingSettingStatistics} (hst : st = st') :
    SameStore sensitive { s with paramStatisticsMapping := st }
      { s' with paramStatisticsMapping := st' } :=
  ⟨h.records, hst, h.mutex, h.loaded⟩

lemma SameStore.round (name : Bytes) :
    SameStore sensitive (dereplicationRound name s) (dereplicationRound name s') := by
  have hd := h.delete name (s.paramStatisticsMapping.getStatisticsRecordTimeStamps name)
  simp only [dereplicationRound]
  rw [← h.statistics, ← h.records.size, ← hd.records.size, ← hd.statistics]
  have hcounted := hd.withStatistics (Eq.refl ((s.deleteModifyRecordByTimeStamp name
    (s.paramStatisticsMapping.getStatisticsRecordTimeStamps
      name)).2.paramStatisticsMapping.modifyStatisticsRecordCount name .minus
    (s.paramModifyRecordMap.size - (s.deleteModifyRecordByTimeStamp name
      (s.paramStatisticsMapping.getStatisticsRecordTimeStamps name)).2.paramModifyRecordMap.size)).2)
  have hearliest := hcounted.earliest name
    (s.paramStatisticsMapping.getStatisticsRecordTimeStamps name)
  rw [hearliest]
  exact hcounted.withStatistics rfl

lemma SameStore.dereplicate :
    Comp.Related (SameStore sensitive) s.dereplicationModifyRecordParamMap
      s'.dereplicationModifyRecordParamMap := by
  unfold dereplicationModifyRecordParamMap
  rw [← h.statistics]
  apply Comp.related_foldlM (S := Eq) ?_ (List.forall₂_eq_eq_eq ▸ rfl) h
  rintro s s' e _ hs rfl
  apply Comp.related_loop ?_ ?_ hs
  · intro t t' ht
    rw [ht.statistics]
  · intro t t' ht
    exact Comp.related_pure (ht.round _)

lemma SameStore.loadLines (flag : Bool) (lines : List Bytes) :
    Comp.RunRelated (SameStore sensitive) (some (s.loadModifyRecordLines flag lines))
      (some (s'.loadModifyRecordLines flag lines)) := by
  induction lines generalizing s s' flag with
  | nil => exact h
  | cons line lines ih =>
    cases flag with
    | false =>
      rw [load_cons, load_cons]
      split_ifs
      · exact ih h true
      · exact h
    | true =>
      rw [loadModifyRecordLines, loadModifyRecordLines]
      cases parseRecordLine line with
      | error e => rfl
      | ok p => exact ih (h.update (.refl _ p.item)) true

lemma SameStore.load (file : Bytes) :
    Comp.Related (SameStore sensitive) (s.loadModifyRecordParam file)
      (s'.loadModifyRecordParam file) := by
  unfold loadModifyRecordParam
  rw [h.statistics]
  apply Comp.Related.bind (R := Eq)
  · apply Comp.related_ofExcept
    cases s'.paramStatisticsMapping.loadStatisticsRecord file <;> rfl
  · rintro st _ rfl
    apply Comp.Related.bind
    · exact Comp.related_ofExcept ((h.withStatistics rfl).loadLines false (getlines file))
    · intro t t' ht
      exact SameStore.dereplicate ⟨ht.records, ht.statistics, ht.mutex, rfl⟩

lemma SameStore.formatFile :
    formatFile sensitive s.paramModifyRecordMap = formatFile sensitive s'.paramModifyRecordMap := by
  have hentries := h.records
  unfold OrderedMultimap.Alike at hentries
  unfold MappingSettingModifyRecord.formatFile
  congr 1
  generalize s.paramModifyRecordMap.entries = es at hentries
  generalize s'.paramModifyRecordMap.entries = fs at hentries
  induction hentries with
  | nil => rfl
  | @cons a b _ _ hab _ ih =>
    obtain ⟨k, v⟩ := a
    obtain ⟨l, w⟩ := b
    obtain ⟨hkl, hvw⟩ := hab
    obtain rfl : k = l := hkl
    rw [List.flatMap_cons, List.flatMap_cons, ih, hvw.format]

end Store

inductive SameLine (sensitive : List Bytes) (P : Bytes → Prop) : Bytes → Bytes → Prop
  | same (l : Bytes) : SameLine sensitive P l l
  | secret {name v v' : Bytes} : name ∈ sensitive → (61 : UInt8) ∉ name →
      P (name ++ bytes "=" ++ v) → P (name ++ bytes "=" ++ v') →
      SameLine sensitive P (name ++ bytes "=" ++ v) (name ++ bytes "=" ++ v')

inductive SameFile (sensitive : List Bytes) (P : Bytes → Prop) : Bytes → Bytes → Prop
  | last {l l' : Bytes} : SameLine sensitive P l l' → (10 : UInt8) ∉ l → (10 : UInt8) ∉ l' →
      SameFile sensitive P l l'
  | line {l l' f f' : Bytes} : SameLine sensitive P l l' → (10 : UInt8) ∉ l → (10 : UInt8) ∉ l' →
      SameFile sensitive P f f' → SameFile sensitive P (l ++ 10 :: f) (l' ++ 10 :: f')

def EofFree (l : Bytes) : Prop := eofChar ∉ l

section Config

variable {m : ParamConfigFileMap} {line l f f' : Bytes}

lemma loadConfigFile_congr (hl : (10 : UInt8) ∉ l)
    (hf : ∀ m, loadConfigFile sensitive m [] f = loadConfigFile sensitive m [] f') :
    loadConfigFile sensitive m line (l ++ 10 :: f) =
      loadConfigFile sensitive m line (l ++ 10 :: f') := by
  have heof : (10 : UInt8) ≠ eofChar := by decide
  induction l generalizing m line with
  | nil => simp [loadConfigFile, heof, hf]
  | cons c l ih =>
    obtain ⟨-, hrest⟩ := not_or.mp (mt List.mem_cons.mpr hl)
    rw [List.cons_append, List.cons_append, loadConfigFile, loadConfigFile]
    split_ifs
    · rfl
    · exact ih hrest
    · exact ih hrest

lemma loadConfigFile_line (hl : (10 : UInt8) ∉ l) (he : EofFree l) :
    loadConfigFile sensitive m line (l ++ 10 :: f) =
      loadConfigFile sensitive (endOfConfigLine sensitive m (line ++ l)) [] f := by
  have heof : (10 : UInt8) ≠ eofChar := by decide
  induction l generalizing line with
  | nil => simp [loadConfigFile, heof]
  | cons c l ih =>
    obtain ⟨hc, hrest⟩ := not_or.mp (mt List.mem_cons.mpr hl)
    obtain ⟨hce, hrest'⟩ := not_or.mp (mt List.mem_cons.mpr he)
    rw [List.cons_append, loadConfigFile, if_neg (fun h => hce h.1.symm),
      if_pos ⟨Ne.symm hc, Ne.symm hce⟩, ih hrest hrest', List.append_assoc, List.singleton_append]

lemma loadConfigFile_last (hl : (10 : UInt8) ∉ l) (he : EofFree l) (hne : line ++ l ≠ []) :
    loadConfigFile sensitive m line l = endOfConfigLine sensitive m (line ++ l) := by
  induction l generalizing line with
  | nil =>
    rw [List.append_nil] at hne
    rw [loadConfigFile, if_neg hne, List.append_nil]
  | cons c l ih =>
    obtain ⟨hc, hrest⟩ := not_or.mp (mt List.mem_cons.mpr hl)
    obtain ⟨hce, hrest'⟩ := not_or.mp (mt List.mem_cons.mpr he)
    rw [loadConfigFile, if_neg (fun h => hce h.1.symm), if_pos ⟨Ne.symm hc, Ne.symm hce⟩,
      ih hrest hrest' (by simp), List.append_assoc, List.singleton_append]

lemma endOfConfigLine_secret {name : Bytes} (hs : name ∈ sensitive) (hn : (61 : UInt8) ∉ name)
    (v : Bytes) :
    endOfConfigLine sensitive m (name ++ bytes "=" ++ v) =
      if name = [] then m else m.insert name [] := by
  have hinfix : ¬ bytes "=" <:+: name := fun h => hn (h.subset (by decide))
  have hborder : ¬ Overlaps name (bytes "=") := by
    rw [overlaps_iff, show borders (bytes "=") = [] by decide]
    simp
  have hfind : find (bytes "=") (name ++ bytes "=" ++ v) = some name.length :=
    (find_append hinfix).mpr hborder
  have htake : (name ++ bytes "=" ++ v).take name.length = name := by
    rw [List.append_assoc, List.take_left]
  simp only [endOfConfigLine, hfind, htake, updateConfigFileParamMap, filteringSensitiveParam, hs,
    decide_true, if_true]
  split_ifs <;> rfl

theorem loadConfigFile_same (h : SameFile sensitive EofFree f f') :
    loadConfigFile sensitive m [] f = loadConfigFile sensitive m [] f' := by
  induction h generalizing m with
  | last hline hl hl' =>
    cases hline with
    | same => rfl
    | secret hs hn hv hv' =>
      rw [loadConfigFile_last hl hv (by simp [bytes]), loadConfigFile_last hl' hv' (by simp [bytes]),
        List.nil_append, List.nil_append, endOfConfigLine_secret hs hn, endOfConfigLine_secret hs hn]
  | line hline hl hl' _ ih =>
    cases hline with
    | same => exact loadConfigFile_congr hl fun m => ih
    | secret hs hn hv hv' =>
      rw [loadConfigFile_line hl hv, loadConfigFile_line hl' hv', List.nil_append, List.nil_append,
        endOfConfigLine_secret hs hn, endOfConfigLine_secret hs hn, ih]

lemma loadConfigFileParam_same {files files' : List (Option Bytes)}
    (h : List.Forall₂ (Option.Rel (SameFile sensitive EofFree)) files files') :
    loadConfigFileParam sensitive m files = loadConfigFileParam sensitive m files' := by
  induction h generalizing m with
  | nil => rfl
  | cons hfile _ ih =>
    cases hfile with
    | none => rfl
    | some hfile => rw [loadConfigFileParam, loadConfigFileParam, loadConfigFile_same hfile, ih]

end Config

inductive SameCall (sensitive : List Bytes) (P : Bytes → Prop) : Call → Call → Prop
  | load {files files' : List (Option Bytes)} :
      List.Forall₂ (Option.Rel (SameFile sensitive P)) files files' →
      SameCall sensitive P (.load files) (.load files')
  | set {c c' : SetCall} : { c with value := [] } = { c' with value := [] } →
      (c.name ∉ sensitive → c = c') → SameCall sensitive P (.set c) (.set c')
  | save (fopen : Bool) : SameCall sensitive P (.save fopen) (.save fopen)

structure SameKeeping (sensitive : List Bytes) (s s' : SettingModifyRecordKeeping) : Prop where
  item : SameRecord sensitive s.paramItem.paramName s.paramItem s'.paramItem
  store : SameStore sensitive s.paramModifyRecordMapping s'.paramModifyRecordMapping
  config : s.paramConfigFileMapping = s'.paramConfigFileMapping
  reset : s.gModifyRecordResetFlag = s'.gModifyRecordResetFlag

structure SameProcess (sensitive : List Bytes) (p p' : Process) : Prop where
  keeping : SameKeeping sensitive p.keeping p'.keeping
  recordFile : p.recordFile = p'.recordFile
  saved : p.saved = p'.saved

lemma updateConfig_same {m : ParamConfigFileMap} {item item' : ParametersItem}
    (h : SameRecord sensitive item.paramName item item') :
    updateConfigFileParamMap sensitive m item.paramName item.newValue =
      updateConfigFileParamMap sensitive m item'.paramName item'.newValue := by
  rw [← h.paramName]
  by_cases hs : item.paramName ∈ sensitive
  · simp [updateConfigFileParamMap, filteringSensitiveParam, hs]
  · rw [h.value hs]

lemma SameStore.formating {s s' : MappingSettingModifyRecord} (h : SameStore sensitive s s')
    (fopen : Bool) :
    Comp.Related (fun x x' => SameStore sensitive x.2.1 x'.2.1 ∧ x.2.2 = x'.2.2)
      (s.formatingParamItemOutput sensitive fopen) (s'.formatingParamItemOutput sensitive fopen) := by
  unfold formatingParamItemOutput
  rw [← h.mutex, ← h.formatFile]
  apply Comp.Related.bind (R := Eq)
  · cases s.mutex with
    | null => exact Comp.related_pure rfl
    | free => exact Comp.related_pure rfl
    | locked => exact Comp.related_diverge
  · rintro x _ rfl
    cases fopen with
    | false => exact Comp.related_pure ⟨⟨h.records, h.statistics, rfl, h.loaded⟩, rfl⟩
    | true => exact Comp.related_pure ⟨⟨h.records, h.statistics, rfl, h.loaded⟩, rfl⟩

section Keeping

variable {s s' : SettingModifyRecordKeeping} (h : SameKeeping sensitive s s')

include h

lemma SameKeeping.initialParamItem {c c' : SetCall}
    (hc : { c with value := [] } = { c' with value := [] }) (hv : c.name ∉ sensitive → c = c') :
    SameRecord sensitive c.name (s.initialParamItem c.name c.value c.module c.fileTag c.clock)
      (s'.initialParamItem c'.name c'.value c'.module c'.fileTag c'.clock) := by
  obtain ⟨name, value, module, fileTag, clock⟩ := c
  obtain ⟨name', value', module', fileTag', clock'⟩ := c'
  simp only [SetCall.mk.injEq, true_and] at hc
  obtain ⟨rfl, rfl, rfl, rfl⟩ := hc
  have hold : s.paramItem.oldValue = s'.paramItem.oldValue := by
    have hrest := congrArg ParametersItem.oldValue h.item.rest
    exact hrest
  constructor
  · simp only [SettingModifyRecordKeeping.initialParamItem, hold, h.config]
  · intro hn
    obtain ⟨rfl⟩ : value = value' := by simpa using hv hn
    simp only [SettingModifyRecordKeeping.initialParamItem, hold, h.config]

lemma SameKeeping.load {files files' : List (Option Bytes)}
    (hf : List.Forall₂ (Option.Rel (SameFile sensitive EofFree)) files files') (file : Bytes) :
    Comp.Related (SameKeeping sensitive) (s.load sensitive files file)
      (s'.load sensitive files' file) := by
  unfold SettingModifyRecordKeeping.load
  rw [loadConfigFileParam_same hf, h.config]
  apply Comp.Related.bind (h.store.load file)
  intro t t' ht
  exact Comp.related_pure ⟨h.item, ht, rfl, h.reset⟩

lemma SameKeeping.set {c c' : SetCall} (hc : { c with value := [] } = { c' with value := [] })
    (hv : c.name ∉ sensitive → c = c') :
    Comp.Related (SameKeeping sensitive)
      (s.set sensitive c.name c.value c.module c.fileTag c.clock)
      (s'.set sensitive c'.name c'.value c'.module c'.fileTag c'.clock) := by
  have hi := h.initialParamItem hc hv
  unfold SettingModifyRecordKeeping.set
  apply Comp.Related.bind (h.store.update hi).dereplicate
  intro t t' ht
  refine Comp.related_pure ⟨hi, ht, ?_, h.reset⟩
  rw [h.config]
  exact congrArg Prod.snd (updateConfig_same hi)

lemma SameKeeping.save (fopen : Bool) :
    Comp.Related (fun x x' => SameKeeping sensitive x.1 x'.1 ∧ x.2 = x'.2)
      (s.save sensitive fopen) (s'.save sensitive fopen) := by
  unfold SettingModifyRecordKeeping.save
  rw [h.reset]
  split_ifs
  · exact Comp.related_pure ⟨h, rfl⟩
  · apply Comp.Related.bind (h.store.formating fopen)
    rintro ⟨r, t, w⟩ ⟨r', t', w'⟩ ⟨ht, hw⟩
    refine Comp.related_pure ⟨⟨h.item, ht, ?_, rfl⟩, hw⟩
    rw [h.config]
    exact congrArg Prod.snd (updateConfig_same h.item)

end Keeping

namespace Process

lemma step_same {p p' : Process} (h : SameProcess sensitive p p') {c c' : Call}
    (hc : SameCall sensitive EofFree c c') :
    Comp.Related (SameProcess sensitive) (p.step sensitive c) (p'.step sensitive c') := by
  cases hc with
  | load hf =>
    have hload := h.keeping.load hf p'.recordFile
    rw [Process.step, Process.step, h.recordFile]
    apply Comp.Related.bind hload
    intro t t' ht
    exact Comp.related_pure ⟨ht, rfl, h.saved⟩
  | set hc hv =>
    apply Comp.Related.bind (h.keeping.set hc hv)
    intro t t' ht
    exact Comp.related_pure ⟨ht, h.recordFile, h.saved⟩
  | save fopen =>
    apply Comp.Related.bind (h.keeping.save fopen)
    rintro ⟨t, w⟩ ⟨t', w'⟩ ⟨ht, hw⟩
    obtain rfl : w = w' := hw
    refine Comp.related_pure ⟨ht, ?_, ?_⟩
    · simp only [h.recordFile]
    · simp only [h.saved]

lemma start_same (created : Bool) (recordFile : Bytes) :
    SameProcess sensitive (start created recordFile) (start created recordFile) where
  keeping := ⟨.refl _ _, ⟨.nil, rfl, rfl, rfl⟩, rfl, rfl⟩
  recordFile := rfl
  saved := rfl

/-- Two runs whose calls differ only in sensitive values, no byte of them taken for the end of a
file, go the same way and write the same files. -/
theorem saved_same (created : Bool) (recordFile : Bytes) {calls calls' : List Call}
    (h : List.Forall₂ (SameCall sensitive EofFree) calls calls') :
    Comp.Related (fun p p' => p.saved = p'.saved) ((start created recordFile).run sensitive calls)
      ((start created recordFile).run sensitive calls') := by
  have hrun : Comp.Related (SameProcess sensitive) ((start created recordFile).run sensitive calls)
      ((start created recordFile).run sensitive calls') := by
    apply Comp.related_foldlM ?_ h (start_same created recordFile)
    intro p p' c c' hp hc
    exact step_same hp hc
  exact hrun.mono fun _ _ hp => hp.saved

def secretCalls (secret new : Bytes) : List Call :=
  [.load [some (bytes "p=" ++ secret ++ bytes "\nq=1\n")], .set { someCall with value := new },
    .set { someCall with name := bytes "q" }, .save true]

lemma secretCalls_same (P : Bytes → Prop) {secret secret' : Bytes} (new new' : Bytes)
    (hs : (10 : UInt8) ∉ bytes "p=" ++ secret) (hs' : (10 : UInt8) ∉ bytes "p=" ++ secret')
    (hp : P (bytes "p=" ++ secret)) (hp' : P (bytes "p=" ++ secret')) :
    List.Forall₂ (SameCall [bytes "p"] P) (secretCalls secret new) (secretCalls secret' new') := by
  have hline : SameLine [bytes "p"] P (bytes "p=" ++ secret) (bytes "p=" ++ secret') :=
    .secret (List.mem_singleton_self (bytes "p")) (by decide) hp hp'
  have hend : SameFile [bytes "p"] P (bytes "q=1\n") (bytes "q=1\n") :=
    .line (.same (bytes "q=1")) (by decide) (by decide)
      (.last (.same []) List.not_mem_nil List.not_mem_nil)
  have hfile : SameFile [bytes "p"] P (bytes "p=" ++ secret ++ bytes "\nq=1\n")
      (bytes "p=" ++ secret' ++ bytes "\nq=1\n") := .line hline hs hs' hend
  have hset : (bytes "p") ∈ [bytes "p"] := List.mem_singleton_self (bytes "p")
  exact .cons (.load (.cons (.some hfile) .nil)) (.cons (.set rfl fun hn => absurd hset hn)
    (.cons (.set rfl fun _ => rfl) (.cons (.save true) .nil)))

theorem saved_same_secret :
    List.Forall₂ (SameCall [bytes "p"] EofFree) (secretCalls (bytes "a") (bytes "b"))
      (secretCalls (bytes "c") (bytes "d")) ∧
    Comp.Related (fun p p' => p.saved = p'.saved)
      ((start true []).run [bytes "p"] (secretCalls (bytes "a") (bytes "b")))
      ((start true []).run [bytes "p"] (secretCalls (bytes "c") (bytes "d"))) :=
  have hsame := secretCalls_same EofFree (bytes "b") (bytes "d")
    (show (10 : UInt8) ∉ bytes "p=" ++ bytes "a" by decide)
    (show (10 : UInt8) ∉ bytes "p=" ++ bytes "c" by decide)
    (show (255 : UInt8) ∉ bytes "p=" ++ bytes "a" by decide)
    (show (255 : UInt8) ∉ bytes "p=" ++ bytes "c" by decide)
  ⟨hsame, saved_same true [] hsame⟩

/-- A configured secret with two bytes 255 ends the file, and the next parameter has lost its old
value. -/
theorem saved_differ :
    ¬ ∀ (sensitive : List Bytes) (created : Bool) (recordFile : Bytes) (calls calls' : List Call)
        (p p' : Process), List.Forall₂ (SameCall sensitive fun _ => True) calls calls' →
      ((start created recordFile).run sensitive calls).Returns p →
      ((start created recordFile).run sensitive calls').Returns p' → p.saved = p'.saved := by
  intro h
  have hsame := secretCalls_same (fun _ => True) [] []
    (show (10 : UInt8) ∉ bytes "p=" ++ bytes "a" by decide)
    (show (10 : UInt8) ∉ bytes "p=" ++ [97, 255, 255] by decide) trivial trivial
  have hrun : (do
      let p ← (start true []).run [bytes "p"] (secretCalls (bytes "a") [])
      let p' ← (start true []).run [bytes "p"] (secretCalls [97, 255, 255] [])
      return decide (p.saved = p'.saved)).Returns false := ⟨3, by decide +kernel⟩
  obtain ⟨p, hp, hrun⟩ := Comp.returns_bind.mp hrun
  obtain ⟨p', hp', hrun⟩ := Comp.returns_bind.mp hrun
  simp only [Comp.yields_pure, Except.ok.injEq, false_eq_decide_iff] at hrun
  exact hrun (h [bytes "p"] true [] _ _ p p' hsame hp hp')

end Process

end SimpleCode.KeepingSettingModify
