import SimpleCode.KeepingSettingModify.ConfigLines
import SimpleCode.KeepingSettingModify.RoundTrip

set_option autoImplicit false

namespace SimpleCode.KeepingSettingModify

open Foundations Foundations.Bytes

variable {sensitive : List Bytes}

def lastAssigned (as : List (Bytes × Bytes)) (name : Bytes) : Option Bytes :=
  (as.reverse.find? fun a => a.1 = name).map Prod.snd

lemma lastAssigned_append (as : List (Bytes × Bytes)) (a : Bytes × Bytes) (name : Bytes) :
    lastAssigned (as ++ [a]) name = if a.1 = name then some a.2 else lastAssigned as name := by
  rw [lastAssigned, List.reverse_append, List.reverse_singleton, List.singleton_append]
  by_cases ha : a.1 = name
  · rw [List.find?_cons_of_pos (by simpa using ha), if_pos ha]
    rfl
  · rw [List.find?_cons_of_neg (by simpa using ha), if_neg ha]
    rfl

lemma find?_foldl_assign (as : List (Bytes × Bytes)) (name : Bytes) :
    (as.foldl assign (.empty : ParamConfigFileMap)).find? name = lastAssigned as name := by
  induction as using List.reverseRecOn with
  | nil => rfl
  | append_singleton as a ih =>
    rw [List.foldl_append, lastAssigned_append, List.foldl_cons, List.foldl_nil, assign]
    by_cases ha : a.1 = name
    · rw [if_pos ha, ha, OrderedMap.find?_insert_self]
    · rw [if_neg ha, OrderedMap.find?_insert_of_ne _ _ (Ne.symm ha), ih]

/-- The files that `loadConfigFileParam` reads: a file that is missing ends the load. -/
def openedFiles (configFiles : List (Option Bytes)) : List Bytes :=
  (configFiles.takeWhile Option.isSome).filterMap id

lemma loadConfigFileParam_delivered (m : ParamConfigFileMap) (configFiles : List (Option Bytes)) :
    (loadConfigFileParam sensitive m configFiles).2 =
      (((openedFiles configFiles).flatMap (deliveredLines [])).filterMap
        (assignment sensitive)).foldl assign m := by
  induction configFiles generalizing m with
  | nil => rfl
  | cons file configFiles ih =>
    cases file with
    | none => rfl
    | some file =>
      have hopened : openedFiles (some file :: configFiles) = file :: openedFiles configFiles := rfl
      rw [loadConfigFileParam, ih, hopened, List.flatMap_cons, List.filterMap_append,
        List.foldl_append, loadConfigFile_eq, foldl_endOfConfigLine]

lemma delivered_assignments {files : List Bytes} (hf : ∀ file ∈ files, eofChar ∉ file) :
    (files.flatMap (deliveredLines [])).filterMap (assignment sensitive) =
      assignments sensitive files := by
  have hlines : files.map (deliveredLines []) = files.map getlines :=
    List.map_congr_left fun file h => delivered_iff.mpr (hf file h)
  rw [assignments, List.flatMap_def, List.flatMap_def, hlines]

namespace Call

def value? (name : Bytes) : Call → Option Bytes
  | .set call => if call.name = name then some call.value else none
  | _ => none

def IsSetOrSave : Call → Prop
  | .set _ | .save _ => True
  | _ => False

end Call

/-- The new value of the latest `set` of the name, or else the configured value. -/
def latestValue (configured : Bytes → Option Bytes) (calls : List Call) (name : Bytes) : Bytes :=
  ((calls.reverse.findSome? (Call.value? name)).or (configured name)).getD []

lemma latestValue_append (configured : Bytes → Option Bytes) (calls : List Call) (call : Call)
    (name : Bytes) :
    latestValue configured (calls ++ [call]) name =
      (call.value? name).getD (latestValue configured calls name) := by
  rw [latestValue, List.reverse_append, List.reverse_singleton, List.singleton_append,
    List.findSome?_cons]
  cases call.value? name <;> rfl

structure Chained (sensitive : List Bytes) (latest : Bytes → Bytes) (s : SettingModifyRecordKeeping) :
    Prop where
  values : ∀ name, name ∉ sensitive → name ≠ [] →
    getConfigFileParamValue s.paramConfigFileMapping name = latest name
  item : s.paramItem.paramName ≠ [] → s.paramItem.paramName ∉ sensitive →
    latest s.paramItem.paramName = s.paramItem.newValue

namespace Process

variable {p q : Process} {latest : Bytes → Bytes}

lemma getConfigFileParamValue_update (m : ParamConfigFileMap) {name other : Bytes} (value : Bytes)
    (hs : other ∉ sensitive) (hn : other ≠ []) :
    getConfigFileParamValue (updateConfigFileParamMap sensitive m name value).2 other =
      if other = name then value else getConfigFileParamValue m other := by
  unfold updateConfigFileParamMap getConfigFileParamValue filteringSensitiveParam
  by_cases hname : other = name
  · subst hname
    simp [hs, hn, OrderedMap.find?_insert_self]
  · rw [if_neg hname]
    split_ifs
    · rfl
    · rw [OrderedMap.find?_insert_of_ne _ _ hname]
    · rw [OrderedMap.find?_insert_of_ne _ _ hname]

lemma set_item {call : SetCall} (hq : (p.step sensitive (.set call)).Returns q) :
    q.keeping.paramItem = p.keeping.initialParamItem call.name call.value call.module call.fileTag
        call.clock ∧
      q.keeping.paramConfigFileMapping = (updateConfigFileParamMap sensitive
        p.keeping.paramConfigFileMapping call.name call.value).2 := by
  obtain ⟨keeping, hk, hq⟩ := Comp.returns_bind.mp hq
  obtain ⟨m, -, hk⟩ := Comp.returns_bind.mp hk
  simp only [Comp.yields_pure, Except.ok.injEq] at hk hq
  subst hk hq
  exact ⟨rfl, rfl⟩

lemma save_item {fopen : Bool} (hq : (p.step sensitive (.save fopen)).Returns q) :
    q.keeping.paramItem = p.keeping.paramItem ∧
      (q.keeping.paramConfigFileMapping = p.keeping.paramConfigFileMapping ∨
        q.keeping.paramConfigFileMapping = (updateConfigFileParamMap sensitive
          p.keeping.paramConfigFileMapping p.keeping.paramItem.paramName
          p.keeping.paramItem.newValue).2) := by
  obtain ⟨⟨keeping, written⟩, hk, hq⟩ := Comp.returns_bind.mp hq
  simp only [Comp.yields_pure, Except.ok.injEq] at hq
  subst hq
  unfold SettingModifyRecordKeeping.save at hk
  split_ifs at hk
  · simp only [Comp.yields_pure, Except.ok.injEq, Prod.mk.injEq] at hk
    exact ⟨by rw [hk.1], .inl (by rw [hk.1])⟩
  · obtain ⟨⟨r, m, w⟩, -, hk⟩ := Comp.returns_bind.mp hk
    simp only [Comp.yields_pure, Except.ok.injEq, Prod.mk.injEq] at hk
    exact ⟨by rw [hk.1], .inr (by rw [hk.1])⟩

lemma chained_set (h : Chained sensitive latest p.keeping) {call : SetCall}
    (hq : (p.step sensitive (.set call)).Returns q) :
    Chained sensitive (fun name => ((Call.set call).value? name).getD (latest name)) q.keeping := by
  obtain ⟨hitem, hmap⟩ := set_item hq
  refine ⟨fun name hs hn => ?_, fun _ _ => ?_⟩
  · rw [hmap, getConfigFileParamValue_update _ _ hs hn, Call.value?]
    by_cases hname : name = call.name
    · simp [hname]
    · simp [hname, Ne.symm hname, h.values name hs hn]
  · rw [hitem]
    simp [Call.value?, SettingModifyRecordKeeping.initialParamItem]

lemma chained_save (h : Chained sensitive latest p.keeping) {fopen : Bool}
    (hq : (p.step sensitive (.save fopen)).Returns q) : Chained sensitive latest q.keeping := by
  obtain ⟨hitem, hmap⟩ := save_item hq
  refine ⟨fun name hs hn => ?_, fun hn hs => ?_⟩
  · obtain hmap | hmap := hmap
    · rw [hmap, h.values name hs hn]
    · rw [hmap, getConfigFileParamValue_update _ _ hs hn]
      split_ifs with hname
      · subst hname
        exact (h.item hn hs).symm
      · exact h.values name hs hn
  · rw [hitem] at hn hs ⊢
    exact h.item hn hs

lemma chained_load {configFiles : List (Option Bytes)} {created : Bool} {recordFile : Bytes}
    (hq : ((start created recordFile).step sensitive (.load configFiles)).Returns q) :
    Chained sensitive (latestValue (lastAssigned
      (((openedFiles configFiles).flatMap (deliveredLines [])).filterMap (assignment sensitive))) [])
      q.keeping := by
  obtain ⟨keeping, hk, hq⟩ := Comp.returns_bind.mp hq
  obtain ⟨m, -, hk⟩ := Comp.returns_bind.mp hk
  simp only [Comp.yields_pure, Except.ok.injEq] at hk hq
  subst hk hq
  refine ⟨fun name _ _ => ?_, fun hn => absurd rfl hn⟩
  change getConfigFileParamValue (loadConfigFileParam sensitive .empty configFiles).2 name = _
  rw [loadConfigFileParam_delivered, getConfigFileParamValue, find?_foldl_assign]
  rfl

lemma run_append {calls : List Call} {call : Call} :
    (p.run sensitive (calls ++ [call])).Returns q ↔
      ∃ r, (p.run sensitive calls).Returns r ∧ (r.step sensitive call).Returns q := by
  rw [Process.run, List.foldlM_append, Comp.returns_bind]
  simp [Process.run]

lemma chained_run {configured : Bytes → Option Bytes}
    (h : Chained sensitive (latestValue configured []) p.keeping) {calls : List Call}
    (hcalls : ∀ call ∈ calls, call.IsSetOrSave) (hq : (p.run sensitive calls).Returns q) :
    Chained sensitive (latestValue configured calls) q.keeping := by
  induction calls using List.reverseRecOn generalizing q with
  | nil =>
    obtain rfl : q = p := by simpa [Process.run, Comp.Returns] using hq
    exact h
  | append_singleton calls call ih =>
    obtain ⟨r, hr, hstep⟩ := run_append.mp hq
    have hprev := ih (fun c hc => hcalls c (List.mem_append_left _ hc)) hr
    have hlatest : latestValue configured (calls ++ [call]) =
        fun name => (call.value? name).getD (latestValue configured calls name) :=
      funext (latestValue_append configured calls call)
    rw [hlatest]
    have hcall := hcalls call (by simp)
    cases call with
    | set call => exact chained_set hprev hstep
    | save fopen => exact chained_save hprev hstep
    | load configFiles => exact hcall.elim
    | reSet stream fopen => exact hcall.elim

lemma oldValue_delivered {created : Bool} {recordFile : Bytes} {configFiles : List (Option Bytes)}
    {calls : List Call} (hcalls : ∀ call ∈ calls, call.IsSetOrSave)
    (hp : ((start created recordFile).run sensitive (.load configFiles :: calls)).Returns p)
    {call : SetCall} (hs : call.name ∉ sensitive) (hn : call.name ≠ [])
    (hq : (p.step sensitive (.set call)).Returns q) :
    q.keeping.paramItem.oldValue = latestValue (lastAssigned
      (((openedFiles configFiles).flatMap (deliveredLines [])).filterMap (assignment sensitive)))
      calls call.name := by
  obtain ⟨r, hload, hrun⟩ := Comp.returns_bind.mp hp
  have hchain := chained_run (chained_load hload) hcalls hrun
  rw [(set_item hq).1, SettingModifyRecordKeeping.initialParamItem]
  simp only [hn, if_false]
  exact hchain.values call.name hs hn

theorem oldValue_chain {created : Bool} {recordFile : Bytes} {configFiles : List (Option Bytes)}
    (hf : ∀ file ∈ openedFiles configFiles, eofChar ∉ file) {calls : List Call}
    (hcalls : ∀ call ∈ calls, call.IsSetOrSave)
    (hp : ((start created recordFile).run sensitive (.load configFiles :: calls)).Returns p)
    {call : SetCall} (hs : call.name ∉ sensitive) (hn : call.name ≠ [])
    (hq : (p.step sensitive (.set call)).Returns q) :
    q.keeping.paramItem.oldValue =
      latestValue (lastAssigned (assignments sensitive (openedFiles configFiles))) calls
        call.name := by
  rw [oldValue_delivered hcalls hp hs hn hq, delivered_assignments hf]

def cityCall : SetCall := ⟨bytes "city", bytes "Oslo", 1, bytes "system", someClock⟩

theorem oldValue_chain_city :
    ∃ p q, ((start true []).run [] [.load [some (bytes "city=Rome")], .set someCall,
        .save true]).Returns p ∧
      (p.step [] (.set cityCall)).Returns q ∧ q.keeping.paramItem.oldValue = bytes "Rome" := by
  have hrun : (do
      let p ← (start true []).run [] [.load [some (bytes "city=Rome")], .set someCall, .save true]
      let q ← p.step [] (.set cityCall)
      return q.keeping.paramItem.newValue).Returns (bytes "Oslo") := ⟨3, by decide +kernel⟩
  obtain ⟨p, hp, hrun⟩ := Comp.returns_bind.mp hrun
  obtain ⟨q, hq, -⟩ := Comp.returns_bind.mp hrun
  have hcalls : ∀ call ∈ [Call.set someCall, .save true], call.IsSetOrSave := by
    simp [Call.IsSetOrSave]
  exact ⟨p, q, hp, hq, oldValue_chain (by decide) hcalls hp (by decide) (by decide) hq⟩

/-- A configured value with the byte 255 is not found again in the first old value. -/
theorem oldValue_truncated :
    ¬ ∀ (created : Bool) (recordFile : Bytes) (configFiles : List (Option Bytes))
        (calls : List Call), (∀ call ∈ calls, call.IsSetOrSave) →
      ∀ p, ((start created recordFile).run [] (.load configFiles :: calls)).Returns p →
      ∀ (call : SetCall) (q : Process), call.name ≠ [] → (p.step [] (.set call)).Returns q →
      q.keeping.paramItem.oldValue =
        latestValue (lastAssigned (assignments [] (openedFiles configFiles))) calls
          call.name := by
  intro h
  let configFiles := [some (bytes "city=Orl" ++ [255] ++ bytes "ans")]
  have hrun : (do
      let p ← (start true []).run [] [.load configFiles]
      let q ← p.step [] (.set cityCall)
      return q.keeping.paramItem.oldValue).Returns (bytes "Orl") := ⟨3, by decide +kernel⟩
  obtain ⟨p, hp, hrun⟩ := Comp.returns_bind.mp hrun
  obtain ⟨q, hq, hrun⟩ := Comp.returns_bind.mp hrun
  have hvalue := h true [] configFiles [] (by simp) p hp cityCall q (by decide) hq
  simp only [Comp.yields_pure, Except.ok.injEq] at hrun
  rw [← hrun] at hvalue
  revert hvalue
  decide

end Process

end SimpleCode.KeepingSettingModify
