import SimpleCode.KeepingSettingModify.Histories
import SimpleCode.KeepingSettingModify.RecordLine

set_option autoImplicit false

namespace SimpleCode.KeepingSettingModify

open Foundations Foundations.Bytes Threads MappingSettingModifyRecord

namespace MappingSettingModifyRecord

variable {s t : MappingSettingModifyRecord}

lemma update_kept (h : Kept s.paramModifyRecordMap) (item : ParametersItem) :
    Kept (s.updateModifyRecordParamMap item).2.paramModifyRecordMap := by
  by_cases ha : Accepted item
  · rw [updateModifyRecordParamMap, if_neg (mt not_accepted.mpr (not_not.mpr ha))]
    exact h.insert ha
  · rw [updateModifyRecordParamMap, if_pos (not_accepted.mp ha)]
    exact h

lemma round_kept (h : Kept s.paramModifyRecordMap) (name : Bytes) :
    Kept (dereplicationRound name s).paramModifyRecordMap := by
  unfold dereplicationRound deleteModifyRecordByTimeStamp
  split_ifs
  · exact h
  · exact h.eraseIf _

lemma dereplication_kept (h : Kept s.paramModifyRecordMap)
    (ht : s.dereplicationModifyRecordParamMap.Returns t) : Kept t.paramModifyRecordMap := by
  apply Comp.foldlM_invariant (fun s => Kept s.paramModifyRecordMap) ?_ h ht
  intro u v e _ hu hv
  apply Comp.loop_invariant (fun s => Kept s.paramModifyRecordMap) ?_ hu hv
  intro x y hx _ hy
  obtain rfl : y = dereplicationRound e.2.paramName x := by simpa using hy
  exact round_kept hx _

lemma loadLines_kept (h : Kept s.paramModifyRecordMap) {flag : Bool} {lines : List Bytes}
    (ht : s.loadModifyRecordLines flag lines = .ok t) : Kept t.paramModifyRecordMap := by
  induction lines generalizing s flag with
  | nil =>
    obtain rfl := Except.ok.inj ht
    exact h
  | cons line lines ih =>
    cases flag with
    | false =>
      rw [load_cons] at ht
      split_ifs at ht
      · exact ih h ht
      · obtain rfl := Except.ok.inj ht
        exact h
    | true =>
      rw [loadModifyRecordLines] at ht
      cases hp : parseRecordLine line with
      | error e =>
        rw [hp] at ht
        cases ht
      | ok p =>
        rw [hp] at ht
        exact ih (update_kept h p.item) ht

lemma load_kept (h : Kept s.paramModifyRecordMap) {file : Bytes}
    (ht : (s.loadModifyRecordParam file).Returns t) : Kept t.paramModifyRecordMap := by
  obtain ⟨st, -, ht⟩ := Comp.returns_bind.mp ht
  obtain ⟨u, hu, ht⟩ := Comp.returns_bind.mp ht
  have hlines := Comp.yields_ofExcept.mp hu
  have hk : Kept u.paramModifyRecordMap := by
    apply loadLines_kept (s := { s with paramStatisticsMapping := st }) h hlines.symm
  exact dereplication_kept (s := { u with isModifyRecordMappingLoaded := true }) hk ht

lemma formating_spec {sensitive : List Bytes} {fopen : Bool} {r : ℤ} {w : Option Bytes}
    (h : (s.formatingParamItemOutput sensitive fopen).Returns (r, t, w)) :
    t.paramModifyRecordMap = s.paramModifyRecordMap ∧
      w = if fopen then some (formatFile sensitive s.paramModifyRecordMap) else none := by
  obtain ⟨⟨a, mutex⟩, -, h⟩ := Comp.returns_bind.mp h
  cases fopen with
  | false =>
    simp only [Bool.not_false, if_true, Comp.yields_pure, Except.ok.injEq, Prod.mk.injEq] at h
    obtain ⟨-, rfl, rfl⟩ := h
    exact ⟨rfl, rfl⟩
  | true =>
    simp only [Bool.not_true, Bool.false_eq_true, if_false, Comp.yields_pure, Except.ok.injEq,
      Prod.mk.injEq] at h
    obtain ⟨-, rfl, rfl⟩ := h
    exact ⟨rfl, rfl⟩

lemma reset_spec {fopen : Bool} {r : ℤ} {w : Option Bytes}
    (h : (s.resetModifyRecordOutput fopen).Returns (r, t, w)) :
    t.paramModifyRecordMap = s.paramModifyRecordMap := by
  obtain ⟨⟨a, mutex⟩, -, h⟩ := Comp.returns_bind.mp h
  cases fopen with
  | false =>
    simp only [Bool.not_false, if_true, Comp.yields_pure, Except.ok.injEq, Prod.mk.injEq] at h
    obtain ⟨-, rfl, -⟩ := h
    rfl
  | true =>
    simp only [Bool.not_true, Bool.false_eq_true, if_false, Comp.yields_pure, Except.ok.injEq,
      Prod.mk.injEq] at h
    obtain ⟨-, rfl, -⟩ := h
    rfl

lemma formating_returns {sensitive : List Bytes} :
    (∃ t w, (s.formatingParamItemOutput sensitive true).Returns (0, t, some w)) ↔
      s.mutex ≠ .locked := by
  unfold formatingParamItemOutput
  simp only [Comp.returns_bind]
  cases s.mutex <;> simp [threadMutexLock]

end MappingSettingModifyRecord

lemma recordText_newline {r : ParametersItem} (hc : r.Clean) : (10 : UInt8) ∉ recordText r := by
  have hf : ∀ field ∈ r.fields, (10 : UInt8) ∉ field := fun field h => (hc field h).1
  simp only [ParametersItem.fields, List.forall_mem_cons] at hf
  obtain ⟨hname, hstamp, hsource, hold, hnew, hfile, -⟩ := hf
  simp only [recordText, List.mem_append, hname, hstamp, hsource, hold, hnew, hfile, false_or]
  decide

def Plain (sensitive : List Bytes) (m : OrderedMultimap Bytes ParametersItem) : Prop :=
  ∀ e ∈ m.entries, e.1 ∉ sensitive ∧ e.2.Clean

instance (sensitive : List Bytes) (m : OrderedMultimap Bytes ParametersItem) :
    Decidable (Plain sensitive m) := by
  unfold Plain
  infer_instance

section Written

variable {sensitive : List Bytes} {m : OrderedMultimap Bytes ParametersItem} (hk : Kept m)
  (hp : Plain sensitive m)

include hk hp

lemma kept_entry {e : Bytes × ParametersItem} (he : e ∈ m.entries) :
    e = (e.2.paramName, e.2) ∧ e.2.paramName ∉ sensitive ∧ e.2.Clean ∧ Accepted e.2 := by
  obtain ⟨hs, hc⟩ := hp e he
  obtain ⟨hn, ha⟩ := hk e.1 e.2 (OrderedMultimap.mem_values.mpr he)
  exact ⟨Prod.ext hn.symm rfl, hn ▸ hs, hc, ha⟩

lemma getlines_formatFile :
    getlines (formatFile sensitive m) =
      versionHeader :: m.entries.map (formatRecord sensitive) := by
  have hheader : fileHeader = versionHeader ++ [10] := by decide
  have hline : ∀ e ∈ m.entries, (10 : UInt8) ∉ formatRecord sensitive e := by
    intro e he
    obtain ⟨heq, hs, hc, -⟩ := kept_entry hk hp he
    rw [heq, formatRecord_eq hs, List.mem_append, not_or]
    exact ⟨by decide, recordText_newline hc⟩
  rw [formatFile, hheader, List.append_assoc, List.singleton_append,
    getlines_line (by decide), getlines_flatMap _ hline]

lemma parses_formatFile : Parses (m.entries.map (formatRecord sensitive)) := by
  intro line hl
  obtain ⟨e, he, rfl⟩ := List.mem_map.mp hl
  obtain ⟨heq, hs, -, -⟩ := kept_entry hk hp he
  rw [heq, formatRecord_parses hs]
  simp

lemma items_formatFile (name : Bytes) :
    ((lineItems (m.entries.map (formatRecord sensitive))).filter fun item => item.paramName = name) =
      (m.values name).filterMap fun r => lineItem (formatRecord sensitive (r.paramName, r)) := by
  have hentry : ∀ e ∈ m.entries, e = (e.2.paramName, e.2) ∧ e.2.paramName ∉ sensitive ∧
      e.2.Clean := by
    intro e he
    obtain ⟨heq, hs, hc, -⟩ := kept_entry hk hp he
    exact ⟨heq, hs, hc⟩
  unfold lineItems OrderedMultimap.values
  generalize m.entries = es at hentry
  induction es with
  | nil => rfl
  | cons e es ih =>
    obtain ⟨heq, hs, hc⟩ := hentry e (by simp)
    have hrest := ih fun a ha => hentry a (by simp [ha])
    have hkey : e.1 = e.2.paramName := congrArg Prod.fst heq
    have hname : ∀ item, lineItem (formatRecord sensitive e) = some item → item.paramName = e.1 := by
      intro item hi
      rw [heq] at hi
      exact (lineItem_name hs hc hi).trans hkey.symm
    rw [List.map_cons]
    cases hl : lineItem (formatRecord sensitive e) with
    | none =>
      rw [List.filterMap_cons_none hl, hrest]
      by_cases hn : e.1 = name
      · rw [List.filter_cons_of_pos (by simpa using hn), List.map_cons,
          List.filterMap_cons_none (heq ▸ hl)]
      · rw [List.filter_cons_of_neg (by simpa using hn)]
    | some item =>
      have hitem := hname item hl
      rw [List.filterMap_cons_some hl]
      by_cases hn : e.1 = name
      · rw [List.filter_cons_of_pos (by simpa using hitem.trans hn), hrest,
          List.filter_cons_of_pos (by simpa using hn), List.map_cons,
          List.filterMap_cons_some (heq ▸ hl)]
      · rw [List.filter_cons_of_neg (by simpa [hitem] using hn), hrest,
          List.filter_cons_of_neg (by simpa using hn)]

/-- Ten records at most of every name, and each of them can be read back. -/
def Reloadable (m : OrderedMultimap Bytes ParametersItem) : Prop :=
  ∀ name, (m.values name).length ≤ 10 ∧ ∀ r ∈ m.values name, r.Readable

lemma reload_formatFile (created : Bool) :
    (∃ t, ((MappingSettingModifyRecord.init created).loadModifyRecordParam
      (formatFile sensitive m)).Returns t ∧ t.paramModifyRecordMap = m) ↔ Reloadable m := by
  obtain ⟨u, hu, -, hrec, -⟩ := MappingSettingModifyRecord.load_returns created
    (getlines_formatFile hk hp) (parses_formatFile hk hp)
  have hname : ∀ name, u.records name = m.values name ↔
      (m.values name).length ≤ 10 ∧ ∀ r ∈ m.values name, r.Readable := by
    intro name
    rw [hrec, items_formatFile hk hp, retained, retain_filterMap]
    apply and_congr_right
    intro _
    apply forall₂_congr
    intro r hr
    obtain ⟨heq, hs, hc, ha⟩ := kept_entry hk hp (OrderedMultimap.mem_values.mp hr)
    exact lineItem_formatRecord hs hc ha
  constructor
  · rintro ⟨t, ht, hm⟩ name
    obtain rfl := Comp.Returns.unique hu ht
    exact (hname name).mp (by rw [records, hm])
  · intro h
    exact ⟨u, hu, OrderedMultimap.ext_values fun name => (hname name).mpr (h name)⟩

end Written

namespace Process

variable {sensitive : List Bytes} {p q : Process}

lemma step_kept (h : Kept p.keeping.paramModifyRecordMapping.paramModifyRecordMap) {call : Call}
    (hq : (p.step sensitive call).Returns q) :
    Kept q.keeping.paramModifyRecordMapping.paramModifyRecordMap := by
  cases call with
  | load configFiles =>
    obtain ⟨keeping, hk, hq⟩ := Comp.returns_bind.mp hq
    obtain ⟨m, hm, hk⟩ := Comp.returns_bind.mp hk
    simp only [Comp.yields_pure, Except.ok.injEq] at hk hq
    subst hk hq
    exact MappingSettingModifyRecord.load_kept h hm
  | set call =>
    obtain ⟨keeping, hk, hq⟩ := Comp.returns_bind.mp hq
    obtain ⟨m, hm, hk⟩ := Comp.returns_bind.mp hk
    simp only [Comp.yields_pure, Except.ok.injEq] at hk hq
    subst hk hq
    exact MappingSettingModifyRecord.dereplication_kept
      (MappingSettingModifyRecord.update_kept h _) hm
  | save fopen =>
    obtain ⟨⟨keeping, written⟩, hk, hq⟩ := Comp.returns_bind.mp hq
    simp only [Comp.yields_pure, Except.ok.injEq] at hq
    subst hq
    unfold SettingModifyRecordKeeping.save at hk
    split_ifs at hk
    · simp only [Comp.yields_pure, Except.ok.injEq, Prod.mk.injEq] at hk
      exact hk.1 ▸ h
    · obtain ⟨⟨r, m, w⟩, hm, hk⟩ := Comp.returns_bind.mp hk
      simp only [Comp.yields_pure, Except.ok.injEq, Prod.mk.injEq] at hk
      have hmap := (MappingSettingModifyRecord.formating_spec hm).1
      rw [hk.1]
      change Kept m.paramModifyRecordMap
      exact hmap ▸ h
  | reSet stream fopen =>
    obtain ⟨⟨keeping, written⟩, hk, hq⟩ := Comp.returns_bind.mp hq
    simp only [Comp.yields_pure, Except.ok.injEq] at hq
    subst hq
    obtain ⟨⟨r, m, w⟩, hm, hk⟩ := Comp.returns_bind.mp hk
    simp only [Comp.yields_pure, Except.ok.injEq, Prod.mk.injEq] at hk
    have hmap := MappingSettingModifyRecord.reset_spec hm
    rw [hk.1]
    change Kept m.paramModifyRecordMap
    exact hmap ▸ h

lemma run_kept {calls : List Call}
    (h : Kept p.keeping.paramModifyRecordMapping.paramModifyRecordMap)
    (hq : (p.run sensitive calls).Returns q) :
    Kept q.keeping.paramModifyRecordMapping.paramModifyRecordMap :=
  Comp.foldlM_invariant (fun p => Kept p.keeping.paramModifyRecordMapping.paramModifyRecordMap)
    (fun _ _ _ _ hs ht => step_kept hs ht) h hq

lemma start_kept (created : Bool) (recordFile : Bytes) :
    Kept (start created recordFile).keeping.paramModifyRecordMapping.paramModifyRecordMap :=
  Kept.empty

/-- A store that any calls have led to survives the way through the file exactly if nobody was left
holding the mutex and its records can all be read back and retained. -/
theorem reload_iff (created created' : Bool) (recordFile : Bytes) (calls : List Call)
    (hrun : ((start created recordFile).run sensitive calls).Returns p)
    (hp : Plain sensitive p.keeping.paramModifyRecordMapping.paramModifyRecordMap) :
    (∃ s file t,
      (p.keeping.paramModifyRecordMapping.formatingParamItemOutput sensitive true).Returns
        (0, s, some file) ∧
      ((MappingSettingModifyRecord.init created').loadModifyRecordParam file).Returns t ∧
      t.paramModifyRecordMap = p.keeping.paramModifyRecordMapping.paramModifyRecordMap) ↔
    p.keeping.paramModifyRecordMapping.mutex ≠ .locked ∧
      Reloadable p.keeping.paramModifyRecordMapping.paramModifyRecordMap := by
  have hk := run_kept (start_kept created recordFile) hrun
  have hformat : (∃ s file,
      (p.keeping.paramModifyRecordMapping.formatingParamItemOutput sensitive true).Returns
        (0, s, some file)) ↔ p.keeping.paramModifyRecordMapping.mutex ≠ .locked :=
    formating_returns
  rw [← reload_formatFile hk hp created', ← hformat]
  constructor
  · rintro ⟨s, file, t, hs, ht, hm⟩
    obtain ⟨-, hfile⟩ := formating_spec hs
    obtain rfl := Option.some.inj hfile
    exact ⟨⟨s, _, hs⟩, t, ht, hm⟩
  · rintro ⟨⟨s, file, hs⟩, t, ht, hm⟩
    obtain ⟨-, hfile⟩ := formating_spec hs
    obtain rfl := Option.some.inj hfile
    exact ⟨s, _, t, hs, ht, hm⟩

def someCalls : List Call := [.load [], .set (callAt 3), .set { callAt 2 with name := bytes "q" }, .save true]

theorem reload_iff_two_names :
    ∃ p, ((start true someFile).run [] someCalls).Returns p ∧
      (p.records (bytes "p")).length = 9 ∧ (p.records (bytes "q")).length = 2 ∧
      Plain [] p.keeping.paramModifyRecordMapping.paramModifyRecordMap ∧
      ((∃ s file t,
        (p.keeping.paramModifyRecordMapping.formatingParamItemOutput [] true).Returns
          (0, s, some file) ∧
        ((MappingSettingModifyRecord.init true).loadModifyRecordParam file).Returns t ∧
        t.paramModifyRecordMap = p.keeping.paramModifyRecordMapping.paramModifyRecordMap) ↔
      p.keeping.paramModifyRecordMapping.mutex ≠ .locked ∧
        Reloadable p.keeping.paramModifyRecordMapping.paramModifyRecordMap) := by
  have hrun : (do
      let p ← (start true someFile).run [] someCalls
      return ((p.records (bytes "p")).length, (p.records (bytes "q")).length,
        decide (Plain [] p.keeping.paramModifyRecordMapping.paramModifyRecordMap))).Returns
      (9, 2, true) := ⟨3, by decide +kernel⟩
  obtain ⟨p, hp, hrun⟩ := Comp.returns_bind.mp hrun
  simp only [Comp.yields_pure, Except.ok.injEq, Prod.mk.injEq, true_eq_decide_iff] at hrun
  obtain ⟨hnine, htwo, hplain⟩ := hrun
  exact ⟨p, hp, hnine.symm, htwo.symm, hplain, reload_iff true true _ _ hp hplain⟩

def failCall : SetCall := { someCall with value := bytes "fail" }

theorem reload_fail :
    ¬ ∀ (sensitive : List Bytes) (created created' : Bool) (recordFile : Bytes)
        (calls : List Call) (p : Process),
      ((start created recordFile).run sensitive calls).Returns p →
      Plain sensitive p.keeping.paramModifyRecordMapping.paramModifyRecordMap →
      ∃ s file t,
        (p.keeping.paramModifyRecordMapping.formatingParamItemOutput sensitive true).Returns
          (0, s, some file) ∧
        ((MappingSettingModifyRecord.init created').loadModifyRecordParam file).Returns t ∧
        t.paramModifyRecordMap = p.keeping.paramModifyRecordMapping.paramModifyRecordMap := by
  intro h
  have hrun : (do
      let p ← (start true (bytes "CFversion=1.0\n")).run [] [.load [], .set failCall]
      let out ← p.keeping.paramModifyRecordMapping.formatingParamItemOutput [] true
      let t ← (MappingSettingModifyRecord.init true).loadModifyRecordParam (out.2.2.getD [])
      return (decide (Plain [] p.keeping.paramModifyRecordMapping.paramModifyRecordMap),
        p.keeping.paramModifyRecordMapping.paramModifyRecordMap.size,
        t.paramModifyRecordMap.size)).Returns (true, 1, 0) := ⟨3, by decide +kernel⟩
  obtain ⟨p, hp, hrun⟩ := Comp.returns_bind.mp hrun
  obtain ⟨⟨r, s, w⟩, hs, hrun⟩ := Comp.returns_bind.mp hrun
  obtain ⟨t, ht, hrun⟩ := Comp.returns_bind.mp hrun
  simp only [Comp.yields_pure, Except.ok.injEq, Prod.mk.injEq, true_eq_decide_iff] at hrun
  obtain ⟨hplain, hone, hzero⟩ := hrun
  obtain ⟨s', file, t', hs', ht', hm⟩ := h [] true true _ _ p hp hplain
  have hsame := Comp.Returns.unique hs hs'
  simp only [Prod.mk.injEq] at hsame
  obtain ⟨-, -, rfl⟩ := hsame
  obtain rfl := Comp.Returns.unique ht ht'
  rw [← hm] at hone
  omega

end Process

end SimpleCode.KeepingSettingModify
