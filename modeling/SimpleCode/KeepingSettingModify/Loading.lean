import SimpleCode.KeepingSettingModify.Dereplication

set_option autoImplicit false

namespace SimpleCode.KeepingSettingModify

open Foundations Foundations.Bytes Threads

def versionHeader : Bytes := bytes "CFversion=1.0"

def lineItem (line : Bytes) : Option ParametersItem :=
  match parseRecordLine line with
  | .error _ => none
  | .ok p => if Accepted p.item then some p.item else none

def lineItems (lines : List Bytes) : List ParametersItem := lines.filterMap lineItem

def Parses (lines : List Bytes) : Prop := ∀ line ∈ lines, parseRecordLine line ≠ .error .outOfRange

instance (lines : List Bytes) : Decidable (Parses lines) := by
  unfold Parses
  infer_instance

lemma Parses.ok {lines : List Bytes} (h : Parses lines) {line : Bytes} (hl : line ∈ lines) :
    ∃ p, parseRecordLine line = .ok p := by
  cases hp : parseRecordLine line with
  | error e =>
    cases e
    exact absurd hp (h line hl)
  | ok p => exact ⟨p, rfl⟩

lemma accepted_of_mem {lines : List Bytes} {item : ParametersItem} (h : item ∈ lineItems lines) :
    Accepted item := by
  obtain ⟨line, -, hi⟩ := List.mem_filterMap.mp h
  unfold lineItem at hi
  split at hi
  · cases hi
  · split_ifs at hi with ha
    obtain rfl := Option.some.inj hi
    exact ha

def addItems (m : OrderedMultimap Bytes ParametersItem) (items : List ParametersItem) :
    OrderedMultimap Bytes ParametersItem :=
  items.foldl (fun m item => m.insert item.paramName item) m

def countItems (st : MappingSettingStatistics) (items : List ParametersItem) :
    MappingSettingStatistics :=
  items.foldl (fun st item => (st.updateStatisticsRecord item).2) st

lemma values_addItems (m : OrderedMultimap Bytes ParametersItem) (items : List ParametersItem)
    (name : Bytes) :
    (addItems m items).values name =
      m.values name ++ items.filter fun item => item.paramName = name := by
  induction items generalizing m with
  | nil => simp [addItems]
  | cons item items ih =>
    change (addItems (m.insert item.paramName item) items).values name = _
    rw [ih]
    by_cases hn : item.paramName = name
    · subst hn
      simp
    · rw [OrderedMultimap.values_insert_of_ne m item (Ne.symm hn)]
      simp [hn]

lemma Agree.addItems {m : OrderedMultimap Bytes ParametersItem} {st : MappingSettingStatistics}
    (h : Agree m st) {items : List ParametersItem} (ha : ∀ item ∈ items, Accepted item) :
    Agree (addItems m items) (countItems st items) := by
  induction items generalizing m st with
  | nil => exact h
  | cons item items ih =>
    exact ih (h.update (ha item (by simp))) fun i hi => ha i (by simp [hi])

namespace MappingSettingStatistics

variable {st : MappingSettingStatistics}

lemma update_available (item : ParametersItem) :
    (st.updateStatisticsRecord item).2.recordFileAvailable = st.recordFileAvailable := by
  unfold updateStatisticsRecord modifyStatisticsRecordCount
  split_ifs
  · rfl
  · rfl
  · dsimp only
    split <;> rfl

lemma loadLines_eq (hs : st.recordFileAvailable = true) {lines : List Bytes} (h : Parses lines) :
    st.loadStatisticsLines lines = .ok (countItems st (lineItems lines)) := by
  induction lines generalizing st with
  | nil => rfl
  | cons line lines ih =>
    obtain ⟨p, hp⟩ := h.ok (List.mem_cons_self : line ∈ line :: lines)
    have hrest : Parses lines := fun l hl => h l (by simp [hl])
    have hupdate := ih ((update_available p.item).trans hs) hrest
    rw [loadStatisticsLines, hs, hp]
    change (st.updateStatisticsRecord p.item).2.loadStatisticsLines lines = _
    rw [hupdate]
    by_cases ha : Accepted p.item
    · simp [lineItems, lineItem, hp, ha, countItems]
    · simp [lineItems, lineItem, hp, ha, update_rejected ha]

lemma load_foreign {line : Bytes} {lines : List Bytes} (hf : find (bytes "=") line = none) :
    init.loadStatisticsLines (line :: lines) = .ok ⟨.empty, true⟩ := by
  simp [loadStatisticsLines, init, hf]

lemma load_cons {line : Bytes} {lines : List Bytes} (hf : find (bytes "=") line ≠ none)
    (h : Parses lines) :
    init.loadStatisticsLines (line :: lines) =
      .ok (countItems ⟨.empty, true⟩ (lineItems lines)) := by
  rw [loadStatisticsLines]
  simp only [init, Bool.not_false, if_true, hf, ne_eq, not_false_eq_true]
  exact loadLines_eq rfl h

end MappingSettingStatistics

lemma split_at_equals {line : Bytes} {position : ℕ} (h : find (bytes "=") line = some position) :
    line = line.take position ++ bytes "=" ++ line.drop (position + 1) := by
  obtain ⟨⟨rest, hr⟩, -, -⟩ := find_eq_some.mp h
  have hdrop : line.drop (position + 1) = rest := by
    rw [← List.drop_drop, ← hr]
    rfl
  rw [hdrop, List.append_assoc, hr, List.take_append_drop]

namespace MappingSettingModifyRecord

variable {s : MappingSettingModifyRecord}

lemma loadLines_eq (hs : s.isModifyRecordMappingLoaded = false) {lines : List Bytes}
    (h : Parses lines) :
    s.loadModifyRecordLines true lines = .ok { s with
      paramModifyRecordMap := addItems s.paramModifyRecordMap (lineItems lines) } := by
  induction lines generalizing s with
  | nil => rfl
  | cons line lines ih =>
    obtain ⟨p, hp⟩ := h.ok (List.mem_cons_self : line ∈ line :: lines)
    have hrest : Parses lines := fun l hl => h l (by simp [hl])
    rw [loadModifyRecordLines, hp]
    change (s.updateModifyRecordParamMap p.item).2.loadModifyRecordLines true lines = _
    by_cases ha : Accepted p.item
    · have hu : (s.updateModifyRecordParamMap p.item).2 = { s with
          paramModifyRecordMap := s.paramModifyRecordMap.insert p.item.paramName p.item } := by
        rw [updateModifyRecordParamMap, if_neg (mt not_accepted.mpr (not_not.mpr ha))]
        simp [hs]
      rw [hu]
      refine (ih ?_ hrest).trans ?_
      · exact hs
      · simp [lineItems, lineItem, hp, ha, addItems]
    · have hu : (s.updateModifyRecordParamMap p.item).2 = s := by
        rw [updateModifyRecordParamMap, if_pos (not_accepted.mp ha)]
      rw [hu, ih hs hrest]
      simp [lineItems, lineItem, hp, ha]

lemma load_cons (line : Bytes) (lines : List Bytes) :
    s.loadModifyRecordLines false (line :: lines) =
      if line = versionHeader then s.loadModifyRecordLines true lines else .ok s := by
  have hheader : find (bytes "=") versionHeader = some 9 := by decide
  rw [loadModifyRecordLines]
  cases hf : find (bytes "=") line with
  | none =>
    have hne : line ≠ versionHeader := by
      rintro rfl
      simp [hheader] at hf
    simp [hne]
  | some position =>
    have hle := find_le hf
    have hlen : (bytes "=").length = 1 := by decide
    rw [hlen] at hle
    simp only [Bool.not_false, if_true, substr_of_le position (Nat.zero_le line.length),
      List.drop_zero, substr_rest hle le_rfl]
    change (if line.take position = bytes "CFversion" ∧
      line.drop (position + 1) = paramChangeRecordKeepingVersion then _ else _) = _
    by_cases hl : line = versionHeader
    · obtain rfl : position = 9 := by
        rw [hl, hheader] at hf
        exact (Option.some.inj hf).symm
      rw [if_pos hl, if_pos]
      rw [hl]
      decide
    · rw [if_neg hl, if_neg]
      rintro ⟨htag, hvalue⟩
      apply hl
      rw [split_at_equals hf, htag, hvalue]
      decide

def parsedLines (file : Bytes) : List Bytes :=
  match getlines file with
  | [] => []
  | line :: lines => if find (bytes "=") line = none then [] else lines

def filled (created : Bool) (file : Bytes) : MappingSettingModifyRecord where
  paramModifyRecordMap := match getlines file with
    | [] => .empty
    | line :: lines => if line = versionHeader then addItems .empty (lineItems lines) else .empty
  paramStatisticsMapping := match getlines file with
    | [] => .init
    | line :: lines =>
      if find (bytes "=") line = none then ⟨.empty, true⟩
      else countItems ⟨.empty, true⟩ (lineItems lines)
  mutex := threadMutexCreate created
  isModifyRecordMappingLoaded := true

def loadRecords (s : MappingSettingModifyRecord) (file : Bytes) :
    Except OutOfRange MappingSettingModifyRecord := do
  let paramStatisticsMapping ← s.paramStatisticsMapping.loadStatisticsRecord file
  let s ← { s with paramStatisticsMapping }.loadModifyRecordLines false (getlines file)
  return { s with isModifyRecordMappingLoaded := true }

lemma loadModifyRecordParam_eq (s : MappingSettingModifyRecord) (file : Bytes) :
    s.loadModifyRecordParam file =
      Comp.ofExcept (s.loadRecords file) >>= dereplicationModifyRecordParamMap := by
  rw [loadModifyRecordParam, loadRecords]
  cases s.paramStatisticsMapping.loadStatisticsRecord file with
  | error e => rfl
  | ok st =>
    change (Comp.ofExcept (loadModifyRecordLines _ false (getlines file)) >>= fun s => _) =
      Comp.ofExcept (loadModifyRecordLines _ false (getlines file) >>= fun s => _) >>= _
    cases loadModifyRecordLines _ false (getlines file) <;> rfl

lemma loadRecords_eq (created : Bool) {file : Bytes} (h : Parses (parsedLines file)) :
    (init created).loadRecords file = .ok (filled created file) := by
  unfold loadRecords MappingSettingStatistics.loadStatisticsRecord filled
  cases hg : getlines file with
  | nil => rfl
  | cons line lines =>
    by_cases hf : find (bytes "=") line = none
    · have hne : line ≠ versionHeader := by
        rintro rfl
        exact absurd hf (by decide)
      have hstat : (init created).paramStatisticsMapping.loadStatisticsLines (line :: lines) =
          .ok ⟨.empty, true⟩ := MappingSettingStatistics.load_foreign hf
      rw [hstat, ok_bind, load_cons, if_neg hne, ok_bind]
      simp only [hf, if_true, if_neg hne]
      rfl
    · have h' : Parses lines := by simpa only [parsedLines, hg, hf, if_false] using h
      have hstat : (init created).paramStatisticsMapping.loadStatisticsLines (line :: lines) =
          .ok (countItems ⟨.empty, true⟩ (lineItems lines)) :=
        MappingSettingStatistics.load_cons hf h'
      rw [hstat, ok_bind, load_cons]
      simp only [hf, if_false]
      by_cases hl : line = versionHeader
      · simp only [hl, if_true]
        rw [loadLines_eq rfl h']
        rfl
      · simp only [hl, if_false]
        rfl

lemma load_eq (created : Bool) {file : Bytes} (h : Parses (parsedLines file)) :
    (init created).loadModifyRecordParam file =
      (filled created file).dereplicationModifyRecordParamMap := by
  rw [loadModifyRecordParam_eq, loadRecords_eq created h]
  rfl

lemma agree_count (items : List ParametersItem) (ha : ∀ item ∈ items, Accepted item) :
    Agree (addItems .empty items) (countItems ⟨.empty, true⟩ items) := by
  have h : Agree .empty ⟨.empty, true⟩ := Agree.init.congr rfl
  exact h.addItems ha

lemma count_items (items : List ParametersItem) (ha : ∀ item ∈ items, Accepted item)
    (name : Bytes) :
    (countItems ⟨.empty, true⟩ items).recordCount name =
      (items.filter fun item => item.paramName = name).length := by
  rw [(agree_count items ha).count, values_addItems]
  simp

lemma filled_agrees (created : Bool) {file : Bytes} {lines : List Bytes}
    (hg : getlines file = versionHeader :: lines) : (filled created file).Agrees := by
  have hf : find (bytes "=") versionHeader ≠ none := by decide
  simp only [Agrees, filled, hg, if_true, if_neg hf]
  exact agree_count _ fun _ => accepted_of_mem

theorem load_returns (created : Bool) {file : Bytes} {lines : List Bytes}
    (hf : getlines file = versionHeader :: lines) (h : Parses lines) :
    ∃ t, ((init created).loadModifyRecordParam file).Returns t ∧ t.Agrees ∧
      (∀ l, t.records l = retained ((lineItems lines).filter fun item => item.paramName = l)) ∧
      t.mutex = threadMutexCreate created ∧ t.isModifyRecordMappingLoaded = true := by
  have hq : find (bytes "=") versionHeader ≠ none := by decide
  obtain ⟨t, hret, ht, hrec, hframe⟩ := dereplication_returns (filled_agrees created hf)
  refine ⟨t, ?_, ht, fun l => ?_, hframe⟩
  · rw [load_eq created (by simpa only [parsedLines, hf, hq, if_false] using h)]
    exact hret
  · rw [hrec, records]
    simp only [filled, hf, if_true, values_addItems]
    simp

end MappingSettingModifyRecord

end SimpleCode.KeepingSettingModify
