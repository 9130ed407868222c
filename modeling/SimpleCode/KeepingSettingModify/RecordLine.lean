import SimpleCode.KeepingSettingModify.Loading

set_option autoImplicit false

/-! The text of one record: `parseRecordLine` reads back the line that `formatRecord` writes unless
a field is the word that signals a failure or runs into the separator behind it. -/

namespace SimpleCode.KeepingSettingModify

open Foundations Foundations.Bytes MappingSettingModifyRecord

def separators : List Bytes :=
  [" ] @<", "> modified by[ ", " ]from[ ", " ]to[ ", " ]into file[ ", " ]."].map bytes

namespace ParametersItem

def fields (r : ParametersItem) : List Bytes :=
  [r.paramName, r.modifyTimeStamp, r.sourceModule, r.oldValue, r.newValue, r.modifiedFile]

/-- No field holds a newline, a NUL or a separator. -/
def Clean (r : ParametersItem) : Prop :=
  ∀ field ∈ r.fields, (10 : UInt8) ∉ field ∧ (0 : UInt8) ∉ field ∧
    ∀ tag ∈ separators, ¬ tag <:+: field

/-- No field is `fail`, and none ends with a separator that lacks only its last blank. -/
structure Readable (r : ParametersItem) : Prop where
  not_fail : ∀ field ∈ r.fields, field ≠ bytes "fail"
  source : ¬ bytes " ]from[" <:+ r.sourceModule
  old : ¬ bytes " ]to[" <:+ r.oldValue
  new : ¬ bytes " ]into file[" <:+ r.newValue

instance (r : ParametersItem) : Decidable r.Clean := by
  unfold Clean
  infer_instance

lemma readable_iff {r : ParametersItem} :
    r.Readable ↔ (∀ field ∈ r.fields, field ≠ bytes "fail") ∧
      ¬ bytes " ]from[" <:+ r.sourceModule ∧ ¬ bytes " ]to[" <:+ r.oldValue ∧
        ¬ bytes " ]into file[" <:+ r.newValue := by
  constructor
  · intro h
    exact ⟨h.not_fail, h.source, h.old, h.new⟩
  · intro h
    exact ⟨h.1, h.2.1, h.2.2.1, h.2.2.2⟩

instance (r : ParametersItem) : Decidable r.Readable := decidable_of_iff' _ readable_iff

end ParametersItem

def cut (s tag : Bytes) : Bytes × Bytes :=
  match find tag s with
  | none => (bytes "fail", s)
  | some position => (s.take position, s.drop (tag.length + position))

lemma getValueByTag_eq (s tag : Bytes) : getValueByTag s tag = .ok (cut s tag) := by
  unfold getValueByTag cut
  cases hf : find tag s with
  | none => rfl
  | some position =>
    have hle := find_le hf
    have hlen : (s.take position).length = position := by
      rw [List.length_take]
      omega
    simp only [substr_of_le position (Nat.zero_le s.length), List.drop_zero]
    change (substr s (tag.length + (s.take position).length) s.length >>= fun rest =>
      Except.ok (s.take position, rest)) = _
    rw [hlen, substr_rest (by omega) le_rfl]
    rfl

section Cut

variable {field tag rest : Bytes} (hclean : ¬ tag <:+: field)

include hclean

lemma cut_eq (h : ¬ Overlaps field tag) : cut (field ++ tag ++ rest) tag = (field, rest) := by
  have hdrop : (field ++ tag ++ rest).drop (tag.length + field.length) = rest := by
    rw [Nat.add_comm, ← List.length_append, List.drop_left]
  have htake : (field ++ tag ++ rest).take field.length = field := by
    rw [List.append_assoc, List.take_left]
  rw [cut, (find_append hclean).mpr h]
  simp only [hdrop, htake]

lemma cut_short (h : Overlaps field tag) :
    (cut (field ++ tag ++ rest) tag).1.length < field.length := by
  obtain ⟨j, hj, hp⟩ := (prefix_drop_append rest hclean).mpr h
  cases hf : find tag (field ++ tag ++ rest) with
  | none =>
    have hin : tag <:+: field ++ tag ++ rest := ⟨field, rest, rfl⟩
    exact absurd hin (find_eq_none.mp hf)
  | some i =>
    obtain ⟨-, -, hfirst⟩ := find_eq_some.mp hf
    have hij : i ≤ j := not_lt.mp fun hlt => hfirst j hlt hp
    simp only [cut, hf, List.length_take]
    omega

end Cut

lemma cut_borderless {field tag rest : Bytes} (hclean : ¬ tag <:+: field) (hb : borders tag = []) :
    cut (field ++ tag ++ rest) tag = (field, rest) := by
  apply cut_eq hclean
  rw [overlaps_iff, hb]
  simp

lemma overlaps_border {field tag : Bytes} {k : ℕ} (hb : borders tag = [k]) :
    Overlaps field tag ↔ tag.take k <:+ field := by
  rw [overlaps_iff, hb]
  simp

def parseFields (s : Bytes) : ItemPointer :=
  let name := cut s (bytes " ] @<")
  let stamp := cut name.2 (bytes "> modified by[ ")
  let source := cut stamp.2 (bytes " ]from[ ")
  let old := cut source.2 (bytes " ]to[ ")
  let new := cut old.2 (bytes " ]into file[ ")
  let file := cut new.2 (bytes " ].")
  if name.1 = bytes "fail" ∨ stamp.1 = bytes "fail" ∨ source.1 = bytes "fail" ∨
      old.1 = bytes "fail" ∨ new.1 = bytes "fail" ∨ file.1 = bytes "fail" then .errorParamItem
  else .newItem ⟨name.1, old.1, new.1, stamp.1, source.1, file.1⟩

lemma parseRecordLine_eq (s : Bytes) :
    parseRecordLine (bytes "Parameter[ " ++ s) = .ok (parseFields s) := by
  have hfind : find (bytes "Parameter[") (bytes "Parameter[ " ++ s) ≠ none := by
    intro hnone
    exact find_eq_none.mp hnone ⟨[], bytes " " ++ s, rfl⟩
  have hdrop : substr (bytes "Parameter[ " ++ s) (bytes "Parameter[ ").length
      (bytes "Parameter[ " ++ s).length = .ok s := by
    rw [substr_rest (by simp) le_rfl, List.drop_left]
  unfold parseRecordLine parseFields
  rw [if_neg hfind, hdrop]
  simp only [getValueByTag_eq, bind, Except.bind, pure, Except.pure]
  generalize cut s (bytes " ] @<") = name
  generalize cut name.2 (bytes "> modified by[ ") = stamp
  generalize cut stamp.2 (bytes " ]from[ ") = source
  generalize cut source.2 (bytes " ]to[ ") = old
  generalize cut old.2 (bytes " ]into file[ ") = new
  generalize cut new.2 (bytes " ].") = file
  generalize bytes "fail" = fail
  by_cases hname : name.1 = fail
  · simp only [hname, if_true, true_or]
  by_cases hstamp : stamp.1 = fail
  · simp only [hname, hstamp, if_true, if_false, true_or, or_true]
  by_cases hsource : source.1 = fail
  · simp only [hname, hstamp, hsource, if_true, if_false, true_or, or_true]
  by_cases hold : old.1 = fail
  · simp only [hname, hstamp, hsource, hold, if_true, if_false, true_or, or_true]
  by_cases hnew : new.1 = fail
  · simp only [hname, hstamp, hsource, hold, hnew, if_true, if_false, true_or, or_true]
  by_cases hfile : file.1 = fail
  · simp only [hname, hstamp, hsource, hold, hnew, hfile, if_true, if_false, or_true]
  · simp only [hname, hstamp, hsource, hold, hnew, hfile, if_false, or_self]

def recordText (r : ParametersItem) : Bytes :=
  r.paramName ++ bytes " ] @<" ++ (r.modifyTimeStamp ++ bytes "> modified by[ " ++
    (r.sourceModule ++ bytes " ]from[ " ++ (r.oldValue ++ bytes " ]to[ " ++
      (r.newValue ++ bytes " ]into file[ " ++ (r.modifiedFile ++ bytes " ]." ++ [])))))

lemma formatRecord_eq {sensitive : List Bytes} {r : ParametersItem} (hs : r.paramName ∉ sensitive) :
    formatRecord sensitive (r.paramName, r) = bytes "Parameter[ " ++ recordText r := by
  simp only [formatRecord, if_neg hs, recordText, List.append_assoc, List.append_nil]

section Text

variable {r : ParametersItem} (hc : r.Clean)

lemma overlaps_source : Overlaps r.sourceModule (bytes " ]from[ ") ↔
    bytes " ]from[" <:+ r.sourceModule :=
  overlaps_border (show borders (bytes " ]from[ ") = [7] by decide)

lemma overlaps_old : Overlaps r.oldValue (bytes " ]to[ ") ↔ bytes " ]to[" <:+ r.oldValue :=
  overlaps_border (show borders (bytes " ]to[ ") = [5] by decide)

lemma overlaps_new : Overlaps r.newValue (bytes " ]into file[ ") ↔
    bytes " ]into file[" <:+ r.newValue :=
  overlaps_border (show borders (bytes " ]into file[ ") = [12] by decide)

include hc

lemma clean_field {field tag : Bytes} (hf : field ∈ r.fields) (ht : tag ∈ separators) :
    ¬ tag <:+: field := (hc field hf).2.2 tag ht

lemma cut_name (rest : Bytes) :
    cut (r.paramName ++ bytes " ] @<" ++ rest) (bytes " ] @<") = (r.paramName, rest) :=
  cut_borderless (clean_field hc (by simp [ParametersItem.fields]) (by decide)) (by decide)

lemma cut_stamp (rest : Bytes) :
    cut (r.modifyTimeStamp ++ bytes "> modified by[ " ++ rest) (bytes "> modified by[ ") =
      (r.modifyTimeStamp, rest) :=
  cut_borderless (clean_field hc (by simp [ParametersItem.fields]) (by decide)) (by decide)

lemma cut_file (rest : Bytes) :
    cut (r.modifiedFile ++ bytes " ]." ++ rest) (bytes " ].") = (r.modifiedFile, rest) :=
  cut_borderless (clean_field hc (by simp [ParametersItem.fields]) (by decide)) (by decide)

lemma parseFields_name {item : ParametersItem} (h : parseFields (recordText r) = .newItem item) :
    item.paramName = r.paramName := by
  simp only [parseFields, recordText, cut_name hc] at h
  split_ifs at h
  obtain rfl := ItemPointer.newItem.inj h
  rfl

theorem parseFields_recordText : parseFields (recordText r) = .newItem r ↔ r.Readable := by
  have hsource : ¬ bytes " ]from[ " <:+: r.sourceModule :=
    clean_field hc (by simp [ParametersItem.fields]) (by decide)
  have hold : ¬ bytes " ]to[ " <:+: r.oldValue :=
    clean_field hc (by simp [ParametersItem.fields]) (by decide)
  have hnew : ¬ bytes " ]into file[ " <:+: r.newValue :=
    clean_field hc (by simp [ParametersItem.fields]) (by decide)
  by_cases hos : Overlaps r.sourceModule (bytes " ]from[ ")
  · have hread : ¬ r.Readable := fun h => h.source (overlaps_source.mp hos)
    simp only [hread, iff_false]
    intro h
    simp only [parseFields, recordText, cut_name hc, cut_stamp hc] at h
    split_ifs at h
    have hlen := congrArg (fun i => i.sourceModule.length) (ItemPointer.newItem.inj h)
    exact absurd hlen (cut_short hsource hos).ne
  have hcs (rest : Bytes) : cut (r.sourceModule ++ bytes " ]from[ " ++ rest) (bytes " ]from[ ") =
      (r.sourceModule, rest) := cut_eq hsource hos
  by_cases hoo : Overlaps r.oldValue (bytes " ]to[ ")
  · have hread : ¬ r.Readable := fun h => h.old (overlaps_old.mp hoo)
    simp only [hread, iff_false]
    intro h
    simp only [parseFields, recordText, cut_name hc, cut_stamp hc, hcs] at h
    split_ifs at h
    have hlen := congrArg (fun i => i.oldValue.length) (ItemPointer.newItem.inj h)
    exact absurd hlen (cut_short hold hoo).ne
  have hco (rest : Bytes) : cut (r.oldValue ++ bytes " ]to[ " ++ rest) (bytes " ]to[ ") =
      (r.oldValue, rest) := cut_eq hold hoo
  by_cases hon : Overlaps r.newValue (bytes " ]into file[ ")
  · have hread : ¬ r.Readable := fun h => h.new (overlaps_new.mp hon)
    simp only [hread, iff_false]
    intro h
    simp only [parseFields, recordText, cut_name hc, cut_stamp hc, hcs, hco] at h
    split_ifs at h
    have hlen := congrArg (fun i => i.newValue.length) (ItemPointer.newItem.inj h)
    exact absurd hlen (cut_short hnew hon).ne
  have hcn (rest : Bytes) : cut (r.newValue ++ bytes " ]into file[ " ++ rest)
      (bytes " ]into file[ ") = (r.newValue, rest) := cut_eq hnew hon
  have hread : r.Readable ↔ ∀ field ∈ r.fields, field ≠ bytes "fail" := by
    rw [ParametersItem.readable_iff, ← overlaps_source, ← overlaps_old, ← overlaps_new]
    simp only [hos, hoo, hon, not_false_eq_true, and_self, and_true]
  rw [hread]
  simp only [parseFields, recordText, cut_name hc, cut_stamp hc, hcs, hco, hcn, cut_file hc]
  split_ifs with hfail
  · simp only [false_iff, ParametersItem.fields, List.forall_mem_cons]
    tauto
  · simp only [true_iff, ParametersItem.fields, List.forall_mem_cons]
    tauto

end Text

section Line

variable {sensitive : List Bytes} {r : ParametersItem} (hs : r.paramName ∉ sensitive)

include hs

lemma formatRecord_parses :
    parseRecordLine (formatRecord sensitive (r.paramName, r)) = .ok (parseFields (recordText r)) := by
  rw [formatRecord_eq hs, parseRecordLine_eq]

lemma lineItem_eq : lineItem (formatRecord sensitive (r.paramName, r)) =
    if Accepted (parseFields (recordText r)).item then some (parseFields (recordText r)).item
    else none := by
  rw [lineItem, formatRecord_parses hs]

lemma lineItem_name (hc : r.Clean) {item : ParametersItem}
    (h : lineItem (formatRecord sensitive (r.paramName, r)) = some item) :
    item.paramName = r.paramName := by
  rw [lineItem_eq hs] at h
  split_ifs at h with ha
  obtain rfl := Option.some.inj h
  cases hp : parseFields (recordText r) with
  | errorParamItem =>
    rw [hp] at ha
    exact absurd ha (by decide)
  | newItem item => exact parseFields_name hc hp

theorem lineItem_formatRecord (hc : r.Clean) (ha : Accepted r) :
    lineItem (formatRecord sensitive (r.paramName, r)) = some r ↔ r.Readable := by
  rw [lineItem_eq hs, ← parseFields_recordText hc]
  constructor
  · intro h
    split_ifs at h with hp
    cases hf : parseFields (recordText r) with
    | errorParamItem =>
      rw [hf] at hp
      exact absurd hp (by decide)
    | newItem item =>
      rw [hf] at h
      exact congrArg _ (Option.some.inj h)
  · intro h
    rw [h]
    exact if_pos ha

end Line

end SimpleCode.KeepingSettingModify
