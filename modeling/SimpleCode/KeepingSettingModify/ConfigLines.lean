import SimpleCode.KeepingSettingModify.ConfigFile

set_option autoImplicit false

/-! What a configuration file says: its lines assign values to names, and the last assignment counts.
`loadConfigFileParam` reads that from files without the byte 255. -/

namespace SimpleCode.KeepingSettingModify

open Foundations Foundations.Bytes

/-- The name before the first `=` of a line, and the value behind it. -/
def assignment (sensitive : List Bytes) (line : Bytes) : Option (Bytes × Bytes) :=
  let name := line.takeWhile (· ≠ 61)
  if 61 ∈ line ∧ name ≠ [] then
    some (name, if name ∈ sensitive then [] else line.drop (name.length + 1))
  else none

def assign (m : ParamConfigFileMap) (a : Bytes × Bytes) : ParamConfigFileMap := m.insert a.1 a.2

def assignments (sensitive : List Bytes) (files : List Bytes) : List (Bytes × Bytes) :=
  (files.flatMap getlines).filterMap (assignment sensitive)

variable {sensitive : List Bytes} {m : ParamConfigFileMap} {line file : Bytes}

lemma find_byte (c : UInt8) (s : Bytes) :
    find [c] s = if c ∈ s then some (s.takeWhile (· ≠ c)).length else none := by
  induction s with
  | nil => rfl
  | cons a s ih =>
    rw [find, ih]
    by_cases ha : a = c
    · simp [ha]
    · have hp : ¬ [c].isPrefixOf (a :: s) = true := by simpa using Ne.symm ha
      rw [if_neg hp]
      by_cases hs : c ∈ s
      · simp [hs, ha]
      · simp [hs, Ne.symm ha]

lemma take_length_takeWhile (p : UInt8 → Bool) (s : Bytes) :
    s.take (s.takeWhile p).length = s.takeWhile p :=
  (List.prefix_iff_eq_take.mp (List.takeWhile_prefix p)).symm

lemma endOfConfigLine_eq (line : Bytes) :
    endOfConfigLine sensitive m line = ((assignment sensitive line).map (assign m)).getD m := by
  unfold endOfConfigLine assignment
  rw [show bytes "=" = [61] from rfl, find_byte]
  by_cases heq : 61 ∈ line
  · simp only [heq, if_true, take_length_takeWhile, true_and]
    unfold updateConfigFileParamMap filteringSensitiveParam
    by_cases hname : line.takeWhile (· ≠ 61) = []
    · simp only [hname, if_true, ne_eq, not_true_eq_false, if_false, Option.map_none,
        Option.getD_none]
    · by_cases hs : line.takeWhile (· ≠ 61) ∈ sensitive
      · simp only [hname, hs, decide_true, if_true, if_false, ne_eq, not_false_eq_true,
          Option.map_some, Option.getD_some, assign]
      · simp only [hname, hs, decide_false, Bool.false_eq_true, if_true, if_false, ne_eq,
          not_false_eq_true, Option.map_some, Option.getD_some, assign]
  · simp [heq]

lemma foldl_endOfConfigLine (lines : List Bytes) :
    lines.foldl (endOfConfigLine sensitive) m =
      (lines.filterMap (assignment sensitive)).foldl assign m := by
  induction lines generalizing m with
  | nil => rfl
  | cons line lines ih =>
    rw [List.foldl_cons, ih, endOfConfigLine_eq, List.filterMap_cons]
    cases assignment sensitive line <;> rfl

def deliveredLines (line : Bytes) : Bytes → List Bytes
  | [] => if line = [] then [] else [line]
  | ch :: file =>
    if ch = eofChar ∧ line = [] then []
    else if ch ≠ 10 ∧ ch ≠ eofChar then deliveredLines (line ++ [ch]) file
    else line :: deliveredLines [] file

lemma loadConfigFile_eq (line file : Bytes) :
    loadConfigFile sensitive m line file =
      (deliveredLines line file).foldl (endOfConfigLine sensitive) m := by
  induction file generalizing line m with
  | nil =>
    rw [loadConfigFile, deliveredLines]
    split_ifs <;> rfl
  | cons ch file ih =>
    rw [loadConfigFile, deliveredLines]
    split_ifs
    · rfl
    · exact ih (line ++ [ch])
    · rw [ih []]
      rfl

lemma getlines_last (hl : (10 : UInt8) ∉ line) :
    getlines line = if line = [] then [] else [line] := by
  induction line with
  | nil => rfl
  | cons c line ih =>
    obtain ⟨hc, hrest⟩ := not_or.mp (mt List.mem_cons.mpr hl)
    rw [getlines, if_neg (Ne.symm hc), ih hrest]
    cases line <;> rfl

lemma delivered_eq_getlines (hl : (10 : UInt8) ∉ line) (hf : eofChar ∉ file) :
    deliveredLines line file = getlines (line ++ file) := by
  induction file generalizing line with
  | nil => rw [deliveredLines, List.append_nil, getlines_last hl]
  | cons ch file ih =>
    obtain ⟨hch, hrest⟩ := not_or.mp (mt List.mem_cons.mpr hf)
    rw [deliveredLines, if_neg (fun h => hch h.1.symm)]
    by_cases hnl : ch = 10
    · subst hnl
      rw [if_neg (by simp), ih List.not_mem_nil hrest, List.nil_append, getlines_line hl]
    · have hline : (10 : UInt8) ∉ line ++ [ch] := by simpa [hl] using Ne.symm hnl
      rw [if_pos ⟨hnl, Ne.symm hch⟩, ih hline hrest, List.append_assoc, List.singleton_append]

lemma not_mem_delivered (hl : eofChar ∉ line) :
    ∀ l ∈ deliveredLines line file, eofChar ∉ l := by
  induction file generalizing line with
  | nil =>
    rw [deliveredLines]
    split_ifs <;> simp [hl]
  | cons ch file ih =>
    rw [deliveredLines]
    split_ifs with hend hch
    · simp
    · exact ih (by simpa [hl] using Ne.symm hch.2)
    · intro l hmem
      obtain rfl | hmem := List.mem_cons.mp hmem
      · exact hl
      · exact ih List.not_mem_nil l hmem

lemma mem_getlines {c : UInt8} (hc : c ≠ 10) (h : c ∈ file) : ∃ l ∈ getlines file, c ∈ l := by
  induction file with
  | nil => exact absurd h List.not_mem_nil
  | cons a file ih =>
    rw [getlines]
    obtain rfl | hmem := List.mem_cons.mp h
    · rw [if_neg hc]
      split
      · exact ⟨_, List.mem_singleton.mpr rfl, List.mem_cons_self⟩
      · exact ⟨_, List.mem_cons_self, List.mem_cons_self⟩
    · obtain ⟨l, hl, hcl⟩ := ih hmem
      split_ifs
      · exact ⟨l, List.mem_cons_of_mem _ hl, hcl⟩
      · cases hg : getlines file with
        | nil => exact absurd (hg ▸ hl) List.not_mem_nil
        | cons k ls =>
          obtain rfl | hl := List.mem_cons.mp (hg ▸ hl)
          · exact ⟨_, List.mem_cons_self, List.mem_cons_of_mem _ hcl⟩
          · exact ⟨l, List.mem_cons_of_mem _ hl, hcl⟩

theorem delivered_iff : deliveredLines [] file = getlines file ↔ eofChar ∉ file := by
  constructor
  · intro h hmem
    obtain ⟨l, hl, hcl⟩ := mem_getlines (by decide) hmem
    exact not_mem_delivered List.not_mem_nil l (h ▸ hl) hcl
  · exact delivered_eq_getlines List.not_mem_nil

lemma loadConfigFile_lines (hf : eofChar ∉ file) :
    loadConfigFile sensitive m [] file =
      ((getlines file).filterMap (assignment sensitive)).foldl assign m := by
  rw [loadConfigFile_eq, delivered_iff.mpr hf, foldl_endOfConfigLine]

theorem load_assigns {files : List Bytes} (hf : ∀ file ∈ files, eofChar ∉ file) :
    loadConfigFileParam sensitive m (files.map some) =
      (0, (assignments sensitive files).foldl assign m) := by
  induction files generalizing m with
  | nil => rfl
  | cons file files ih =>
    rw [List.map_cons, loadConfigFileParam, ih fun f h => hf f (List.mem_cons_of_mem _ h),
      loadConfigFile_lines (hf file List.mem_cons_self), assignments, assignments,
      List.flatMap_cons, List.filterMap_append, List.foldl_append]

theorem load_assigns_two :
    loadConfigFileParam [] .empty [some (bytes "vol=3\n#off"), some (bytes "vol=5")] =
      (0, (assignments [] [bytes "vol=3\n#off", bytes "vol=5"]).foldl assign .empty) :=
  @load_assigns [] .empty [bytes "vol=3\n#off", bytes "vol=5"] (by decide)

theorem load_truncates :
    (loadConfigFileParam [] .empty [some (bytes "city=Orl" ++ [255] ++ bytes "ans")]).2 ≠
      (assignments [] [bytes "city=Orl" ++ [255] ++ bytes "ans"]).foldl assign .empty := by
  intro h
  have hvalue := congrArg (fun m => OrderedMap.find? m (bytes "city")) h
  revert hvalue
  decide

end SimpleCode.KeepingSettingModify
