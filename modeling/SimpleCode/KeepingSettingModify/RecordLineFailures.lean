import SimpleCode.KeepingSettingModify.RecordLine

set_option autoImplicit false

namespace SimpleCode.KeepingSettingModify

open Foundations Foundations.Bytes

variable {s : Bytes}

def Separated : List Bytes → Bytes → Prop
  | [], _ => True
  | tag :: tags, s => ∃ field rest, s = field ++ tag ++ rest ∧ Separated tags rest

def cutFields : List Bytes → Bytes → List Bytes
  | [], _ => []
  | tag :: tags, s => (cut s tag).1 :: cutFields tags (cut s tag).2

def WellFormed (s : Bytes) : Prop :=
  bytes "Parameter[ " <+: s ∧ Separated separators (s.drop 11)

/-- No exception, and a new item exactly from a line of the record file. -/
def ParsesTotally (s : Bytes) : Prop :=
  (∃ r, parseRecordLine s = .ok r) ∧
    ((∃ item, parseRecordLine s = .ok (.newItem item)) ↔ WellFormed s)

lemma Separated.append {tags : List Bytes} {s : Bytes} (h : Separated tags s) (a : Bytes) :
    Separated tags (a ++ s) := by
  cases tags with
  | nil => trivial
  | cons tag tags =>
    obtain ⟨field, rest, rfl, hrest⟩ := h
    exact ⟨a ++ field, rest, by simp, hrest⟩

lemma separated_cons {tag : Bytes} {tags : List Bytes} :
    Separated (tag :: tags) s ↔ tag <:+: s ∧ Separated tags (cut s tag).2 := by
  constructor
  · rintro ⟨field, rest, rfl, hrest⟩
    have hin : tag <:+: field ++ tag ++ rest := ⟨field, rest, rfl⟩
    refine ⟨hin, ?_⟩
    cases hf : find tag (field ++ tag ++ rest) with
    | none => exact absurd hin (find_eq_none.mp hf)
    | some i =>
      obtain ⟨-, -, hfirst⟩ := find_eq_some.mp hf
      have hle : i ≤ field.length := by
        apply not_lt.mp
        intro hlt
        apply hfirst _ hlt
        rw [List.append_assoc, List.drop_left]
        exact List.prefix_append tag rest
      have hsplit : (field ++ tag ++ rest).drop (tag.length + i) =
          ((field ++ tag).drop (tag.length + i)) ++ rest := by
        apply List.drop_append_of_le_length
        rw [List.length_append]
        omega
      rw [cut, hf]
      simp only [hsplit]
      exact hrest.append _
  · rintro ⟨hin, hrest⟩
    cases hf : find tag s with
    | none => exact absurd hin (find_eq_none.mp hf)
    | some i =>
      obtain ⟨⟨rest, hp⟩, -, -⟩ := find_eq_some.mp hf
      refine ⟨s.take i, rest, ?_, ?_⟩
      · rw [List.append_assoc, hp, List.take_append_drop]
      · have hdrop : s.drop (tag.length + i) = rest := by
          rw [Nat.add_comm, ← List.drop_drop, ← hp, List.drop_left]
        rw [cut, hf] at hrest
        exact hdrop ▸ hrest

lemma cut_fails {tag : Bytes} (h : ¬ tag <:+: s) : (cut s tag).1 = bytes "fail" := by
  rw [cut, find_eq_none.mpr h]

lemma fail_of_not_separated {tags : List Bytes} (h : ¬ Separated tags s) :
    bytes "fail" ∈ cutFields tags s := by
  induction tags generalizing s with
  | nil => exact absurd trivial h
  | cons tag tags ih =>
    rw [cutFields]
    by_cases hin : tag <:+: s
    · have hrest : ¬ Separated tags (cut s tag).2 := fun hr => h (separated_cons.mpr ⟨hin, hr⟩)
      exact List.mem_cons_of_mem _ (ih hrest)
    · exact cut_fails hin ▸ List.mem_cons_self

lemma parseFields_new : (∃ item, parseFields s = .newItem item) ↔
    bytes "fail" ∉ cutFields separators s := by
  simp only [separators, List.map_cons, List.map_nil, cutFields, parseFields, List.mem_cons,
    List.not_mem_nil, or_false, eq_comm (a := bytes "fail")]
  constructor
  · rintro ⟨item, h⟩ hfail
    rw [if_pos hfail] at h
    cases h
  · intro h
    exact ⟨_, if_neg h⟩

lemma parseRecordLine_cases (s : Bytes) :
    parseRecordLine s =
      if ¬ bytes "Parameter[" <:+: s then .ok .errorParamItem
      else if s.length < 11 then .error .outOfRange
      else .ok (parseFields (s.drop 11)) := by
  by_cases hin : bytes "Parameter[" <:+: s
  · have hfind : find (bytes "Parameter[") s ≠ none := fun h => find_eq_none.mp h hin
    rw [if_neg (not_not.mpr hin)]
    by_cases hlen : s.length < 11
    · have hthrow : substr s (bytes "Parameter[ ").length s.length = .error .outOfRange := by
        rw [substr, if_neg]
        change ¬ 11 ≤ s.length
        omega
      rw [if_pos hlen, parseRecordLine, if_neg hfind, hthrow]
      rfl
    · -- both lines are cut to the same rest
      have hcut : substr s (bytes "Parameter[ ").length s.length = .ok (s.drop 11) :=
        substr_rest (not_lt.mp hlen) le_rfl
      have hfind' : find (bytes "Parameter[") (bytes "Parameter[ " ++ s.drop 11) ≠ none :=
        fun h => find_eq_none.mp h ⟨[], bytes " " ++ s.drop 11, rfl⟩
      have hcut' : substr (bytes "Parameter[ " ++ s.drop 11) (bytes "Parameter[ ").length
          (bytes "Parameter[ " ++ s.drop 11).length = .ok (s.drop 11) := by
        rw [substr_rest (by simp) le_rfl, List.drop_left]
      rw [if_neg hlen, ← parseRecordLine_eq, parseRecordLine, parseRecordLine, if_neg hfind,
        if_neg hfind', hcut, hcut']
  · rw [if_pos hin, parseRecordLine, if_pos (find_eq_none.mpr hin)]
    rfl

lemma length_lt_iff_bracket (h : bytes "Parameter[" <:+: s) : s.length < 11 ↔ s = bytes "Parameter[" := by
  constructor
  · intro hlt
    have hten : (bytes "Parameter[").length = 10 := rfl
    exact (h.eq_of_length_le (by omega)).symm
  · rintro rfl
    decide

theorem parsesTotally_iff : ParsesTotally s ↔ s ≠ bytes "Parameter[" ∧
    (Separated separators (s.drop 11) → bytes "Parameter[" <:+: s →
      (bytes "Parameter[ " <+: s ↔ bytes "fail" ∉ cutFields separators (s.drop 11))) := by
  unfold ParsesTotally WellFormed
  rw [parseRecordLine_cases]
  by_cases hin : bytes "Parameter[" <:+: s
  · rw [if_neg (not_not.mpr hin)]
    by_cases hlen : s.length < 11
    · rw [if_pos hlen]
      simp [(length_lt_iff_bracket hin).mp hlen]
    · have hne : s ≠ bytes "Parameter[" := mt (length_lt_iff_bracket hin).mpr hlen
      simp only [if_neg hlen, Except.ok.injEq, exists_eq', true_and, parseFields_new, hin,
        true_imp_iff, ne_eq, hne, not_false_eq_true]
      by_cases hsep : Separated separators (s.drop 11)
      · simp only [hsep, and_true, true_imp_iff]
        exact iff_comm
      · simp [hsep, fail_of_not_separated hsep]
  · have hprefix : ¬ bytes "Parameter[ " <+: s := by
      intro hp
      have hshort : bytes "Parameter[" <+: bytes "Parameter[ " := ⟨bytes " ", rfl⟩
      exact hin (hshort.trans hp).isInfix
    have hne : s ≠ bytes "Parameter[" := by
      rintro rfl
      exact hin List.infix_rfl
    simp [hin, hprefix, hne]

theorem parsesTotally_bracket : ¬ ParsesTotally (bytes "Parameter[") := by
  rintro ⟨⟨r, hr⟩, -⟩
  have hthrow : parseRecordLine (bytes "Parameter[") = .error .outOfRange := rfl
  rw [hthrow] at hr
  cases hr

end SimpleCode.KeepingSettingModify
