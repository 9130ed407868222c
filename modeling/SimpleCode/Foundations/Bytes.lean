import SimpleCode.Foundations.Computation

set_option autoImplicit false

namespace SimpleCode.Foundations

instance linearOrderUInt8 : LinearOrder UInt8 where
  le_refl a := UInt8.le_refl a
  le_trans _ _ _ := UInt8.le_trans
  le_antisymm _ _ := UInt8.le_antisymm
  le_total := UInt8.le_total
  lt_iff_le_not_ge a b := by
    rw [UInt8.lt_iff_toNat_lt, UInt8.le_iff_toNat_le, UInt8.le_iff_toNat_le]
    omega
  toDecidableLE := inferInstance
  toDecidableEq := inferInstance
  toDecidableLT := inferInstance

abbrev Bytes := List UInt8

-- Under names of their own, so that a definition has one form wherever it is elaborated.
instance lawfulBEqUInt8 : LawfulBEq UInt8 := inferInstance

instance lawfulBEqBytes : LawfulBEq (List UInt8) := inferInstance

section Ranges

instance neZeroWeekDays : NeZero 7 := ⟨by decide⟩

instance neZeroMonths : NeZero 12 := ⟨by decide⟩

instance neZeroMonthNumbers : NeZero 13 := ⟨by decide⟩

instance neZeroYears : NeZero (2 ^ 32) := ⟨by decide⟩

instance neZeroHours : NeZero 24 := ⟨by decide⟩

instance neZeroMonthDays : NeZero 32 := ⟨by decide⟩

instance neZeroMinutes : NeZero 60 := ⟨by decide⟩

instance neZeroSeconds : NeZero 61 := ⟨by decide⟩

end Ranges

def bytes (s : String) : Bytes := s.toList.map fun c => UInt8.ofNat c.toNat

namespace Bytes

-- `std::string::find`; `none` stands for `npos`
def find (tag : Bytes) : Bytes → Option ℕ
  | [] => if tag = [] then some 0 else none
  | c :: cs => if tag.isPrefixOf (c :: cs) then some 0 else (find tag cs).map (· + 1)

inductive OutOfRange
  | outOfRange
deriving DecidableEq, Repr

def substr (s : Bytes) (pos n : ℕ) : Except OutOfRange Bytes :=
  if pos ≤ s.length then .ok ((s.drop pos).take n) else .error .outOfRange

lemma substr_of_le {s : Bytes} {pos : ℕ} (n : ℕ) (h : pos ≤ s.length) :
    substr s pos n = .ok ((s.drop pos).take n) := if_pos h

lemma substr_rest {s : Bytes} {pos n : ℕ} (h : pos ≤ s.length) (hn : s.length ≤ n) :
    substr s pos n = .ok (s.drop pos) := by
  rw [substr_of_le n h, List.take_of_length_le]
  simp
  omega

lemma find_eq_some {tag s : Bytes} {i : ℕ} :
    find tag s = some i ↔ tag <+: s.drop i ∧ i ≤ s.length ∧ ∀ j < i, ¬ tag <+: s.drop j := by
  induction s generalizing i with
  | nil =>
    simp only [find, List.drop_nil, List.prefix_nil, List.length_nil, Nat.le_zero]
    split
    · next ht => constructor
                 · rintro ⟨⟩; simp [ht]
                 · rintro ⟨-, rfl, -⟩; rfl
    · next ht => simp [ht]
  | cons c cs ih =>
    rw [find]
    split
    · next hp =>
      rw [List.isPrefixOf_iff_prefix] at hp
      constructor
      · rintro ⟨⟩; exact ⟨hp, by simp, by simp⟩
      · rintro ⟨-, -, hj⟩
        rcases Nat.eq_zero_or_pos i with rfl | hi
        · rfl
        · exact absurd hp (hj 0 hi)
    · next hp =>
      rw [List.isPrefixOf_iff_prefix] at hp
      rcases i with _ | i
      · simpa using fun h => absurd h hp
      · simp only [Option.map_eq_some_iff, Nat.add_right_cancel_iff, exists_eq_right, ih,
          List.drop_succ_cons, List.length_cons, Nat.add_le_add_iff_right]
        refine and_congr_right fun _ => and_congr_right fun _ => ?_
        constructor
        · rintro h (_ | j) hj
          · exact hp
          · exact h j (by omega)
        · exact fun h j hj => h (j + 1) (by omega)

lemma find_eq_none {tag s : Bytes} : find tag s = none ↔ ¬ tag <:+: s := by
  induction s with
  | nil => simp [find]
  | cons c cs ih =>
    rw [find, List.infix_cons_iff, ← List.isPrefixOf_iff_prefix]
    split <;> simp_all

lemma find_le {tag s : Bytes} {i : ℕ} (h : find tag s = some i) : i + tag.length ≤ s.length := by
  obtain ⟨hp, hi, -⟩ := find_eq_some.mp h
  have := hp.length_le
  simp at this
  omega

-- an occurrence of `tag` in `field ++ tag` that starts inside `field` and ends in the appended copy
def Overlaps (field tag : Bytes) : Prop :=
  ∃ u v, u ≠ [] ∧ v ≠ [] ∧ tag = u ++ v ∧ v <+: tag ∧ u <:+ field

lemma prefix_drop_append {field tag : Bytes} (rest : Bytes) (h : ¬ tag <:+: field) :
    (∃ j < field.length, tag <+: (field ++ tag ++ rest).drop j) ↔ Overlaps field tag := by
  constructor
  · rintro ⟨j, hj, hp⟩
    have hd : (field ++ tag ++ rest).drop j = field.drop j ++ (tag ++ rest) := by
      rw [List.append_assoc, List.drop_append_of_le_length hj.le]
    rw [hd] at hp
    have hu : field.drop j ≠ [] := by simpa using hj
    rcases List.prefix_or_prefix_of_prefix hp (List.prefix_append _ _) with hp' | ⟨v, hv⟩
    · exact absurd (hp'.isInfix.trans (List.drop_suffix j field).isInfix) h
    · have hvp : v <+: tag ++ rest := by
        rw [← hv] at hp
        simpa [hv] using (List.prefix_append_right_inj _).mp hp
      refine ⟨field.drop j, v, hu, ?_, hv.symm, ?_, List.drop_suffix j field⟩
      · rintro rfl
        rw [List.append_nil] at hv
        exact h (hv ▸ (List.drop_suffix j field).isInfix)
      · refine List.prefix_of_prefix_length_le hvp (List.prefix_append tag rest) ?_
        rw [← hv]
        simp
  · rintro ⟨u, v, hu, -, ht, hv, ⟨w, rfl⟩⟩
    refine ⟨w.length, by simpa using List.length_pos_iff.mpr hu, ?_⟩
    rw [List.append_assoc, List.append_assoc, List.drop_left]
    conv_lhs => rw [ht]
    exact (List.prefix_append_right_inj u).mpr (hv.trans (List.prefix_append tag rest))

theorem find_append {field tag rest : Bytes} (h : ¬ tag <:+: field) :
    find tag (field ++ tag ++ rest) = some field.length ↔ ¬ Overlaps field tag := by
  rw [find_eq_some, ← prefix_drop_append rest h]
  simp

def borders (tag : Bytes) : List ℕ :=
  (List.range tag.length).filter fun k => 0 < k ∧ (tag.drop k).isPrefixOf tag

lemma overlaps_iff {field tag : Bytes} :
    Overlaps field tag ↔ ∃ k ∈ borders tag, tag.take k <:+ field := by
  simp only [borders, List.mem_filter, List.mem_range, decide_eq_true_eq,
    List.isPrefixOf_iff_prefix]
  constructor
  · rintro ⟨u, v, hu, hv, rfl, hp, hs⟩
    refine ⟨u.length, ⟨?_, List.length_pos_iff.mpr hu, ?_⟩, ?_⟩
    · simpa using List.length_pos_iff.mpr hv
    · simpa using hp
    · simpa using hs
  · rintro ⟨k, ⟨hk, h0, hp⟩, hs⟩
    refine ⟨tag.take k, tag.drop k, ?_, ?_, (List.take_append_drop k tag).symm, hp, hs⟩
    · intro h
      rw [List.take_eq_nil_iff] at h
      rcases h with rfl | rfl
      · omega
      · simp at hk
    · simpa using hk

-- `std::getline` until the file ends: a last line without a newline counts, an empty one does not
def getlines : Bytes → List Bytes
  | [] => []
  | c :: cs =>
    if c = 10 then [] :: getlines cs
    else match getlines cs with
      | [] => [[c]]
      | l :: ls => (c :: l) :: ls

lemma getlines_line {l : Bytes} (hl : (10 : UInt8) ∉ l) (rest : Bytes) :
    getlines (l ++ 10 :: rest) = l :: getlines rest := by
  induction l with
  | nil => simp [getlines]
  | cons c cs ih =>
    simp only [List.mem_cons, not_or] at hl
    rw [List.cons_append, getlines, if_neg (Ne.symm hl.1), ih hl.2]

lemma getlines_flatMap {α : Type} (f : α → Bytes) {xs : List α}
    (h : ∀ x ∈ xs, (10 : UInt8) ∉ f x) :
    getlines (xs.flatMap fun x => f x ++ [10]) = xs.map f := by
  induction xs with
  | nil => rfl
  | cons x xs ih =>
    rw [List.flatMap_cons, List.append_assoc, List.singleton_append, getlines_line (h x (by simp)),
      ih fun y hy => h y (by simp [hy]), List.map_cons]

lemma infix_append_cons {tag s t : Bytes} {c : UInt8} (hc : c ∉ tag) :
    tag <:+: s ++ c :: t ↔ tag <:+: s ∨ tag <:+: t := by
  constructor
  · rintro ⟨u, v, h⟩
    rcases List.append_eq_append_iff.mp h with ⟨w, rfl, -⟩ | ⟨w, hw, hv⟩
    · exact .inl ⟨u, w, rfl⟩
    cases w with
    | nil => exact .inl ⟨u, [], by rw [hw, List.append_nil, List.append_nil]⟩
    | cons c' w =>
      obtain ⟨rfl, rfl⟩ := List.cons_eq_cons.mp hv
      rcases List.append_eq_append_iff.mp hw with ⟨x, -, htag⟩ | ⟨x, -, htag⟩
      · exact absurd (htag ▸ List.mem_append_right x List.mem_cons_self) hc
      · cases x with
        | nil => exact absurd (List.nil_append tag ▸ htag ▸ List.mem_cons_self) hc
        | cons c' x =>
          obtain ⟨-, rfl⟩ := List.cons_eq_cons.mp htag
          exact .inr ⟨x, v, rfl⟩
  · rintro (h | h)
    · exact h.trans (List.prefix_append s _).isInfix
    · exact h.trans ((List.suffix_cons c t).trans (List.suffix_append s _)).isInfix

theorem infix_flatMap {tag : Bytes} (hne : tag ≠ []) {cells : List (Bytes × UInt8)}
    (h : ∀ cell ∈ cells, cell.2 ∉ tag) :
    tag <:+: cells.flatMap (fun cell => cell.1 ++ [cell.2]) ↔ ∃ s ∈ cells.map Prod.fst, tag <:+: s := by
  induction cells with
  | nil => simpa using hne
  | cons cell cells ih =>
    rw [List.flatMap_cons, List.append_assoc, List.singleton_append,
      infix_append_cons (h cell List.mem_cons_self), ih (fun c hc => h c (List.mem_cons_of_mem cell hc)),
      List.map_cons]
    simp only [List.mem_cons, exists_eq_or_imp]

end Bytes

end SimpleCode.Foundations
