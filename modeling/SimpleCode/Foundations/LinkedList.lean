import Mathlib.Data.List.Nodup

set_option autoImplicit false

namespace SimpleCode.Foundations

variable {α : Type*}

def Segment (next : α → Option α) : Option α → List α → Option α → Prop
  | p, [], q => p = q
  | p, b :: bs, q => p = some b ∧ Segment next (next b) bs q

section

variable {next next' : α → Option α} {p q : Option α} {b : α} {bs cs xs ys : List α}

lemma segment_append :
    Segment next p (xs ++ ys) q ↔ ∃ r, Segment next p xs r ∧ Segment next r ys q := by
  induction xs generalizing p with
  | nil => exact ⟨fun h => ⟨p, rfl, h⟩, fun ⟨_, hr, h⟩ => hr ▸ h⟩
  | cons b xs ih =>
    constructor
    · rintro ⟨rfl, h⟩
      obtain ⟨r, hx, hy⟩ := ih.mp h
      exact ⟨r, ⟨rfl, hx⟩, hy⟩
    · rintro ⟨r, ⟨rfl, hx⟩, hy⟩
      exact ⟨rfl, ih.mpr ⟨r, hx, hy⟩⟩

lemma segment_middle :
    Segment next p (xs ++ b :: ys) q ↔ Segment next p xs (some b) ∧ Segment next (next b) ys q := by
  rw [segment_append]
  constructor
  · rintro ⟨r, hx, rfl, hy⟩
    exact ⟨hx, hy⟩
  · rintro ⟨hx, hy⟩
    exact ⟨some b, hx, rfl, hy⟩

lemma Segment.congr (h : Segment next p bs q) (hsame : ∀ b ∈ bs, next' b = next b) :
    Segment next' p bs q := by
  induction bs generalizing p with
  | nil => exact h
  | cons b bs ih =>
    rw [List.forall_mem_cons] at hsame
    refine ⟨h.1, ?_⟩
    rw [hsame.1]
    exact ih h.2 hsame.2

lemma Segment.unique (h : Segment next p bs none) (h' : Segment next p cs none) : bs = cs := by
  induction bs generalizing p cs with
  | nil =>
    rcases cs with _ | ⟨c, cs⟩
    · rfl
    · exact absurd (h.symm.trans h'.1) nofun
  | cons b bs ih =>
    rcases cs with _ | ⟨c, cs⟩
    · exact absurd (h.1.symm.trans h') nofun
    · obtain rfl := Option.some.inj (h.1.symm.trans h'.1)
      rw [ih h.2 h'.2]

lemma Segment.nodup (h : Segment next p bs none) : bs.Nodup := by
  induction bs generalizing p with
  | nil => exact List.nodup_nil
  | cons b bs ih =>
    refine List.nodup_cons.mpr ⟨fun hmem => ?_, ih h.2⟩
    obtain ⟨xs, ys, rfl⟩ := List.append_of_mem hmem
    have hagain := (segment_middle.mp h.2).2
    have hsame := h.2.unique hagain
    have hlength := congrArg List.length hsame
    rw [List.length_append, List.length_cons] at hlength
    omega

variable [DecidableEq α]

lemma Segment.update (h : Segment next p bs q) {c : α} (hc : c ∉ bs) (r : Option α) :
    Segment (Function.update next c r) p bs q :=
  h.congr fun _ hb => Function.update_of_ne (ne_of_mem_of_not_mem hb hc) _ _

lemma Segment.insertAfter (h : Segment next p (xs ++ b :: ys) none) {c : α}
    (hc : c ∉ xs ++ b :: ys) :
    Segment (Function.update (Function.update next c (next b)) b (some c)) p (xs ++ b :: c :: ys)
      none := by
  have hnodup := h.nodup
  rw [List.nodup_middle, List.nodup_cons, List.mem_append, not_or] at hnodup
  rw [List.mem_append, List.mem_cons, not_or, not_or] at hc
  obtain ⟨hx, hy⟩ := segment_middle.mp h
  refine segment_middle.mpr ⟨(hx.update hc.1 _).update hnodup.1.1 _, ?_⟩
  rw [Function.update_self]
  refine ⟨rfl, ?_⟩
  rw [Function.update_of_ne hc.2.1, Function.update_self]
  exact (hy.update hc.2.2 _).update hnodup.1.2 _

end

def follow (next : α → Option α) : ℕ → Option α → List α
  | _, none => []
  | 0, some _ => []
  | fuel + 1, some b => b :: follow next fuel (next b)

lemma Segment.follow_eq {next : α → Option α} {p : Option α} {bs : List α} {fuel : ℕ}
    (h : Segment next p bs none) (hfuel : bs.length ≤ fuel) : follow next fuel p = bs := by
  induction bs generalizing p fuel with
  | nil =>
    obtain rfl : p = none := h
    rw [follow]
  | cons b bs ih =>
    obtain ⟨rfl, hrest⟩ := h
    rw [List.length_cons] at hfuel
    obtain ⟨fuel, rfl⟩ := Nat.exists_eq_add_of_le hfuel
    rw [Nat.add_comm, ← Nat.add_assoc, follow, ih hrest (by omega)]

end SimpleCode.Foundations
