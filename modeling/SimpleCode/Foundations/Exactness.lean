import SimpleCode.Foundations.Computation

set_option autoImplicit false

namespace SimpleCode.Foundations

variable {ε α β : Type}

/-- The computation returns if and only if `P`, and what it returns satisfies `Q`. -/
def Exact (P : Prop) (Q : α → Prop) : Except ε α → Prop
  | .ok a => P ∧ Q a
  | .error _ => ¬ P

namespace Exact

variable {P P' : Prop} {Q Q' : α → Prop} {R : β → Prop} {x : Except ε α} {f : α → Except ε β}

lemma conseq (h : Exact P Q x) (hP : P ↔ P') (hQ : ∀ a, Q a → Q' a) : Exact P' Q' x := by
  cases x with
  | ok a => exact ⟨hP.mp h.1, hQ a h.2⟩
  | error e => exact fun hp => h (hP.mpr hp)

lemma bind (h : Exact P Q x) (hf : ∀ a, Q a → Exact P' R (f a)) : Exact (P ∧ P') R (x >>= f) := by
  cases x with
  | ok a => exact (hf a h.2).conseq (and_iff_right h.1).symm fun _ => id
  | error e => exact fun hp => h hp.1

lemma exists_bind_iff {S : β → Prop} (h : Exact P Q x) (hf : ∀ a, Q a → ((∃ b, f a = .ok b ∧ S b) ↔ P')) :
    (∃ b, (x >>= f) = .ok b ∧ S b) ↔ P ∧ P' := by
  cases x with
  | ok a => exact (hf a h.2).trans (and_iff_right h.1).symm
  | error e => exact ⟨nofun, fun hp => absurd hp.1 h⟩

end Exact

end SimpleCode.Foundations
