import Mathlib.Data.List.SplitBy

set_option autoImplicit false

namespace SimpleCode.Foundations.IdenticalRuns

variable {α : Type*} [DecidableEq α]

def runs (l : List α) : List (List α) := l.splitBy (· == ·)

def current (l : List α) : List α := (runs l).getLast?.getD []

def finished (l : List α) : List (List α) := (runs l).dropLast

def Ends (l : List α) (a : α) : Prop := ∃ b ∈ l.getLast?, b ≠ a

instance (l : List α) (a : α) : Decidable (Ends l a) :=
  inferInstanceAs (Decidable (∃ b ∈ l.getLast?, b ≠ a))

variable {l : List α} {a : α}

lemma runs_ne_nil (h : l ≠ []) : runs l ≠ [] := List.splitBy_ne_nil.mpr h

lemma runs_eq (h : l ≠ []) : runs l = finished l ++ [current l] := by
  rw [current, List.getLast?_eq_some_getLast (runs_ne_nil h), Option.getD_some]
  exact (List.dropLast_append_getLast (runs_ne_nil h)).symm

lemma current_ne_nil (h : l ≠ []) : current l ≠ [] := by
  apply List.ne_nil_of_mem_splitBy (r := (· == ·)) (l := l)
  change current l ∈ runs l
  rw [runs_eq h]
  exact List.mem_append_right _ (List.mem_singleton_self _)

lemma getLast?_current (l : List α) : (current l).getLast? = l.getLast? := by
  by_cases h : l = []
  · rw [h]
    rfl
  have hlast := List.getLast_getLast_splitBy (fun x y : α => x == y) h
  have hcurrent : current l = (runs l).getLast (runs_ne_nil h) := by
    rw [current, List.getLast?_eq_some_getLast (runs_ne_nil h), Option.getD_some]
  rw [List.getLast?_eq_some_getLast (current_ne_nil h), List.getLast?_eq_some_getLast h]
  congr 1
  rw [← hlast]
  congr 1

lemma runs_append_ends (h : ∀ b ∈ l.getLast?, b ≠ a) : runs (l ++ [a]) = runs l ++ [[a]] := by
  have hsplit := List.splitBy_append_cons (r := fun x y : α => x == y) (l := l) (a := a) []
    (fun b hb => beq_false_of_ne (h b hb))
  exact hsplit

lemma runs_append_continues (h : a ∈ l.getLast?) : runs (l ++ [a]) = finished l ++ [current l ++ [a]] := by
  have hne : l ≠ [] := by
    rintro rfl
    cases h
  obtain ⟨hjoin, hnil, hequal, hends⟩ := List.splitBy_eq_iff.mp (runs_eq hne)
  refine List.splitBy_eq_iff.mpr ⟨?_, ?_, ?_, ?_⟩
  · rw [List.flatten_append, List.flatten_singleton] at hjoin ⊢
    rw [← List.append_assoc, ← hjoin]
  · simpa using fun hmem => hnil (List.mem_append_left _ hmem)
  · intro run hrun
    rcases List.mem_append.mp hrun with hfinished | hlast
    · exact hequal run (List.mem_append_left _ hfinished)
    · rw [List.mem_singleton.mp hlast, List.isChain_append]
      refine ⟨hequal _ (List.mem_append_right _ (List.mem_singleton_self _)), List.isChain_singleton a, ?_⟩
      intro b hb c hc
      rw [getLast?_current] at hb
      rw [Option.mem_unique hb h, ← Option.mem_some_iff.mp hc]
      exact beq_self_eq_true a
  · rw [List.isChain_append] at hends ⊢
    refine ⟨hends.1, List.isChain_singleton _, fun run hrun next hnext => ?_⟩
    obtain ⟨hrunNe, hcurrentNe, hdiffer⟩ := hends.2.2 run hrun (current l) rfl
    rw [← Option.mem_some_iff.mp hnext]
    refine ⟨hrunNe, List.append_ne_nil_of_left_ne_nil hcurrentNe _, ?_⟩
    rwa [List.head_append_left hcurrentNe]

theorem finished_append (l : List α) (a : α) :
    finished (l ++ [a]) = if Ends l a then finished l ++ [current l] else finished l := by
  rw [finished]
  split_ifs with h
  · obtain ⟨b, hb, hne⟩ := h
    have hl : l ≠ [] := by
      rintro rfl
      cases hb
    rw [runs_append_ends (fun c hc => Option.mem_unique hb hc ▸ hne), List.dropLast_concat, runs_eq hl]
  · by_cases hl : l = []
    · rw [hl]
      rfl
    · have hlast : a ∈ l.getLast? := by
        have hmem : l.getLast hl ∈ l.getLast? := List.getLast_mem_getLast? hl
        have heq : l.getLast hl = a := by
          by_contra hne
          exact h ⟨_, hmem, hne⟩
        exact heq ▸ hmem
      rw [runs_append_continues hlast, List.dropLast_concat]

end SimpleCode.Foundations.IdenticalRuns
