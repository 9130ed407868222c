import Mathlib

set_option autoImplicit false

namespace SimpleCode.Foundations.Fifo

variable {α : Type} [DecidableEq α]

inductive Action (α : Type)
  | put (x : α)
  | take (x : α)

/-- Only what stands first can be taken. -/
def act : List α → Action α → Option (List α)
  | xs, .put x => some (xs ++ [x])
  | [], .take _ => none
  | y :: ys, .take x => if x = y then some ys else none

def replay (history : List (Action α)) : Option (List α) := history.foldlM act []

lemma replay_append (history later : List (Action α)) :
    replay (history ++ later) = (replay history).bind fun xs => later.foldlM act xs := by
  simp [replay, List.foldlM_append]

lemma replay_put {history : List (Action α)} {xs : List α} (h : replay history = some xs) (x : α) :
    replay (history ++ [.put x]) = some (xs ++ [x]) := by
  simp [replay_append, h, act]

lemma replay_take {history : List (Action α)} {x : α} {xs : List α}
    (h : replay history = some (x :: xs)) : replay (history ++ [.take x]) = some xs := by
  simp [replay_append, h, act]

def puts (history : List (Action α)) : List α :=
  history.filterMap fun a => match a with
    | .put x => some x
    | .take _ => none

def takes (history : List (Action α)) : List α :=
  history.filterMap fun a => match a with
    | .put _ => none
    | .take x => some x

theorem puts_eq_takes_append {history : List (Action α)} {waiting : List α}
    (h : replay history = some waiting) : puts history = takes history ++ waiting := by
  induction history using List.reverseRecOn generalizing waiting with
  | nil =>
    obtain rfl : [] = waiting := by simpa [replay] using h
    rfl
  | append_singleton history a ih =>
    rw [replay_append] at h
    obtain ⟨xs, hxs, ha⟩ := Option.bind_eq_some_iff.mp h
    have hprev := ih hxs
    cases a with
    | put x =>
      obtain rfl : xs ++ [x] = waiting := by simpa [act] using ha
      simp [puts, takes] at hprev ⊢
      rw [hprev, List.append_assoc]
    | take x =>
      cases xs with
      | nil => simp [act] at ha
      | cons y ys =>
        obtain ⟨rfl, rfl⟩ : x = y ∧ ys = waiting := by simpa [act] using ha
        simp [puts, takes] at hprev ⊢
        exact hprev

end SimpleCode.Foundations.Fifo
