import Mathlib.Data.Nat.Init
import Mathlib.Logic.Function.Basic

set_option autoImplicit false

namespace SimpleCode.Foundations.Feistel

variable {α κ : Type*} (mix : α → α → α) (f g : α → κ → α) (ks ls : ℕ → κ)

def encRound (s : α × α) (k : κ) : α × α := (s.2, mix (f s.2 k) s.1)

def decRound (s : α × α) (k : κ) : α × α := (mix (f s.1 k) s.2, s.1)

def rounds : ℕ → α × α → α × α
  | 0, s => s
  | n + 1, s => encRound mix f (rounds n s) (ks n)

def unrounds : ℕ → α × α → α × α
  | 0, s => s
  | n + 1, s => unrounds n (decRound mix f s (ks n))

section Inverse

variable (hmix : ∀ a b, mix a (mix a b) = b)
include hmix

lemma decRound_encRound (s : α × α) (k : κ) : decRound mix f (encRound mix f s k) k = s := by
  simp only [decRound, encRound, hmix]

lemma encRound_decRound (s : α × α) (k : κ) : encRound mix f (decRound mix f s k) k = s := by
  simp only [decRound, encRound, hmix]

theorem unrounds_rounds (n : ℕ) (s : α × α) :
    unrounds mix f ks n (rounds mix f ks n s) = s := by
  induction n with
  | zero => rfl
  | succ n ih => rw [rounds, unrounds, decRound_encRound mix f hmix, ih]

theorem rounds_unrounds (n : ℕ) (s : α × α) :
    rounds mix f ks n (unrounds mix f ks n s) = s := by
  induction n generalizing s with
  | zero => rfl
  | succ n ih => rw [unrounds, rounds, ih, encRound_decRound mix f hmix]

end Inverse

section Loop

variable {mix f ks} {σ : Type*} (I : σ → Prop) (view : σ → α × α) {step : σ → ℕ → σ}

lemma foldl_view_eq_rounds
    (h : ∀ s i, I s → I (step s i) ∧ view (step s i) = encRound mix f (view s) (ks i)) {s : σ}
    (hs : I s) (n : ℕ) :
    I ((List.range n).foldl step s)
      ∧ view ((List.range n).foldl step s) = rounds mix f ks n (view s) := by
  induction n with
  | zero => exact ⟨hs, rfl⟩
  | succ n ih =>
    obtain ⟨hI, hview⟩ := ih
    rw [List.range_succ, List.foldl_append, List.foldl_cons, List.foldl_nil, rounds, ← hview]
    exact h _ n hI

lemma foldl_reverse_view_eq_unrounds
    (h : ∀ s i, I s → I (step s i) ∧ view (step s i) = decRound mix f (view s) (ks i)) {s : σ}
    (hs : I s) (n : ℕ) :
    I ((List.range n).reverse.foldl step s)
      ∧ view ((List.range n).reverse.foldl step s) = unrounds mix f ks n (view s) := by
  induction n generalizing s with
  | zero => exact ⟨hs, rfl⟩
  | succ n ih =>
    obtain ⟨hI, hview⟩ := h s n hs
    rw [List.range_succ, List.reverse_append, List.reverse_singleton, List.singleton_append,
      List.foldl_cons, unrounds, ← hview]
    exact ih hI

end Loop

section Agreement

variable {mix f g ks ls}

lemma rounds_congr {n : ℕ} {s : α × α}
    (h : ∀ i < n, f (rounds mix f ks i s).2 (ks i) = g (rounds mix f ks i s).2 (ls i)) :
    rounds mix f ks n s = rounds mix g ls n s := by
  induction n with
  | zero => rfl
  | succ n ih =>
    have hn := h n (Nat.lt_succ_self n)
    rw [rounds, rounds, ← ih fun i hi => h i (Nat.lt_succ_of_lt hi), encRound, encRound, hn]

variable (hinj : ∀ a b c, mix a c = mix b c → a = b) (hinj' : ∀ a b c, mix a b = mix a c → b = c)

include hinj in
lemma rounds_ne_of_last {n : ℕ} {s : α × α} (h : rounds mix f ks n s = rounds mix g ls n s)
    (hn : f (rounds mix f ks n s).2 (ks n) ≠ g (rounds mix f ks n s).2 (ls n)) :
    rounds mix f ks (n + 1) s ≠ rounds mix g ls (n + 1) s := by
  intro he
  have hr := congrArg Prod.snd he
  rw [rounds, rounds, ← h] at hr
  exact hn (hinj _ _ _ hr)

include hinj' in
lemma rounds_eq_of_succ {n : ℕ} {s : α × α}
    (h : rounds mix f ks (n + 1) s = rounds mix g ls (n + 1) s)
    (hn : f (rounds mix f ks n s).2 (ks n) = g (rounds mix f ks n s).2 (ls n)) :
    rounds mix f ks n s = rounds mix g ls n s := by
  have hr : (rounds mix f ks n s).2 = (rounds mix g ls n s).2 := congrArg Prod.fst h
  have hl := congrArg Prod.snd h
  simp only [rounds, encRound, ← hr, ← hn] at hl
  exact Prod.ext (hinj' _ _ _ hl) hr

include hinj hinj' in
theorem rounds_ne_of_one {n r : ℕ} (hr : r < n) {s : α × α}
    (hne : f (rounds mix f ks r s).2 (ks r) ≠ g (rounds mix f ks r s).2 (ls r))
    (heq : ∀ i < n, i ≠ r → f (rounds mix f ks i s).2 (ks i) = g (rounds mix f ks i s).2 (ls i)) :
    rounds mix f ks n s ≠ rounds mix g ls n s := by
  have hbefore := rounds_congr (n := r) fun i hi => heq i (Nat.lt_trans hi hr) (Nat.ne_of_lt hi)
  induction n, hr using Nat.le_induction with
  | base => exact rounds_ne_of_last hinj hbefore hne
  | succ m hm ih =>
    intro h
    have hlast := heq m (Nat.lt_succ_self m) (Nat.ne_of_gt hm)
    exact ih (fun i hi => heq i (Nat.lt_succ_of_lt hi)) (rounds_eq_of_succ hinj' h hlast)

end Agreement

end SimpleCode.Foundations.Feistel
