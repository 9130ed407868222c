import Mathlib

set_option autoImplicit false

/-! Computations that may throw or run forever. A computation is run with a budget of loop rounds;
a larger budget never changes an outcome that a smaller one has reached. -/

namespace SimpleCode.Foundations

lemma ok_bind {ε α β : Type} (a : α) (f : α → Except ε β) : (Except.ok a >>= f) = f a := rfl

lemma bind_eq_ok {ε α β : Type} {x : Except ε α} {f : α → Except ε β} {b : β} :
    (x >>= f) = .ok b ↔ ∃ a, x = .ok a ∧ f a = .ok b := by
  cases x with
  | error e => exact ⟨nofun, fun ⟨_, h, _⟩ => nomatch h⟩
  | ok a => exact ⟨fun h => ⟨a, rfl, h⟩, fun ⟨_, h, hf⟩ => Except.ok.inj h ▸ hf⟩

structure Comp (ε α : Type) where
  run : ℕ → Option (Except ε α)
  mono : ∀ {m n : ℕ} {r : Except ε α}, m ≤ n → run m = some r → run n = some r

namespace Comp

variable {ε α β σ τ : Type}

@[ext] lemma ext {p q : Comp ε α} (h : ∀ n, p.run n = q.run n) : p = q := by
  cases p
  cases q
  congr
  exact funext h

def ofExcept (x : Except ε α) : Comp ε α where
  run _ := some x
  mono _ h := h

def diverge : Comp ε α where
  run _ := none
  mono _ h := h

def bindRun (x : Option (Except ε α)) (f : α → Option (Except ε β)) : Option (Except ε β) :=
  match x with
  | none => none
  | some (.error e) => some (.error e)
  | some (.ok a) => f a

lemma bindRun_some {x : Option (Except ε α)} {f : α → Option (Except ε β)} {r : Except ε β} :
    bindRun x f = some r ↔
      (∃ a, x = some (.ok a) ∧ f a = some r) ∨ ∃ e, x = some (.error e) ∧ r = .error e := by
  rcases x with _ | _ | _ <;> simp [bindRun, eq_comm]

def bind (p : Comp ε α) (f : α → Comp ε β) : Comp ε β where
  run n := bindRun (p.run n) fun a => (f a).run n
  mono {m n r} hmn h := by
    rcases bindRun_some.mp h with ⟨a, hp, hf⟩ | ⟨e, hp, rfl⟩
    · exact bindRun_some.mpr (.inl ⟨a, p.mono hmn hp, (f a).mono hmn hf⟩)
    · exact bindRun_some.mpr (.inr ⟨e, p.mono hmn hp, rfl⟩)

instance : Monad (Comp ε) where
  pure a := ofExcept (.ok a)
  bind := bind

@[simp] lemma run_ofExcept (x : Except ε α) (n : ℕ) : (ofExcept x).run n = some x := rfl

@[simp] lemma run_pure (a : α) (n : ℕ) : (pure a : Comp ε α).run n = some (.ok a) := rfl

@[simp] lemma run_diverge (n : ℕ) : (diverge : Comp ε α).run n = none := rfl

lemma run_bind (p : Comp ε α) (f : α → Comp ε β) (n : ℕ) :
    (p >>= f).run n = bindRun (p.run n) fun a => (f a).run n := rfl

lemma map_id (p : Comp ε α) : id <$> p = p := by
  ext1 n
  change bindRun (p.run n) (fun a => some (.ok a)) = p.run n
  rcases p.run n with _ | _ | _ <;> rfl

lemma bind_bind {γ : Type} (p : Comp ε α) (f : α → Comp ε β) (g : β → Comp ε γ) :
    p >>= f >>= g = p >>= fun a => f a >>= g := by
  ext1 n
  simp only [run_bind]
  rcases p.run n with _ | _ | _ <;> rfl

instance : LawfulMonad (Comp ε) :=
  LawfulMonad.mk' (Comp ε) map_id (fun _ _ => rfl) bind_bind

def mapError {ε' : Type} (f : ε → ε') (p : Comp ε α) : Comp ε' α where
  run n := (p.run n).map (Except.mapError f)
  mono {m n r} hmn h := by
    obtain ⟨x, hx, rfl⟩ := Option.map_eq_some_iff.mp h
    exact Option.map_eq_some_iff.mpr ⟨x, p.mono hmn hx, rfl⟩

/-- One budget unit pays for one test of the loop condition. -/
def loopRun (cond : σ → Bool) (body : σ → Comp ε σ) : ℕ → σ → Option (Except ε σ)
  | 0, _ => none
  | n + 1, s => if cond s then bindRun ((body s).run n) (loopRun cond body n) else some (.ok s)

lemma loopRun_mono (cond : σ → Bool) (body : σ → Comp ε σ) {m n : ℕ} (hmn : m ≤ n) (s : σ)
    {r : Except ε σ} (h : loopRun cond body m s = some r) : loopRun cond body n s = some r := by
  induction m generalizing n s with
  | zero => simp [loopRun] at h
  | succ m ih =>
    obtain ⟨n, rfl⟩ : ∃ k, n = k + 1 := ⟨n - 1, by omega⟩
    have hle : m ≤ n := by omega
    by_cases hc : cond s
    · simp only [loopRun, hc, if_true] at h ⊢
      rcases bindRun_some.mp h with ⟨a, hb, hl⟩ | ⟨e, hb, rfl⟩
      · exact bindRun_some.mpr (.inl ⟨a, (body s).mono hle hb, ih hle a hl⟩)
      · exact bindRun_some.mpr (.inr ⟨e, (body s).mono hle hb, rfl⟩)
    · simpa [loopRun, hc] using h

/-- `while (cond s) s = body s;` -/
def loop (cond : σ → Bool) (body : σ → Comp ε σ) (s : σ) : Comp ε σ where
  run n := loopRun cond body n s
  mono hmn h := loopRun_mono cond body hmn s h

def Yields (p : Comp ε α) (r : Except ε α) : Prop := ∃ n, p.run n = some r

abbrev Returns (p : Comp ε α) (a : α) : Prop := p.Yields (.ok a)

lemma Yields.unique {p : Comp ε α} {r r' : Except ε α} (h : p.Yields r) (h' : p.Yields r') :
    r = r' := by
  obtain ⟨m, hm⟩ := h
  obtain ⟨n, hn⟩ := h'
  have h₁ := p.mono (le_max_left m n) hm
  have h₂ := p.mono (le_max_right m n) hn
  exact Option.some.inj (h₁.symm.trans h₂)

lemma Returns.unique {p : Comp ε α} {a b : α} (h : p.Returns a) (h' : p.Returns b) : a = b :=
  Except.ok.inj (Yields.unique h h')

@[simp] lemma yields_ofExcept {x r : Except ε α} : (ofExcept x).Yields r ↔ r = x := by
  simp [Yields, eq_comm]

@[simp] lemma yields_pure {a : α} {r : Except ε α} :
    (pure a : Comp ε α).Yields r ↔ r = .ok a := by
  simp [Yields, eq_comm]

@[simp] lemma not_yields_diverge {r : Except ε α} : ¬ (diverge : Comp ε α).Yields r := by
  simp [Yields]

lemma yields_bind {p : Comp ε α} {f : α → Comp ε β} {r : Except ε β} :
    (p >>= f).Yields r ↔
      (∃ a, p.Returns a ∧ (f a).Yields r) ∨ ∃ e, p.Yields (.error e) ∧ r = .error e := by
  constructor
  · rintro ⟨n, h⟩
    rcases bindRun_some.mp h with ⟨a, hp, hf⟩ | ⟨e, hp, he⟩
    · exact .inl ⟨a, ⟨n, hp⟩, n, hf⟩
    · exact .inr ⟨e, ⟨n, hp⟩, he⟩
  · rintro (⟨a, ⟨m, hm⟩, n, hn⟩ | ⟨e, ⟨n, hn⟩, rfl⟩)
    · exact ⟨max m n, bindRun_some.mpr (.inl ⟨a, p.mono (le_max_left m n) hm,
        (f a).mono (le_max_right m n) hn⟩)⟩
    · exact ⟨n, bindRun_some.mpr (.inr ⟨e, hn, rfl⟩)⟩

lemma returns_bind {p : Comp ε α} {f : α → Comp ε β} {b : β} :
    (p >>= f).Returns b ↔ ∃ a, p.Returns a ∧ (f a).Returns b := by
  rw [Returns, yields_bind]
  simp

lemma yields_bind_of_returns {p : Comp ε α} {f : α → Comp ε β} {a : α} {r : Except ε β}
    (hp : p.Returns a) : (p >>= f).Yields r ↔ (f a).Yields r := by
  rw [yields_bind]
  constructor
  · rintro (⟨b, hb, hf⟩ | ⟨e, he, -⟩)
    · exact Returns.unique hb hp ▸ hf
    · cases Yields.unique hp he
  · exact fun hf => .inl ⟨a, hp, hf⟩

lemma yields_bind_error {p : Comp ε α} {e : ε} (h : p.Yields (.error e)) (f : α → Comp ε β) :
    (p >>= f).Yields (.error e) :=
  yields_bind.mpr (.inr ⟨e, h, rfl⟩)

lemma not_yields_bind {p : Comp ε α} (h : ∀ r, ¬ p.Yields r) (f : α → Comp ε β) (r : Except ε β) :
    ¬ (p >>= f).Yields r := by
  rw [yields_bind]
  rintro (⟨a, ha, -⟩ | ⟨e, he, -⟩)
  · exact h _ ha
  · exact h _ he

lemma not_yields_mapError {ε' : Type} (f : ε → ε') {p : Comp ε α} (h : ∀ r, ¬ p.Yields r)
    (r : Except ε' α) : ¬ (p.mapError f).Yields r := by
  rintro ⟨n, hn⟩
  obtain ⟨x, hx, -⟩ := Option.map_eq_some_iff.mp hn
  exact h x ⟨n, hx⟩

lemma returns_mapError {ε' : Type} {f : ε → ε'} {p : Comp ε α} {a : α} :
    (p.mapError f).Returns a ↔ p.Returns a := by
  refine exists_congr fun n => ?_
  change (p.run n).map (Except.mapError f) = _ ↔ _
  rcases p.run n with _ | _ | b <;> simp [Except.mapError]

lemma yields_loop {cond : σ → Bool} {body : σ → Comp ε σ} {s : σ} {r : Except ε σ} :
    (loop cond body s).Yields r ↔
      if cond s then (body s >>= loop cond body).Yields r else r = .ok s := by
  by_cases hc : cond s
  · simp only [hc, if_true]
    constructor
    · rintro ⟨n, h⟩
      cases n with
      | zero => simp [loop, loopRun] at h
      | succ n => exact ⟨n, by simpa [loop, loopRun, hc, run_bind] using h⟩
    · rintro ⟨n, h⟩
      exact ⟨n + 1, by simpa [loop, loopRun, hc, run_bind] using h⟩
  · simp only [hc, if_false, Bool.false_eq_true]
    constructor
    · rintro ⟨n, h⟩
      cases n with
      | zero => simp [loop, loopRun] at h
      | succ n => simpa [loop, loopRun, hc, eq_comm] using h
    · rintro rfl
      exact ⟨1, by simp [loop, loopRun, hc]⟩

lemma yields_loop_more {cond : σ → Bool} {body : σ → Comp ε σ} {s : σ} {r : Except ε σ}
    (hc : cond s = true) : (loop cond body s).Yields r ↔ (body s >>= loop cond body).Yields r := by
  rw [yields_loop, if_pos hc]

lemma returns_loop_done {cond : σ → Bool} {body : σ → Comp ε σ} {s t : σ} (h : cond s = false) :
    (loop cond body s).Returns t ↔ t = s := by
  rw [Returns, yields_loop, if_neg (by simp [h]), Except.ok.injEq]

lemma returns_loop_more {cond : σ → Bool} {body : σ → Comp ε σ} {s t : σ} (h : cond s = true) :
    (loop cond body s).Returns t ↔ ∃ u, (body s).Returns u ∧ (loop cond body u).Returns t :=
  (yields_loop_more h).trans returns_bind

lemma loop_end {cond : σ → Bool} {body : σ → Comp ε σ} {s : σ} (h : cond s = false) :
    (loop cond body s).Returns s :=
  (returns_loop_done h).mpr rfl

lemma loop_step {cond : σ → Bool} {body : σ → Comp ε σ} {s t u : σ} (h : cond s = true)
    (hb : (body s).Returns t) (hl : (loop cond body t).Returns u) : (loop cond body s).Returns u :=
  (returns_loop_more h).mpr ⟨t, hb, hl⟩

lemma not_yields_loop {cond : σ → Bool} {body : σ → Comp ε σ} {s : σ} (hc : cond s = true)
    (h : ∀ r, ¬ (body s).Yields r) (r : Except ε σ) : ¬ (loop cond body s).Yields r := by
  exact (yields_loop_more hc).not.mpr (not_yields_bind h _ r)

theorem loop_returns {cond : σ → Bool} {body : σ → Comp ε σ} (Inv : σ → Prop) (μ : σ → ℕ)
    (hstep : ∀ s, Inv s → cond s = true → ∃ t, (body s).Returns t ∧ Inv t ∧ μ t < μ s)
    (s : σ) (hs : Inv s) : ∃ t, (loop cond body s).Returns t ∧ Inv t ∧ cond t = false := by
  induction hm : μ s using Nat.strong_induction_on generalizing s with
  | _ m ih =>
    by_cases hc : cond s
    · obtain ⟨t, hb, ht, hlt⟩ := hstep s hs hc
      obtain ⟨u, hl, hu, hcu⟩ := ih (μ t) (hm ▸ hlt) t ht rfl
      exact ⟨u, loop_step hc hb hl, hu, hcu⟩
    · have hend : cond s = false := by simpa using hc
      exact ⟨s, loop_end hend, hs, hend⟩

theorem loop_diverges {cond : σ → Bool} {body : σ → Comp ε σ} (Inv : σ → Prop)
    (hcond : ∀ s, Inv s → cond s = true) (hstep : ∀ s, Inv s → ∃ t, (body s).Returns t ∧ Inv t)
    (s : σ) (hs : Inv s) (r : Except ε σ) : ¬ (loop cond body s).Yields r := by
  rintro ⟨n, h⟩
  induction n generalizing s with
  | zero => simp [loop, loopRun] at h
  | succ n ih =>
    obtain ⟨t, hb, ht⟩ := hstep s hs
    simp only [loop, loopRun, hcond s hs, if_true] at h
    rcases bindRun_some.mp h with ⟨a, ha, hl⟩ | ⟨e, he, rfl⟩
    · obtain rfl := Returns.unique ⟨n, ha⟩ hb
      exact ih a ht hl
    · cases Yields.unique ⟨n, he⟩ hb

lemma loop_invariant {cond : σ → Bool} {body : σ → Comp ε σ} (Inv : σ → Prop)
    (hstep : ∀ s t, Inv s → cond s = true → (body s).Returns t → Inv t) {s t : σ} (hs : Inv s)
    (h : (loop cond body s).Returns t) : Inv t := by
  obtain ⟨n, hn⟩ := h
  change loopRun cond body n s = _ at hn
  induction n generalizing s with
  | zero => simp [loopRun] at hn
  | succ n ih =>
    by_cases hc : cond s
    · simp only [loopRun, hc, if_true] at hn
      obtain ⟨a, hb, hl⟩ | ⟨e, -, he⟩ := bindRun_some.mp hn
      · exact ih (hstep s a hs hc ⟨n, hb⟩) hl
      · cases he
    · obtain rfl : s = t := by simpa [loopRun, hc] using hn
      exact hs

lemma loop_unwinds {cond : σ → Bool} {body : σ → Comp ε σ} {t : σ} (P : σ → Prop)
    (hdone : cond t = false → P t)
    (hstep : ∀ s s', cond s = true → (body s).Returns s' → P s' → P s) {s : σ}
    (h : (loop cond body s).Returns t) : P s := by
  obtain ⟨n, hn⟩ := h
  change loopRun cond body n s = _ at hn
  induction n generalizing s with
  | zero => simp [loopRun] at hn
  | succ n ih =>
    by_cases hc : cond s
    · simp only [loopRun, hc, if_true] at hn
      obtain ⟨a, hb, hl⟩ | ⟨e, -, he⟩ := bindRun_some.mp hn
      · exact hstep s a hc ⟨n, hb⟩ (ih hl)
      · cases he
    · obtain rfl : s = t := by simpa [loopRun, hc] using hn
      exact hdone (by simpa using hc)

theorem loop_simulates {ε' : Type} {cond : σ → Bool} {body : σ → Comp ε σ} {cond' : τ → Bool}
    {body' : τ → Comp ε' τ} (R : σ → τ → Prop) (hcond : ∀ s t, R s t → cond s = cond' t)
    (hbody : ∀ s s' t, R s t → cond s = true → (body s).Returns s' →
      ∃ t', (body' t).Returns t' ∧ R s' t') {s s' : σ} {t : τ} (hR : R s t)
    (h : (loop cond body s).Returns s') : ∃ t', (loop cond' body' t).Returns t' ∧ R s' t' := by
  refine loop_unwinds (fun s => ∀ t, R s t → ∃ t', (loop cond' body' t).Returns t' ∧ R s' t')
    (fun hstop t hR => ⟨t, ?_, hR⟩) (fun s u hgo hu ih t hR => ?_) h t hR
  · exact loop_end (hcond s' t hR ▸ hstop)
  · obtain ⟨v, hv, hRv⟩ := hbody s u t hR hgo hu
    obtain ⟨t', ht', hRt⟩ := ih v hRv
    exact ⟨t', loop_step (hcond s t hR ▸ hgo) hv ht', hRt⟩

lemma foldlM_invariant {f : σ → α → Comp ε σ} (Inv : σ → Prop) {xs : List α}
    (hstep : ∀ s t a, a ∈ xs → Inv s → (f s a).Returns t → Inv t) {s t : σ} (hs : Inv s)
    (h : (xs.foldlM f s).Returns t) : Inv t := by
  induction xs generalizing s with
  | nil =>
    obtain rfl : t = s := by simpa [Returns] using h
    exact hs
  | cons a xs ih =>
    rw [List.foldlM_cons] at h
    obtain ⟨u, hu, ht⟩ := returns_bind.mp h
    exact ih (fun s t b hb => hstep s t b (by simp [hb])) (hstep s u a (by simp) hs hu) ht

def RunRelated (R : α → β → Prop) : Option (Except ε α) → Option (Except ε β) → Prop
  | none, none => True
  | some (.error e), some (.error e') => e = e'
  | some (.ok a), some (.ok b) => R a b
  | _, _ => False

def Related (R : α → β → Prop) (p : Comp ε α) (q : Comp ε β) : Prop :=
  ∀ n, RunRelated R (p.run n) (q.run n)

lemma related_pure {R : α → β → Prop} {a : α} {b : β} (h : R a b) :
    Related R (pure a : Comp ε α) (pure b) := fun _ => h

lemma related_ofExcept {R : α → β → Prop} {x : Except ε α} {y : Except ε β}
    (h : RunRelated R (some x) (some y)) : Related R (ofExcept x) (ofExcept y) := fun _ => h

lemma related_diverge {R : α → β → Prop} :
    Related R (diverge : Comp ε α) (diverge : Comp ε β) := fun _ => trivial

lemma RunRelated.bind {R : α → β → Prop} {S : σ → τ → Prop} {x : Option (Except ε α)}
    {y : Option (Except ε β)} {f : α → Option (Except ε σ)} {g : β → Option (Except ε τ)}
    (h : RunRelated R x y) (hfg : ∀ a b, R a b → RunRelated S (f a) (g b)) :
    RunRelated S (bindRun x f) (bindRun y g) := by
  rcases x with _ | _ | a <;> rcases y with _ | _ | b <;> try exact h.elim
  · trivial
  · exact h
  · exact hfg a b h

lemma Related.bind {R : α → β → Prop} {S : σ → τ → Prop} {p : Comp ε α} {q : Comp ε β}
    {f : α → Comp ε σ} {g : β → Comp ε τ} (h : Related R p q)
    (hfg : ∀ a b, R a b → Related S (f a) (g b)) : Related S (p >>= f) (q >>= g) :=
  fun n => (h n).bind fun a b hab => hfg a b hab n

lemma RunRelated.mono {R S : α → β → Prop} (hrs : ∀ a b, R a b → S a b) :
    ∀ {x : Option (Except ε α)} {y : Option (Except ε β)}, RunRelated R x y → RunRelated S x y
  | none, none, _ => trivial
  | some (.error _), some (.error _), h => h
  | some (.ok a), some (.ok b), h => hrs a b h

lemma Related.mono {R S : α → β → Prop} {p : Comp ε α} {q : Comp ε β} (h : Related R p q)
    (hrs : ∀ a b, R a b → S a b) : Related S p q := fun n => (h n).mono hrs

lemma related_loop {R : σ → τ → Prop} {cond : σ → Bool} {cond' : τ → Bool}
    {body : σ → Comp ε σ} {body' : τ → Comp ε τ} (hcond : ∀ s t, R s t → cond s = cond' t)
    (hbody : ∀ s t, R s t → Related R (body s) (body' t)) {s : σ} {t : τ} (h : R s t) :
    Related R (loop cond body s) (loop cond' body' t) := by
  intro n
  change RunRelated R (loopRun cond body n s) (loopRun cond' body' n t)
  induction n generalizing s t with
  | zero => trivial
  | succ n ih =>
    simp only [loopRun, hcond s t h]
    by_cases hc : cond' t
    · simp only [hc, if_true]
      exact (hbody s t h n).bind fun a b hab => ih hab
    · simpa [hc, RunRelated] using h

lemma related_foldlM {R : σ → τ → Prop} {S : α → β → Prop} {f : σ → α → Comp ε σ}
    {g : τ → β → Comp ε τ} (hfg : ∀ s t a b, R s t → S a b → Related R (f s a) (g t b))
    {xs : List α} {ys : List β} (hxy : List.Forall₂ S xs ys) {s : σ} {t : τ} (h : R s t) :
    Related R (xs.foldlM f s) (ys.foldlM g t) := by
  induction hxy generalizing s t with
  | nil => exact related_pure h
  | cons hab _ ih =>
    simp only [List.foldlM_cons]
    exact (hfg _ _ _ _ h hab).bind fun s' t' h' => ih h'

end Comp

end SimpleCode.Foundations
