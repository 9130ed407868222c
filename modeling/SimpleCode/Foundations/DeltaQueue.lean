import Mathlib

set_option autoImplicit false

/-! Queues whose entries keep the time that they wait after the entry before them. -/

namespace SimpleCode.Foundations.DeltaQueue

variable {α : Type*}

def elapse : ℕ → List (α × ℕ) → List (α × ℕ)
  | _, [] => []
  | e, (a, d) :: q => if d ≤ e then (a, 0) :: elapse (e - d) q else (a, d - e) :: q

-- Behind the entries that wait as long.
def insert (a : α) : ℕ → List (α × ℕ) → List (α × ℕ)
  | d, [] => [(a, d)]
  | d, (b, d') :: q => if d < d' then (a, d) :: (b, d' - d) :: q else (b, d') :: insert a (d - d') q

def postpone (d : ℕ) : List (α × ℕ) → List (α × ℕ)
  | [] => []
  | (a, d') :: q => (a, d' + d) :: q

-- The entry behind the removed one waits for both.
def remove (p : α → Bool) : List (α × ℕ) → List (α × ℕ)
  | [] => []
  | (a, d) :: q => if p a then postpone d q else (a, d) :: remove p q

/-- Each entry waits `left`, the sum of what is kept up to it and of `acc`. -/
def Accounts (left : α → ℕ) : ℕ → List (α × ℕ) → Prop
  | _, [] => True
  | acc, (a, d) :: q => acc + d = left a ∧ Accounts left (acc + d) q

variable {left : α → ℕ} {acc : ℕ} {q : List (α × ℕ)}

lemma Accounts.sum (h : Accounts left acc q) {pre : List (α × ℕ)} {a : α} {d : ℕ}
    (hpre : pre ++ [(a, d)] <+: q) : acc + ((pre ++ [(a, d)]).map Prod.snd).sum = left a := by
  induction pre generalizing acc q with
  | nil =>
    obtain ⟨q, rfl⟩ := hpre
    simpa using h.1
  | cons p pre ih =>
    obtain ⟨q, rfl⟩ := hpre
    have hrest := ih h.2 (List.prefix_append _ _)
    simpa [Nat.add_assoc] using hrest

lemma Accounts.congr {left' : α → ℕ} (h : Accounts left acc q) (heq : ∀ a ∈ q.map Prod.fst, left' a = left a) :
    Accounts left' acc q := by
  induction q generalizing acc with
  | nil => trivial
  | cons p q ih =>
    exact ⟨h.1.trans (heq p.1 List.mem_cons_self).symm, ih h.2 fun a ha => heq a (List.mem_cons_of_mem _ ha)⟩

lemma Accounts.le_left (h : Accounts left acc q) : ∀ a ∈ q.map Prod.fst, acc ≤ left a := by
  induction q generalizing acc with
  | nil => exact fun a ha => absurd ha List.not_mem_nil
  | cons p q ih =>
    refine List.forall_mem_cons.mpr ⟨?_, ?_⟩
    · exact h.1 ▸ Nat.le_add_right _ _
    · exact fun a ha => Nat.le_trans (Nat.le_add_right _ _) (ih h.2 a ha)

lemma map_fst_elapse (e : ℕ) (q : List (α × ℕ)) : (elapse e q).map Prod.fst = q.map Prod.fst := by
  induction q generalizing e with
  | nil => rfl
  | cons p q ih =>
    rw [elapse]
    split_ifs
    · exact congrArg (p.1 :: ·) (ih _)
    · rfl

lemma Accounts.sub (h : Accounts left acc q) {e : ℕ} (he : e ≤ acc) :
    Accounts (fun a => left a - e) (acc - e) q := by
  induction q generalizing acc with
  | nil => trivial
  | cons p q ih =>
    obtain ⟨hp, hq⟩ := h
    refine ⟨?_, ?_⟩
    · change acc - e + p.2 = left p.1 - e
      omega
    · have hrest := ih hq (Nat.le_trans he (Nat.le_add_right _ p.2))
      rwa [Nat.sub_add_comm he] at hrest

lemma Accounts.elapse (h : Accounts left acc q) {e : ℕ} (he : acc ≤ e) :
    Accounts (fun a => left a - e) 0 (elapse (e - acc) q) := by
  induction q generalizing acc with
  | nil => trivial
  | cons p q ih =>
    obtain ⟨ha, hq⟩ := h
    rw [DeltaQueue.elapse]
    split_ifs with hd
    · have hle : acc + p.2 ≤ e := by omega
      refine ⟨?_, ?_⟩
      · change 0 + 0 = left p.1 - e
        omega
      · have hrest := ih hq hle
        rwa [← Nat.sub_sub] at hrest
    · have hle : e ≤ acc + p.2 := by omega
      refine ⟨?_, ?_⟩
      · change 0 + (p.2 - (e - acc)) = left p.1 - e
        omega
      · have hrest := hq.sub hle
        have hacc : acc + p.2 - e = 0 + (p.2 - (e - acc)) := by omega
        rwa [hacc] at hrest

lemma Accounts.insert (h : Accounts left acc q) {a : α} {d : ℕ} (ha : acc + d = left a) :
    Accounts left acc (insert a d q) := by
  induction q generalizing acc d with
  | nil => exact ⟨ha, trivial⟩
  | cons p q ih =>
    obtain ⟨hp, hq⟩ := h
    rw [DeltaQueue.insert]
    split_ifs with hd
    · have hacc : acc + d + (p.2 - d) = acc + p.2 := by omega
      exact ⟨ha, hacc.trans hp, hacc ▸ hq⟩
    · exact ⟨hp, ih hq (by omega)⟩

lemma Accounts.postpone {d : ℕ} (h : Accounts left (acc + d) q) : Accounts left acc (postpone d q) := by
  cases q with
  | nil => trivial
  | cons p q =>
    have hacc : acc + (p.2 + d) = acc + d + p.2 := by omega
    exact ⟨hacc.trans h.1, hacc ▸ h.2⟩

lemma Accounts.remove (h : Accounts left acc q) (p : α → Bool) : Accounts left acc (remove p q) := by
  induction q generalizing acc with
  | nil => trivial
  | cons x q ih =>
    rw [DeltaQueue.remove]
    split_ifs
    · exact h.2.postpone
    · exact ⟨h.1, ih h.2⟩

lemma map_fst_remove (p : α → Bool) (q : List (α × ℕ)) :
    (remove p q).map Prod.fst = (q.map Prod.fst).eraseP p := by
  induction q with
  | nil => rfl
  | cons x q ih =>
    rw [remove, List.map_cons, List.eraseP_cons]
    cases hx : p x.1 with
    | true => cases q <;> rfl
    | false => exact congrArg (x.1 :: ·) ih

lemma mem_insert (a b : α) (d : ℕ) (q : List (α × ℕ)) :
    b ∈ (insert a d q).map Prod.fst ↔ b = a ∨ b ∈ q.map Prod.fst := by
  induction q generalizing d with
  | nil => simp [insert]
  | cons p q ih =>
    rw [insert]
    split_ifs
    · simp only [List.map_cons, List.mem_cons]
    · simp only [List.map_cons, List.mem_cons, ih]
      exact or_left_comm

lemma Accounts.insert_split (h : Accounts left acc q) {a : α} {d : ℕ} (ha : acc + d = left a) :
    ∃ pre post, q.map Prod.fst = pre ++ post ∧ (DeltaQueue.insert a d q).map Prod.fst = pre ++ a :: post
      ∧ (∀ b ∈ pre, left b ≤ left a) ∧ ∀ b ∈ post, left a < left b := by
  induction q generalizing acc d with
  | nil => exact ⟨[], [], rfl, rfl, by simp, by simp⟩
  | cons p q ih =>
    obtain ⟨hp, hq⟩ := h
    rw [DeltaQueue.insert]
    split_ifs with hd
    · refine ⟨[], p.1 :: q.map Prod.fst, rfl, rfl, by simp, ?_⟩
      refine List.forall_mem_cons.mpr ⟨by omega, fun b hb => ?_⟩
      have hle := hq.le_left b hb
      omega
    · obtain ⟨pre, post, hmap, hins, hpre, hpost⟩ := ih hq (show acc + p.2 + (d - p.2) = left a by omega)
      refine ⟨p.1 :: pre, post, ?_, ?_, ?_, hpost⟩
      · exact congrArg (p.1 :: ·) hmap
      · exact congrArg (p.1 :: ·) hins
      · exact List.forall_mem_cons.mpr ⟨by omega, hpre⟩

end SimpleCode.Foundations.DeltaQueue
