import SimpleCode.Foundations.Computation

set_option autoImplicit false

/-! Merge sorting in passes over pairs of tapes: what a pass makes of the runs, and the rules for
the three nested loops that every such program has. -/

namespace SimpleCode.Foundations

-- A total preorder, as a function whose answer is negative, zero or positive.
structure Comparison (α : Type) where
  compare : α → α → ℤ
  flip : ∀ a b, 0 < compare a b ↔ compare b a < 0
  trans : ∀ a b c, compare a b ≤ 0 → compare b c ≤ 0 → compare a c ≤ 0

namespace Comparison

def bytes : Comparison UInt8 where
  compare a b := (a.toNat : ℤ) - b.toNat
  flip a b := by omega
  trans a b c := by omega

variable {α : Type} (c : Comparison α)

def Sorted (xs : List α) : Prop := xs.Pairwise fun a b => c.compare a b ≤ 0

structure Picks (pick : α → α → Bool) : Prop where
  left : ∀ a b, pick a b = true → c.compare a b ≤ 0
  right : ∀ a b, pick a b = false → c.compare b a ≤ 0

structure Follows (compare : α → α → ℤ) : Prop where
  le : ∀ a b, compare a b ≤ 0 → c.compare a b ≤ 0
  ge : ∀ a b, 0 ≤ compare a b → c.compare b a ≤ 0

lemma follows_self : c.Follows c.compare where
  le _ _ h := h
  ge a b h := not_lt.mp fun hlt => h.not_gt ((c.flip b a).mp hlt)

def less (a b : α) : Bool := decide (c.compare a b < 0)

lemma picks_less : c.Picks c.less where
  left a b h := (of_decide_eq_true h).le
  right a b h := by
    have hle : 0 ≤ c.compare a b := not_lt.mp (of_decide_eq_false h)
    exact not_lt.mp fun hlt => hle.not_gt ((c.flip b a).mp hlt)

variable {c}

lemma compare_self (a : α) : c.compare a a = 0 := by
  rcases lt_trichotomy (c.compare a a) 0 with h | h | h
  · exact absurd ((c.flip a a).mpr h) h.not_gt
  · exact h
  · exact absurd ((c.flip a a).mp h) h.not_gt

lemma compare_eq_zero {a b : α} (hab : c.compare a b ≤ 0) (hba : c.compare b a ≤ 0) :
    c.compare a b = 0 :=
  hab.antisymm (not_lt.mp fun hlt => hba.not_gt ((c.flip b a).mpr hlt))

def keys (c : Comparison α) : Setoid α where
  r a b := c.compare a b = 0
  iseqv := by
    have hsymm : ∀ {a b}, c.compare a b = 0 → c.compare b a ≤ 0 :=
      fun h => not_lt.mp fun hlt => ((c.flip _ _).mp hlt).ne h
    refine ⟨compare_self, fun h => compare_eq_zero (hsymm h) h.le, fun hab hbd => ?_⟩
    exact compare_eq_zero (c.trans _ _ _ hab.le hbd.le) (c.trans _ _ _ (hsymm hbd) (hsymm hab))

def keyLe (c : Comparison α) (x y : Quotient c.keys) : Prop :=
  ∃ a b, Quotient.mk c.keys a = x ∧ Quotient.mk c.keys b = y ∧ c.compare a b ≤ 0

lemma keyLe_antisymm {x y : Quotient c.keys} (hxy : c.keyLe x y) (hyx : c.keyLe y x) : x = y := by
  obtain ⟨a, b, rfl, rfl, hab⟩ := hxy
  obtain ⟨b', a', hb, ha, hba⟩ := hyx
  have hb : c.compare b b' = 0 := c.keys.symm (Quotient.exact hb)
  have ha : c.compare a' a = 0 := Quotient.exact ha
  exact Quotient.sound (compare_eq_zero hab (c.trans _ _ _ (c.trans _ _ _ hb.le hba) ha.le))

lemma Sorted.keys {xs : List α} (h : c.Sorted xs) :
    (xs.map (Quotient.mk c.keys)).Pairwise c.keyLe :=
  List.pairwise_map.mpr (h.imp fun hab => ⟨_, _, rfl, rfl, hab⟩)

theorem sorted_unique {xs ys : List α} (h : xs.Perm ys) (hx : c.Sorted xs) (hy : c.Sorted ys) :
    List.Forall₂ (fun a b => c.compare a b = 0) xs ys := by
  have hkeys := List.Perm.eq_of_pairwise (fun _ _ _ _ => keyLe_antisymm) hx.keys hy.keys (h.map _)
  rw [← List.forall₂_eq_eq_eq, List.forall₂_map_left_iff, List.forall₂_map_right_iff] at hkeys
  exact hkeys.imp fun a b hab => Quotient.exact hab

theorem sorted_merge {pick : α → α → Bool} (hp : c.Picks pick) {xs ys : List α}
    (hx : c.Sorted xs) (hy : c.Sorted ys) : c.Sorted (List.merge xs ys pick) := by
  induction xs generalizing ys with
  | nil => rwa [List.nil_merge]
  | cons x xs ihx =>
    induction ys with
    | nil => rwa [List.merge_right]
    | cons y ys ihy =>
      have hx' := List.pairwise_cons.mp hx
      have hy' := List.pairwise_cons.mp hy
      rw [List.cons_merge_cons]
      cases h : pick x y with
      | true =>
        rw [if_pos rfl]
        refine List.pairwise_cons.mpr ⟨fun z hz => ?_, ihx hx'.2 hy⟩
        have hxy := hp.left x y h
        rcases List.mem_append.mp ((List.merge_perm_append pick).mem_iff.mp hz) with hz | hz
        · exact hx'.1 z hz
        · rcases List.mem_cons.mp hz with rfl | hz
          · exact hxy
          · exact c.trans x y z hxy (hy'.1 z hz)
      | false =>
        rw [if_neg Bool.false_ne_true]
        refine List.pairwise_cons.mpr ⟨fun z hz => ?_, ihy hy'.2⟩
        have hyx := hp.right x y h
        rcases List.mem_append.mp ((List.merge_perm_append pick).mem_iff.mp hz) with hz | hz
        · rcases List.mem_cons.mp hz with rfl | hz
          · exact hyx
          · exact c.trans y x z hyx (hx'.1 z hz)
        · exact hy'.1 z hz

end Comparison

section Runs

variable {α β : Type}

-- What a merge does with the first elements of two runs. To drop is to drop the right one.
inductive Verdict
  | left
  | right
  | drop
deriving DecidableEq

def mergeRuns (verdict : α → α → Verdict) : List α → List α → List α
  | [], ys => ys
  | x :: xs, [] => x :: xs
  | x :: xs, y :: ys =>
    match verdict x y with
    | .left => x :: mergeRuns verdict xs (y :: ys)
    | .right => y :: mergeRuns verdict (x :: xs) ys
    | .drop => x :: mergeRuns verdict xs ys
termination_by xs ys => xs.length + ys.length

structure Merging (merge : List α → List α → List α) (Good : List α → Prop)
    (Keeps : List α → List α → Prop) : Prop where
  good_nil : Good []
  good_singleton : ∀ x, Good [x]
  good_merge : ∀ {r s}, Good r → Good s → Good (merge r s)
  merge_nil : ∀ r, merge r [] = r
  merge_ne_nil : ∀ {r}, r ≠ [] → ∀ s, merge r s ≠ []
  keeps_merge : ∀ r s, Keeps (merge r s) (r ++ s)
  keeps_of_perm : ∀ {r s}, r.Perm s → Keeps r s
  keeps_append : ∀ {r r' s s'}, Keeps r r' → Keeps s s' → Keeps (r ++ s) (r' ++ s')
  keeps_trans : ∀ {r s t}, Keeps r s → Keeps s t → Keeps r t

def pairUp (merge : List α → List α → List α) : List (List α) → List (List α)
  | [] => []
  | [r] => [r]
  | r :: s :: rs => merge r s :: pairUp merge rs

def deal : List β → List β × List β
  | [] => ([], [])
  | x :: xs => (x :: (deal xs).2, (deal xs).1)

def Blocks (b : ℕ) : List (List α) → Prop
  | [] => True
  | [r] => r ≠ [] ∧ r.length ≤ b
  | r :: s :: rs => r.length = b ∧ Blocks b (s :: rs)

example : deal (pairUp (mergeRuns fun a b : ℕ => if a ≤ b then .left else .right) [[3], [1], [2]])
    = ([[1, 3]], [[2]]) ∧ Blocks 2 [[1, 3], [2]] := by
  simp [deal, pairUp, mergeRuns, Blocks]

lemma mergeRuns_nil (verdict : α → α → Verdict) (xs : List α) : mergeRuns verdict xs [] = xs := by
  cases xs with
  | nil => rw [mergeRuns]
  | cons x xs => rw [mergeRuns]

lemma mergeRuns_eq_nil_iff {verdict : α → α → Verdict} {xs ys : List α} :
    mergeRuns verdict xs ys = [] ↔ xs = [] ∧ ys = [] := by
  induction xs, ys using mergeRuns.induct verdict with
  | case1 ys => simp [mergeRuns]
  | case2 x xs => simp [mergeRuns]
  | case3 x xs y ys h ih => simp [mergeRuns, h]
  | case4 x xs y ys h ih => simp [mergeRuns, h]
  | case5 x xs y ys h ih => simp [mergeRuns, h]

lemma mergeRuns_pick (pick : α → α → Bool) (xs ys : List α) :
    mergeRuns (fun a b => if pick a b then .left else .right) xs ys = List.merge xs ys pick := by
  induction xs, ys using mergeRuns.induct (fun a b => if pick a b then .left else .right) with
  | case1 ys => rw [mergeRuns, List.nil_merge]
  | case2 x xs => rw [mergeRuns, List.merge_right]
  | case3 x xs y ys h ih =>
    rw [mergeRuns, h, List.cons_merge_cons, ← ih]
    have hpick : pick x y = true := by_contra fun hpick => by simp [hpick] at h
    rw [if_pos hpick]
  | case4 x xs y ys h ih =>
    rw [mergeRuns, h, List.cons_merge_cons, ← ih]
    have hpick : ¬ pick x y = true := fun hpick => by simp [hpick] at h
    rw [if_neg hpick]
  | case5 x xs y ys h ih =>
    split at h
    · exact absurd h (by simp)
    · exact absurd h (by simp)

lemma subperm_mergeRuns (verdict : α → α → Verdict) (xs ys : List α) :
    (mergeRuns verdict xs ys).Subperm (xs ++ ys) := by
  induction xs, ys using mergeRuns.induct verdict with
  | case1 ys => rw [mergeRuns, List.nil_append]
  | case2 x xs => rw [mergeRuns, List.append_nil]
  | case3 x xs y ys h ih =>
    rw [mergeRuns, h]
    exact (List.subperm_cons x).mpr ih
  | case4 x xs y ys h ih =>
    rw [mergeRuns, h]
    exact ((List.subperm_cons y).mpr ih).trans List.perm_middle.symm.subperm
  | case5 x xs y ys h ih =>
    rw [mergeRuns, h]
    refine (List.subperm_cons x).mpr (ih.trans ?_)
    exact ((List.sublist_cons_self y ys).append_left xs).subperm

namespace Comparison

variable {c : Comparison α} {verdict : α → α → Verdict}

def StrictlySorted (c : Comparison α) (xs : List α) : Prop := xs.Pairwise fun a b => c.compare a b < 0

structure Covers (c : Comparison α) (out xs : List α) : Prop where
  subperm : out.Subperm xs
  covered : ∀ a ∈ xs, ∃ b ∈ out, c.compare a b = 0

structure Decides (c : Comparison α) (verdict : α → α → Verdict) : Prop where
  left : ∀ {a b}, verdict a b = .left → c.compare a b < 0
  right : ∀ {a b}, verdict a b = .right → c.compare b a < 0
  drop : ∀ {a b}, verdict a b = .drop → c.compare a b = 0

lemma lt_of_lt_of_le {a b d : α} (hab : c.compare a b < 0) (hbd : c.compare b d ≤ 0) :
    c.compare a d < 0 := by
  by_contra hle
  have hda : c.compare d a ≤ 0 := not_lt.mp fun hlt => hle ((c.flip d a).mp hlt)
  exact (c.trans b d a hbd hda).not_gt ((c.flip b a).mpr hab)

lemma Decides.covered (hd : c.Decides verdict) (xs ys : List α) :
    ∀ a ∈ xs ++ ys, ∃ b ∈ mergeRuns verdict xs ys, c.compare a b = 0 := by
  induction xs, ys using mergeRuns.induct verdict with
  | case1 ys =>
    rw [mergeRuns, List.nil_append]
    exact fun a ha => ⟨a, ha, compare_self a⟩
  | case2 x xs =>
    rw [mergeRuns, List.append_nil]
    exact fun a ha => ⟨a, ha, compare_self a⟩
  | case3 x xs y ys h ih =>
    rw [mergeRuns, h]
    refine List.forall_mem_cons.mpr ⟨⟨x, List.mem_cons_self, compare_self x⟩, fun a ha => ?_⟩
    obtain ⟨b, hb, hab⟩ := ih a ha
    exact ⟨b, List.mem_cons_of_mem x hb, hab⟩
  | case4 x xs y ys h ih =>
    rw [mergeRuns, h]
    intro a ha
    rcases List.mem_cons.mp (List.perm_middle.mem_iff.mp ha) with rfl | ha
    · exact ⟨a, List.mem_cons_self, compare_self a⟩
    · obtain ⟨b, hb, hab⟩ := ih a ha
      exact ⟨b, List.mem_cons_of_mem y hb, hab⟩
  | case5 x xs y ys h ih =>
    rw [mergeRuns, h]
    refine List.forall_mem_cons.mpr ⟨⟨x, List.mem_cons_self, compare_self x⟩, fun a ha => ?_⟩
    rcases List.mem_cons.mp (List.perm_middle.mem_iff.mp ha) with rfl | ha
    · exact ⟨x, List.mem_cons_self, c.keys.symm (hd.drop h)⟩
    · obtain ⟨b, hb, hab⟩ := ih a ha
      exact ⟨b, List.mem_cons_of_mem x hb, hab⟩

lemma Decides.strictlySorted (hd : c.Decides verdict) {xs ys : List α} (hx : c.StrictlySorted xs)
    (hy : c.StrictlySorted ys) : c.StrictlySorted (mergeRuns verdict xs ys) := by
  -- what is ahead of both runs is ahead of the merge
  have hhead {z : α} {xs ys : List α} (hxs : ∀ a ∈ xs, c.compare z a < 0)
      (hys : ∀ a ∈ ys, c.compare z a < 0) : ∀ a ∈ mergeRuns verdict xs ys, c.compare z a < 0 :=
    fun a ha => (List.mem_append.mp ((subperm_mergeRuns verdict xs ys).subset ha)).elim (hxs a) (hys a)
  induction xs, ys using mergeRuns.induct verdict with
  | case1 ys => rwa [mergeRuns]
  | case2 x xs => rwa [mergeRuns]
  | case3 x xs y ys h ih =>
    obtain ⟨hx, hxs⟩ := List.pairwise_cons.mp hx
    rw [mergeRuns, h]
    refine List.pairwise_cons.mpr ⟨hhead hx (List.forall_mem_cons.mpr ⟨hd.left h, ?_⟩), ih hxs hy⟩
    exact fun a ha => lt_of_lt_of_le (hd.left h) ((List.pairwise_cons.mp hy).1 a ha).le
  | case4 x xs y ys h ih =>
    obtain ⟨hy, hys⟩ := List.pairwise_cons.mp hy
    rw [mergeRuns, h]
    refine List.pairwise_cons.mpr ⟨hhead (List.forall_mem_cons.mpr ⟨hd.right h, ?_⟩) hy, ih hx hys⟩
    exact fun a ha => lt_of_lt_of_le (hd.right h) ((List.pairwise_cons.mp hx).1 a ha).le
  | case5 x xs y ys h ih =>
    obtain ⟨hx, hxs⟩ := List.pairwise_cons.mp hx
    obtain ⟨hy, hys⟩ := List.pairwise_cons.mp hy
    rw [mergeRuns, h]
    refine List.pairwise_cons.mpr ⟨hhead hx fun a ha => ?_, ih hxs hys⟩
    by_contra hle
    have hax : c.compare a x ≤ 0 := not_lt.mp fun hlt => hle ((c.flip a x).mp hlt)
    have hay := c.trans a x y hax (hd.drop h).le
    exact hay.not_gt ((c.flip a y).mpr (hy a ha))

lemma Decides.merging (hd : c.Decides verdict) :
    Merging (mergeRuns verdict) c.StrictlySorted c.Covers where
  good_nil := .nil
  good_singleton x := List.pairwise_singleton _ x
  good_merge := hd.strictlySorted
  merge_nil := mergeRuns_nil verdict
  merge_ne_nil h s hnil := h (mergeRuns_eq_nil_iff.mp hnil).1
  keeps_merge r s := ⟨subperm_mergeRuns verdict r s, hd.covered r s⟩
  keeps_of_perm h := ⟨h.subperm, fun a ha => ⟨a, h.mem_iff.mpr ha, compare_self a⟩⟩
  keeps_append {r r' s s'} h h' := by
    refine ⟨h.subperm.append h'.subperm, fun a ha => ?_⟩
    rcases List.mem_append.mp ha with ha | ha
    · obtain ⟨b, hb, hab⟩ := h.covered a ha
      exact ⟨b, List.mem_append_left s hb, hab⟩
    · obtain ⟨b, hb, hab⟩ := h'.covered a ha
      exact ⟨b, List.mem_append_right r hb, hab⟩
  keeps_trans h h' := by
    refine ⟨h.subperm.trans h'.subperm, fun a ha => ?_⟩
    obtain ⟨b, hb, hab⟩ := h'.covered a ha
    obtain ⟨d, hd, hbd⟩ := h.covered b hb
    exact ⟨d, hd, c.keys.trans hab hbd⟩

lemma Covers.once {out xs : List α} (h : c.Covers out xs) (hs : c.StrictlySorted out) {a : α}
    (ha : a ∈ xs) : (out.filter (c.compare a · = 0)).length = 1 := by
  obtain ⟨b, hb, hab⟩ := h.covered a ha
  have hne : (out.filter (c.compare a · = 0)) ≠ [] :=
    List.ne_nil_of_mem (List.mem_filter.mpr ⟨hb, decide_eq_true hab⟩)
  have hkeys : ∀ d ∈ out.filter (c.compare a · = 0), c.compare a d = 0 :=
    fun d hd => of_decide_eq_true (List.mem_filter.mp hd).2
  have hpair := hs.filter (c.compare a · = 0)
  match out.filter (c.compare a · = 0), hne, hkeys, hpair with
  | [d], _, _, _ => rfl
  | d :: e :: rest, _, hkeys, hpair =>
    have hde : c.compare d e < 0 := (List.pairwise_cons.mp hpair).1 e List.mem_cons_self
    have had : c.compare a d = 0 := hkeys d List.mem_cons_self
    have hae : c.compare a e = 0 := hkeys e (List.mem_cons_of_mem d List.mem_cons_self)
    exact absurd (c.keys.trans (c.keys.symm had) hae) hde.ne

end Comparison

lemma Comparison.Picks.merging {c : Comparison α} {pick : α → α → Bool} (hp : c.Picks pick) :
    Merging (List.merge · · pick) c.Sorted List.Perm where
  good_nil := .nil
  good_singleton x := List.pairwise_singleton _ x
  good_merge := sorted_merge hp
  merge_nil r := List.merge_right r
  merge_ne_nil h s := by
    refine List.ne_nil_of_length_pos ?_
    rw [List.length_merge]
    exact Nat.add_pos_left (List.length_pos_iff.mpr h) _
  keeps_merge _ _ := List.merge_perm_append pick
  keeps_of_perm h := h
  keeps_append := List.Perm.append
  keeps_trans := List.Perm.trans

variable {merge : List α → List α → List α} {Good : List α → Prop} {Keeps : List α → List α → Prop}

lemma Merging.pairUp_keeps (hm : Merging merge Good Keeps) (runs : List (List α)) :
    Keeps (pairUp merge runs).flatten runs.flatten := by
  induction runs using pairUp.induct with
  | case1 => exact hm.keeps_of_perm (.refl _)
  | case2 r => exact hm.keeps_of_perm (.refl _)
  | case3 r s rs ih =>
    rw [pairUp, List.flatten_cons, List.flatten_cons, List.flatten_cons, ← List.append_assoc]
    exact hm.keeps_append (hm.keeps_merge r s) ih

lemma Merging.pairUp_good (hm : Merging merge Good Keeps) {runs : List (List α)}
    (h : ∀ r ∈ runs, Good r) : ∀ r ∈ pairUp merge runs, Good r := by
  induction runs using pairUp.induct with
  | case1 => exact h
  | case2 r => exact h
  | case3 r s rs ih =>
    rw [List.forall_mem_cons, List.forall_mem_cons] at h
    rw [pairUp, List.forall_mem_cons]
    exact ⟨hm.good_merge h.1 h.2.1, ih h.2.2⟩

lemma pairUp_length (merge : List α → List α → List α) (runs : List (List α)) :
    (pairUp merge runs).length = (runs.length + 1) / 2 := by
  induction runs using pairUp.induct with
  | case1 => simp [pairUp]
  | case2 r => simp [pairUp]
  | case3 r s rs ih =>
    rw [pairUp, List.length_cons, ih, List.length_cons, List.length_cons]
    omega

lemma Merging.pairUp_ne_nil (hm : Merging merge Good Keeps) {runs : List (List α)}
    (h : ∀ r ∈ runs, r ≠ []) : ∀ r ∈ pairUp merge runs, r ≠ [] := by
  induction runs using pairUp.induct with
  | case1 => exact h
  | case2 r => exact h
  | case3 r s rs ih =>
    rw [List.forall_mem_cons, List.forall_mem_cons] at h
    rw [pairUp, List.forall_mem_cons]
    exact ⟨hm.merge_ne_nil h.1 s, ih h.2.2⟩

lemma Blocks.tail {b : ℕ} {r : List α} {rs : List (List α)} (h : Blocks b (r :: rs)) :
    Blocks b rs := by
  cases rs with
  | nil => trivial
  | cons s rs => exact h.2

lemma Blocks.head_le {b : ℕ} {r : List α} {rs : List (List α)} (h : Blocks b (r :: rs)) :
    r.length ≤ b := by
  cases rs with
  | nil => exact h.2
  | cons s rs => exact h.1.le

lemma Blocks.ne_nil {b : ℕ} (hb : 0 < b) {runs : List (List α)} (h : Blocks b runs) :
    ∀ r ∈ runs, r ≠ [] := by
  induction runs with
  | nil => exact fun _ hr => absurd hr List.not_mem_nil
  | cons r rs ih =>
    refine List.forall_mem_cons.mpr ⟨?_, ih h.tail⟩
    cases rs with
    | nil => exact h.1
    | cons s rs => exact List.ne_nil_of_length_pos (h.1 ▸ hb)

lemma Blocks.concat {b : ℕ} {runs : List (List α)} (h : ∀ r ∈ runs, r.length = b) {r : List α}
    (hr : r ≠ []) (hle : r.length ≤ b) : Blocks b (runs ++ [r]) := by
  induction runs with
  | nil => exact ⟨hr, hle⟩
  | cons s rs ih =>
    rw [List.forall_mem_cons] at h
    cases rs with
    | nil => exact ⟨h.1, hr, hle⟩
    | cons t rs => exact ⟨h.1, ih h.2⟩

lemma blocks_of_length {b : ℕ} (hb : 0 < b) {runs : List (List α)}
    (h : ∀ r ∈ runs, r.length = b) : Blocks b runs := by
  rcases List.eq_nil_or_concat runs with rfl | ⟨init, r, rfl⟩
  · trivial
  · rw [List.concat_eq_append] at h ⊢
    rw [List.forall_mem_append, List.forall_mem_singleton] at h
    exact .concat h.1 (List.ne_nil_of_length_pos (h.2 ▸ hb)) h.2.le

lemma pairUp_blocks {pick : α → α → Bool} {b : ℕ} (hb : 0 < b) {runs : List (List α)}
    (h : Blocks b runs) : Blocks (2 * b) (pairUp (List.merge · · pick) runs) := by
  induction runs using pairUp.induct with
  | case1 => trivial
  | case2 r => exact ⟨h.1, h.2.trans (Nat.le_mul_of_pos_left b Nat.two_pos)⟩
  | case3 r s rs ih =>
    have hlen : (List.merge r s pick).length = b + s.length := by
      rw [List.length_merge, h.1]
    have hs := h.2.head_le
    have hrest := ih h.2.tail
    rw [pairUp]
    cases rs with
    | nil =>
      refine ⟨List.ne_nil_of_length_pos ?_, ?_⟩
      · rw [hlen]
        omega
      · rw [hlen]
        omega
    | cons t rs =>
      have hfull : s.length = b := h.2.1
      cases hp : pairUp (List.merge · · pick) (t :: rs) with
      | nil =>
        have := pairUp_length (List.merge · · pick) (t :: rs)
        rw [hp, List.length_nil, List.length_cons] at this
        omega
      | cons u us =>
        rw [hp] at hrest
        refine ⟨?_, hrest⟩
        rw [hlen]
        omega

lemma deal_concat (xs : List β) (x : β) : deal (xs ++ [x])
    = if xs.length % 2 = 0 then ((deal xs).1 ++ [x], (deal xs).2)
      else ((deal xs).1, (deal xs).2 ++ [x]) := by
  induction xs with
  | nil => rfl
  | cons y xs ih =>
    rw [List.cons_append, deal, ih, List.length_cons]
    by_cases h : xs.length % 2 = 0
    · rw [if_pos h, if_neg (by omega)]
      rfl
    · rw [if_neg h, if_pos (by omega)]
      rfl

lemma deal_map {γ : Type} (f : β → γ) (xs : List β) :
    deal (xs.map f) = ((deal xs).1.map f, (deal xs).2.map f) := by
  induction xs with
  | nil => rfl
  | cons x xs ih => rw [List.map_cons, deal, ih, deal, List.map_cons]

lemma deal_cons (r : List α) (rs : List (List α)) :
    (deal (r :: rs)).1.flatten = r ++ (deal rs.tail).1.flatten
      ∧ (deal (r :: rs)).2.flatten = rs.headD [] ++ (deal rs.tail).2.flatten := by
  cases rs with
  | nil => exact ⟨rfl, rfl⟩
  | cons s rs => exact ⟨rfl, rfl⟩

lemma Blocks.first_end {b : ℕ} {r : List α} {rs : List (List α)} (h : Blocks b (r :: rs)) :
    r.length = b ∨ r.length ≤ b ∧ (deal rs.tail).1.flatten = [] := by
  cases rs with
  | nil => exact .inr ⟨h.2, rfl⟩
  | cons s rs => exact .inl h.1

lemma Blocks.second_end {b : ℕ} {r : List α} {rs : List (List α)} (h : Blocks b (r :: rs)) :
    (rs.headD []).length = b ∨ (rs.headD []).length ≤ b ∧ (deal rs.tail).2.flatten = [] := by
  match rs, h with
  | [], h => exact .inr ⟨Nat.zero_le b, rfl⟩
  | [s], h => exact .inr ⟨h.2.2, rfl⟩
  | s :: t :: rs, h => exact .inl h.2.1

structure Written (out : Bool → List α) (dest : Bool) (done : List (List α)) : Prop where
  first : out false = (deal done).1.flatten
  second : out true = (deal done).2.flatten
  next : dest = decide (done.length % 2 = 1)

lemma Written.put {out : Bool → List α} {dest : Bool} {done : List (List α)}
    (h : Written out dest done) (r : List α) :
    Written (Function.update out dest (out dest ++ r)) (!dest) (done ++ [r]) := by
  obtain ⟨hfirst, hsecond, hnext⟩ := h
  by_cases hpar : done.length % 2 = 1
  · obtain rfl : dest = true := by simpa [hpar] using hnext
    have hd := deal_concat done r
    rw [if_neg (by omega)] at hd
    refine ⟨?_, ?_, ?_⟩
    · rw [hd, Function.update_of_ne Bool.false_ne_true, hfirst]
    · rw [hd, Function.update_self, hsecond]
      simp
    · simp
      omega
  · obtain rfl : dest = false := by simpa [hpar] using hnext
    have hd := deal_concat done r
    rw [if_pos (by omega)] at hd
    refine ⟨?_, ?_, ?_⟩
    · rw [hd, Function.update_self, hfirst]
      simp
    · rw [hd, Function.update_of_ne Bool.false_ne_true.symm, hsecond]
    · simp
      omega

lemma second_ne_nil {runs : List (List α)} (h : ∀ r ∈ runs, r ≠ []) :
    (deal runs).2.flatten ≠ [] ↔ 1 < runs.length := by
  match runs, h with
  | [], _ => simp [deal]
  | [r], _ => simp [deal]
  | r :: s :: rs, h =>
    rw [(deal_cons r (s :: rs)).2, List.length_cons, List.length_cons, List.headD_cons]
    refine iff_of_true (fun hnil => ?_) (by omega)
    exact h s (List.mem_cons_of_mem r List.mem_cons_self) (List.append_eq_nil_iff.mp hnil).1

lemma deal_of_length_le_one {runs : List (List α)} (h : runs.length ≤ 1) :
    (deal runs).1.flatten = runs.flatten := by
  match runs, h with
  | [], _ => rfl
  | [r], _ => rfl

lemma flatten_singletons (xs : List α) : (xs.map fun x => [x]).flatten = xs := by
  rw [← List.flatMap_def]
  exact List.flatMap_singleton' xs

lemma Merging.good_flatten (hm : Merging merge Good Keeps) {runs : List (List α)}
    (h : runs.length ≤ 1) (hs : ∀ r ∈ runs, Good r) : Good runs.flatten := by
  match runs, h, hs with
  | [], _, _ => exact hm.good_nil
  | [r], _, hs =>
    rw [List.flatten_singleton]
    exact hs r List.mem_cons_self

lemma deal_perm (xs : List β) : ((deal xs).1 ++ (deal xs).2).Perm xs := by
  induction xs with
  | nil => rfl
  | cons x xs ih =>
    rw [deal, List.cons_append]
    exact .cons x (List.perm_append_comm.trans ih)

lemma exists_deal {l r : List β} (hle : r.length ≤ l.length) (hlt : l.length ≤ r.length + 1) :
    ∃ xs, deal xs = (l, r) := by
  induction l generalizing r with
  | nil =>
    cases r with
    | nil => exact ⟨[], rfl⟩
    | cons y ys => exact absurd hle (by simp)
  | cons x l ih =>
    cases r with
    | nil =>
      obtain rfl : l = [] := List.eq_nil_of_length_eq_zero (by simpa using hlt)
      exact ⟨[x], rfl⟩
    | cons y r =>
      rw [List.length_cons, List.length_cons] at hle hlt
      obtain ⟨xs, hxs⟩ := ih (r := r) (by omega) (by omega)
      exact ⟨x :: y :: xs, by rw [deal, deal, hxs]⟩

end Runs

section Loops

open SimpleCode.Foundations.Comp

variable {α σ ε : Type} {cond : σ → Bool} {body : σ → Comp ε σ}

-- `R s xs ys o`: `xs` and `ys` are what is left of the two runs, `o` is what was written.
theorem loop_mergeRuns (verdict : α → α → Verdict) {R : σ → List α → List α → List α → Prop}
    (hend : ∀ s o, R s [] [] o → cond s = false)
    (hleft : ∀ s x xs o, R s (x :: xs) [] o →
      cond s = true ∧ ∃ t, (body s).Returns t ∧ R t xs [] (o ++ [x]))
    (hright : ∀ s y ys o, R s [] (y :: ys) o →
      cond s = true ∧ ∃ t, (body s).Returns t ∧ R t [] ys (o ++ [y]))
    (hboth : ∀ s x xs y ys o, R s (x :: xs) (y :: ys) o →
      cond s = true ∧ ∃ t, (body s).Returns t ∧ match verdict x y with
        | .left => R t xs (y :: ys) (o ++ [x])
        | .right => R t (x :: xs) ys (o ++ [y])
        | .drop => R t xs ys (o ++ [x]))
    {s : σ} {xs ys o : List α} (h : R s xs ys o) :
    ∃ t, (loop cond body s).Returns t ∧ R t [] [] (o ++ mergeRuns verdict xs ys) := by
  have hnext {s t : σ} {z : α} {zs o : List α} (hc : cond s = true) (hb : (body s).Returns t)
      (ih : ∃ u, (loop cond body t).Returns u ∧ R u [] [] (o ++ [z] ++ zs)) :
      ∃ u, (loop cond body s).Returns u ∧ R u [] [] (o ++ z :: zs) := by
    obtain ⟨u, hu, hR⟩ := ih
    rw [List.append_assoc] at hR
    exact ⟨u, loop_step hc hb hu, hR⟩
  induction hn : xs.length + ys.length using Nat.strong_induction_on generalizing s xs ys o with
  | _ n ih =>
    match xs, ys, h, hn with
    | [], [], h, hn =>
      refine ⟨s, loop_end (hend s o h), ?_⟩
      rwa [mergeRuns, List.append_nil]
    | x :: xs, [], h, hn =>
      obtain ⟨hc, t, hb, ht⟩ := hleft s x xs o h
      have hrest := ih _ (by rw [← hn, List.length_cons]; omega) ht rfl
      rw [mergeRuns_nil] at hrest ⊢
      exact hnext hc hb hrest
    | [], y :: ys, h, hn =>
      obtain ⟨hc, t, hb, ht⟩ := hright s y ys o h
      have hrest := ih _ (by rw [← hn, List.length_cons]; omega) ht rfl
      rw [mergeRuns] at hrest ⊢
      exact hnext hc hb hrest
    | x :: xs, y :: ys, h, hn =>
      obtain ⟨hc, t, hb, ht⟩ := hboth s x xs y ys o h
      rw [mergeRuns]
      rw [List.length_cons, List.length_cons] at hn
      cases hverdict : verdict x y with
      | left =>
        rw [hverdict] at ht
        exact hnext hc hb (ih _ (by rw [← hn, List.length_cons]; omega) ht rfl)
      | right =>
        rw [hverdict] at ht
        exact hnext hc hb (ih _ (by rw [← hn, List.length_cons]; omega) ht rfl)
      | drop =>
        rw [hverdict] at ht
        exact hnext hc hb (ih _ (by omega) ht rfl)

theorem loop_merge (pick : α → α → Bool) {R : σ → List α → List α → List α → Prop}
    (hend : ∀ s o, R s [] [] o → cond s = false)
    (hleft : ∀ s x xs o, R s (x :: xs) [] o →
      cond s = true ∧ ∃ t, (body s).Returns t ∧ R t xs [] (o ++ [x]))
    (hright : ∀ s y ys o, R s [] (y :: ys) o →
      cond s = true ∧ ∃ t, (body s).Returns t ∧ R t [] ys (o ++ [y]))
    (hboth : ∀ s x xs y ys o, R s (x :: xs) (y :: ys) o →
      cond s = true ∧ ∃ t, (body s).Returns t
        ∧ if pick x y then R t xs (y :: ys) (o ++ [x]) else R t (x :: xs) ys (o ++ [y]))
    {s : σ} {xs ys o : List α} (h : R s xs ys o) :
    ∃ t, (loop cond body s).Returns t ∧ R t [] [] (o ++ List.merge xs ys pick) := by
  rw [← mergeRuns_pick]
  refine loop_mergeRuns _ hend hleft hright (fun s x xs y ys o h => ?_) h
  obtain ⟨hc, t, hb, ht⟩ := hboth s x xs y ys o h
  refine ⟨hc, t, hb, ?_⟩
  cases hpick : pick x y with
  | true =>
    rw [hpick, if_pos rfl] at ht
    rwa [if_pos rfl]
  | false =>
    rw [hpick, if_neg Bool.false_ne_true] at ht
    rwa [if_neg Bool.false_ne_true]

variable {merge : List α → List α → List α}

-- `R s rs done`: the runs `rs` are still on the tapes that are read, `done` on those written.
theorem loop_pairs (hnil : ∀ r, merge r [] = r) {R : σ → List (List α) → List (List α) → Prop}
    (hend : ∀ s done, R s [] done → cond s = false)
    (hstep : ∀ s r rs done, R s (r :: rs) done → cond s = true
      ∧ ∃ t, (body s).Returns t ∧ R t rs.tail (done ++ [merge r (rs.headD [])]))
    {s : σ} {rs done : List (List α)} (h : R s rs done) :
    ∃ t, (loop cond body s).Returns t ∧ R t [] (done ++ pairUp merge rs) := by
  induction rs using pairUp.induct generalizing s done with
  | case1 => exact ⟨s, loop_end (hend s done h), by rwa [pairUp, List.append_nil]⟩
  | case2 r =>
    obtain ⟨hc, t, hb, ht⟩ := hstep s r [] done h
    rw [List.headD_nil, hnil] at ht
    exact ⟨t, loop_step hc hb (loop_end (hend t _ ht)), ht⟩
  | case3 r r' rs ih =>
    obtain ⟨hc, t, hb, ht⟩ := hstep s r (r' :: rs) done h
    obtain ⟨u, hu, hR⟩ := ih ht
    refine ⟨u, loop_step hc hb hu, ?_⟩
    rw [List.append_assoc] at hR
    exact hR

-- `R s runs`: the runs are `runs`. The passes go on while there are more than `k` of them.
theorem loop_passes {R : σ → List (List α) → Prop} {Good : List α → Prop}
    {Keeps : List α → List α → Prop} {k : ℕ} (hm : Merging merge Good Keeps) (hk : 0 < k)
    (hcond : ∀ s runs, R s runs → (cond s = true ↔ k < runs.length))
    (hstep : ∀ s runs, R s runs → k < runs.length →
      ∃ t, (body s).Returns t ∧ R t (pairUp merge runs))
    {s : σ} {runs : List (List α)} (h : R s runs) (hs : ∀ r ∈ runs, Good r) :
    ∃ t runs', (loop cond body s).Returns t ∧ R t runs' ∧ runs'.length ≤ k
      ∧ Keeps runs'.flatten runs.flatten ∧ ∀ r ∈ runs', Good r := by
  induction hn : runs.length using Nat.strong_induction_on generalizing s runs with
  | _ n ih =>
    by_cases hlt : k < runs.length
    · obtain ⟨t, hb, ht⟩ := hstep s runs h hlt
      have hlen := pairUp_length merge runs
      obtain ⟨u, runs', hu, hR, hle, hkeeps, hgood⟩ :=
        ih (pairUp merge runs).length (by omega) ht (hm.pairUp_good hs) rfl
      exact ⟨u, runs', loop_step ((hcond s runs h).mpr hlt) hb hu, hR, hle,
        hm.keeps_trans hkeeps (hm.pairUp_keeps runs), hgood⟩
    · refine ⟨s, runs, loop_end ?_, h, not_lt.mp hlt, hm.keeps_of_perm (.refl _), hs⟩
      exact Bool.eq_false_iff.mpr fun hc => hlt ((hcond s runs h).mp hc)

end Loops

end SimpleCode.Foundations
