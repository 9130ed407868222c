import SimpleCode.Algorithm.ZSort

set_option autoImplicit false

namespace SimpleCode.Algorithm.ZSort

open Foundations Foundations.Comp

variable {α : Type} {compare : α → α → ℤ} {verdict : α → α → Verdict} {Good : List α → Prop}
  {Keeps : List α → List α → Prop}

-- The comparison never gives one of the answers that are reserved.
def Ordinary (c : Comparison α) : Prop :=
  ∀ a b, c.compare a b ≠ zcompAbort ∧ c.compare a b ≠ zcompDupP ∧ c.compare a b ≠ zcompDupQ

def Reserved (n : ℤ) : Prop := n = zcompAbort ∨ n = zcompDupP ∨ n = zcompDupQ

structure Sorter (compare : α → α → ℤ) (verdict : α → α → Verdict) (Good : List α → Prop)
    (Keeps : List α → List α → Prop) : Prop extends Merging (mergeRuns verdict) Good Keeps where
  left : ∀ {a b}, verdict a b = .left → ¬ Reserved (compare a b) ∧ compare a b < 0
  right : ∀ {a b}, verdict a b = .right → ¬ Reserved (compare a b) ∧ ¬ compare a b < 0
  drop : ∀ {a b}, verdict a b = .drop → compare a b = zcompDupP

def sides {β : Type} (x y : β) : Bool → β := fun side => if side then y else x

lemma update_sides_first {β : Type} (x y z : β) :
    Function.update (sides x y) false z = sides z y := by
  funext side
  cases side <;> rfl

lemma update_sides_second {β : Type} (x y z : β) :
    Function.update (sides x y) true z = sides x z := by
  funext side
  cases side <;> rfl

section Queues

def mark : List α → List (Item α)
  | [] => []
  | x :: xs => ⟨x, xs.isEmpty⟩ :: mark xs

lemma mark_item (run : List α) : (mark run).map (·.item) = run := by
  induction run with
  | nil => rfl
  | cons x run ih => rw [mark, List.map_cons, ih]

lemma mark_length (run : List α) : (mark run).length = run.length := by
  rw [← List.length_map, mark_item]

lemma mark_singletons (xs : List α) :
    ((xs.map fun x => [x]).map mark).flatten = xs.map fun x => ⟨x, true⟩ := by
  rw [List.map_map, ← List.flatMap_def]
  exact List.flatMap_pure_eq_map (fun x => (⟨x, true⟩ : Item α)) xs

lemma closeBlock_cons (q : Item α) {items : List (Item α)} (h : items ≠ []) :
    closeBlock (q :: items) = q :: closeBlock items := by
  cases items with
  | nil => exact absurd rfl h
  | cons q' next => rfl

lemma closeBlock_append (before : List (Item α)) {run : List α} (h : run ≠ []) :
    closeBlock (before ++ run.map fun x => ⟨x, false⟩) = before ++ mark run := by
  induction before with
  | nil =>
    induction run with
    | nil => exact absurd rfl h
    | cons x run ih =>
      cases run with
      | nil => rfl
      | cons y run =>
        rw [List.nil_append, List.map_cons, closeBlock_cons _ (by simp)]
        exact congrArg (⟨x, false⟩ :: ·) (ih (List.cons_ne_nil y run))
  | cons q before ih =>
    rw [List.cons_append, closeBlock_cons q (by simp [h]), ih]
    rfl

structure AtRuns (rest : Bool → List (Item α)) (before : List (Item α)) (room : ℕ)
    (s : QueueMerge α) (run : Bool → List α) (o : List α) : Prop where
  first : ∀ side, (s.source side).first = mark (run side) ++ rest side
  count : ∀ side, (s.source side).count = (s.source side).first.length
  ended : ∀ side, s.endOfBlock side = (run side).isEmpty
  output : s.destination.first = before ++ o.map fun x => ⟨x, false⟩
  outputCount : s.destination.count = s.destination.first.length
  room : s.empty + ((run false).length + (run true).length + o.length) = room

section

variable {rest : Bool → List (Item α)} {before : List (Item α)} {room : ℕ} {s : QueueMerge α}
  {run : Bool → List α} {o : List α}

lemma AtRuns.advance (h : AtRuns rest before room s run o) {side : Bool} {x : α} {xs : List α}
    (hrun : run side = x :: xs) :
    (s.source side).first = ⟨x, xs.isEmpty⟩ :: (mark xs ++ rest side)
      ∧ (∀ side', (Function.update s.source side
          ⟨mark xs ++ rest side, (s.source side).count - 1⟩ side').first
        = mark (Function.update run side xs side') ++ rest side')
      ∧ (∀ side', (Function.update s.source side
          ⟨mark xs ++ rest side, (s.source side).count - 1⟩ side').count
        = (Function.update s.source side
          ⟨mark xs ++ rest side, (s.source side).count - 1⟩ side').first.length)
      ∧ (∀ side', (if xs.isEmpty then Function.update s.endOfBlock side true else s.endOfBlock) side'
        = (Function.update run side xs side').isEmpty)
      ∧ (Function.update run side xs false).length + (Function.update run side xs true).length + 1
        = (run false).length + (run true).length := by
  have hfirst : (s.source side).first = ⟨x, xs.isEmpty⟩ :: (mark xs ++ rest side) := by
    rw [h.first, hrun]
    rfl
  refine ⟨hfirst, ?_, ?_, ?_, ?_⟩
  · intro side'
    by_cases hside : side' = side
    · subst hside
      simp only [Function.update_self]
    · simp only [Function.update_of_ne hside, h.first]
  · intro side'
    by_cases hside : side' = side
    · subst hside
      simp only [Function.update_self, h.count, hfirst, List.length_cons, Nat.add_sub_cancel]
    · simp only [Function.update_of_ne hside, h.count]
  · intro side'
    by_cases hside : side' = side
    · subst hside
      cases xs with
      | nil => simp
      | cons y xs => simp [h.ended, hrun]
    · cases xs with
      | nil => simp [Function.update_of_ne hside, h.ended]
      | cons y xs => simp [Function.update_of_ne hside, h.ended]
  · cases side with
    | false =>
      rw [Function.update_self, Function.update_of_ne Bool.false_ne_true.symm, hrun, List.length_cons]
      omega
    | true =>
      rw [Function.update_self, Function.update_of_ne Bool.false_ne_true, hrun, List.length_cons]
      omega

lemma AtRuns.moveItem (h : AtRuns rest before room s run o) {side : Bool} {x : α} {xs : List α}
    (hrun : run side = x :: xs) : ∃ t, s.moveItem side = .ok t
      ∧ AtRuns rest before room t (Function.update run side xs) (o ++ [x]) := by
  obtain ⟨hfirst, hadvanced, hcount, hended, hlength⟩ := h.advance hrun
  have hroom := h.room
  have hmove : s.moveItem side = .ok
      { s with
        source := Function.update s.source side ⟨mark xs ++ rest side, (s.source side).count - 1⟩
        endOfBlock :=
          if xs.isEmpty then Function.update s.endOfBlock side true else s.endOfBlock
        destination := ⟨s.destination.first ++ [⟨x, false⟩], s.destination.count + 1⟩ } := by
    rw [QueueMerge.moveItem, hfirst]
  refine ⟨_, hmove, hadvanced, hcount, hended, ?_, ?_, ?_⟩
  · simp [h.output]
  · simp [h.outputCount]
  · rw [List.length_append, List.length_singleton]
    dsimp only
    omega

lemma AtRuns.discard (h : AtRuns rest before room s run o) {y : α} {ys : List α}
    (hrun : run true = y :: ys) :
    AtRuns rest before room (s.discard (mark ys ++ rest true) true) (Function.update run true ys) o := by
  obtain ⟨hfirst, hadvanced, hcount, hended, hlength⟩ := h.advance hrun
  have hroom := h.room
  have hdiscard : s.discard (mark ys ++ rest true) true =
      { s with
        source := Function.update s.source true ⟨mark ys ++ rest true, (s.source true).count - 1⟩
        endOfBlock :=
          if ys.isEmpty then Function.update s.endOfBlock true true else s.endOfBlock
        empty := s.empty + 1 } := by
    rw [QueueMerge.discard, hfirst]
  rw [hdiscard]
  refine ⟨hadvanced, hcount, hended, h.output, h.outputCount, ?_⟩
  dsimp only
  omega

lemma AtRuns.choose_right (h : AtRuns rest before room s run o) (hrun : run false = []) :
    s.choose compare = .ok (s, true) := by
  rw [QueueMerge.choose, h.ended, hrun]
  rfl

lemma AtRuns.choose_left (h : AtRuns rest before room s run o) {x : α} {xs : List α}
    (h0 : run false = x :: xs) (h1 : run true = []) : s.choose compare = .ok (s, false) := by
  rw [QueueMerge.choose, h.ended, h.ended, h0, h1]
  rfl

lemma AtRuns.choose_both (hc : Sorter compare verdict Good Keeps) (h : AtRuns rest before room s run o)
    {x y : α} {xs ys : List α} (h0 : run false = x :: xs) (h1 : run true = y :: ys) :
    s.choose compare = match verdict x y with
      | .left => .ok (s, false)
      | .right => .ok (s, true)
      | .drop => .ok (s.discard (mark ys ++ rest true) true, false) := by
  have hfirst0 : (s.source false).first = ⟨x, xs.isEmpty⟩ :: (mark xs ++ rest false) := by
    rw [h.first, h0]
    rfl
  have hfirst1 : (s.source true).first = ⟨y, ys.isEmpty⟩ :: (mark ys ++ rest true) := by
    rw [h.first, h1]
    rfl
  rw [QueueMerge.choose, h.ended, h.ended, h0, h1, hfirst0, hfirst1]
  cases hverdict : verdict x y with
  | left =>
    obtain ⟨hreserved, hlt⟩ := hc.left hverdict
    obtain ⟨habort, hp, hq⟩ := not_or.mp hreserved |>.imp_right not_or.mp
    simp [habort, hp, hq, hlt]
  | right =>
    obtain ⟨hreserved, hlt⟩ := hc.right hverdict
    obtain ⟨habort, hp, hq⟩ := not_or.mp hreserved |>.imp_right not_or.mp
    simp [habort, hp, hq, hlt]
  | drop =>
    simp [hc.drop hverdict, zcompAbort, zcompDupP]

lemma AtRuns.more_iff (h : AtRuns rest before room s run o) :
    s.more = true ↔ run false ≠ [] ∨ run true ≠ [] := by
  rw [QueueMerge.more, h.ended, h.ended]
  simp

lemma AtRuns.step {t : QueueMerge α} (h : AtRuns rest before room t run o) {side : Bool} {x : α}
    {xs : List α} (hchoose : s.choose compare = .ok (t, side)) (hrun : run side = x :: xs) :
    ∃ u, (ofExcept (s.step compare)).Returns u
      ∧ AtRuns rest before room u (Function.update run side xs) (o ++ [x]) := by
  obtain ⟨u, hu, hat⟩ := h.moveItem hrun
  refine ⟨u, yields_ofExcept.mpr ?_, hat⟩
  rw [QueueMerge.step, hchoose]
  exact hu.symm

end

theorem mergeRuns_returns (hc : Sorter compare verdict Good Keeps) {rest : Bool → List (Item α)}
    {before : List (Item α)} {room : ℕ} {s : QueueMerge α} {xs ys : List α}
    (h : AtRuns rest before room s (sides xs ys) []) :
    ∃ t, (loop QueueMerge.more (fun m => ofExcept (m.step compare)) s).Returns t
      ∧ AtRuns rest before room t (sides [] []) (mergeRuns verdict xs ys) := by
  refine loop_mergeRuns verdict (R := fun s xs ys o => AtRuns rest before room s (sides xs ys) o)
    ?_ ?_ ?_ ?_ h
  · intro s o h
    exact Bool.eq_false_iff.mpr fun hmore => (h.more_iff.mp hmore).elim (· rfl) (· rfl)
  · intro s x xs o h
    obtain ⟨t, ht, hat⟩ := h.step (h.choose_left rfl rfl) rfl
    rw [update_sides_first] at hat
    exact ⟨h.more_iff.mpr (.inl (List.cons_ne_nil x xs)), t, ht, hat⟩
  · intro s y ys o h
    obtain ⟨t, ht, hat⟩ := h.step (h.choose_right rfl) rfl
    rw [update_sides_second] at hat
    exact ⟨h.more_iff.mpr (.inr (List.cons_ne_nil y ys)), t, ht, hat⟩
  · intro s x xs y ys o h
    refine ⟨h.more_iff.mpr (.inl (List.cons_ne_nil x xs)), ?_⟩
    have hchoose := h.choose_both hc rfl rfl
    cases hverdict : verdict x y with
    | left =>
      rw [hverdict] at hchoose
      obtain ⟨t, ht, hat⟩ := h.step hchoose rfl
      rw [update_sides_first] at hat
      exact ⟨t, ht, hat⟩
    | right =>
      rw [hverdict] at hchoose
      obtain ⟨t, ht, hat⟩ := h.step hchoose rfl
      rw [update_sides_second] at hat
      exact ⟨t, ht, hat⟩
    | drop =>
      rw [hverdict] at hchoose
      have hdiscard := h.discard rfl
      rw [update_sides_second] at hdiscard
      obtain ⟨t, ht, hat⟩ := hdiscard.step hchoose rfl
      rw [update_sides_first] at hat
      exact ⟨t, ht, hat⟩

structure InPass (room : ℕ) (s : QueuePass α) (rs done : List (List α)) : Prop where
  first : (s.source false).first = (deal (rs.map mark)).1.flatten
  second : (s.source true).first = (deal (rs.map mark)).2.flatten
  count : ∀ side, (s.source side).count = (s.source side).first.length
  ne : ∀ r ∈ rs, r ≠ []
  written : Written (MemoryStruct.first ∘ s.output) s.destination (done.map mark)
  outputCount : ∀ side, (s.output side).count = (s.output side).first.length
  room : s.empty + (rs.flatten.length + done.flatten.length) = room

lemma mark_headD (rs : List (List α)) : (rs.map mark).headD [] = mark (rs.headD []) := by
  cases rs with
  | nil => rfl
  | cons r rs => rfl

lemma mark_eq_nil {run : List α} : mark run = [] ↔ run = [] := by
  cases run with
  | nil => simp [mark]
  | cons x run => simp [mark]

lemma map_mark_ne_nil {rs : List (List α)} (h : ∀ r ∈ rs, r ≠ []) : ∀ r ∈ rs.map mark, r ≠ [] := by
  intro r hr
  obtain ⟨run, hrun, rfl⟩ := List.mem_map.mp hr
  exact mark_eq_nil.not.mpr (h run hrun)

section

variable {room : ℕ} {s : QueuePass α} {r : List α} {rs done : List (List α)}

lemma InPass.firsts (h : InPass room s (r :: rs) done) :
    (s.source false).first = mark r ++ (deal (rs.tail.map mark)).1.flatten
      ∧ (s.source true).first = mark (rs.headD []) ++ (deal (rs.tail.map mark)).2.flatten := by
  have hdeal := deal_cons (mark r) (rs.map mark)
  rw [mark_headD, ← List.map_tail] at hdeal
  exact ⟨h.first.trans hdeal.1, h.second.trans hdeal.2⟩

lemma InPass.atRuns (h : InPass room s (r :: rs) done) :
    AtRuns (sides (deal (rs.tail.map mark)).1.flatten (deal (rs.tail.map mark)).2.flatten)
      (s.output s.destination).first (s.empty + (r.length + (rs.headD []).length))
      ⟨s.source, fun side => (s.source side).count == 0, s.output s.destination, s.empty⟩
      (sides r (rs.headD [])) [] := by
  obtain ⟨hfirst, hsecond⟩ := h.firsts
  have hr : r ≠ [] := h.ne r List.mem_cons_self
  refine ⟨?_, h.count, ?_, ?_, h.outputCount s.destination, rfl⟩
  · intro side
    cases side with
    | false => exact hfirst
    | true => exact hsecond
  · intro side
    cases side with
    | false =>
      simp only [h.count, hfirst, List.length_append, sides]
      cases r with
      | nil => exact absurd rfl hr
      | cons x r => simp [mark]
    | true =>
      simp only [h.count, hsecond, List.length_append, sides]
      match rs, h.ne with
      | [], _ => rfl
      | [] :: rs, hne => exact absurd rfl (hne [] (by simp))
      | (y :: r') :: rs, _ => simp [mark]
  · simp

lemma length_headD (rs : List (List α)) :
    rs.flatten.length = (rs.headD []).length + rs.tail.flatten.length := by
  cases rs with
  | nil => rfl
  | cons r rs => rw [List.flatten_cons, List.length_append, List.headD_cons, List.tail_cons]

lemma inPass_mergeBlocks (hc : Sorter compare verdict Good Keeps) (h : InPass room s (r :: rs) done) :
    ∃ t, (s.mergeBlocks compare).Returns t
      ∧ InPass room t rs.tail (done ++ [mergeRuns verdict r (rs.headD [])]) := by
  obtain ⟨m, hm, hend⟩ := mergeRuns_returns hc h.atRuns
  have hne : mergeRuns verdict r (rs.headD []) ≠ [] :=
    hc.merge_ne_nil (h.ne r List.mem_cons_self) _
  have hclose : closeBlock m.destination.first = (s.output s.destination).first
      ++ mark (mergeRuns verdict r (rs.headD [])) := by
    rw [hend.output]
    exact closeBlock_append _ hne
  refine ⟨_, returns_bind.mpr ⟨m, hm, yields_pure.mpr rfl⟩, hend.first false, hend.first true,
    hend.count, ?_, ?_, ?_, ?_⟩
  · intro r' hr'
    exact h.ne r' (List.mem_cons_of_mem r (List.mem_of_mem_tail hr'))
  · rw [Function.comp_update, List.map_append]
    simp only [hclose]
    exact h.written.put _
  · intro side
    by_cases hside : side = s.destination
    · subst hside
      simp only [Function.update_self]
      rw [hclose, hend.outputCount, hend.output, List.length_append, List.length_append,
        List.length_map, mark_length]
    · simp only [Function.update_of_ne hside, h.outputCount]
  · have hroom := h.room
    have hmerged : m.empty + (0 + 0 + (mergeRuns verdict r (rs.headD [])).length)
        = s.empty + (r.length + (rs.headD []).length) := hend.room
    rw [List.flatten_cons, List.length_append, length_headD rs] at hroom
    rw [List.flatten_append, List.flatten_singleton, List.length_append]
    dsimp only
    omega

end

structure AtPass (room : ℕ) (s : Queues α) (runs : List (List α)) : Prop where
  first : (s.queue s.source false).first = (deal (runs.map mark)).1.flatten
  second : (s.queue s.source true).first = (deal (runs.map mark)).2.flatten
  count : ∀ side, (s.queue s.source side).count = (s.queue s.source side).first.length
  ne : ∀ r ∈ runs, r ≠ []
  room : s.empty + runs.flatten.length = room
  idle : s.source = true → ∀ side, s.queue false side = ⟨[], 0⟩

lemma memoryStruct_eq {z : MemoryStruct α} (hfirst : z.first = []) (hcount : z.count = z.first.length) :
    z = ⟨[], 0⟩ := by
  obtain ⟨first, count⟩ := z
  obtain rfl : first = [] := hfirst
  exact congrArg (MemoryStruct.mk []) hcount

section

variable {room : ℕ} {s : Queues α} {runs : List (List α)}

lemma AtPass.more_iff (h : AtPass room s runs) :
    ((s.queue s.source true).count != 0) = true ↔ 1 < runs.length := by
  rw [bne_iff_ne, h.count, h.second, ← List.length_map (f := mark),
    ← second_ne_nil (map_mark_ne_nil h.ne)]
  exact List.length_eq_zero_iff.not

lemma atPass_pass (hc : Sorter compare verdict Good Keeps) (h : AtPass room s runs) :
    ∃ t, (s.pass compare).Returns t ∧ AtPass room t (pairUp (mergeRuns verdict) runs) := by
  have hloop : ∃ p, (loop QueuePass.more (QueuePass.mergeBlocks compare)
      ⟨s.queue s.source, fun _ => ⟨[], 0⟩, false, s.empty⟩).Returns p
      ∧ InPass room p [] ([] ++ pairUp (mergeRuns verdict) runs) := by
    refine loop_pairs hc.merge_nil (R := InPass room) ?_ ?_
      ⟨h.first, h.second, h.count, h.ne, ⟨rfl, rfl, rfl⟩, fun _ => rfl, h.room⟩
    · intro p done hp
      rw [QueuePass.more, hp.count, hp.count, hp.first, hp.second]
      rfl
    · intro p r rs done hp
      refine ⟨?_, inPass_mergeBlocks hc hp⟩
      have hr : mark r ≠ [] := mark_eq_nil.not.mpr (hp.ne r List.mem_cons_self)
      rw [QueuePass.more, hp.count, hp.firsts.1]
      simp [hr]
  obtain ⟨p, hp, hend⟩ := hloop
  have hwritten := hend.written
  have hroom := hend.room
  rw [List.flatten_nil, List.length_nil, Nat.zero_add, List.nil_append] at hroom
  refine ⟨_, returns_bind.mpr ⟨p, hp, yields_pure.mpr rfl⟩, ?_, ?_, ?_, ?_, hroom, ?_⟩
  · simp only [Function.update_self]
    exact hwritten.first
  · simp only [Function.update_self]
    exact hwritten.second
  · intro side
    simp only [Function.update_self]
    exact hend.outputCount side
  · exact hc.pairUp_ne_nil h.ne
  · intro hsource side
    have hfirst : s.source = false := by simpa using hsource
    simp only [hfirst, Bool.not_false, Function.update_of_ne Bool.false_ne_true, Function.update_self]
    cases side with
    | false => exact memoryStruct_eq hend.first (hend.count false)
    | true => exact memoryStruct_eq hend.second (hend.count true)

theorem sortQueues_returns (hc : Sorter compare verdict Good Keeps) {h : Zsort α} {room : ℕ}
    {runs : List (List α)} (hat : AtPass room ⟨h.queue, h.empty, false⟩ runs)
    (hs : ∀ r ∈ runs, Good r) :
    ∃ queue empty n out,
      (sortQueues compare h).Returns ({ h with queue := queue, empty := empty }, n)
      ∧ Keeps out runs.flatten ∧ Good out ∧ (queue n false).first = mark out
      ∧ empty + out.length = room
      ∧ ∀ side, (n, false) ≠ (false, side) → queue false side = ⟨[], 0⟩ := by
  have hloop : ∃ s runs', (loop (fun s : Queues α => (s.queue s.source true).count != 0)
      (Queues.pass compare) ⟨h.queue, h.empty, false⟩).Returns s
      ∧ AtPass room s runs' ∧ runs'.length ≤ 1 ∧ Keeps runs'.flatten runs.flatten
      ∧ ∀ r ∈ runs', Good r :=
    loop_passes (R := AtPass room) hc.toMerging Nat.one_pos (fun s runs h => h.more_iff)
      (fun s runs h _ => atPass_pass hc h) hat hs
  obtain ⟨s, runs', hs, hend, hle, hkeeps, hgood⟩ := hloop
  refine ⟨s.queue, s.empty, s.source, runs'.flatten, returns_bind.mpr ⟨s, hs, yields_pure.mpr rfl⟩,
    hkeeps, hc.good_flatten hle hgood, ?_, hend.room, ?_⟩
  · rw [hend.first, deal_of_length_le_one (by rwa [List.length_map])]
    match runs', hle with
    | [], _ => rfl
    | [r], _ => simp
  · intro side hside
    cases hsource : s.source with
    | true => exact hend.idle hsource side
    | false =>
      rw [hsource] at hside
      obtain rfl : side = true := by simpa using hside
      have hsecond := hend.second
      have hcount := hend.count true
      rw [hsource] at hsecond hcount
      refine memoryStruct_eq (hsecond.trans ?_) hcount
      match runs', hle with
      | [], _ => rfl
      | [r], _ => rfl

end

end Queues

section Files

def block (run : List α) : List (Mark α) := run.map .item ++ [.endOfBlock]

def Reading (f : FileStruct α) (run : List α) (rest : List (Mark α)) : Prop :=
  match run with
  | [] => f.endOfBlock = true ∧ f.ahead = rest
  | x :: xs => f.endOfBlock = false ∧ f.item = some x ∧ f.ahead = block xs ++ rest

section

variable {f : FileStruct α} {run : List α} {rest : List (Mark α)}

lemma Reading.endOfBlock (h : Reading f run rest) : f.endOfBlock = run.isEmpty := by
  cases run with
  | nil => exact h.1
  | cons x run => exact h.1

lemma readItem_block (h : f.ahead = block run ++ rest) :
    ∃ g, f.readItem = .ok g ∧ Reading g run rest ∧ g.count = f.count := by
  cases run with
  | nil =>
    have hahead : f.ahead = .endOfBlock :: rest := h
    refine ⟨⟨f.behind ++ [.endOfBlock], rest, f.count, f.item, true⟩, ?_, ⟨rfl, rfl⟩, rfl⟩
    rw [FileStruct.readItem, hahead]
  | cons x run =>
    have hahead : f.ahead = .item x :: (block run ++ rest) := h
    refine ⟨⟨f.behind ++ [.item x], block run ++ rest, f.count, some x, false⟩, ?_,
      ⟨rfl, rfl, rfl⟩, rfl⟩
    rw [FileStruct.readItem, hahead]

end

section

variable {source : Bool → FileStruct α} {run : Bool → List α} {rest : Bool → List (Mark α)}

lemma readItem_advance (h : ∀ side, Reading (source side) (run side) (rest side)) {side : Bool}
    {x : α} {xs : List α} (hrun : run side = x :: xs) : ∃ f, (source side).readItem = .ok f
      ∧ (∀ side', Reading (Function.update source side f side') (Function.update run side xs side')
        (rest side'))
      ∧ ∀ side', (Function.update source side f side').count = (source side').count := by
  have hside := h side
  rw [hrun] at hside
  obtain ⟨f, hf, hreading, hcount⟩ := readItem_block hside.2.2
  refine ⟨f, hf, fun side' => ?_, fun side' => ?_⟩
  · by_cases heq : side' = side
    · subst heq
      simpa only [Function.update_self] using hreading
    · simpa only [Function.update_of_ne heq] using h side'
  · by_cases heq : side' = side
    · subst heq
      rw [Function.update_self, hcount]
    · rw [Function.update_of_ne heq]

lemma takeItem_returns {start : Bool → FileStruct α}
    (h : ∀ side, Reading (source side) (run side) (rest side)) {side : Bool}
    {x : α} {xs : List α} (hchoose : chooseFile compare start = .ok (source, side))
    (hrun : run side = x :: xs) : ∃ source', takeItem compare start = .ok (source', x)
      ∧ (∀ side', Reading (source' side') (Function.update run side xs side') (rest side'))
      ∧ ∀ side', (source' side').count = (source side').count := by
  obtain ⟨f, hf, hreading, hcount⟩ := readItem_advance h hrun
  refine ⟨Function.update source side f, ?_, hreading, hcount⟩
  have hside := h side
  rw [hrun] at hside
  have hitem : (source side).item = some x := hside.2.1
  rw [takeItem, hchoose]
  simp only [Bind.bind, Except.bind, hitem, hf]

lemma chooseFile_right (compare : α → α → ℤ)
    (h : ∀ side, Reading (source side) (run side) (rest side))
    (h0 : run false = []) : chooseFile compare source = .ok (source, true) := by
  rw [chooseFile, (h false).endOfBlock, h0]
  rfl

lemma chooseFile_left (compare : α → α → ℤ)
    (h : ∀ side, Reading (source side) (run side) (rest side)) {x : α}
    {xs : List α} (h0 : run false = x :: xs) (h1 : run true = []) :
    chooseFile compare source = .ok (source, false) := by
  rw [chooseFile, (h false).endOfBlock, (h true).endOfBlock, h0, h1]
  rfl

lemma chooseFile_both (hc : Sorter compare verdict Good Keeps)
    (h : ∀ side, Reading (source side) (run side) (rest side))
    {x y : α} {xs ys : List α} (h0 : run false = x :: xs) (h1 : run true = y :: ys) :
    ∃ start, (∀ side, (start side).count = (source side).count) ∧ match verdict x y with
      | .left => chooseFile compare source = .ok (start, false)
        ∧ ∀ side, Reading (start side) (run side) (rest side)
      | .right => chooseFile compare source = .ok (start, true)
        ∧ ∀ side, Reading (start side) (run side) (rest side)
      | .drop => chooseFile compare source = .ok (start, false)
        ∧ ∀ side, Reading (start side) (Function.update run true ys side) (rest side) := by
  have hx := h false
  have hy := h true
  rw [h0] at hx
  rw [h1] at hy
  rw [chooseFile, hx.1, hy.1, hx.2.1, hy.2.1]
  cases hverdict : verdict x y with
  | left =>
    obtain ⟨hreserved, hlt⟩ := hc.left hverdict
    obtain ⟨habort, hp, hq⟩ := not_or.mp hreserved |>.imp_right not_or.mp
    refine ⟨source, fun _ => rfl, ?_, h⟩
    simp [habort, hp, hq, hlt]
  | right =>
    obtain ⟨hreserved, hlt⟩ := hc.right hverdict
    obtain ⟨habort, hp, hq⟩ := not_or.mp hreserved |>.imp_right not_or.mp
    refine ⟨source, fun _ => rfl, ?_, h⟩
    simp [habort, hp, hq, hlt]
  | drop =>
    obtain ⟨f, hf, hreading, hcount⟩ := readItem_advance h h1
    refine ⟨Function.update source true f, hcount, ?_, hreading⟩
    simp [hc.drop hverdict, zcompAbort, zcompDupP, hf, Bind.bind, Except.bind]

def Merges (verdict : α → α → Verdict) (rest : Bool → List (Mark α)) (source : Bool → FileStruct α)
    (out : List α) : Prop :=
  ∃ run : Bool → List α, (∀ side, Reading (source side) (run side) (rest side))
    ∧ mergeRuns verdict (run false) (run true) = out

lemma Merges.ended_iff {out : List α} (h : Merges verdict rest source out) :
    ((source false).endOfBlock && (source true).endOfBlock) = true ↔ out = [] := by
  obtain ⟨run, hreading, rfl⟩ := h
  rw [(hreading false).endOfBlock, (hreading true).endOfBlock, mergeRuns_eq_nil_iff]
  simp

lemma Merges.takeItem (hc : Sorter compare verdict Good Keeps) {x : α} {out : List α}
    (h : Merges verdict rest source (x :: out)) :
    ∃ source', takeItem compare source = .ok (source', x) ∧ Merges verdict rest source' out
      ∧ ∀ side, (source' side).count = (source side).count := by
  obtain ⟨run, hreading, hmerge⟩ := h
  cases h0 : run false with
  | nil =>
    rw [h0, mergeRuns] at hmerge
    obtain ⟨source', htake, hreading', hcount⟩ :=
      takeItem_returns hreading (chooseFile_right compare hreading h0) hmerge
    refine ⟨source', htake, ⟨_, hreading', ?_⟩, hcount⟩
    rw [Function.update_self, Function.update_of_ne Bool.false_ne_true, h0, mergeRuns]
  | cons y ys =>
    cases h1 : run true with
    | nil =>
      rw [h0, h1, mergeRuns_nil] at hmerge
      obtain ⟨rfl, rfl⟩ := List.cons.inj hmerge
      obtain ⟨source', htake, hreading', hcount⟩ :=
        takeItem_returns hreading (chooseFile_left compare hreading h0 h1) h0
      refine ⟨source', htake, ⟨_, hreading', ?_⟩, hcount⟩
      rw [Function.update_self, Function.update_of_ne Bool.false_ne_true.symm, h1, mergeRuns_nil]
    | cons z zs =>
      rw [h0, h1, mergeRuns] at hmerge
      obtain ⟨start, hstart, hchoose⟩ := chooseFile_both hc hreading h0 h1
      cases hverdict : verdict y z with
      | left =>
        rw [hverdict] at hmerge hchoose
        obtain ⟨rfl, rfl⟩ := List.cons.inj hmerge
        obtain ⟨source', htake, hreading', hcount⟩ := takeItem_returns hchoose.2 hchoose.1 h0
        refine ⟨source', htake, ⟨_, hreading', ?_⟩, fun side => (hcount side).trans (hstart side)⟩
        rw [Function.update_self, Function.update_of_ne Bool.false_ne_true.symm, h1]
      | right =>
        rw [hverdict] at hmerge hchoose
        obtain ⟨rfl, rfl⟩ := List.cons.inj hmerge
        obtain ⟨source', htake, hreading', hcount⟩ := takeItem_returns hchoose.2 hchoose.1 h1
        refine ⟨source', htake, ⟨_, hreading', ?_⟩, fun side => (hcount side).trans (hstart side)⟩
        rw [Function.update_self, Function.update_of_ne Bool.false_ne_true, h0]
      | drop =>
        rw [hverdict] at hmerge hchoose
        obtain ⟨rfl, rfl⟩ := List.cons.inj hmerge
        have hleft : Function.update run true zs false = y :: ys := by
          rw [Function.update_of_ne Bool.false_ne_true, h0]
        obtain ⟨source', htake, hreading', hcount⟩ := takeItem_returns hchoose.2 hchoose.1 hleft
        refine ⟨source', htake, ⟨_, hreading', ?_⟩, fun side => (hcount side).trans (hstart side)⟩
        rw [Function.update_self, Function.update_of_ne Bool.false_ne_true.symm,
          Function.update_self]

end

structure AtItems (verdict : α → α → Verdict) (rest : Bool → List (Mark α)) (count : Bool → ℕ)
    (before : List (Mark α)) (total : ℕ) (s : FileMerge α) (out o : List α) : Prop where
  merges : Merges verdict rest s.source out
  count : ∀ side, (s.source side).count = count side
  output : s.destination.behind = before ++ o.map .item
  outputCount : s.destination.count = total

section

variable {rest : Bool → List (Mark α)} {count : Bool → ℕ} {before : List (Mark α)} {total : ℕ}
  {s : FileMerge α}

lemma AtItems.more_iff {out o : List α} (h : AtItems verdict rest count before total s out o) :
    s.more = true ↔ out ≠ [] := by
  rw [FileMerge.more, ← Bool.not_and, Bool.not_eq_true', ← Bool.not_eq_true]
  exact h.merges.ended_iff.not

lemma AtItems.step (hc : Sorter compare verdict Good Keeps) {x : α} {out o : List α}
    (h : AtItems verdict rest count before total s (x :: out) o) :
    ∃ t, (Comp.ofExcept (s.step compare)).Returns t
      ∧ AtItems verdict rest count before total t out (o ++ [x]) := by
  obtain ⟨source', htake, hmerges, hcount⟩ := h.merges.takeItem hc
  refine ⟨⟨source', s.destination.write (.item x)⟩, yields_ofExcept.mpr ?_, hmerges,
    fun side => (hcount side).trans (h.count side), ?_, h.outputCount⟩
  · rw [FileMerge.step, htake]
    rfl
  · rw [FileStruct.write, h.output]
    simp

theorem mergeFileRuns_returns (hc : Sorter compare verdict Good Keeps) {out o : List α}
    (h : AtItems verdict rest count before total s out o) :
    ∃ t, (loop FileMerge.more (fun m => Comp.ofExcept (m.step compare)) s).Returns t
      ∧ AtItems verdict rest count before total t [] (o ++ out) := by
  induction out generalizing s o with
  | nil =>
    refine ⟨s, loop_end (Bool.eq_false_iff.mpr fun hmore => h.more_iff.mp hmore rfl), ?_⟩
    rwa [List.append_nil]
  | cons x out ih =>
    obtain ⟨t, ht, hat⟩ := h.step hc
    obtain ⟨u, hu, hend⟩ := ih hat
    refine ⟨u, loop_step (h.more_iff.mpr (List.cons_ne_nil x out)) ht hu, ?_⟩
    rwa [List.append_assoc] at hend

end

structure OnFiles (file : Bool → FileStruct α) (destination : Bool) (runs : List (List α)) :
    Prop where
  written : Written (FileStruct.behind ∘ file) destination (runs.map block)
  first : (file false).count = (runs.length + 1) / 2
  second : (file true).count = runs.length / 2

lemma onFiles_nil {file : Bool → FileStruct α} (hbehind : ∀ side, (file side).behind = [])
    (hcount : ∀ side, (file side).count = 0) : OnFiles file false [] := by
  refine ⟨⟨hbehind false, hbehind true, rfl⟩, ?_, ?_⟩
  · rw [hcount, List.length_nil]
  · rw [hcount, List.length_nil]

lemma OnFiles.put {file : Bool → FileStruct α} {destination : Bool} {runs : List (List α)}
    (h : OnFiles file destination runs) {f : FileStruct α} {run : List α}
    (hbehind : f.behind = (file destination).behind ++ block run)
    (hcount : f.count = (file destination).count + 1) :
    OnFiles (Function.update file destination f) (!destination) (runs ++ [run]) := by
  obtain ⟨hwritten, hfirst, hsecond⟩ := h
  have hnext := hwritten.next
  rw [List.length_map] at hnext
  refine ⟨?_, ?_, ?_⟩
  · rw [Function.comp_update, List.map_append, hbehind]
    exact hwritten.put _
  · rw [List.length_append, List.length_singleton]
    cases destination with
    | false =>
      have heven : ¬ runs.length % 2 = 1 := of_decide_eq_false hnext.symm
      rw [Function.update_self, hcount, hfirst]
      omega
    | true =>
      have hodd : runs.length % 2 = 1 := of_decide_eq_true hnext.symm
      rw [Function.update_of_ne Bool.false_ne_true, hfirst]
      omega
  · rw [List.length_append, List.length_singleton]
    cases destination with
    | false =>
      have heven : ¬ runs.length % 2 = 1 := of_decide_eq_false hnext.symm
      rw [Function.update_of_ne Bool.false_ne_true.symm, hsecond]
      omega
    | true =>
      have hodd : runs.length % 2 = 1 := of_decide_eq_true hnext.symm
      rw [Function.update_self, hcount, hsecond]
      omega

-- A file may be longer than what the counts say, from an earlier pass.
structure InFilePass (s : FilePass α) (rs done : List (List α)) : Prop where
  first : (deal (rs.map block)).1.flatten <+: (s.source false).ahead
  second : (deal (rs.map block)).2.flatten <+: (s.source true).ahead
  firstCount : (s.source false).count = (rs.length + 1) / 2
  secondCount : rs ≠ [] → (s.source true).count = rs.length / 2
  output : OnFiles s.output s.destination done

section

variable {s : FilePass α} {r : List α} {rs done : List (List α)}

lemma InFilePass.readFirst (h : InFilePass s (r :: rs) done) :
    ∃ rest f, (s.source false).readItem = .ok f ∧ Reading f r rest
      ∧ f.count = (s.source false).count ∧ (deal (rs.tail.map block)).1.flatten <+: rest := by
  obtain ⟨stale, hstale⟩ := h.first
  rw [List.map_cons, (deal_cons _ _).1, ← List.map_tail, List.append_assoc] at hstale
  obtain ⟨f, hf, hreading, hcount⟩ := readItem_block hstale.symm
  exact ⟨_, f, hf, hreading, hcount, List.prefix_append _ _⟩

lemma InFilePass.readSecond (h : InFilePass s (r :: rs) done) :
    ∃ rest f, (if 0 < (s.source true).count then (s.source true).readItem
        else .ok { s.source true with endOfBlock := true }) = .ok f
      ∧ Reading f (rs.headD []) rest ∧ f.count = (s.source true).count
      ∧ (deal (rs.tail.map block)).2.flatten <+: rest := by
  have hcount := h.secondCount (List.cons_ne_nil r rs)
  cases rs with
  | nil =>
    rw [hcount, if_neg (by simp)]
    exact ⟨_, _, rfl, ⟨rfl, rfl⟩, hcount, List.nil_prefix⟩
  | cons r' rs =>
    obtain ⟨stale, hstale⟩ := h.second
    rw [List.map_cons, (deal_cons _ _).2, List.map_cons, List.headD_cons, List.tail_cons,
      List.append_assoc] at hstale
    obtain ⟨f, hf, hreading, hcount'⟩ := readItem_block hstale.symm
    rw [if_pos (by rw [hcount, List.length_cons, List.length_cons]; omega)]
    exact ⟨_, f, hf, hreading, hcount', List.prefix_append _ _⟩

lemma inFilePass_mergeBlocks (hc : Sorter compare verdict Good Keeps) (h : InFilePass s (r :: rs) done) :
    ∃ t, (s.mergeBlocks compare).Returns t
      ∧ InFilePass t rs.tail (done ++ [mergeRuns verdict r (rs.headD [])]) := by
  obtain ⟨rest0, f0, hf0, hreading0, hcount0, hrest0⟩ := h.readFirst
  obtain ⟨rest1, f1, hf1, hreading1, hcount1, hrest1⟩ := h.readSecond
  have hstart : AtItems verdict (sides rest0 rest1) (fun side => (s.source side).count)
      (s.output s.destination).behind (s.output s.destination).count
      ⟨fun side => if side then f1 else f0, s.output s.destination⟩
      (mergeRuns verdict r (rs.headD [])) [] := by
    refine ⟨⟨sides r (rs.headD []), ?_, rfl⟩, ?_, by simp, rfl⟩
    · intro side
      cases side with
      | false => exact hreading0
      | true => exact hreading1
    · intro side
      cases side with
      | false => exact hcount0
      | true => exact hcount1
  obtain ⟨m, hm, hend⟩ := mergeFileRuns_returns hc hstart
  obtain ⟨run, hreading, hmerge⟩ := hend.merges
  obtain ⟨hrun0, hrun1⟩ := mergeRuns_eq_nil_iff.mp hmerge
  have hahead0 := hreading false
  have hahead1 := hreading true
  rw [hrun0] at hahead0
  rw [hrun1] at hahead1
  refine ⟨_, returns_bind.mpr ⟨f0, yields_ofExcept.mpr hf0.symm, returns_bind.mpr ⟨f1,
    yields_ofExcept.mpr hf1.symm, returns_bind.mpr ⟨m, hm, yields_pure.mpr rfl⟩⟩⟩, ?_, ?_, ?_, ?_,
    ?_⟩
  · exact hahead0.2 ▸ hrest0
  · exact hahead1.2 ▸ hrest1
  · simp only [hend.count, h.firstCount, decrement, List.length_cons, List.length_tail]
    split <;> omega
  · intro hne
    have hpos : 0 < rs.tail.length := List.length_pos_iff.mpr hne
    rw [List.length_tail] at hpos
    simp only [hend.count, h.secondCount (List.cons_ne_nil r rs), decrement, List.length_cons,
      List.length_tail]
    split <;> omega
  · refine h.output.put ?_ (congrArg (· + 1) hend.outputCount)
    simp only [FileStruct.write, hend.output, List.append_assoc]
    rfl

end

structure AtFilePass (s : Files α) (runs : List (List α)) : Prop where
  two_le : 2 ≤ runs.length
  first : (deal (runs.map block)).1.flatten <+: (s.file s.source false).ahead
  second : (deal (runs.map block)).2.flatten <+: (s.file s.source true).ahead
  firstCount : (s.file s.source false).count = (runs.length + 1) / 2
  secondCount : (s.file s.source true).count = runs.length / 2
  behind : ∀ pair side, (s.file pair side).behind = []

lemma atFilePass_pass (hc : Sorter compare verdict Good Keeps) {s : Files α} {runs : List (List α)}
    (h : AtFilePass s runs) (hlt : 2 < runs.length) :
    ∃ t, (s.pass compare).Returns t ∧ AtFilePass t (pairUp (mergeRuns verdict) runs) := by
  have hloop : ∃ p, (loop FilePass.more (FilePass.mergeBlocks compare)
      ⟨s.file s.source, fun side => { s.file (!s.source) side with count := 0 }, false⟩).Returns p
      ∧ InFilePass p [] ([] ++ pairUp (mergeRuns verdict) runs) := by
    refine loop_pairs hc.merge_nil (R := InFilePass) ?_ ?_ ⟨h.first, h.second, h.firstCount,
      fun _ => h.secondCount, onFiles_nil (h.behind _) fun _ => rfl⟩
    · intro p done hp
      rw [FilePass.more, hp.firstCount, List.length_nil]
      decide
    · intro p r rs done hp
      refine ⟨?_, inFilePass_mergeBlocks hc hp⟩
      rw [FilePass.more, hp.firstCount, List.length_cons, decide_eq_true_iff]
      omega
  obtain ⟨p, hp, hend⟩ := hloop
  obtain ⟨hwritten, hfirst, hsecond⟩ := hend.output
  refine ⟨_, returns_bind.mpr ⟨p, hp, yields_pure.mpr rfl⟩, ?_, ?_, ?_, ?_, ?_, fun _ _ => rfl⟩
  · rw [pairUp_length]
    omega
  · simp only [Function.update_self, FileStruct.rewind]
    exact ⟨_, congrArg (· ++ (p.output false).ahead) hwritten.first.symm⟩
  · simp only [Function.update_self, FileStruct.rewind]
    exact ⟨_, congrArg (· ++ (p.output true).ahead) hwritten.second.symm⟩
  · simp only [Function.update_self, FileStruct.rewind]
    exact hfirst
  · simp only [Function.update_self, FileStruct.rewind]
    exact hsecond

theorem mergeFiles_returns (hc : Sorter compare verdict Good Keeps) {file : Bool → Bool → FileStruct α}
    {runs : List (List α)} (h : AtFilePass ⟨file, false⟩ runs) (hs : ∀ r ∈ runs, Good r) :
    ∃ s r r', (mergeFiles compare file).Returns s ∧ AtFilePass s [r, r']
      ∧ Keeps (r ++ r') runs.flatten ∧ Good r ∧ Good r' := by
  have hloop : ∃ s runs', (mergeFiles compare file).Returns s ∧ AtFilePass s runs'
      ∧ runs'.length ≤ 2 ∧ Keeps runs'.flatten runs.flatten ∧ ∀ r ∈ runs', Good r := by
    refine loop_passes (R := AtFilePass) hc.toMerging Nat.two_pos (fun s runs h => ?_)
      (fun s runs h hlt => atFilePass_pass hc h hlt) h hs
    rw [decide_eq_true_iff, h.firstCount]
    omega
  obtain ⟨s, runs', hret, hend, hle, hkeeps, hgood⟩ := hloop
  match runs', hend.two_le, hle, hend, hkeeps, hgood with
  | [r, r'], _, _, hend, hkeeps, hgood =>
    rw [List.flatten_cons, List.flatten_singleton] at hkeeps
    exact ⟨s, r, r', hret, hend, hkeeps, hgood r (by simp), hgood r' (by simp)⟩

end Files

section Submission

structure Queued (h : Zsort α) (q : Bool → List α) : Prop where
  queue : ∀ side, h.queue false side = ⟨(q side).map fun x => ⟨x, true⟩, (q side).length⟩
  shorter : (q true).length ≤ (q false).length
  longer : (q false).length ≤ (q true).length + 1

variable {h : Zsort α} {q : Bool → List α}

lemma Queued.atPass (hc : Sorter compare verdict Good Keeps) (hq : Queued h q) :
    ∃ runs, AtPass (h.empty + ((q false).length + (q true).length)) ⟨h.queue, h.empty, false⟩ runs
      ∧ (∀ r ∈ runs, Good r) ∧ runs.flatten.Perm (q false ++ q true) := by
  obtain ⟨xs, hxs⟩ := exists_deal hq.shorter hq.longer
  have hdeal : deal ((xs.map fun x => [x]).map mark)
      = (((q false).map fun x => [x]).map mark, ((q true).map fun x => [x]).map mark) := by
    rw [deal_map, deal_map, hxs]
  have hperm : (xs.map fun x => [x]).flatten.Perm (q false ++ q true) := by
    have hdealt := deal_perm xs
    rw [hxs] at hdealt
    rw [flatten_singletons]
    exact hdealt.symm
  refine ⟨xs.map fun x => [x], ⟨?_, ?_, ?_, by simp, ?_, fun hfalse => absurd hfalse (by simp)⟩, ?_,
    hperm⟩
  · rw [hdeal, mark_singletons]
    exact congrArg MemoryStruct.first (hq.queue false)
  · rw [hdeal, mark_singletons]
    exact congrArg MemoryStruct.first (hq.queue true)
  · intro side
    simp only [hq.queue, List.length_map]
  · rw [hperm.length_eq, List.length_append]
  · intro r hr
    obtain ⟨x, -, rfl⟩ := List.mem_map.mp hr
    exact hc.good_singleton x

lemma foldl_write (items : List (Item α)) (f : FileStruct α) :
    (items.foldl (fun f q => f.write (.item q.item)) f).behind
        = f.behind ++ items.map (fun q => .item q.item)
      ∧ (items.foldl (fun f q => f.write (.item q.item)) f).count = f.count := by
  induction items generalizing f with
  | nil => exact ⟨(List.append_nil _).symm, rfl⟩
  | cons q items ih =>
    obtain ⟨hbehind, hcount⟩ := ih (f.write (.item q.item))
    refine ⟨hbehind.trans ?_, hcount⟩
    rw [FileStruct.write, List.append_assoc]
    rfl

lemma writeBlock_onFiles {n : Bool} {run : List α} {blocks : List (List α)}
    (hf : OnFiles (h.file false) h.destinationFile blocks)
    (hrun : (h.queue n false).first = mark run) :
    OnFiles ((h.writeBlock n).file false) (!h.destinationFile) (blocks ++ [run]) := by
  obtain ⟨hbehind, hcount⟩ := foldl_write (mark run) (h.file false h.destinationFile)
  have hitems : (mark run).map (fun q => Mark.item q.item) = run.map Mark.item :=
    calc (mark run).map (fun q => Mark.item q.item)
      _ = ((mark run).map (·.item)).map Mark.item := List.map_map.symm
      _ = run.map Mark.item := by rw [mark_item]
  simp only [Zsort.writeBlock, hrun, Function.update_self]
  refine hf.put ?_ (congrArg (· + 1) hcount)
  rw [FileStruct.write, hbehind, hitems, List.append_assoc]
  rfl

lemma sortQueues_writeBlock (hc : Sorter compare verdict Good Keeps) (hq : Queued h q)
    {blocks : List (List α)} (hf : OnFiles (h.file false) h.destinationFile blocks) :
    ∃ t n out, (sortQueues compare h).Returns (t, n) ∧ Keeps out (q false ++ q true)
      ∧ Good out ∧ OnFiles ((t.writeBlock n).file false) (!t.destinationFile) (blocks ++ [out])
      ∧ (∀ side, (t.writeBlock n).queue false side = ⟨[], 0⟩)
      ∧ (t.writeBlock n).empty = h.empty + ((q false).length + (q true).length)
      ∧ t.memory = h.memory ∧ t.filesUsed = h.filesUsed ∧ t.retrieving = h.retrieving := by
  obtain ⟨runs, hat, hs, hruns⟩ := hq.atPass hc
  obtain ⟨queue, empty, n, out, hret, hkeeps, hgood, hrun, hroom, hidle⟩ :=
    sortQueues_returns hc hat hs
  refine ⟨_, n, out, hret, hc.keeps_trans hkeeps (hc.keeps_of_perm hruns), hgood,
    writeBlock_onFiles hf hrun, ?_, ?_, rfl, rfl, rfl⟩
  · intro side
    simp only [Zsort.writeBlock]
    by_cases hn : (n, false) = (false, side)
    · obtain ⟨rfl, rfl⟩ := Prod.mk.inj hn
      rw [Function.update_self, Function.update_self]
    · cases n with
      | true =>
        rw [Function.update_of_ne Bool.false_ne_true]
        exact hidle side hn
      | false =>
        rw [Function.update_self, Function.update_of_ne fun heq => hn (by rw [heq])]
        exact hidle side hn
  · simp only [Zsort.writeBlock, hrun, mark_length]
    exact hroom

structure Filling (Good : List α → Prop) (h : Zsort α) (q : Bool → List α) (blocks : List (List α)) :
    Prop where
  retrieving : h.retrieving = false
  memory : 4 ≤ h.memory
  queued : Queued h q
  filesUsed : h.filesUsed = !blocks.isEmpty
  onFiles : blocks ≠ [] → OnFiles (h.file false) h.destinationFile blocks
  room : blocks ≠ [] → h.memory ≤ h.empty + ((q false).length + (q true).length)
  good : ∀ b ∈ blocks, Good b

variable {blocks : List (List α)}

lemma zsortOpen_filling (memory : ℕ) : Filling Good (zsortOpen memory : Zsort α) (fun _ => []) [] := by
  refine ⟨rfl, ?_, ⟨fun _ => rfl, le_rfl, Nat.zero_le _⟩, rfl, fun h => absurd rfl h,
    fun h => absurd rfl h, by simp⟩
  simp only [zsortOpen]
  split <;> omega

lemma Queued.putItem (hq : Queued h q) (p : α) : ∃ side, Queued (h.putItem p)
    (Function.update q side (p :: q side))
      ∧ (Function.update q side (p :: q side) false ++ Function.update q side (p :: q side) true).Perm
        (p :: (q false ++ q true)) := by
  have hcount : ∀ side, (h.queue false side).count = (q side).length := fun side => by
    rw [hq.queue]
  have hle := hq.shorter
  have hlt := hq.longer
  refine ⟨decide (¬ (q false).length ≤ (q true).length), ⟨?_, ?_, ?_⟩, ?_⟩
  · intro side
    simp only [Zsort.putItem, Function.update_self, hcount]
    by_cases hside : side = decide (¬ (q false).length ≤ (q true).length)
    · rw [← hside, Function.update_self, Function.update_self, hq.queue]
      rfl
    · rw [Function.update_of_ne hside, Function.update_of_ne hside, hq.queue]
  · by_cases hshort : (q false).length ≤ (q true).length
    · simp [hshort, hle.trans (Nat.le_succ _)]
    · simp [hshort]
      omega
  · by_cases hshort : (q false).length ≤ (q true).length
    · simp [hshort]
    · simp [hshort]
      omega
  · by_cases hshort : (q false).length ≤ (q true).length
    · simp [hshort]
    · simp only [hshort, not_false_eq_true, decide_true, Function.update_self,
        Function.update_of_ne Bool.false_ne_true]
      exact List.perm_middle

lemma Filling.putItem (hf : Filling Good h q blocks) (p : α) : ∃ q', Filling Good (h.putItem p) q' blocks
    ∧ (q' false ++ q' true).Perm (p :: (q false ++ q true)) := by
  obtain ⟨side, hq, hperm⟩ := hf.queued.putItem p
  refine ⟨_, ⟨hf.retrieving, hf.memory, hq, hf.filesUsed, hf.onFiles, fun hne => ?_, hf.good⟩,
    hperm⟩
  have hroom := hf.room hne
  have hlen := hperm.length_eq
  simp only [List.length_append, List.length_cons] at hlen
  rw [hlen]
  simp only [Zsort.putItem]
  omega

def Zsort.opened (h : Zsort α) : Zsort α := if h.filesUsed then h else h.openFiles

lemma Filling.opened (hf : Filling Good h q blocks) : Queued h.opened q
    ∧ OnFiles (h.opened.file false) h.opened.destinationFile blocks
    ∧ h.opened.filesUsed = true ∧ h.opened.memory = h.memory ∧ h.opened.empty = h.empty
    ∧ h.opened.retrieving = false := by
  have hused := hf.filesUsed
  have hq := hf.queued
  cases blocks with
  | nil =>
    have hopened : h.opened = h.openFiles := by
      rw [Zsort.opened, hused]
      rfl
    rw [hopened]
    refine ⟨⟨hq.queue, hq.shorter, hq.longer⟩, ?_, rfl, rfl, rfl, hf.retrieving⟩
    simp only [Zsort.openFiles, Function.update_self]
    exact onFiles_nil (fun _ => rfl) fun _ => rfl
  | cons b blocks =>
    have hopened : h.opened = h := by
      rw [Zsort.opened, hused]
      rfl
    rw [hopened]
    exact ⟨hq, hf.onFiles (List.cons_ne_nil b blocks), hused, rfl, rfl, hf.retrieving⟩

theorem zsortSubmit_returns (hc : Sorter compare verdict Good Keeps) (hf : Filling Good h q blocks) (p : α) :
    ∃ t q' blocks', (zsortSubmit compare h p).Returns t ∧ Filling Good t q' blocks'
      ∧ Keeps (blocks'.flatten ++ (q' false ++ q' true))
        (p :: (blocks.flatten ++ (q false ++ q true))) := by
  have hcount : (h.queue false false).count + (h.queue false true).count
      = (q false).length + (q true).length := by
    rw [hf.queued.queue, hf.queued.queue]
  by_cases hfull : h.memory ≤ (q false).length + (q true).length
  · -- the queues are written to a file first
    obtain ⟨hq, hfiles, hused, hmemory, hempty, hretrieving⟩ := hf.opened
    obtain ⟨t, n, out, hret, hout, hgood, honfiles, hqueue, htempty, htmemory, htused, htretr⟩ :=
      sortQueues_writeBlock hc hq hfiles
    have hwritten : Filling Good { t.writeBlock n with destinationFile := !t.destinationFile }
        (fun _ => []) (blocks ++ [out]) := by
      refine ⟨htretr.trans hretrieving, ?_, ⟨hqueue, le_rfl, Nat.zero_le _⟩, ?_, fun _ => honfiles,
        fun _ => ?_, ?_⟩
      · exact hf.memory.trans_eq (htmemory.trans hmemory).symm
      · exact (htused.trans hused).trans (by simp)
      · exact ((htmemory.trans hmemory).trans_le hfull).trans
          (htempty.ge.trans' (Nat.le_add_left _ _))
      · rw [List.forall_mem_append, List.forall_mem_singleton]
        exact ⟨hf.good, hgood⟩
    obtain ⟨q', hq', hperm⟩ := hwritten.putItem p
    refine ⟨_, q', blocks ++ [out], ?_, hq', ?_⟩
    · simp only [zsortSubmit, hf.retrieving, Bool.false_eq_true, if_false, hcount, hfull, if_true]
      exact returns_bind.mpr ⟨(t, n), hret, yields_pure.mpr rfl⟩
    · rw [List.flatten_append, List.flatten_singleton, List.append_assoc]
      rw [List.nil_append] at hperm
      have hcons : (blocks.flatten ++ (out ++ (q' false ++ q' true))).Perm
          (p :: (blocks.flatten ++ out)) := by
        refine ((hperm.append_left out).append_left _).trans ?_
        refine (List.perm_middle.append_left _).trans (List.perm_middle.trans (.cons p ?_))
        rw [List.append_nil]
      have hkept : Keeps (p :: (blocks.flatten ++ out)) (p :: (blocks.flatten ++ (q false ++ q true))) :=
        hc.keeps_append (r := p :: blocks.flatten) (hc.keeps_of_perm (.refl _)) hout
      exact hc.keeps_trans (hc.keeps_of_perm hcons) hkept
  · obtain ⟨q', hq', hperm⟩ := hf.putItem p
    refine ⟨h.putItem p, q', blocks, ?_, hq', ?_⟩
    · simp only [zsortSubmit, hf.retrieving, Bool.false_eq_true, if_false, hcount, hfull]
      exact yields_pure.mpr rfl
    · exact hc.keeps_of_perm ((hperm.append_left _).trans List.perm_middle)

theorem submissions_return (hc : Sorter compare verdict Good Keeps) (hf : Filling Good h q blocks)
    (records : List α) :
    ∃ t q' blocks', (records.foldlM (zsortSubmit compare) h).Returns t ∧ Filling Good t q' blocks'
      ∧ Keeps (blocks'.flatten ++ (q' false ++ q' true))
        (records ++ (blocks.flatten ++ (q false ++ q true))) := by
  induction records generalizing h q blocks with
  | nil => exact ⟨h, q, blocks, yields_pure.mpr rfl, hf, hc.keeps_of_perm (.refl _)⟩
  | cons p records ih =>
    obtain ⟨t, q', blocks', ht, hf', hkeeps⟩ := zsortSubmit_returns hc hf p
    obtain ⟨u, q'', blocks'', hu, hf'', hkeeps'⟩ := ih hf'
    refine ⟨u, q'', blocks'', ?_, hf'', ?_⟩
    · rw [List.foldlM_cons]
      exact returns_bind.mpr ⟨t, ht, hu⟩
    · have hkept := hc.keeps_append (hc.keeps_of_perm (.refl records)) hkeeps
      exact hc.keeps_trans hkeeps' (hc.keeps_trans hkept (hc.keeps_of_perm List.perm_middle))

end Submission

section Retrieval

def Retrieving (verdict : α → α → Verdict) (h : Zsort α) (out : List α) : Prop :=
  h.retrieving = true ∧
    if h.filesUsed then ∃ rest, Merges verdict rest (h.file h.retrievalQueueOrFile) out
    else (h.queue h.retrievalQueueOrFile false).first.map (·.item) = out

variable {h : Zsort α}

theorem retrieveItem_returns (hc : Sorter compare verdict Good Keeps) {out : List α}
    (hr : Retrieving verdict h out) :
    ∃ t, retrieveItem compare h = .ok (t, out.head?) ∧ Retrieving verdict t out.tail := by
  obtain ⟨hretrieving, hr⟩ := hr
  cases hused : h.filesUsed with
  | true =>
    rw [hused, if_pos rfl] at hr
    obtain ⟨rest, hmerges⟩ := hr
    cases out with
    | nil =>
      refine ⟨h, ?_, hretrieving, ?_⟩
      · simp only [retrieveItem, hused, if_true, hmerges.ended_iff.mpr rfl]
        rfl
      · rw [hused, if_pos rfl]
        exact ⟨rest, hmerges⟩
    | cons x out =>
      obtain ⟨source', htake, hmerges', -⟩ := hmerges.takeItem hc
      have hmore : ¬ ((h.file h.retrievalQueueOrFile false).endOfBlock
          && (h.file h.retrievalQueueOrFile true).endOfBlock) = true :=
        fun hend => List.cons_ne_nil x out (hmerges.ended_iff.mp hend)
      refine ⟨{ h with file := Function.update h.file h.retrievalQueueOrFile source' }, ?_,
        hretrieving, ?_⟩
      · simp only [retrieveItem, hused, if_true, if_neg hmore, htake]
        rfl
      · rw [if_pos hused]
        simp only [Function.update_self]
        exact ⟨rest, hmerges'⟩
  | false =>
    rw [hused, if_neg Bool.false_ne_true] at hr
    cases hfirst : (h.queue h.retrievalQueueOrFile false).first with
    | nil =>
      rw [hfirst] at hr
      subst hr
      refine ⟨h, ?_, hretrieving, ?_⟩
      · simp only [retrieveItem, hused, hfirst]
        rfl
      · rw [hused, if_neg Bool.false_ne_true, hfirst]
        rfl
    | cons q next =>
      rw [hfirst] at hr
      subst hr
      refine ⟨{ h with
        queue := Function.update h.queue h.retrievalQueueOrFile
          (Function.update (h.queue h.retrievalQueueOrFile) false
            { h.queue h.retrievalQueueOrFile false with first := next })
        empty := h.empty + 1 }, ?_, hretrieving, ?_⟩
      · simp only [retrieveItem, hused, hfirst]
        rfl
      · rw [if_neg (by simp [hused])]
        simp only [Function.update_self]
        rfl

theorem retrieveItems_return (hc : Sorter compare verdict Good Keeps) {out : List α}
    (hr : Retrieving verdict h out) (n : ℕ) :
    (retrieveItems compare n h).Returns ((List.range n).map fun i => out[i]?) := by
  induction n generalizing h out with
  | zero => exact yields_pure.mpr rfl
  | succ n ih =>
    obtain ⟨t, ht, hrest⟩ := retrieveItem_returns hc hr
    have hone : (zsortRetrieve compare h).Returns (t, out.head?) := by
      rw [zsortRetrieve, if_pos hr.1]
      exact returns_bind.mpr ⟨h, yields_pure.mpr rfl, yields_ofExcept.mpr ht.symm⟩
    refine returns_bind.mpr ⟨_, hone, returns_bind.mpr ⟨_, ih hrest, yields_pure.mpr ?_⟩⟩
    rw [List.range_succ_eq_map, List.map_cons, List.map_map, List.head?_eq_getElem?]
    congr 2
    exact List.map_congr_left fun i _ => List.getElem?_tail.symm

lemma atFilePass_start {blocks : List (List α)} {destination : Bool}
    (hf : OnFiles (h.file false) destination blocks) (hle : 2 ≤ blocks.length) :
    AtFilePass ⟨fun pair side => if pair then (h.file pair side).openFile
      else (h.file pair side).rewind, false⟩ blocks := by
  obtain ⟨hwritten, hfirst, hsecond⟩ := hf
  refine ⟨hle, ?_, ?_, hfirst, hsecond, ?_⟩
  · exact ⟨_, congrArg (· ++ (h.file false false).ahead) hwritten.first.symm⟩
  · exact ⟨_, congrArg (· ++ (h.file false true).ahead) hwritten.second.symm⟩
  · intro pair side
    cases pair with
    | false => rfl
    | true => rfl

theorem startRetrieval_returns (hc : Sorter compare verdict Good Keeps) {q : Bool → List α}
    {blocks : List (List α)} (hf : Filling Good h q blocks) : ∃ t out, (startRetrieval compare h).Returns t
      ∧ Retrieving verdict t out ∧ Good out
      ∧ Keeps out (blocks.flatten ++ (q false ++ q true)) := by
  have hused := hf.filesUsed
  cases hblocks : blocks with
  | nil =>
    rw [hblocks] at hused
    obtain ⟨runs, hat, hs, hruns⟩ := hf.queued.atPass hc
    obtain ⟨queue, empty, n, out, hret, hkeeps, hgood, hrun, -⟩ := sortQueues_returns hc hat hs
    refine ⟨{ h with
        queue := queue
        empty := empty
        retrievalQueueOrFile := n
        retrieving := true }, out, returns_bind.mpr ⟨_, hret, ?_⟩, ⟨rfl, ?_⟩, hgood,
      hc.keeps_trans hkeeps (hc.keeps_of_perm hruns)⟩
    · simp only [hused]
      exact yields_pure.mpr rfl
    · rw [if_neg (by simp [hused])]
      exact (congrArg (List.map (·.item)) hrun).trans (mark_item out)
  | cons b rest =>
    have hne : blocks ≠ [] := hblocks ▸ List.cons_ne_nil b rest
    rw [hblocks] at hused
    obtain ⟨t, n, out, hret, hkeeps, hgood, honfiles, -, hempty, -, htused, -⟩ :=
      sortQueues_writeBlock hc hf.queued (hf.onFiles hne)
    have hroom : ¬ (t.writeBlock n).empty < 4 := by
      have := hf.room hne
      have := hf.memory
      omega
    have hgoodAll : ∀ r ∈ blocks ++ [out], Good r := by
      rw [List.forall_mem_append, List.forall_mem_singleton]
      exact ⟨hf.good, hgood⟩
    obtain ⟨s, r, r', hmerge, hend, hrr', hr, hr'⟩ :=
      mergeFiles_returns hc (atFilePass_start honfiles (by simp [hblocks])) hgoodAll
    obtain ⟨rest0, hrest0⟩ := hend.first
    obtain ⟨rest1, hrest1⟩ := hend.second
    have hahead0 : (s.file s.source false).ahead = block r ++ rest0 := by
      rw [← hrest0]
      simp [deal]
    have hahead1 : (s.file s.source true).ahead = block r' ++ rest1 := by
      rw [← hrest1]
      simp [deal]
    obtain ⟨f0, hf0, hreading0, -⟩ := readItem_block hahead0
    obtain ⟨f1, hf1, hreading1, -⟩ := readItem_block hahead1
    refine ⟨{ t.writeBlock n with
      empty := (t.writeBlock n).empty - 4
      file := Function.update s.file s.source fun side => if side then f1 else f0
      retrievalQueueOrFile := s.source
      retrieving := true }, mergeRuns verdict r r', returns_bind.mpr ⟨_, hret, ?_⟩, ⟨rfl, ?_⟩,
      hc.good_merge hr hr', ?_⟩
    · simp only [htused.trans hused, List.isEmpty_cons, Bool.not_false, if_true, if_neg hroom]
      exact returns_bind.mpr ⟨s, hmerge, returns_bind.mpr ⟨f0, yields_ofExcept.mpr hf0.symm,
        returns_bind.mpr ⟨f1, yields_ofExcept.mpr hf1.symm, yields_pure.mpr rfl⟩⟩⟩
    · have hfiles : (t.writeBlock n).filesUsed = true := htused.trans hused
      rw [if_pos hfiles]
      simp only [Function.update_self]
      refine ⟨sides rest0 rest1, sides r r', fun side => ?_, rfl⟩
      cases side with
      | false => exact hreading0
      | true => exact hreading1
    · refine hc.keeps_trans (hc.keeps_merge r r') (hc.keeps_trans hrr' ?_)
      rw [List.flatten_append, List.flatten_singleton, ← hblocks]
      exact hc.keeps_append (hc.keeps_of_perm (.refl _)) hkeeps

-- However often `ZsortRetrieve` is called, it gives the items of `out` and then `ZSORTEND`.
def Retrieves (compare : α → α → ℤ) (memory : ℕ) (records out : List α) : Prop :=
  ∀ n, (sortRecords compare memory records n).Returns ((List.range n).map fun i => out[i]?)

lemma Retrieves.unique {compare : α → α → ℤ} {memory : ℕ} {records out out' : List α}
    (h : Retrieves compare memory records out) (h' : Retrieves compare memory records out') :
    out = out' := by
  refine List.ext_getElem? fun i => ?_
  have heq := Returns.unique (h (i + 1)) (h' (i + 1))
  rw [List.range_succ, List.map_append, List.map_append] at heq
  exact List.singleton_inj.mp (List.append_inj_right' heq rfl)

theorem retrieves_merged (hc : Sorter compare verdict Good Keeps) (memory : ℕ) (records : List α) :
    ∃ out, Retrieves compare memory records out ∧ Keeps out records ∧ Good out := by
  obtain ⟨h, q, blocks, hsubmit, hf, hkeeps⟩ :=
    submissions_return hc (zsortOpen_filling memory) records
  obtain ⟨t, out, hstart, hretrieving, hgood, hout⟩ := startRetrieval_returns hc hf
  refine ⟨out, fun n => returns_bind.mpr ⟨h, hsubmit, ?_⟩, ?_, hgood⟩
  · -- the first call starts the retrieval, and is a call for `t` from there on
    have hitems := retrieveItems_return hc hretrieving n
    cases n with
    | zero => exact hitems
    | succ n =>
      obtain ⟨⟨u, item⟩, hone, hrest⟩ := returns_bind.mp hitems
      refine returns_bind.mpr ⟨(u, item), ?_, hrest⟩
      rw [zsortRetrieve, if_pos hretrieving.1] at hone
      rw [zsortRetrieve, if_neg (by simp [hf.retrieving])]
      obtain ⟨v, hv, hitem⟩ := returns_bind.mp hone
      obtain rfl : v = t := Except.ok.inj (yields_pure.mp hv)
      exact returns_bind.mpr ⟨v, hstart, hitem⟩
  · exact hc.keeps_trans hout (hc.keeps_trans hkeeps (hc.keeps_of_perm (by simp)))

lemma Ordinary.sorter {c : Comparison α} (hc : Ordinary c) :
    Sorter c.compare (fun a b => if c.less a b then .left else .right) c.Sorted List.Perm where
  toMerging := by
    have hmerge : mergeRuns (fun a b => if c.less a b then .left else .right)
        = (List.merge · · c.less) := by
      funext xs ys
      exact mergeRuns_pick c.less xs ys
    rw [hmerge]
    exact c.picks_less.merging
  left h := by
    refine ⟨not_or.mpr ⟨(hc _ _).1, not_or.mpr (hc _ _).2⟩, ?_⟩
    by_contra hlt
    simp [Comparison.less, hlt] at h
  right h := by
    refine ⟨not_or.mpr ⟨(hc _ _).1, not_or.mpr (hc _ _).2⟩, fun hlt => ?_⟩
    simp [Comparison.less, hlt] at h
  drop h := by
    split at h
    · exact absurd h (by simp)
    · exact absurd h (by simp)

theorem retrieves_sorted_permutation {c : Comparison α} (hc : Ordinary c) (memory : ℕ) (records : List α) :
    ∃ out, Retrieves c.compare memory records out ∧ out.Perm records ∧ c.Sorted out
      ∧ ∀ memory' out', Retrieves c.compare memory' records out' →
        out'.Perm out ∧ List.Forall₂ (fun a b => c.compare a b = 0) out' out := by
  obtain ⟨out, hret, hperm, hsorted⟩ := retrieves_merged hc.sorter memory records
  refine ⟨out, hret, hperm, hsorted, fun memory' out' hret' => ?_⟩
  obtain ⟨out'', hret'', hperm'', hsorted''⟩ := retrieves_merged hc.sorter memory' records
  obtain rfl := hret'.unique hret''
  exact ⟨hperm''.trans hperm.symm,
    Comparison.sorted_unique (hperm''.trans hperm.symm) hsorted'' hsorted⟩

lemma ordinary_bytes : Ordinary Comparison.bytes := by
  intro a b
  have ha := a.toNat_lt
  have hb := b.toNat_lt
  simp only [Comparison.bytes, zcompAbort, zcompDupP, zcompDupQ]
  omega

theorem retrieves_sorted_permutation_bytes :
    ∃ out, Retrieves Comparison.bytes.compare 4 [3, 1, 2, 5, 4] out
      ∧ out.Perm [3, 1, 2, 5, 4] ∧ Comparison.bytes.Sorted out
      ∧ ∀ memory' out', Retrieves Comparison.bytes.compare memory' [3, 1, 2, 5, 4] out' →
        out'.Perm out ∧ List.Forall₂ (fun a b => Comparison.bytes.compare a b = 0) out' out :=
  retrieves_sorted_permutation ordinary_bytes 4 [3, 1, 2, 5, 4]

end Retrieval

end SimpleCode.Algorithm.ZSort
