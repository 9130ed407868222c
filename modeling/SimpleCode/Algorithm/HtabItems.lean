import SimpleCode.Algorithm.Htab

set_option autoImplicit false

namespace SimpleCode.Algorithm

open Foundations

namespace Htab

variable {ι : Type} {pmatch : ι → ι → Bool} {pcode : ι → ℕ}

structure Sound (pmatch : ι → ι → Bool) (pcode : ι → ℕ) (h : Htab ι) (chain : ℕ → List ℕ) : Prop where
  linked : ∀ q, Segment h.next (h.queue q) (chain q) none
  coded : ∀ q, ∀ b ∈ chain q, b < h.blocks ∧ pcode (h.item b) = q
  grouped : ∀ q, Grouped pmatch ((chain q).map h.item)
  next_coded : ∀ b b', b < h.blocks → h.next b = some b' →
    b' < h.blocks ∧ pcode (h.item b') = pcode (h.item b)
  cursor_queue : ∀ cur, h.cursor = some cur → cur.queue = pcode cur.item
  cursor_some : ∀ cur b, h.cursor = some cur → cur.point = some b →
    b < h.blocks ∧ pmatch cur.item (h.item b)
  cursor_none : ∀ cur, h.cursor = some cur → cur.point = none →
    Grouped pmatch (cur.item :: (chain cur.queue).map h.item)

variable {h : Htab ι} {chain : ℕ → List ℕ} {x : ι}

lemma sound_new (memory : ℕ → ι) : Sound pmatch pcode (new memory) fun _ => [] where
  linked _ := rfl
  coded _ _ hb := absurd hb List.not_mem_nil
  grouped _ := trivial
  next_coded _ _ hb := absurd hb (Nat.not_lt_zero _)
  cursor_queue _ hcur := nomatch hcur
  cursor_some _ _ hcur := nomatch hcur
  cursor_none _ hcur := nomatch hcur

lemma Sound.length_le (hs : Sound pmatch pcode h chain) (q : ℕ) : (chain q).length ≤ h.blocks := by
  have hsub : chain q ⊆ List.range h.blocks := by
    intro b hb
    exact List.mem_range.mpr (hs.coded q b hb).1
  have hle := (List.subperm_of_subset (hs.linked q).nodup hsub).length_le
  rwa [List.length_range] at hle

lemma Sound.follow_eq (hs : Sound pmatch pcode h chain) (q : ℕ) :
    follow h.next h.blocks (h.queue q) = chain q :=
  (hs.linked q).follow_eq (hs.length_le q)

lemma Sound.not_mem (hs : Sound pmatch pcode h chain) {b : ℕ} (hb : b ∉ chain (pcode (h.item b)))
    (q : ℕ) : b ∉ chain q := by
  intro hmem
  rw [← (hs.coded q b hmem).2] at hmem
  exact hb hmem

lemma search_eq {p : Option ℕ} {bs : List ℕ} {fuel : ℕ} (hp : Segment h.next p bs none)
    (hfuel : bs.length ≤ fuel) :
    h.search pmatch x fuel p = some (bs.find? fun b => pmatch x (h.item b)) := by
  induction bs generalizing p fuel with
  | nil =>
    obtain rfl : p = none := hp
    cases fuel <;> rfl
  | cons b bs ih =>
    obtain ⟨rfl, hrest⟩ := hp
    obtain ⟨fuel, rfl⟩ : ∃ n, fuel = n + 1 := ⟨fuel - 1, by rw [List.length_cons] at hfuel; omega⟩
    rw [search, List.find?_cons]
    split
    · next hm => rw [hm]
    · next hm =>
      rw [eq_false_of_ne_true hm]
      exact ih hrest (Nat.le_of_succ_le_succ hfuel)

lemma Sound.first_eq (hs : Sound pmatch pcode h chain) (x : ι) :
    h.first pmatch pcode x = some
      ({ h with cursor := some ⟨(chain (pcode x)).find? fun b => pmatch x (h.item b), x, pcode x⟩ },
        ((chain (pcode x)).find? fun b => pmatch x (h.item b)).map h.item) := by
  rw [first, search_eq (hs.linked _) (hs.length_le _)]
  rfl

lemma Sound.first (hs : Sound pmatch pcode h chain) (x : ι) :
    Sound pmatch pcode
      { h with cursor := some ⟨(chain (pcode x)).find? fun b => pmatch x (h.item b), x, pcode x⟩ }
      chain where
  linked := hs.linked
  coded := hs.coded
  grouped := hs.grouped
  next_coded := hs.next_coded
  cursor_queue cur hcur := by
    obtain rfl := Option.some.inj hcur
    rfl
  cursor_some cur b hcur hb := by
    obtain rfl := Option.some.inj hcur
    exact ⟨(hs.coded _ b (List.mem_of_find?_eq_some hb)).1,
      List.find?_some (p := fun b => pmatch x (h.item b)) hb⟩
  cursor_none cur hcur hpoint := by
    obtain rfl := Option.some.inj hcur
    refine (hs.grouped _).cons_of_none fun z hz => ?_
    obtain ⟨b, hb, rfl⟩ := List.mem_map.mp hz
    exact eq_false_of_ne_true (List.find?_eq_none.mp hpoint b hb)

lemma Sound.next (hs : Sound pmatch pcode h chain) {cur : InsertPoint ι} {b : ℕ}
    (hcur : h.cursor = some cur) (hnext : cur.point.bind h.next = some b)
    (hmatch : pmatch cur.item (h.item b)) :
    Sound pmatch pcode { h with cursor := some { cur with point := some b } } chain where
  linked := hs.linked
  coded := hs.coded
  grouped := hs.grouped
  next_coded := hs.next_coded
  cursor_queue cur' hcur' := by
    obtain rfl := Option.some.inj hcur'
    exact hs.cursor_queue cur hcur
  cursor_some cur' b' hcur' hb' := by
    obtain rfl := Option.some.inj hcur'
    obtain rfl := Option.some.inj hb'
    obtain ⟨a, ha, hab⟩ := Option.bind_eq_some_iff.mp hnext
    exact ⟨(hs.next_coded a b (hs.cursor_some cur a hcur ha).1 hab).1, hmatch⟩
  cursor_none cur' hcur' hpoint := by
    obtain rfl := Option.some.inj hcur'
    cases hpoint

lemma item_new (h : Htab ι) (x : ι) {b : ℕ} (hb : b < h.blocks) :
    Function.update h.item h.blocks x b = h.item b :=
  Function.update_of_ne (Nat.ne_of_lt hb) _ _

lemma Sound.map_item_new (hs : Sound pmatch pcode h chain) (x : ι) (q : ℕ) :
    (chain q).map (Function.update h.item h.blocks x) = (chain q).map h.item := by
  apply List.map_congr_left
  intro b hb
  exact item_new h x (hs.coded q b hb).1

lemma Sound.new_not_mem (hs : Sound pmatch pcode h chain) (q : ℕ) : h.blocks ∉ chain q :=
  fun hmem => absurd (hs.coded q _ hmem).1 (Nat.lt_irrefl _)

lemma Sound.next_coded_new (hs : Sound pmatch pcode h chain) {cur : InsertPoint ι}
    {next : ℕ → Option ℕ} {p : Option ℕ}
    (hp : ∀ b', p = some b' → b' < h.blocks ∧ pcode (h.item b') = pcode cur.item)
    (hnew : next h.blocks = p)
    (hold : ∀ b < h.blocks, next b = h.next b
      ∨ next b = some h.blocks ∧ pcode (h.item b) = pcode cur.item) (b b' : ℕ)
    (hb : b < h.blocks + 1) (hb' : next b = some b') :
    b' < h.blocks + 1 ∧ pcode (Function.update h.item h.blocks cur.item b')
      = pcode (Function.update h.item h.blocks cur.item b) := by
  rcases Nat.lt_succ_iff_lt_or_eq.mp hb with hlt | rfl
  · rcases hold b hlt with hsame | ⟨hto, hcode⟩
    · obtain ⟨hlt', hcode⟩ := hs.next_coded b b' hlt (hsame.symm.trans hb')
      rw [item_new h _ hlt, item_new h _ hlt']
      exact ⟨Nat.lt_succ_of_lt hlt', hcode⟩
    · obtain rfl := Option.some.inj (hto.symm.trans hb')
      rw [item_new h _ hlt, Function.update_self]
      exact ⟨Nat.lt_succ_self _, hcode.symm⟩
  · obtain ⟨hlt', hcode⟩ := hp b' (hnew.symm.trans hb')
    rw [item_new h _ hlt', Function.update_self]
    exact ⟨Nat.lt_succ_of_lt hlt', hcode⟩

lemma Sound.queue_some (hs : Sound pmatch pcode h chain) {q b : ℕ} (hb : h.queue q = some b) :
    ∃ bs, chain q = b :: bs ∧ Segment h.next (h.next b) bs none := by
  have hlinked := hs.linked q
  rw [hb] at hlinked
  rcases hc : chain q with _ | ⟨c, bs⟩
  · rw [hc] at hlinked
    exact absurd hlinked nofun
  · rw [hc] at hlinked
    obtain rfl := Option.some.inj hlinked.1
    exact ⟨bs, rfl, hlinked.2⟩

lemma Sound.inserted (hs : Sound pmatch pcode h chain) {cur : InsertPoint ι}
    (hcur : h.cursor = some cur) {next : ℕ → Option ℕ} {queue : ℕ → Option ℕ} {bs : List ℕ}
    (hlinked : ∀ q, Segment next (queue q) (Function.update chain cur.queue bs q) none)
    (hmem : ∀ b ∈ bs, b = h.blocks ∨ b ∈ chain cur.queue)
    (hgrouped : Grouped pmatch (bs.map (Function.update h.item h.blocks cur.item)))
    (hnew : ∀ b', next h.blocks = some b' → b' < h.blocks ∧ pcode (h.item b') = pcode cur.item)
    (hold : ∀ b < h.blocks, next b = h.next b
      ∨ next b = some h.blocks ∧ pcode (h.item b) = pcode cur.item)
    (hnone : cur.point = none →
      Grouped pmatch (cur.item :: bs.map (Function.update h.item h.blocks cur.item))) :
    Sound pmatch pcode ⟨next, Function.update h.item h.blocks cur.item, queue, h.blocks + 1,
      h.cursor⟩ (Function.update chain cur.queue bs) where
  linked := hlinked
  coded q b hb := by
    dsimp only
    by_cases hq : q = cur.queue
    · subst hq
      rw [Function.update_self] at hb
      rcases hmem b hb with rfl | hb
      · rw [Function.update_self]
        exact ⟨Nat.lt_succ_self _, (hs.cursor_queue cur hcur).symm⟩
      · obtain ⟨hlt, hcode⟩ := hs.coded _ b hb
        rw [item_new h _ hlt]
        exact ⟨Nat.lt_succ_of_lt hlt, hcode⟩
    · rw [Function.update_of_ne hq] at hb
      obtain ⟨hlt, hcode⟩ := hs.coded q b hb
      rw [item_new h _ hlt]
      exact ⟨Nat.lt_succ_of_lt hlt, hcode⟩
  grouped q := by
    dsimp only
    by_cases hq : q = cur.queue
    · subst hq
      rwa [Function.update_self]
    · rw [Function.update_of_ne hq, hs.map_item_new]
      exact hs.grouped q
  next_coded := hs.next_coded_new hnew rfl hold
  cursor_queue := hs.cursor_queue
  cursor_some cur' b hcur' hb := by
    obtain ⟨hlt, hmatch⟩ := hs.cursor_some cur' b hcur' hb
    dsimp only
    rw [item_new h _ hlt]
    exact ⟨Nat.lt_succ_of_lt hlt, hmatch⟩
  cursor_none cur' hcur' hpoint := by
    obtain rfl := Option.some.inj (hcur'.symm.trans hcur)
    dsimp only
    rw [Function.update_self]
    exact hnone hpoint

lemma Sound.insert_front (hd : Documented pmatch pcode) (hs : Sound pmatch pcode h chain)
    {cur : InsertPoint ι} (hcur : h.cursor = some cur) (hpoint : cur.point = none) :
    ∃ h', h.insert = some h' ∧ h'.item = Function.update h.item h.blocks cur.item
      ∧ Sound pmatch pcode h' (Function.update chain cur.queue (h.blocks :: chain cur.queue)) := by
  have hqueue := hs.cursor_queue cur hcur
  have hgrouped := (hs.cursor_none cur hcur hpoint).double (hd.equivalence.refl _)
  have hmap : (h.blocks :: chain cur.queue).map (Function.update h.item h.blocks cur.item)
      = cur.item :: (chain cur.queue).map h.item := by
    rw [List.map_cons, Function.update_self, hs.map_item_new]
  refine ⟨_, by rw [Htab.insert, hcur]; simp only [Option.bind_eq_bind, Option.bind_some, hpoint]; rfl,
    rfl, ?_⟩
  rw [← hcur]
  refine hs.inserted hcur (fun q => ?_) (fun b hb => List.mem_cons.mp hb) ?_ (fun b' hb' => ?_)
    (fun b hb => ?_) (fun _ => ?_)
  · by_cases hq : q = cur.queue
    · subst hq
      rw [Function.update_self, Function.update_self]
      refine ⟨rfl, ?_⟩
      rw [Function.update_self]
      exact (hs.linked _).update (hs.new_not_mem _) _
    · rw [Function.update_of_ne hq, Function.update_of_ne hq]
      exact (hs.linked q).update (hs.new_not_mem q) _
  · rw [hmap]
    exact hgrouped.tail
  · rw [Function.update_self] at hb'
    obtain ⟨bs, hbs, -⟩ := hs.queue_some hb'
    obtain ⟨hlt, hcode⟩ := hs.coded cur.queue b' (hbs ▸ List.mem_cons_self)
    exact ⟨hlt, hcode.trans hqueue⟩
  · exact .inl (Function.update_of_ne (Nat.ne_of_lt hb) _ _)
  · rw [hmap]
    exact hgrouped

lemma Sound.insert_behind (hd : Documented pmatch pcode) (hs : Sound pmatch pcode h chain)
    {cur : InsertPoint ι} (hcur : h.cursor = some cur) {b : ℕ} (hpoint : cur.point = some b)
    (hb : b ∈ chain cur.queue) :
    ∃ h' bs, h.insert = some h' ∧ h'.item = Function.update h.item h.blocks cur.item
      ∧ bs.Perm (h.blocks :: chain cur.queue)
      ∧ Sound pmatch pcode h' (Function.update chain cur.queue bs) := by
  have hqueue := hs.cursor_queue cur hcur
  obtain ⟨hblt, hmatch⟩ := hs.cursor_some cur b hcur hpoint
  obtain ⟨xs, ys, hchain⟩ := List.append_of_mem hb
  have hfresh := hs.new_not_mem cur.queue
  have hlinked := hs.linked cur.queue
  have hgrouped := hs.grouped cur.queue
  rw [hchain] at hfresh hlinked hgrouped
  have hperm : (xs ++ b :: h.blocks :: ys).Perm (h.blocks :: chain cur.queue) := by
    rw [hchain, List.append_cons, List.append_cons xs b ys]
    exact List.perm_middle
  have hmap : (xs ++ b :: h.blocks :: ys).map (Function.update h.item h.blocks cur.item)
      = xs.map h.item ++ h.item b :: cur.item :: ys.map h.item := by
    have hold := hs.map_item_new cur.item cur.queue
    rw [hchain, List.map_append, List.map_cons, List.map_append, List.map_cons] at hold
    obtain ⟨hx, hby⟩ := List.append_inj hold (by simp)
    obtain ⟨hb', hy⟩ := List.cons.inj hby
    rw [List.map_append, List.map_cons, List.map_cons, hx, hb', hy, Function.update_self]
  refine ⟨_, _, by rw [Htab.insert, hcur]; simp only [Option.bind_eq_bind, Option.bind_some, hpoint]; rfl,
    rfl, hperm, ?_⟩
  rw [← hcur]
  refine hs.inserted hcur (fun q => ?_) (fun c hc => List.mem_cons.mp (hperm.mem_iff.mp hc)) ?_
    (fun b' hb' => ?_) (fun c hc => ?_) (fun hnone => nomatch hpoint.symm.trans hnone)
  · by_cases hq : q = cur.queue
    · subst hq
      rw [Function.update_self]
      exact hlinked.insertAfter hfresh
    · rw [Function.update_of_ne hq]
      have hother : b ∉ chain q := by
        intro hmem
        exact hq ((hs.coded q b hmem).2.symm.trans (hs.coded _ b hb).2)
      exact ((hs.linked q).update (hs.new_not_mem q) _).update hother _
  · rw [hmap]
    rw [List.map_append, List.map_cons] at hgrouped
    exact hgrouped.insertAfter hd.equivalence hmatch
  · rw [Function.update_of_ne (Nat.ne_of_gt hblt), Function.update_self] at hb'
    obtain ⟨hlt, hcode⟩ := hs.next_coded b b' hblt hb'
    exact ⟨hlt, hcode.trans ((hs.coded _ b hb).2.trans hqueue)⟩
  · by_cases hcb : c = b
    · subst hcb
      rw [Function.update_self]
      exact .inr ⟨rfl, (hs.coded _ c hb).2.trans hqueue⟩
    · rw [Function.update_of_ne hcb]
      exact .inl (Function.update_of_ne (Nat.ne_of_lt hc) _ _)

lemma Sound.insert_lost (hd : Documented pmatch pcode) (hs : Sound pmatch pcode h chain)
    {cur : InsertPoint ι} (hcur : h.cursor = some cur) {b : ℕ} (hpoint : cur.point = some b)
    (hb : b ∉ chain cur.queue) :
    ∃ h', h.insert = some h' ∧ h'.item = Function.update h.item h.blocks cur.item
      ∧ Sound pmatch pcode h' chain := by
  have hqueue := hs.cursor_queue cur hcur
  obtain ⟨hblt, hmatch⟩ := hs.cursor_some cur b hcur hpoint
  have hcode := hd.same_code _ _ hmatch
  refine ⟨_, by rw [Htab.insert, hcur]; simp only [Option.bind_eq_bind, Option.bind_some, hpoint]; rfl,
    rfl, ?_⟩
  rw [← hcur, ← Function.update_eq_self cur.queue chain]
  refine hs.inserted hcur (fun q => ?_) (fun c hc => .inr hc) ?_ (fun b' hb' => ?_)
    (fun c hc => ?_) (fun hnone => nomatch hpoint.symm.trans hnone)
  · rw [Function.update_eq_self]
    have hother : b ∉ chain q := hs.not_mem (by rwa [← hcode, ← hqueue]) q
    exact ((hs.linked q).update (hs.new_not_mem q) _).update hother _
  · rw [hs.map_item_new]
    exact hs.grouped _
  · rw [Function.update_of_ne (Nat.ne_of_gt hblt), Function.update_self] at hb'
    obtain ⟨hlt, hcode'⟩ := hs.next_coded b b' hblt hb'
    exact ⟨hlt, hcode'.trans hcode.symm⟩
  · by_cases hcb : c = b
    · subst hcb
      rw [Function.update_self]
      exact .inr ⟨rfl, hcode.symm⟩
    · rw [Function.update_of_ne hcb]
      exact .inl (Function.update_of_ne (Nat.ne_of_lt hc) _ _)

def items (h : Htab ι) (chain : ℕ → List ℕ) : List ι :=
  (List.range 256).flatMap fun q => (chain q).map h.item

lemma map_update_chain (item : ℕ → ι) (q : ℕ) (bs : List ℕ) :
    (fun i => (Function.update chain q bs i).map item)
      = Function.update (fun i => (chain i).map item) q (bs.map item) := by
  funext i
  by_cases hi : i = q
  · subst hi
    rw [Function.update_self, Function.update_self]
  · rw [Function.update_of_ne hi, Function.update_of_ne hi]

lemma Sound.items_inserted (hs : Sound pmatch pcode h chain) {h' : Htab ι} {q : ℕ} (hq : q < 256)
    {bs : List ℕ} (hitem : h'.item = Function.update h.item h.blocks x)
    (hbs : bs.Perm (h.blocks :: chain q)) :
    (h'.items (Function.update chain q bs)).Perm (x :: h.items chain) := by
  have hchain : (fun i => (chain i).map h'.item) = fun i => (chain i).map h.item := by
    funext i
    rw [hitem]
    exact hs.map_item_new x i
  rw [items, map_update_chain, hchain]
  refine perm_flatMap_update List.nodup_range (List.mem_range.mpr hq) ?_
  refine (hbs.map h'.item).trans ?_
  rw [List.map_cons, hitem, Function.update_self, hs.map_item_new]

lemma Sound.items_nil (hs : Sound pmatch pcode h chain) (hfront : h.front = none) :
    h.items chain = [] := by
  rw [items, List.flatMap_eq_nil_iff]
  intro q hq
  have hqueue := List.findSome?_eq_none_iff.mp hfront q hq
  have hlinked := hs.linked q
  rw [Option.map_eq_none_iff.mp hqueue] at hlinked
  rcases hc : chain q with _ | ⟨b, bs⟩
  · rfl
  · rw [hc] at hlinked
    exact absurd hlinked.1 nofun

lemma front_eq {q b : ℕ} (hfront : h.front = some (q, b)) : q < 256 ∧ h.queue q = some b := by
  obtain ⟨i, hi, hmap⟩ := List.exists_of_findSome?_eq_some hfront
  obtain ⟨c, hc, heq⟩ := Option.map_eq_some_iff.mp hmap
  cases heq
  exact ⟨List.mem_range.mp hi, hc⟩

lemma Sound.remove (hd : Documented pmatch pcode) (hs : Sound pmatch pcode h chain) {q b : ℕ}
    (hfront : h.front = some (q, b)) :
    ∃ h' bs, h.remove = (h', some (h.item b)) ∧ chain q = b :: bs ∧ h'.cursor = h.cursor
      ∧ Sound pmatch pcode h' (Function.update chain q bs)
      ∧ (h.items chain).Perm (h.item b :: h'.items (Function.update chain q bs)) := by
  obtain ⟨hq, hqueue⟩ := front_eq hfront
  obtain ⟨bs, hchain, hlinked⟩ := hs.queue_some hqueue
  have hsub : ∀ i, ∀ c ∈ Function.update chain q bs i, c ∈ chain i := by
    intro i c hc
    by_cases hi : i = q
    · subst hi
      rw [Function.update_self] at hc
      rw [hchain]
      exact List.mem_cons_of_mem b hc
    · rwa [Function.update_of_ne hi] at hc
  refine ⟨{ h with queue := Function.update h.queue q (h.next b) }, bs,
    by rw [Htab.remove, hfront], hchain, rfl, ?_, ?_⟩
  · refine ⟨fun i => ?_, fun i c hc => hs.coded i c (hsub i c hc), fun i => ?_, hs.next_coded,
      hs.cursor_queue, hs.cursor_some, fun cur hcur hpoint => ?_⟩
    · by_cases hi : i = q
      · subst hi
        simp only [Function.update_self]
        exact hlinked
      · simp only [Function.update_of_ne hi]
        exact hs.linked i
    · by_cases hi : i = q
      · subst hi
        have hgrouped := hs.grouped i
        rw [hchain, List.map_cons] at hgrouped
        rw [Function.update_self]
        exact hgrouped.tail
      · rw [Function.update_of_ne hi]
        exact hs.grouped i
    · have hgrouped := hs.cursor_none cur hcur hpoint
      by_cases hi : cur.queue = q
      · rw [hi, hchain, List.map_cons] at hgrouped
        rw [hi, Function.update_self]
        exact hgrouped.drop_second hd.equivalence
      · rw [Function.update_of_ne hi]
        exact hgrouped
  · have hold : Function.update (fun i => (Function.update chain q bs i).map h.item) q
        ((chain q).map h.item) = fun i => (chain i).map h.item := by
      rw [← map_update_chain, Function.update_idem, Function.update_eq_self]
    rw [items, ← hold]
    refine perm_flatMap_update List.nodup_range (List.mem_range.mpr hq) ?_
    rw [hchain, Function.update_self, List.map_cons]

lemma Sound.drains (hd : Documented pmatch pcode) (hs : Sound pmatch pcode h chain) :
    ∃ rest : List ι, h.answers pmatch pcode (List.replicate (rest.length + 1) .remove)
        = some (rest.map some ++ [none])
      ∧ rest.Perm (h.items chain) := by
  induction hn : (h.items chain).length generalizing h chain with
  | zero =>
    have hnil := List.length_eq_zero_iff.mp hn
    cases hfront : h.front with
    | none =>
      refine ⟨[], ?_, by rw [hnil]⟩
      rw [List.length_nil, List.replicate_one, answers, call, Htab.remove, hfront]
      rfl
    | some front =>
      obtain ⟨q, b⟩ := front
      obtain ⟨h', bs, -, -, -, -, hperm⟩ := hs.remove hd hfront
      rw [hnil] at hperm
      exact absurd hperm.length_eq nofun
  | succ n ih =>
    cases hfront : h.front with
    | none =>
      rw [hs.items_nil hfront] at hn
      cases hn
    | some front =>
      obtain ⟨q, b⟩ := front
      obtain ⟨h', bs, hremove, -, -, hs', hperm⟩ := hs.remove hd hfront
      have hlength := hperm.length_eq
      rw [hn, List.length_cons] at hlength
      obtain ⟨rest, hanswers, hrest⟩ := ih hs' (Nat.succ.inj hlength).symm
      refine ⟨h.item b :: rest, ?_, (hrest.cons _).trans hperm.symm⟩
      rw [List.length_cons, List.replicate_succ, answers, call, hremove]
      simp only [Option.bind_eq_bind, Option.bind_some, hanswers]
      rfl

lemma answers_cons {c : HtabCall ι} {cs : List (HtabCall ι)} {a : Option ι} {as : List (Option ι)} :
    h.answers pmatch pcode (c :: cs) = some (a :: as)
      ↔ ∃ h', h.call pmatch pcode c = some (h', a) ∧ h'.answers pmatch pcode cs = some as := by
  rw [answers]
  simp only [Option.bind_eq_bind, Option.bind_eq_some_iff, Option.pure_def, Option.some.injEq,
    List.cons.injEq, Prod.exists]
  constructor
  · rintro ⟨h', b, hcall, rest, hrest, rfl, rfl⟩
    exact ⟨h', hcall, hrest⟩
  · rintro ⟨h', hcall, hrest⟩
    exact ⟨h', a, hcall, as, hrest, rfl, rfl⟩

lemma drains_unique {rest rest' : List ι}
    (hr : h.answers pmatch pcode (List.replicate (rest.length + 1) .remove)
      = some (rest.map some ++ [none]))
    (hr' : h.answers pmatch pcode (List.replicate (rest'.length + 1) .remove)
      = some (rest'.map some ++ [none])) : rest = rest' := by
  induction rest generalizing h rest' with
  | nil =>
    obtain ⟨h₁, hcall, -⟩ := answers_cons.mp hr
    cases rest' with
    | nil => rfl
    | cons y rest' =>
      obtain ⟨h₂, hcall', -⟩ := answers_cons.mp hr'
      cases Option.some.inj (hcall.symm.trans hcall')
  | cons x rest ih =>
    obtain ⟨h₁, hcall, hrest⟩ := answers_cons.mp hr
    cases rest' with
    | nil =>
      obtain ⟨h₂, hcall', -⟩ := answers_cons.mp hr'
      cases Option.some.inj (hcall.symm.trans hcall')
    | cons y rest' =>
      obtain ⟨h₂, hcall', hrest'⟩ := answers_cons.mp hr'
      cases Option.some.inj (hcall.symm.trans hcall')
      rw [ih hrest hrest']

lemma answers_next {cur : InsertPoint ι} {b : ℕ} {bs : List ℕ} (hcur : h.cursor = some cur)
    (hpoint : cur.point = some b) (hbs : Segment h.next (h.next b) bs none) :
    h.answers pmatch pcode
        (List.replicate (((bs.map h.item).takeWhile (pmatch cur.item)).length + 1) .next)
      = some (((bs.map h.item).takeWhile (pmatch cur.item)).map some ++ [none]) := by
  induction bs generalizing h cur b with
  | nil =>
    have hnext : h.next b = none := hbs
    rw [List.map_nil, List.takeWhile_nil, List.length_nil, List.replicate_one, answers, call,
      nextItem, hcur]
    simp only [Option.bind_eq_bind, Option.bind_some, hpoint, hnext]
    rfl
  | cons c bs ih =>
    obtain ⟨hnext, hrest⟩ := hbs
    by_cases hm : pmatch cur.item (h.item c)
    · have hstep := ih (h := { h with cursor := some { cur with point := some c } }) rfl rfl hrest
      rw [List.map_cons, List.takeWhile_cons_of_pos hm, List.length_cons, List.replicate_succ, answers,
        call, nextItem, hcur]
      simp only [Option.bind_eq_bind, Option.bind_some, hpoint, hnext, hm, if_true]
      dsimp only at hstep
      rw [Option.pure_def, Option.bind_some]
      simp only [hstep]
      rfl
    · rw [List.map_cons, List.takeWhile_cons_of_neg hm, List.length_nil, List.replicate_one, answers,
        call, nextItem, hcur]
      simp only [Option.bind_eq_bind, Option.bind_some, hpoint, hnext, hm]
      rfl

lemma Sound.filter_items (hd : Documented pmatch pcode) (hs : Sound pmatch pcode h chain) (x : ι) :
    (h.items chain).filter (pmatch x) = ((chain (pcode x)).map h.item).filter (pmatch x) := by
  rw [items, List.filter_flatMap]
  refine flatMap_eq_of_single List.nodup_range (List.mem_range.mpr (hd.code_lt x)) ?_
  intro q _ hq
  rw [List.filter_eq_nil_iff]
  intro y hy hxy
  obtain ⟨b, hb, rfl⟩ := List.mem_map.mp hy
  exact hq ((hs.coded q b hb).2.symm.trans (hd.same_code _ _ hxy).symm)

lemma Sound.lists (hd : Documented pmatch pcode) (hs : Sound pmatch pcode h chain) (x : ι) :
    h.answers pmatch pcode
        (.first x :: List.replicate ((h.items chain).filter (pmatch x)).length .next)
      = some (((h.items chain).filter (pmatch x)).map some ++ [none]) := by
  rw [hs.filter_items hd, answers, call, hs.first_eq]
  have hgrouped := hs.grouped (pcode x)
  have hlinked := hs.linked (pcode x)
  cases hfind : (chain (pcode x)).find? fun b => pmatch x (h.item b) with
  | none =>
    have hnil : ((chain (pcode x)).map h.item).filter (pmatch x) = [] := by
      rw [List.filter_eq_nil_iff]
      intro y hy
      obtain ⟨b, hb, rfl⟩ := List.mem_map.mp hy
      exact List.find?_eq_none.mp hfind b hb
    rw [hnil]
    rfl
  | some b =>
    obtain ⟨hm, xs, ys, hchain, hxs⟩ := List.find?_eq_some_iff_append.mp hfind
    rw [hchain, List.map_append, List.map_cons] at hgrouped
    rw [hchain] at hlinked
    have htake : (ys.map h.item).takeWhile (pmatch x) = (ys.map h.item).filter (pmatch x) := by
      rw [matches_congr hd.equivalence hm]
      exact hgrouped.of_append.takeWhile_eq_filter hd.equivalence
    have hfilter : ((chain (pcode x)).map h.item).filter (pmatch x)
        = h.item b :: (ys.map h.item).takeWhile (pmatch x) := by
      have hnil : (xs.map h.item).filter (pmatch x) = [] := by
        rw [List.filter_eq_nil_iff]
        intro y hy
        obtain ⟨c, hc, rfl⟩ := List.mem_map.mp hy
        simpa using hxs c hc
      rw [hchain, List.map_append, List.map_cons, List.filter_append, hnil, List.nil_append,
        List.filter_cons_of_pos hm, htake]
    have hanswers := @answers_next ι pmatch pcode { h with cursor := some ⟨some b, x, pcode x⟩ }
      ⟨some b, x, pcode x⟩ b ys rfl rfl (segment_middle.mp hlinked).2
    rw [hfilter, List.length_cons]
    simp only [Option.bind_eq_bind, Option.bind_some, hanswers]
    rfl

end Htab

namespace HtabSession

variable {ι : Type} {pmatch : ι → ι → Bool} {pcode : ι → ℕ} {s : HtabSession ι}

def Kept (pmatch : ι → ι → Bool) (pcode : ι → ℕ) (s : HtabSession ι) : Prop :=
  ∃ chain, s.table.Sound pmatch pcode chain ∧ (s.returned ++ s.table.items chain).Perm s.inserted
    ∧ s.table.cursor.map InsertPoint.item = s.searched

lemma kept_new (memory : ℕ → ι) : Kept pmatch pcode (new memory) := by
  refine ⟨_, Htab.sound_new memory, ?_, rfl⟩
  simp [new, Htab.items]

lemma Kept.complete (hd : Documented pmatch pcode) (h : Kept pmatch pcode s) :
    s.Complete pmatch pcode := by
  obtain ⟨chain, hs, hperm, -⟩ := h
  refine ⟨fun x => ⟨_, hs.lists hd x, ?_⟩, ?_⟩
  · rw [← List.filter_append]
    exact hperm.filter _
  · obtain ⟨rest, hanswers, hrest⟩ := hs.drains hd
    exact ⟨rest, hanswers, (hrest.append_left _).trans hperm⟩

lemma call_next {h : Htab ι} {cur : InsertPoint ι} (hcur : h.cursor = some cur) :
    h.call pmatch pcode .next = some (match cur.point.bind h.next with
      | none => (h, none)
      | some b => if pmatch cur.item (h.item b) then
          ({ h with cursor := some { cur with point := some b } }, some (h.item b))
        else (h, none)) := by
  rw [Htab.call, Htab.nextItem, hcur]
  simp only [Option.bind_eq_bind, Option.bind_some]
  cases cur.point.bind h.next with
  | none => rfl
  | some b =>
    dsimp only
    split <;> rfl

lemma call_insert {h h' : Htab ι} (hinsert : h.insert = some h') :
    h.call pmatch pcode .insert = some (h', none) := by
  rw [Htab.call, hinsert]
  rfl

lemma insert_cursor {h h' : Htab ι} (hinsert : h.insert = some h') : h'.cursor = h.cursor := by
  cases hcur : h.cursor with
  | none =>
    rw [Htab.insert, hcur] at hinsert
    cases hinsert
  | some cur =>
    rw [Htab.insert, hcur] at hinsert
    cases hpoint : cur.point with
    | none =>
      simp only [Option.bind_eq_bind, Option.bind_some, hpoint] at hinsert
      obtain rfl := Option.some.inj hinsert
      rfl
    | some b =>
      simp only [Option.bind_eq_bind, Option.bind_some, hpoint] at hinsert
      obtain rfl := Option.some.inj hinsert
      rfl

lemma Kept.next (h : Kept pmatch pcode s) (hc : s.table.cursor ≠ none) :
    ∃ s', s.step pmatch pcode .next = some s' ∧ Kept pmatch pcode s' := by
  obtain ⟨chain, hs, hperm, hsearched⟩ := h
  obtain ⟨cur, hcur⟩ := Option.ne_none_iff_exists'.mp hc
  rw [step, call_next hcur]
  cases hnext : cur.point.bind s.table.next with
  | none => exact ⟨s, rfl, chain, hs, hperm, hsearched⟩
  | some b =>
    dsimp only
    by_cases hm : pmatch cur.item (s.table.item b)
    · rw [if_pos hm]
      refine ⟨_, rfl, chain, hs.next hcur hnext hm, hperm, ?_⟩
      rw [← hsearched, hcur]
      rfl
    · rw [if_neg hm]
      exact ⟨s, rfl, chain, hs, hperm, hsearched⟩

lemma Kept.inserted (hd : Documented pmatch pcode) {chain : ℕ → List ℕ} {h' : Htab ι}
    {cur : InsertPoint ι} {bs : List ℕ} (hs : s.table.Sound pmatch pcode chain)
    (hperm : (s.returned ++ s.table.items chain).Perm s.inserted)
    (hsearched : s.table.cursor.map InsertPoint.item = s.searched)
    (hcur : s.table.cursor = some cur) (hinsert : s.table.insert = some h')
    (hitem : h'.item = Function.update s.table.item s.table.blocks cur.item)
    (hbs : bs.Perm (s.table.blocks :: chain cur.queue))
    (hs' : h'.Sound pmatch pcode (Function.update chain cur.queue bs)) :
    ∃ s', s.step pmatch pcode .insert = some s' ∧ Kept pmatch pcode s' := by
  refine ⟨_, by rw [step, call_insert hinsert], _, hs', ?_,
    (congrArg _ (insert_cursor hinsert)).trans hsearched⟩
  rw [hcur] at hsearched
  have hqueue : cur.queue < 256 := by
    rw [hs.cursor_queue cur hcur]
    exact hd.code_lt _
  have hitems := hs.items_inserted hqueue hitem hbs
  rw [← hsearched]
  refine (hitems.append_left _).trans (List.perm_middle.trans ?_)
  exact (List.Perm.cons _ hperm).trans (List.perm_append_singleton _ _).symm

lemma Kept.insert (hd : Documented pmatch pcode) (h : Kept pmatch pcode s)
    (hc : s.Usable .insert) : ∃ s', s.step pmatch pcode .insert = some s' ∧ Kept pmatch pcode s' := by
  obtain ⟨chain, hs, hperm, hsearched⟩ := h
  obtain ⟨cur, hcur, hlinked⟩ := hc
  cases hpoint : cur.point with
  | none =>
    obtain ⟨h', hinsert, hitem, hs'⟩ := hs.insert_front hd hcur hpoint
    exact Kept.inserted hd hs hperm hsearched hcur hinsert hitem (List.Perm.refl _) hs'
  | some b =>
    have hb := hlinked b hpoint
    rw [hs.follow_eq] at hb
    obtain ⟨h', bs, hinsert, hitem, hbs, hs'⟩ := hs.insert_behind hd hcur hpoint hb
    exact Kept.inserted hd hs hperm hsearched hcur hinsert hitem hbs hs'

lemma Kept.remove (hd : Documented pmatch pcode) (h : Kept pmatch pcode s) :
    ∃ s', s.step pmatch pcode .remove = some s' ∧ Kept pmatch pcode s' := by
  obtain ⟨chain, hs, hperm, hsearched⟩ := h
  cases hfront : s.table.front with
  | none =>
    refine ⟨{ s with returned := s.returned ++ [] }, ?_, chain, hs, ?_, hsearched⟩
    · rw [step, Htab.call, Htab.remove, hfront]
      rfl
    · rwa [List.append_nil]
  | some front =>
    obtain ⟨q, b⟩ := front
    obtain ⟨h', bs, hremove, -, hcur, hs', hitems⟩ := hs.remove hd hfront
    refine ⟨⟨h', s.searched, s.inserted, s.returned ++ [s.table.item b]⟩, ?_, _, hs', ?_, ?_⟩
    · rw [step, Htab.call, hremove]
      rfl
    · rw [List.append_assoc, List.singleton_append]
      exact (hitems.symm.append_left _).trans hperm
    · rw [hcur]
      exact hsearched

lemma Kept.step (hd : Documented pmatch pcode) (h : Kept pmatch pcode s) {c : HtabCall ι}
    (hc : s.Usable c) : ∃ s', s.step pmatch pcode c = some s' ∧ Kept pmatch pcode s' := by
  cases c with
  | first x =>
    obtain ⟨chain, hs, hperm, -⟩ := h
    have hcall : s.table.call pmatch pcode (.first x) = _ := hs.first_eq x
    refine ⟨⟨_, some x, s.inserted, s.returned⟩, ?_, chain, hs.first x, hperm, rfl⟩
    rw [HtabSession.step, hcall]
  | next => exact h.next hc
  | insert => exact h.insert hd hc
  | remove => exact h.remove hd

lemma Kept.miss (hd : Documented pmatch pcode) (h : Kept pmatch pcode s) {c : HtabCall ι}
    (hc : ¬ s.Usable c) {s' : HtabSession ι} (hstep : s.step pmatch pcode c = some s') :
    ¬ s'.Complete pmatch pcode := by
  obtain ⟨chain, hs, hperm, hsearched⟩ := h
  cases c with
  | first x => exact absurd trivial hc
  | remove => exact absurd trivial hc
  | next =>
    have hcur : s.table.cursor = none := not_not.mp hc
    rw [HtabSession.step, Htab.call, Htab.nextItem, hcur] at hstep
    cases hstep
  | insert =>
    cases hcur : s.table.cursor with
    | none =>
      rw [HtabSession.step, Htab.call, Htab.insert, hcur] at hstep
      cases hstep
    | some cur =>
      have hgone : ∃ b, cur.point = some b ∧ b ∉ chain cur.queue := by
        by_contra hno
        push Not at hno
        refine hc ⟨cur, hcur, fun b hb => ?_⟩
        rw [hs.follow_eq]
        exact hno b hb
      obtain ⟨b, hpoint, hb⟩ := hgone
      obtain ⟨h', hinsert, hitem, hs'⟩ := hs.insert_lost hd hcur hpoint hb
      rw [HtabSession.step, call_insert hinsert] at hstep
      obtain rfl := Option.some.inj hstep
      rintro ⟨-, rest, hanswers, hrest⟩
      obtain ⟨rest', hanswers', hrest'⟩ := hs'.drains hd
      obtain rfl := Htab.drains_unique hanswers hanswers'
      have hitems : h'.items chain = s.table.items chain := by
        rw [Htab.items, Htab.items, hitem]
        simp only [hs.map_item_new]
      rw [hcur] at hsearched
      have hlength := hrest.length_eq
      have hlength' := hperm.length_eq
      have hlength'' := hrest'.length_eq
      rw [hitems] at hlength''
      rw [List.length_append, List.length_append, ← hsearched] at hlength
      rw [List.length_append] at hlength'
      simp only [Option.map_some, Option.toList_some, List.length_singleton] at hlength
      omega

theorem complete_iff (hd : Documented pmatch pcode) (memory : ℕ → ι) {calls : List (HtabCall ι)} :
    (∀ pre, pre <+: calls → ∃ s, run (step pmatch pcode) (new memory) pre = some s
        ∧ s.Complete pmatch pcode)
      ↔ MeetsAlong (step pmatch pcode) Usable (new memory) calls :=
  reaches_iff (I := Kept pmatch pcode) (R := fun _ _ => True) (fun _ h => h.complete hd)
    (fun _ _ h _ hc => h.step hd hc) (fun _ _ _ h _ hc hstep => h.miss hd hc hstep)
    (kept_new memory) (meetsAlong_true _ _)

def sameNumber (x y : ℕ) : Bool := x == y

def lowByte (x : ℕ) : ℕ := x % 256

lemma documented_numbers : Documented sameNumber lowByte where
  equivalence := by
    refine ⟨fun x => ?_, fun hxy => ?_, fun hxy hyz => ?_⟩
    · exact beq_self_eq_true x
    · exact beq_iff_eq.mpr (beq_iff_eq.mp hxy).symm
    · exact beq_iff_eq.mpr ((beq_iff_eq.mp hxy).trans (beq_iff_eq.mp hyz))
  same_code _ _ h := congrArg lowByte (beq_iff_eq.mp h)
  code_lt x := Nat.mod_lt x (by decide)

theorem complete_iff_two : Documented sameNumber lowByte
    ∧ ∀ pre, pre <+: [.first 1, .insert, .first 1, .insert] →
      ∃ s, run (step sameNumber lowByte) (new fun _ => 0) pre = some s
        ∧ s.Complete sameNumber lowByte := by
  refine ⟨documented_numbers, (complete_iff documented_numbers fun _ => 0).mpr
    ⟨trivial, fun s₁ h₁ => ?_⟩⟩
  obtain rfl := Option.some.inj h₁
  refine ⟨⟨_, rfl, nofun⟩, fun s₂ h₂ => ⟨trivial, fun s₃ h₃ => ?_⟩⟩
  obtain rfl := Option.some.inj h₂
  obtain rfl := Option.some.inj h₃
  refine ⟨⟨_, rfl, fun b hb => ?_⟩, fun _ _ => trivial⟩
  obtain rfl := Option.some.inj hb
  exact List.mem_singleton_self 0

-- The block that the second search finds is gone when the next one is linked behind it.
theorem complete_fails : Documented sameNumber lowByte
    ∧ ¬ ∀ pre, pre <+: [.first 1, .insert, .first 1, .remove, .insert] →
      ∃ s, run (step sameNumber lowByte) (new fun _ => 0) pre = some s
        ∧ s.Complete sameNumber lowByte := by
  refine ⟨documented_numbers, fun h => ?_⟩
  obtain ⟨s, hrun, -, rest, hanswers, hrest⟩ := h _ List.prefix_rfl
  obtain rfl := Option.some.inj hrun
  cases rest with
  | nil => exact absurd hrest.length_eq (by decide)
  | cons y rest =>
    obtain ⟨_, hcall, -⟩ := Htab.answers_cons.mp hanswers
    cases Option.some.inj hcall

end HtabSession

end SimpleCode.Algorithm
