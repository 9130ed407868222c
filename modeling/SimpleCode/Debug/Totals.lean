import SimpleCode.Debug.FunctionsStatistics
import SimpleCode.Foundations.OrderedMap
import SimpleCode.Foundations.Runs

set_option autoImplicit false

namespace SimpleCode.Debug.Statistics

open Foundations

structure Line where
  tid : ℕ
  times : ℕ
  average : ℤ
  func : ℕ
  name : Bytes
deriving DecidableEq, Repr

structure Output where
  lines : List Line
  -- A name that is `NULL` makes the stream bad, which ends the line and swallows the rest.
  cut : Bool
  count : ℕ

def Output.put (addr2func : ℕ → Option Bytes) (tid : ℕ) (s : Output) (entry : ℕ × List ℤ) : Output where
  lines :=
    match s.cut, addr2func entry.1 with
    | false, some name =>
      s.lines ++ [⟨tid, entry.2.length, entry.2.sum.tdiv entry.2.length, entry.1, name⟩]
    | _, _ => s.lines
  cut := s.cut || (addr2func entry.1).isNone
  count := s.count + 1

-- `addr2func` finds a name in the symbol table of the executable, or `NULL`.
def showStatistics (addr2func : ℕ → Option Bytes) (r : Recorder) : Output :=
  r.links.foldl (fun s tid =>
    (OrderedMap.group Data.func Data.tm (r.results tid)).entries.foldl (Output.put addr2func tid) s)
    ⟨[], false, 0⟩

inductive Hook
  | enter (func : ℕ) (now : ℤ)
  | exit (func : ℕ) (now : ℤ)
deriving DecidableEq, Repr

def Hook.now : Hook → ℤ
  | .enter _ now => now
  | .exit _ now => now

def Recorder.hook (r : Recorder) (e : ℕ × Hook) : Recorder :=
  if r.exited then r
  else
    match e.2 with
    | .enter func now => r.enter e.1 func now
    | .exit func now => r.exit e.1 func now

def hooksOf (t : ℕ) (es : List (ℕ × Hook)) : List Hook :=
  es.filterMap fun e => if e.1 = t then some e.2 else none

/-- The completed calls of a thread with their durations, where a call that is still open may hold
others only unless `whole`. -/
inductive Nested : Bool → List Hook → List Data → Prop
  | nil {whole : Bool} : Nested whole [] []
  | call {whole : Bool} {func : ℕ} {a b : ℤ} {inner rest : List Hook} {ds ds' : List Data} :
    Nested true inner ds → Nested whole rest ds' →
      Nested whole (.enter func a :: (inner ++ .exit func b :: rest)) (ds ++ ⟨func, b - a⟩ :: ds')
  | opened {func : ℕ} {a : ℤ} {rest : List Hook} {ds : List Data} :
    Nested false rest ds → Nested false (.enter func a :: rest) ds

def kept (threshold : ℤ) (ds : List Data) : List Data :=
  ds.filter fun d => d.func ≠ 0 ∧ threshold < d.tm

def durations (threshold : ℤ) (func : ℕ) (ds : List Data) : List ℤ :=
  ((kept threshold ds).filter fun d => d.func = func).map Data.tm

def observed (threshold : ℤ) (es : List (ℕ × Hook)) : Recorder :=
  es.foldl Recorder.hook (.initial threshold)

/-- One line for a function that has durations, with their number and their average rounded down, and
none for the others. -/
def Lists (lines : List Line) (t func : ℕ) (tms : List ℤ) : Prop :=
  ((lines.filter fun l => l.tid = t ∧ l.func = func).map fun l => (l.times, l.average))
    = if tms = [] then [] else [(tms.length, tms.sum / tms.length)]

instance (lines : List Line) (t func : ℕ) (tms : List ℤ) : Decidable (Lists lines t func tms) :=
  inferInstanceAs (Decidable (_ = _))

section Threads

structure Local where
  stack : Option Stack
  results : List Data

variable {threshold : ℤ} {s s' : Local} {r : Recorder} {t u : ℕ} {k : Hook} {hs : List Hook}
  {ds : List Data} {whole : Bool}

def Local.hook (threshold : ℤ) (s : Local) : Hook → Option Local
  | .enter func now =>
    some (if func = 0 then s else { s with stack := some ((s.stack.getD []).push func now) })
  | .exit func now =>
    if func = 0 then some s
    else
      match s.stack with
      | none => some s
      | some [] => none
      | some (data :: rest) =>
        if data.func = func then
          some ⟨some rest, s.results ++ if threshold < now - data.tm then [⟨func, now - data.tm⟩] else []⟩
        else none

def Recorder.view (r : Recorder) (t : ℕ) : Local := ⟨r.tls t, r.results t⟩

structure Recording (threshold : ℤ) (r : Recorder) : Prop where
  enabled : r.enableRecord = true
  threshold : r.threshold = threshold
  running : r.exited = false
  nodup : r.links.Nodup
  linked : ∀ t, t ∈ r.links ↔ r.results t ≠ []

lemma recording_initial : Recording threshold (.initial threshold) :=
  ⟨rfl, rfl, rfl, List.nodup_nil, fun _ => iff_of_false List.not_mem_nil fun h => h rfl⟩

lemma view_addResult (h : Recording threshold r) (t func : ℕ) (tm : ℤ) :
    Recording threshold (r.addResult t func tm)
      ∧ (r.addResult t func tm).view t
        = ⟨r.tls t, r.results t ++ if threshold < tm then [⟨func, tm⟩] else []⟩
      ∧ ∀ u ≠ t, (r.addResult t func tm).view u = r.view u := by
  obtain rfl := h.threshold
  rw [Recorder.addResult]
  by_cases hle : tm ≤ r.threshold
  · rw [if_pos hle, if_neg hle.not_gt, List.append_nil]
    exact ⟨h, rfl, fun _ _ => rfl⟩
  · rw [if_neg hle, if_pos (not_le.mp hle)]
    refine ⟨⟨h.enabled, rfl, h.running, ?_, fun u => ?_⟩, ?_, fun u hu => ?_⟩
    · simp only
      split
      · next hempty =>
        have hnew : t ∉ r.links := fun hin => (h.linked t).mp hin hempty
        exact List.nodup_append'.mpr ⟨h.nodup, List.nodup_singleton t,
          List.disjoint_singleton.mpr hnew⟩
      · exact h.nodup
    · simp only
      by_cases hut : u = t
      · subst hut
        rw [Function.update_self]
        refine iff_of_true ?_ (by simp)
        split
        · exact List.mem_append_right _ (List.mem_singleton_self u)
        · next hne => exact (h.linked u).mpr hne
      · rw [Function.update_of_ne hut, ← h.linked u]
        split
        · rw [List.mem_append, List.mem_singleton, or_iff_left hut]
        · rfl
    · simp only [Recorder.view, Function.update_self]
    · simp only [Recorder.view, Function.update_of_ne hu]

lemma view_update_tls (stack : Stack) (h : Recording threshold r) :
    Recording threshold { r with tls := Function.update r.tls t (some stack) }
      ∧ Recorder.view { r with tls := Function.update r.tls t (some stack) } t
        = ⟨some stack, r.results t⟩
      ∧ ∀ u ≠ t, Recorder.view { r with tls := Function.update r.tls t (some stack) } u = r.view u := by
  refine ⟨⟨h.enabled, h.threshold, h.running, h.nodup, h.linked⟩, ?_, fun u hu => ?_⟩
  · simp only [Recorder.view, Function.update_self]
  · simp only [Recorder.view, Function.update_of_ne hu]

lemma view_hook (h : Recording threshold r) (hk : Local.hook threshold (r.view t) k = some s) :
    Recording threshold (r.hook (t, k)) ∧ (r.hook (t, k)).view t = s
      ∧ ∀ u ≠ t, (r.hook (t, k)).view u = r.view u := by
  rw [Recorder.hook, h.running, if_neg Bool.false_ne_true]
  cases k with
  | enter func now =>
    simp only [Local.hook, Option.some.injEq] at hk
    simp only [Recorder.enter]
    by_cases h0 : func = 0
    · rw [if_pos h0] at hk ⊢
      exact ⟨h, hk, fun _ _ => rfl⟩
    · rw [if_neg h0] at hk ⊢
      rw [if_pos h.enabled]
      obtain ⟨hrec, hself, hothers⟩ := view_update_tls (t := t) (((r.tls t).getD []).push func now) h
      exact ⟨hrec, hself.trans hk, hothers⟩
  | exit func now =>
    simp only [Recorder.exit]
    by_cases h0 : func = 0
    · rw [Local.hook, if_pos h0] at hk
      rw [if_pos h0]
      exact ⟨h, Option.some.inj hk, fun _ _ => rfl⟩
    · rw [Local.hook, if_neg h0] at hk
      rw [if_neg h0, if_pos h.enabled]
      cases htls : r.tls t with
      | none =>
        simp only [Recorder.view, htls, Option.some.injEq] at hk
        exact ⟨h, by rw [← hk, Recorder.view, htls], fun _ _ => rfl⟩
      | some stack =>
        cases stack with
        | nil => simp [Recorder.view, htls] at hk
        | cons data rest =>
          simp only [Recorder.view, htls] at hk
          by_cases hfunc : data.func = func
          · subst hfunc
            rw [if_pos rfl] at hk
            obtain ⟨hrec, hself, hothers⟩ := view_update_tls (t := t) rest h
            obtain ⟨hrec', hself', hothers'⟩ := view_addResult hrec t data.func (now - data.tm)
            simp only [Stack.pop, ne_eq, not_true_eq_false, if_false]
            refine ⟨hrec', ?_, fun u hu => (hothers' u hu).trans (hothers u hu)⟩
            rw [hself', ← Option.some.inj hk]
            simp only [Function.update_self]
          · rw [if_neg hfunc] at hk
            cases hk

lemma hooksOf_cons_self (t : ℕ) (k : Hook) (es : List (ℕ × Hook)) :
    hooksOf t ((t, k) :: es) = k :: hooksOf t es := by
  simp [hooksOf]

lemma hooksOf_cons_of_ne (h : u ≠ t) (k : Hook) (es : List (ℕ × Hook)) :
    hooksOf u ((t, k) :: es) = hooksOf u es := by
  simp [hooksOf, Ne.symm h]

theorem hooks_local {es : List (ℕ × Hook)} {final : ℕ → Local} (h : Recording threshold r)
    (hfinal : ∀ t, run (Local.hook threshold) (r.view t) (hooksOf t es) = some (final t)) :
    Recording threshold (es.foldl Recorder.hook r) ∧ ∀ t, (es.foldl Recorder.hook r).view t = final t := by
  induction es generalizing r with
  | nil => exact ⟨h, fun t => Option.some.inj (hfinal t)⟩
  | cons e es ih =>
    obtain ⟨t, k⟩ := e
    have hself := hfinal t
    rw [hooksOf_cons_self, run_cons] at hself
    obtain ⟨s, hs, hrest⟩ := hself
    obtain ⟨hrec, hview, hothers⟩ := view_hook h hs
    refine ih hrec fun u => ?_
    by_cases hut : u = t
    · subst hut
      rw [hview]
      exact hrest
    · rw [hothers u hut, ← hooksOf_cons_of_ne hut k]
      exact hfinal u

lemma run_append {xs ys : List Hook} (h : run (Local.hook threshold) s xs = some s') :
    run (Local.hook threshold) s (xs ++ ys) = run (Local.hook threshold) s' ys := by
  rw [run, List.foldlM_append]
  change (run (Local.hook threshold) s xs >>= _) = _
  rw [h]
  rfl

lemma kept_append (ds ds' : List Data) : kept threshold (ds ++ ds') = kept threshold ds ++ kept threshold ds' :=
  List.filter_append ..

lemma kept_cons (data : Data) (ds : List Data) : kept threshold (data :: ds)
    = (if data.func ≠ 0 ∧ threshold < data.tm then [data] else []) ++ kept threshold ds := by
  rw [kept, List.filter_cons]
  by_cases h : data.func ≠ 0 ∧ threshold < data.tm
  · rw [if_pos h, if_pos (decide_eq_true h)]
    rfl
  · rw [if_neg h, if_neg (by simpa using h)]
    rfl

lemma exit_call {func : ℕ} {a b : ℤ} (hfunc : func ≠ 0) {outer : Stack}
    (h : s.stack.getD [] = ⟨func, a⟩ :: outer) : Local.hook threshold s (.exit func b)
      = some ⟨some outer, s.results ++ if threshold < b - a then [⟨func, b - a⟩] else []⟩ := by
  cases hstack : s.stack with
  | none =>
    rw [hstack] at h
    cases h
  | some stack =>
    rw [hstack, Option.getD_some] at h
    subst h
    simp only [Local.hook, if_neg hfunc, hstack, if_true]

theorem nested_run (threshold : ℤ) (h : Nested whole hs ds) (s : Local) :
    ∃ s', run (Local.hook threshold) s hs = some s' ∧ s'.results = s.results ++ kept threshold ds
      ∧ (whole = true → s'.stack.getD [] = s.stack.getD []) := by
  induction h generalizing s with
  | nil => exact ⟨s, rfl, (List.append_nil _).symm, fun _ => rfl⟩
  | @call whole func a b inner rest ds ds' _ _ ihInner ihRest =>
    by_cases h0 : func = 0
    · obtain ⟨s₁, hrun₁, hresults₁, hstack₁⟩ := ihInner s
      obtain ⟨s₂, hrun₂, hresults₂, hstack₂⟩ := ihRest s₁
      refine ⟨s₂, run_cons.mpr ⟨s, by rw [Local.hook, if_pos h0], ?_⟩, ?_, fun hwhole =>
        (hstack₂ hwhole).trans (hstack₁ rfl)⟩
      · rw [run_append hrun₁]
        exact run_cons.mpr ⟨s₁, by rw [Local.hook, if_pos h0], hrun₂⟩
      · rw [hresults₂, hresults₁, kept_append, kept_cons, if_neg (fun h => h.1 h0), List.nil_append,
          List.append_assoc]
    · obtain ⟨s₁, hrun₁, hresults₁, hstack₁⟩ := ihInner
        { s with stack := some ((s.stack.getD []).push func a) }
      obtain ⟨s₂, hrun₂, hresults₂, hstack₂⟩ := ihRest
        ⟨some (s.stack.getD []), s₁.results ++ if threshold < b - a then [⟨func, b - a⟩] else []⟩
      refine ⟨s₂, run_cons.mpr ⟨_, by rw [Local.hook, if_neg h0], ?_⟩, ?_, fun hwhole => hstack₂ hwhole⟩
      · rw [run_append hrun₁]
        exact run_cons.mpr ⟨_, exit_call h0 (hstack₁ rfl), hrun₂⟩
      · have hkept : (func ≠ 0 ∧ threshold < b - a) ↔ threshold < b - a := and_iff_right h0
        rw [hresults₂, hresults₁, kept_append, kept_cons]
        simp only [hkept, List.append_assoc]
  | @opened func a rest ds _ ih =>
    obtain ⟨s', hrun, hresults, -⟩ := ih (if func = 0 then s else
      { s with stack := some ((s.stack.getD []).push func a) })
    refine ⟨s', run_cons.mpr ⟨_, rfl, hrun⟩, ?_, nofun⟩
    rw [hresults]
    split <;> rfl

end Threads

section Lines

variable {addr2func : ℕ → Option Bytes} {r : Recorder} {t func : ℕ}

def reported (r : Recorder) : List (ℕ × ℕ × List ℤ) :=
  r.links.flatMap fun t => (OrderedMap.group Data.func Data.tm (r.results t)).entries.map (Prod.mk t)

def lineOf (addr2func : ℕ → Option Bytes) (x : ℕ × ℕ × List ℤ) : Line :=
  ⟨x.1, x.2.2.length, x.2.2.sum.tdiv x.2.2.length, x.2.1, (addr2func x.2.1).getD []⟩

lemma put_cut {s : Output} (h : s.cut = true) (xs : List (ℕ × ℕ × List ℤ)) :
    (xs.foldl (fun s x => s.put addr2func x.1 x.2) s).lines = s.lines := by
  induction xs generalizing s with
  | nil => rfl
  | cons x xs ih =>
    rw [List.foldl_cons, ih (by simp [Output.put, h])]
    simp [Output.put, h]

lemma put_lines (xs : List (ℕ × ℕ × List ℤ)) {s : Output} (h : s.cut = false) :
    (xs.foldl (fun s x => s.put addr2func x.1 x.2) s).lines
      = s.lines ++ (xs.takeWhile fun x => (addr2func x.2.1).isSome).map (lineOf addr2func) := by
  induction xs generalizing s with
  | nil => exact (List.append_nil _).symm
  | cons x xs ih =>
    rw [List.foldl_cons]
    cases hname : addr2func x.2.1 with
    | none =>
      rw [put_cut (by simp [Output.put, hname]), List.takeWhile_cons_of_neg (by simp [hname])]
      simp [Output.put, hname]
    | some name =>
      rw [ih (by simp [Output.put, h, hname]), List.takeWhile_cons_of_pos (by simp [hname])]
      simp [Output.put, h, hname, lineOf]

lemma showStatistics_lines : (showStatistics addr2func r).lines
    = ((reported r).takeWhile fun x => (addr2func x.2.1).isSome).map (lineOf addr2func) := by
  have hfold : showStatistics addr2func r
      = (reported r).foldl (fun s x => s.put addr2func x.1 x.2) ⟨[], false, 0⟩ := by
    rw [showStatistics, reported, List.foldl_flatMap]
    simp only [List.foldl_map]
  rw [hfold, put_lines _ rfl, List.nil_append]

lemma filter_flatMap_nodup {α : Type} {ts : List ℕ} (hts : ts.Nodup) (g : ℕ → List α) (p : α → Bool)
    (hp : ∀ u ≠ t, (g u).filter p = []) :
    (ts.flatMap g).filter p = if t ∈ ts then (g t).filter p else [] := by
  induction ts with
  | nil => rfl
  | cons u ts ih =>
    obtain ⟨hu, hts⟩ := List.nodup_cons.mp hts
    rw [List.flatMap_cons, List.filter_append, ih hts]
    by_cases hut : u = t
    · subst hut
      rw [if_neg hu, if_pos List.mem_cons_self, List.append_nil]
    · rw [hp u hut, List.nil_append]
      simp [Ne.symm hut]

lemma reported_filter {threshold : ℤ} (h : Recording threshold r) (t func : ℕ) :
    (reported r).filter (fun x => x.1 = t ∧ x.2.1 = func)
      = if (r.results t).filter (fun d => d.func = func) = [] then []
        else [(t, func, ((r.results t).filter fun d => d.func = func).map Data.tm)] := by
  rw [reported, filter_flatMap_nodup (t := t) h.nodup _ _ fun u hu => ?_]
  · by_cases hlinked : t ∈ r.links
    · rw [if_pos hlinked, List.filter_map]
      have hkey : ((fun x : ℕ × ℕ × List ℤ => decide (x.1 = t ∧ x.2.1 = func)) ∘ Prod.mk t)
          = fun e => decide (e.1 = func) := by
        funext e
        simp
      rw [hkey, OrderedMap.filter_entries, OrderedMap.find?_group]
      split <;> rfl
    · have hempty : r.results t = [] := not_not.mp ((h.linked t).not.mp hlinked)
      rw [if_neg hlinked, hempty, List.filter_nil, if_pos rfl]
  · rw [List.filter_eq_nil_iff]
    intro x hx
    obtain ⟨e, -, rfl⟩ := List.mem_map.mp hx
    simp [hu]

lemma mem_reported {threshold : ℤ} (h : Recording threshold r) {x : ℕ × ℕ × List ℤ} :
    x ∈ reported r → ((r.results x.1).filter fun d => d.func = x.2.1) ≠ [] := by
  intro hx hnil
  have hfilter := reported_filter h x.1 x.2.1
  rw [if_pos hnil] at hfilter
  exact absurd (by simp) (List.filter_eq_nil_iff.mp hfilter x hx)

end Lines

section Totals

variable {threshold : ℤ} {addr2func : ℕ → Option Bytes} {es : List (ℕ × Hook)} {calls : ℕ → List Data}
  {hs : List Hook} {ds : List Data} {whole : Bool}

lemma nested_nonneg (h : Nested whole hs ds) (hclock : hs.Pairwise fun a b => a.now ≤ b.now) :
    ∀ d ∈ ds, 0 ≤ d.tm := by
  induction h with
  | nil => exact nofun
  | @call whole func a b inner rest ds ds' _ _ ihInner ihRest =>
    obtain ⟨hstart, hrest⟩ := List.pairwise_cons.mp hclock
    obtain ⟨hinner, hend, -⟩ := List.pairwise_append.mp hrest
    intro d hd
    rcases List.mem_append.mp hd with hd | hd
    · exact ihInner hinner d hd
    · rcases List.mem_cons.mp hd with rfl | hd
      · have hle := hstart (.exit func b) (List.mem_append_right _ List.mem_cons_self)
        exact sub_nonneg.mpr hle
      · exact ihRest (List.pairwise_cons.mp hend).2 d hd
  | opened _ ih => exact ih (List.pairwise_cons.mp hclock).2

lemma pairwise_hooksOf (t : ℕ) (hclock : es.Pairwise fun a b => a.2.now ≤ b.2.now) :
    (hooksOf t es).Pairwise fun a b => a.now ≤ b.now := by
  rw [hooksOf, List.pairwise_filterMap]
  refine hclock.imp fun {a b} hab x hx y hy => ?_
  split at hx
  · split at hy
    · cases hx
      cases hy
      exact hab
    · cases hy
  · cases hx

lemma recorded_calls (threshold : ℤ) (hnested : ∀ t, Nested false (hooksOf t es) (calls t)) :
    Recording threshold (observed threshold es)
      ∧ ∀ t, (observed threshold es).results t = kept threshold (calls t) := by
  have hlocal := fun t => nested_run threshold (hnested t) ⟨none, []⟩
  choose final hrun hresults _ using hlocal
  obtain ⟨hrec, hview⟩ := hooks_local recording_initial hrun
  refine ⟨hrec, fun t => ?_⟩
  have ht := congrArg Local.results (hview t)
  rw [hresults t, List.nil_append] at ht
  exact ht

lemma durations_nonneg (threshold : ℤ) {t : ℕ} (func : ℕ) (hnested : Nested false (hooksOf t es) (calls t))
    (hclock : es.Pairwise fun a b => a.2.now ≤ b.2.now) :
    0 ≤ (durations threshold func (calls t)).sum := by
  refine List.sum_nonneg fun tm htm => ?_
  obtain ⟨d, hd, rfl⟩ := List.mem_map.mp htm
  have hd := List.mem_of_mem_filter (List.mem_of_mem_filter hd)
  exact nested_nonneg hnested (pairwise_hooksOf t hclock) d hd

theorem showStatistics_iff (hnested : ∀ t, Nested false (hooksOf t es) (calls t))
    (hclock : es.Pairwise fun a b => a.2.now ≤ b.2.now) :
    ((observed threshold es).exited = false ∧ ∀ t func,
      Lists (showStatistics addr2func (observed threshold es)).lines t func
        (durations threshold func (calls t)))
      ↔ ∀ t func, durations threshold func (calls t) ≠ [] → (addr2func func).isSome := by
  obtain ⟨hrec, hresults⟩ := recorded_calls threshold hnested
  have hdurations : ∀ t func, durations threshold func (calls t)
      = (((observed threshold es).results t).filter fun d => d.func = func).map Data.tm :=
    fun t func => by rw [hresults, durations]
  constructor
  · rintro ⟨-, hlines⟩ t func hne
    by_contra hname
    have hline := hlines t func
    rw [Lists, if_neg hne, List.filter_eq_nil_iff.mpr] at hline
    · cases hline
    · intro l hl hfunc
      rw [showStatistics_lines] at hl
      obtain ⟨x, hx, rfl⟩ := List.mem_map.mp hl
      have hnamed := List.mem_takeWhile_imp hx
      have hx2 : x.2.1 = func := (of_decide_eq_true hfunc).2
      rw [hx2] at hnamed
      exact hname hnamed
  · intro hnames
    refine ⟨hrec.running, fun t func => ?_⟩
    have hall : (reported (observed threshold es)).takeWhile (fun x => (addr2func x.2.1).isSome)
        = reported (observed threshold es) := by
      refine List.takeWhile_eq_self_iff.mpr fun x hx => hnames x.1 x.2.1 ?_
      rw [hdurations]
      exact fun hnil => mem_reported hrec hx (List.map_eq_nil_iff.mp hnil)
    have hkey : (fun l : Line => decide (l.tid = t ∧ l.func = func)) ∘ lineOf addr2func
        = fun x => decide (x.1 = t ∧ x.2.1 = func) := rfl
    rw [Lists, showStatistics_lines, hall, List.filter_map, hkey, reported_filter hrec, hdurations]
    by_cases hnil : ((observed threshold es).results t).filter (fun d => d.func = func) = []
    · rw [if_pos hnil, if_pos (by rw [hnil]; rfl)]
      rfl
    · rw [if_neg hnil, if_neg (fun h => hnil (List.map_eq_nil_iff.mp h)), ← hdurations]
      have hsum := durations_nonneg threshold func (hnested t) hclock
      simp only [List.map_cons, List.map_nil, lineOf, Int.tdiv_eq_ediv_of_nonneg hsum]

lemma nested_one_thread {t : ℕ} (h : Nested false (es.map Prod.snd) ds) (hes : ∀ e ∈ es, e.1 = t) :
    ∀ u, Nested false (hooksOf u es) (if u = t then ds else []) := by
  intro u
  by_cases hut : u = t
  · subst hut
    have hall : hooksOf u es = es.map Prod.snd := by
      rw [hooksOf, ← List.filterMap_eq_map]
      exact List.filterMap_congr fun e he => if_pos (hes e he)
    rwa [hall, if_pos rfl]
  · have hnone : hooksOf u es = [] :=
      List.filterMap_eq_nil_iff.mpr fun e he => if_neg fun h => hut (h.symm.trans (hes e he))
    rw [hnone, if_neg hut]
    exact .nil

theorem showStatistics_iff_recursive :
    ((observed 2 [(1, .enter 40 0), (1, .enter 40 3), (1, .exit 40 7), (1, .exit 40 12)]).exited = false
      ∧ ∀ t func, Lists (showStatistics (fun _ => some [102]) (observed 2 [(1, .enter 40 0), (1, .enter 40 3),
          (1, .exit 40 7), (1, .exit 40 12)])).lines t func
        (durations 2 func (if t = 1 then [⟨40, 4⟩, ⟨40, 12⟩] else [])))
      ↔ ∀ t func, durations 2 func (if t = 1 then [⟨40, 4⟩, ⟨40, 12⟩] else []) ≠ [] →
        ((fun _ => some [102] : ℕ → Option Bytes) func).isSome :=
  showStatistics_iff (nested_one_thread (@Nested.call _ _ _ _ [.enter 40 3, .exit 40 7] [] _ _
    (@Nested.call _ _ _ _ [] [] _ _ .nil .nil) .nil) (by decide)) (by decide)

-- Function 40 has no name, and the line of function 50 is lost with the rest of the stream.
theorem showStatistics_swallows : ¬ ∀ (threshold : ℤ) (addr2func : ℕ → Option Bytes)
    (es : List (ℕ × Hook)) (calls : ℕ → List Data), (∀ t, Nested false (hooksOf t es) (calls t)) →
    (es.Pairwise fun a b => a.2.now ≤ b.2.now) → (observed threshold es).exited = false ∧ ∀ t func,
      Lists (showStatistics addr2func (observed threshold es)).lines t func
        (durations threshold func (calls t)) := by
  intro h
  have hlines := h 0 (fun func => if func = 50 then some [102] else none)
    [(1, .enter 40 0), (1, .exit 40 5), (1, .enter 50 6), (1, .exit 50 9)]
    (fun t => if t = 1 then [⟨40, 5⟩, ⟨50, 3⟩] else [])
    (nested_one_thread (@Nested.call _ _ _ _ [] [.enter 50 6, .exit 50 9] _ _ .nil
      (@Nested.call _ _ _ _ [] [] _ _ .nil .nil)) (by decide)) (by decide)
  exact absurd (hlines.2 1 50) (by decide)

end Totals

end SimpleCode.Debug.Statistics
