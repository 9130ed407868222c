import SimpleCode.LibRtspServer.DelayTask

set_option autoImplicit false

namespace SimpleCode.LibRtspServer

open Foundations

def DelayTask.Before (a b : DelayTask) : Prop := a.due < b.due ∨ a.due = b.due ∧ a.serial < b.serial

namespace DelayQueue

/-- The time that each task waits is kept in the `delta_time` up to it, only tasks of the queue are
written, and the callbacks are called in the order of their due times. -/
structure Kept (s : DelayQueue) : Prop where
  left : ∀ pre t delta, pre ++ [(t, delta)] <+: s.delayTaskQueue →
    ((pre ++ [(t, delta)]).map Prod.snd).sum = t.due - s.lastSyncTime
  tame : s.wild = false
  ordered : s.ran.Pairwise DelayTask.Before

def reading (s : DelayQueue) : Event → Option ℕ
  | .create mem _ _ _ now => mem.map fun _ => now
  | .getMin now => if s.delayTaskQueue = [] then none else some now
  | .begin now => if ∃ p ∈ s.delayTaskQueue.head?, p.2 ≠ 0 then some now else none
  | .done nextDelay now => nextDelay.map fun _ => now
  | _ => none

/-- The clock does not go back, and not too far on. -/
def Clocked (s : DelayQueue) (e : Event) : Prop :=
  ∀ now ∈ s.reading e, s.lastSyncTime ≤ now ∧ now - s.lastSyncTime < intMax

/-- No task is deleted that is the last of several, and a callback that destroys its own task does
not ask for it to be delayed, or have it replaced at its address. -/
def Spares (s : DelayQueue) : Event → Prop
  | .destroy addr => ¬ s.LastOfMany addr
  | .destroySess arg => ∀ u ∈ s.tasks.getLast?, u.arg = arg → ∀ t ∈ s.tasks, t.arg = arg
  | .done nextDelay _ => ∀ r ∈ s.running, r ∈ s.tasks ∨ nextDelay = none ∧ s.task r.addr = none
  | _ => True

instance (s : DelayQueue) : DecidablePred s.Clocked :=
  fun e => inferInstanceAs (Decidable (∀ now ∈ s.reading e, _ ∧ _))

instance (s : DelayQueue) : DecidablePred s.Spares
  | .destroy addr => inferInstanceAs (Decidable ¬ s.LastOfMany addr)
  | .destroySess arg =>
    inferInstanceAs (Decidable (∀ u ∈ s.tasks.getLast?, u.arg = arg → ∀ t ∈ s.tasks, t.arg = arg))
  | .done nextDelay _ => inferInstanceAs
    (Decidable (∀ r ∈ s.running, r ∈ s.tasks ∨ nextDelay = none ∧ s.task r.addr = none))
  | .create .. | .getMin _ | .begin _ => isTrue trivial

structure Sound (s : DelayQueue) : Prop where
  accounts : DeltaQueue.Accounts (fun t => t.due - s.lastSyncTime) 0 s.delayTaskQueue
  sorted : s.tasks.Pairwise DelayTask.Before
  addrs : (s.tasks.map DelayTask.addr).Nodup
  serials : ∀ t ∈ s.tasks, t.serial < s.serial
  -- The waiting times are of type `int`.
  small : ∀ t ∈ s.tasks, t.due - s.lastSyncTime ≤ intMax
  ordered : s.ran.Pairwise DelayTask.Before
  past : ∀ r ∈ s.ran, r.due ≤ s.lastSyncTime ∧ r.serial < s.serial
  before : ∀ r ∈ s.ran, ∀ t ∈ s.tasks, r.Before t ∨ r = t ∧ s.running = some t
  running : ∀ r ∈ s.running, r ∈ s.ran

variable {s : DelayQueue}

lemma Sound.kept (h : s.Sound) (hw : s.wild = false) : s.Kept := by
  refine ⟨fun pre t delta hpre => ?_, hw, h.ordered⟩
  have hsum := h.accounts.sum hpre
  rwa [Nat.zero_add] at hsum

lemma task_some {addr : ℕ} {t : DelayTask} (h : s.task addr = some t) : t ∈ s.tasks ∧ t.addr = addr :=
  ⟨List.mem_of_find?_eq_some h, by simpa using List.find?_some h⟩

lemma task_none {addr : ℕ} (h : s.task addr = none) : addr ∉ s.tasks.map DelayTask.addr := by
  intro hmem
  obtain ⟨t, ht, rfl⟩ := List.mem_map.mp hmem
  exact List.find?_eq_none.mp h t ht (beq_self_eq_true _)

lemma Sound.task_addr (h : s.Sound) {t : DelayTask} (ht : t ∈ s.tasks) : s.task t.addr = some t := by
  cases hs : s.task t.addr with
  | none => exact absurd (List.mem_map_of_mem ht) (task_none hs)
  | some t' =>
    obtain ⟨ht', haddr⟩ := task_some hs
    rw [List.inj_on_of_nodup_map h.addrs ht' ht haddr]

section Sync

variable {now : ℕ}

lemma syncDelayTime_eq (hle : s.lastSyncTime ≤ now) (hgap : now - s.lastSyncTime < intMax) :
    s.syncDelayTime now = { s with
      delayTaskQueue := DeltaQueue.elapse (now - s.lastSyncTime) s.delayTaskQueue
      lastSyncTime := now } := by
  rw [syncDelayTime, if_neg (Nat.not_lt.mpr hle), if_neg (Nat.not_le.mpr hgap)]

lemma tasks_elapse (e : ℕ) : (DeltaQueue.elapse e s.delayTaskQueue).map Prod.fst = s.tasks :=
  DeltaQueue.map_fst_elapse e _

lemma sound_sync (h : s.Sound) (hle : s.lastSyncTime ≤ now) (hgap : now - s.lastSyncTime < intMax) :
    (s.syncDelayTime now).Sound := by
  rw [syncDelayTime_eq hle hgap]
  have htasks := tasks_elapse (s := s) (now - s.lastSyncTime)
  refine ⟨?_, ?_, ?_, ?_, ?_, h.ordered, ?_, ?_, h.running⟩
  · refine (h.accounts.elapse (Nat.zero_le (now - s.lastSyncTime))).congr fun t _ => ?_
    change t.due - now = t.due - s.lastSyncTime - (now - s.lastSyncTime)
    omega
  · rw [tasks, htasks]
    exact h.sorted
  · rw [tasks, htasks]
    exact h.addrs
  · rw [tasks, htasks]
    exact h.serials
  · intro t ht
    exact (Nat.sub_le_sub_left hle _).trans (h.small t (htasks ▸ ht))
  · exact fun r hr => ⟨(h.past r hr).1.trans hle, (h.past r hr).2⟩
  · exact fun r hr t ht => h.before r hr t (htasks ▸ ht)

lemma wild_add (addr : ℕ) (proc : Task) (arg delay now : ℕ) :
    (s.addDelayTask addr proc arg delay now).wild = s.wild := by
  rw [addDelayTask, syncDelayTime]
  split_ifs <;> rfl

end Sync

section Insertion

lemma sound_insert (h : s.Sound) {addr : ℕ} (haddr : addr ∉ s.tasks.map DelayTask.addr) (proc : Task)
    (arg : ℕ) {delay : ℕ} (hdelay : delay ≤ intMax) :
    Sound { s with
      delayTaskQueue :=
        DeltaQueue.insert ⟨addr, proc, arg, s.lastSyncTime + delay, s.serial⟩ delay s.delayTaskQueue
      serial := s.serial + 1 } := by
  generalize ht : (⟨addr, proc, arg, s.lastSyncTime + delay, s.serial⟩ : DelayTask) = t
  have hdue : t.due = s.lastSyncTime + delay := ht ▸ rfl
  have hserial : t.serial = s.serial := ht ▸ rfl
  have hleft : 0 + delay = t.due - s.lastSyncTime := by omega
  obtain ⟨pre, post, hmap, hins, hpre, hpost⟩ := h.accounts.insert_split hleft
  have hold {t' : DelayTask} : t' ∈ s.tasks ↔ t' ∈ pre ∨ t' ∈ post := by
    rw [tasks, hmap, List.mem_append]
  have hnew {t' : DelayTask} (ht' : t' ∈ pre ++ t :: post) : t' = t ∨ t' ∈ s.tasks := by
    rw [hold]
    simp only [List.mem_append, List.mem_cons] at ht'
    tauto
  have hsorted := h.sorted
  rw [tasks, hmap, List.pairwise_append] at hsorted
  refine ⟨h.accounts.insert hleft, ?_, ?_, ?_, ?_, h.ordered, ?_, ?_, h.running⟩
  · rw [tasks, hins]
    refine List.pairwise_append.mpr ⟨hsorted.1, List.pairwise_cons.mpr ⟨?_, hsorted.2.1⟩, ?_⟩
    · intro u hu
      have hlt := hpost u hu
      exact .inl (by omega)
    · intro u hu v hv
      rcases List.mem_cons.mp hv with rfl | hv
      · have hle := hpre u hu
        have hlt := h.serials u (hold.mpr (.inl hu))
        change u.due < v.due ∨ u.due = v.due ∧ u.serial < v.serial
        omega
      · exact hsorted.2.2 u hu v hv
  · have hperm : (pre ++ t :: post).Perm (t :: s.tasks) := by
      rw [tasks, hmap]
      exact List.perm_middle
    rw [tasks, hins, (hperm.map _).nodup_iff, List.map_cons, List.nodup_cons, ← ht]
    exact ⟨haddr, h.addrs⟩
  · intro u hu
    rw [tasks, hins] at hu
    rcases hnew hu with rfl | hu
    · exact hserial ▸ Nat.lt_succ_self _
    · exact (h.serials u hu).trans (Nat.lt_succ_self _)
  · intro u hu
    rw [tasks, hins] at hu
    rcases hnew hu with rfl | hu
    · exact hleft ▸ (Nat.zero_add delay).symm ▸ hdelay
    · exact h.small u hu
  · exact fun r hr => ⟨(h.past r hr).1, (h.past r hr).2.trans (Nat.lt_succ_self _)⟩
  · intro r hr u hu
    rw [tasks, hins] at hu
    rcases hnew hu with rfl | hu
    · obtain ⟨hpast, hlt⟩ := h.past r hr
      left
      change r.due < u.due ∨ r.due = u.due ∧ r.serial < u.serial
      omega
    · exact h.before r hr u hu

lemma sound_add (h : s.Sound) {addr : ℕ} (haddr : addr ∉ s.tasks.map DelayTask.addr) (proc : Task) (arg : ℕ)
    {delay now : ℕ} (hdelay : delay ≤ intMax) (hle : s.lastSyncTime ≤ now)
    (hgap : now - s.lastSyncTime < intMax) : (s.addDelayTask addr proc arg delay now).Sound := by
  have hsync := sound_sync h hle hgap
  rw [addDelayTask]
  rw [syncDelayTime_eq hle hgap] at hsync ⊢
  refine sound_insert hsync ?_ proc arg hdelay
  rwa [tasks, tasks_elapse]

end Insertion

section Deletion

lemma tasks_del (addr : ℕ) : (s.delDelayTask addr).tasks = s.tasks.eraseP (·.addr == addr) :=
  DeltaQueue.map_fst_remove _ _

lemma sound_del (h : s.Sound) (addr : ℕ) : (s.delDelayTask addr).Sound := by
  have hsub : (s.delDelayTask addr).tasks.Sublist s.tasks := tasks_del addr ▸ List.eraseP_sublist
  refine ⟨h.accounts.remove _, h.sorted.sublist hsub, h.addrs.sublist (hsub.map _), ?_, ?_, h.ordered,
    h.past, ?_, h.running⟩
  · exact fun t ht => h.serials t (hsub.subset ht)
  · exact fun t ht => h.small t (hsub.subset ht)
  · exact fun r hr t ht => h.before r hr t (hsub.subset ht)

lemma sound_destroy (h : s.Sound) (addr : ℕ) : (s.destroyDelayTask addr).Sound := by
  rw [destroyDelayTask]
  cases s.task addr with
  | none => exact h
  | some t => exact sound_del h addr

lemma sound_stop (h : s.Sound) {r : DelayTask} (hr : s.running = some r) (hnot : r ∉ s.tasks) :
    Sound { s with running := none } := by
  refine ⟨h.accounts, h.sorted, h.addrs, h.serials, h.small, h.ordered, h.past, ?_, nofun⟩
  intro r' hr' t ht
  rcases h.before r' hr' t ht with hlt | ⟨-, hrun⟩
  · exact .inl hlt
  · obtain rfl : r = t := Option.some.inj (hr.symm.trans hrun)
    exact absurd ht hnot

lemma wild_destroy {addr : ℕ} (hw : s.wild = false) (hlast : ¬ s.LastOfMany addr) :
    (s.destroyDelayTask addr).wild = false := by
  rw [destroyDelayTask]
  cases s.task addr with
  | none => exact hw
  | some t => simp [delDelayTask, hw, hlast]

lemma Sound.addr_del (h : s.Sound) (addr : ℕ) :
    addr ∉ (s.delDelayTask addr).tasks.map DelayTask.addr := by
  have hmap : (s.delDelayTask addr).tasks.map DelayTask.addr = (s.tasks.map DelayTask.addr).erase addr := by
    rw [tasks_del, List.erase_eq_eraseP', List.eraseP_map]
    rfl
  rw [hmap]
  exact h.addrs.not_mem_erase

end Deletion

section SessTasks

variable {arg : ℕ}

lemma Sound.first_not_last (h : s.Sound) {r : DelayTask} {ts : List DelayTask} (hts : s.tasks = r :: ts) :
    ¬ s.LastOfMany r.addr := by
  rintro ⟨hlen, u, hu, haddr⟩
  have hnodup := h.addrs
  rw [hts, List.map_cons, List.nodup_cons] at hnodup
  cases ts with
  | nil => simp [hts] at hlen
  | cons v ts =>
    rw [hts, List.getLast?_cons_cons] at hu
    exact hnodup.1 (haddr ▸ List.mem_map_of_mem (List.mem_of_getLast? hu))

lemma sound_destroyAll (ts : List DelayTask) (h : s.Sound) :
    (ts.foldl (fun s t => s.destroyDelayTask t.addr) s).Sound := by
  induction ts generalizing s with
  | nil => exact h
  | cons t ts ih => exact ih (sound_destroy h t.addr)

lemma wild_destroyAll {ts : List DelayTask} (hts : s.tasks = ts) (h : s.Sound) (hw : s.wild = false) :
    (ts.foldl (fun s t => s.destroyDelayTask t.addr) s).wild = false := by
  induction ts generalizing s with
  | nil => exact hw
  | cons t ts ih =>
    have ht : t ∈ s.tasks := hts ▸ List.mem_cons_self
    have hrest : (s.destroyDelayTask t.addr).tasks = ts := by
      rw [destroyDelayTask, h.task_addr ht]
      simp [tasks_del, hts]
    exact ih hrest (sound_destroy h _) (wild_destroy hw (h.first_not_last hts))

lemma getLast?_eraseP {α : Type*} {l : List α} {u : α} {p : α → Bool} (hu : l.getLast? = some u)
    (hp : p u = false) : (l.eraseP p).getLast? = some u := by
  obtain ⟨init, rfl⟩ := List.getLast?_eq_some_iff.mp hu
  by_cases hex : ∃ b ∈ init, p b
  · obtain ⟨b, hb, hpb⟩ := hex
    rw [List.eraseP_append_left hpb _ hb]
    simp
  · rw [List.eraseP_append_right _ fun b hb hpb => hex ⟨b, hb, hpb⟩, List.eraseP_cons_of_neg (by simp [hp])]
    simp

lemma wild_destroyOthers {ts : List DelayTask} {u : DelayTask} (hu : s.tasks.getLast? = some u)
    (hne : ∀ t ∈ ts, t.addr ≠ u.addr) (hw : s.wild = false) :
    (ts.foldl (fun s t => s.destroyDelayTask t.addr) s).wild = false := by
  induction ts generalizing s with
  | nil => exact hw
  | cons t ts ih =>
    obtain ⟨hut, hne⟩ := List.forall_mem_cons.mp hne
    have hlast : ¬ s.LastOfMany t.addr := by
      rintro ⟨-, u', hu', haddr⟩
      obtain rfl : u = u' := Option.some.inj (hu.symm.trans hu')
      exact hut haddr.symm
    refine ih ?_ hne (wild_destroy hw hlast)
    change (s.destroyDelayTask t.addr).tasks.getLast? = some u
    rw [destroyDelayTask]
    cases s.task t.addr with
    | none => exact hu
    | some _ =>
      rw [tasks_del]
      exact getLast?_eraseP hu (beq_eq_false_iff_ne.mpr hut.symm)

lemma wild_destroySess (h : s.Sound) (hw : s.wild = false) (hspares : s.Spares (.destroySess arg)) :
    (s.destroySessTask arg).wild = false := by
  rw [destroySessTask]
  cases hu : s.tasks.getLast? with
  | none =>
    rw [List.getLast?_eq_none_iff.mp hu]
    exact hw
  | some u =>
    by_cases harg : u.arg = arg
    · have hall : s.tasks.filter (·.arg == arg) = s.tasks :=
        List.filter_eq_self.mpr fun t ht => beq_iff_eq.mpr (hspares u hu harg t ht)
      rw [hall]
      exact wild_destroyAll rfl h hw
    · refine wild_destroyOthers hu ?_ hw
      intro t ht heq
      obtain ⟨ht, htarg⟩ := List.mem_filter.mp ht
      obtain rfl := List.inj_on_of_nodup_map h.addrs ht (List.mem_of_getLast? hu) heq
      exact harg (beq_iff_eq.mp htarg)

end SessTasks

section Callbacks

lemma sound_call (h : s.Sound) (hrun : s.running = none) {t : DelayTask} {q : List (DelayTask × ℕ)}
    (hq : s.delayTaskQueue = (t, 0) :: q) : Sound { s with running := some t, ran := s.ran ++ [t] } := by
  have ht : t ∈ s.tasks := by simp [tasks, hq]
  have hbefore (r : DelayTask) (hr : r ∈ s.ran) (u : DelayTask) (hu : u ∈ s.tasks) : r.Before u :=
    (h.before r hr u hu).resolve_right fun hrt => nomatch hrun.symm.trans hrt.2
  have hdue : t.due ≤ s.lastSyncTime := by
    have haccounts := h.accounts
    rw [hq] at haccounts
    exact Nat.le_of_sub_eq_zero haccounts.1.symm
  refine ⟨h.accounts, h.sorted, h.addrs, h.serials, h.small, ?_, ?_, ?_, ?_⟩
  · refine List.pairwise_append.mpr ⟨h.ordered, List.pairwise_singleton _ _, ?_⟩
    intro r hr u hu
    exact List.mem_singleton.mp hu ▸ hbefore r hr t ht
  · intro r hr
    rcases List.mem_append.mp hr with hr | hr
    · exact h.past r hr
    · obtain rfl := List.mem_singleton.mp hr
      exact ⟨hdue, h.serials r ht⟩
  · intro r hr u hu
    rcases List.mem_append.mp hr with hr | hr
    · exact .inl (hbefore r hr u hu)
    · obtain rfl := List.mem_singleton.mp hr
      have hsorted := h.sorted
      change u ∈ s.tasks at hu
      rw [tasks, hq, List.map_cons] at hsorted hu
      rcases List.mem_cons.mp hu with rfl | hu
      · exact .inr ⟨rfl, rfl⟩
      · exact .inl ((List.pairwise_cons.mp hsorted).1 u hu)
  · rintro r ⟨⟩
    exact List.mem_append_right _ List.mem_cons_self

lemma sound_begin (h : s.Sound) (hrun : s.running = none) {now : ℕ} (hclock : s.Clocked (.begin now)) :
    (s.beginDelayTask now).Sound ∧ (s.beginDelayTask now).wild = s.wild
      ∧ (s.beginDelayTask now).tasks = s.tasks := by
  rw [beginDelayTask]
  cases hq : s.delayTaskQueue with
  | nil => exact ⟨h, rfl, rfl⟩
  | cons p q =>
    obtain ⟨t, delta⟩ := p
    -- The queue after the synchronisation.
    obtain ⟨s', hs', hsound, hrun', hwild, htasks⟩ : ∃ s', (if delta ≠ 0 then s.syncDelayTime now else s) = s'
        ∧ s'.Sound ∧ s'.running = none ∧ s'.wild = s.wild ∧ s'.tasks = s.tasks := by
      refine ⟨_, rfl, ?_⟩
      split_ifs with hdelta
      · obtain ⟨hle, hgap⟩ := hclock now (by simp [reading, hq, hdelta])
        refine ⟨sound_sync h hle hgap, ?_, ?_, ?_⟩ <;> rw [syncDelayTime_eq hle hgap]
        · exact hrun
        · exact tasks_elapse _
      · exact ⟨h, hrun, rfl, rfl⟩
    simp only [hs']
    split
    · exact ⟨sound_call hsound hrun' ‹_›, hwild, htasks⟩
    · exact ⟨hsound, hwild, htasks⟩

lemma Sound.running_first (h : s.Sound) {r : DelayTask} (hr : s.running = some r) (hmem : r ∈ s.tasks) :
    ∃ ts, s.tasks = r :: ts := by
  cases hts : s.tasks with
  | nil => simp [hts] at hmem
  | cons t ts =>
    rw [hts] at hmem
    rcases List.mem_cons.mp hmem with rfl | hmem
    · exact ⟨ts, rfl⟩
    have hsorted := h.sorted
    rw [hts] at hsorted
    have hlt : t.Before r := (List.pairwise_cons.mp hsorted).1 r hmem
    rcases h.before r (h.running r hr) t (hts ▸ List.mem_cons_self) with hgt | ⟨rfl, -⟩
    · rw [DelayTask.Before] at hlt hgt
      omega
    · exact ⟨ts, rfl⟩

end Callbacks

section Steps

lemma mem_del (h : s.Sound) {addr : ℕ} {t : DelayTask} :
    t ∈ (s.delDelayTask addr).tasks ↔ t ∈ s.tasks ∧ t.addr ≠ addr := by
  rw [tasks_del]
  refine ⟨fun ht => ⟨List.mem_of_mem_eraseP ht, ?_⟩, fun ⟨ht, hne⟩ => ?_⟩
  · rintro rfl
    have hnot := h.addr_del t.addr
    rw [tasks_del] at hnot
    exact hnot (List.mem_map_of_mem ht)
  · exact (List.mem_eraseP_of_neg (by simpa using hne)).mpr ht

lemma mem_destroy (h : s.Sound) {addr : ℕ} {t : DelayTask} :
    t ∈ (s.destroyDelayTask addr).tasks ↔ t ∈ s.tasks ∧ t.addr ≠ addr := by
  rw [destroyDelayTask]
  cases hs : s.task addr with
  | none => exact ⟨fun ht => ⟨ht, fun haddr => task_none hs (haddr ▸ List.mem_map_of_mem ht)⟩, And.left⟩
  | some u => exact mem_del h

lemma mem_destroyAll (ts : List DelayTask) (h : s.Sound) {t : DelayTask} :
    t ∈ (ts.foldl (fun s t => s.destroyDelayTask t.addr) s).tasks
      ↔ t ∈ s.tasks ∧ ∀ u ∈ ts, t.addr ≠ u.addr := by
  induction ts generalizing s with
  | nil => simp
  | cons u ts ih =>
    rw [List.foldl_cons, ih (sound_destroy h u.addr), mem_destroy h, List.forall_mem_cons, and_assoc]

lemma mem_destroySess (h : s.Sound) {arg : ℕ} {t : DelayTask} :
    t ∈ (s.destroySessTask arg).tasks ↔ t ∈ s.tasks ∧ t.arg ≠ arg := by
  rw [destroySessTask, mem_destroyAll _ h]
  refine and_congr_right fun ht => ⟨fun hall harg => ?_, fun hne u hu haddr => ?_⟩
  · exact hall t (List.mem_filter.mpr ⟨ht, beq_iff_eq.mpr harg⟩) rfl
  · obtain ⟨hu, harg⟩ := List.mem_filter.mp hu
    obtain rfl := List.inj_on_of_nodup_map h.addrs ht hu haddr
    exact hne (beq_iff_eq.mp harg)

lemma mem_add {addr : ℕ} {proc : Task} {arg delay now : ℕ} {t : DelayTask} (hle : s.lastSyncTime ≤ now)
    (hgap : now - s.lastSyncTime < intMax) : t ∈ (s.addDelayTask addr proc arg delay now).tasks
      ↔ t ∈ s.tasks ∨ ⟨addr, proc, arg, now + delay, s.serial⟩ = t := by
  rw [addDelayTask, syncDelayTime_eq hle hgap, tasks, DeltaQueue.mem_insert, tasks_elapse, or_comm, eq_comm]

/-- The event deletes this task, for good or to put it into the queue anew. -/
def Names (s : DelayQueue) : Event → DelayTask → Prop
  | .destroy addr, t => t.addr = addr
  | .destroySess arg, t => t.arg = arg
  | .done _ _, t => s.running = some t
  | _, _ => False

def asked (s : DelayQueue) : Event → Option DelayTask
  | .create mem proc arg delay now => mem.map fun addr => ⟨addr, proc, arg, now + delay, s.serial⟩
  | .done nextDelay now => nextDelay.bind fun delay =>
    s.running.map fun r => ⟨r.addr, r.proc, r.arg, now + delay, s.serial⟩
  | _ => none

/-- All other tasks stay, with their due times, and nothing else comes in. -/
def Changes (s : DelayQueue) (e : Event) (s' : DelayQueue) : Prop :=
  ∀ t, t ∈ s'.tasks ↔ (t ∈ s.tasks ∧ ¬ s.Names e t) ∨ s.asked e = some t

lemma changes_same {e : Event} {s' : DelayQueue} (htasks : s'.tasks = s.tasks) (hnames : ∀ t, ¬ s.Names e t)
    (hasked : s.asked e = none) : s.Changes e s' := by
  intro t
  simp [htasks, hnames t, hasked]

lemma Sound.names_done (h : s.Sound) {r : DelayTask} (hr : s.running = some r) (hmem : r ∈ s.tasks)
    {t : DelayTask} (ht : t ∈ s.tasks) : s.running = some t ↔ t.addr = r.addr := by
  rw [hr, Option.some.injEq]
  exact ⟨fun heq => heq ▸ rfl, fun haddr => (List.inj_on_of_nodup_map h.addrs ht hmem haddr).symm⟩

lemma Sound.mem_unnamed (h : s.Sound) {r : DelayTask} (hr : s.running = some r) (hmem : r ∈ s.tasks)
    {t : DelayTask} : t ∈ (s.delDelayTask r.addr).tasks ↔ t ∈ s.tasks ∧ ¬ s.running = some t := by
  rw [mem_del h]
  exact and_congr_right fun ht => not_congr (h.names_done hr hmem ht).symm

lemma sound_done (h : s.Sound) (hw : s.wild = false) {r : DelayTask} (hr : s.running = some r)
    {nextDelay : Option ℕ} {now : ℕ} (hdelay : ∀ delay ∈ nextDelay, delay ≤ intMax)
    (hclock : s.Clocked (.done nextDelay now)) (hspares : s.Spares (.done nextDelay now)) :
    (s.endDelayTask r nextDelay now).Sound ∧ (s.endDelayTask r nextDelay now).wild = false
      ∧ s.Changes (.done nextDelay now) (s.endDelayTask r nextDelay now) := by
  rcases hspares r hr with hmem | ⟨rfl, hnone⟩
  · have htask : ({ s with running := none } : DelayQueue).task r.addr = some r := h.task_addr hmem
    obtain ⟨ts, hts⟩ := h.running_first hr hmem
    have hwild : (s.delDelayTask r.addr).wild = false := by
      simp [delDelayTask, hw, h.first_not_last hts]
    have hfree := h.addr_del r.addr
    have hstop := sound_stop (sound_del h r.addr) hr fun hr => hfree (List.mem_map_of_mem hr)
    cases nextDelay with
    | none =>
      simp only [endDelayTask, destroyDelayTask, htask]
      refine ⟨hstop, hwild, fun t => ?_⟩
      simp only [asked, Names, Option.bind_none, reduceCtorEq, or_false]
      exact h.mem_unnamed hr hmem
    | some delay =>
      obtain ⟨hle, hgap⟩ := hclock now rfl
      simp only [endDelayTask, updateDelayTime, htask]
      refine ⟨sound_add hstop hfree r.proc r.arg (hdelay delay rfl) hle hgap, ?_, fun t => ?_⟩
      · rw [wild_add]
        exact hwild
      · rw [asked, hr, Option.bind_some, Option.map_some, Option.some.injEq, Names]
        refine (mem_add (s := { s.delDelayTask r.addr with running := none }) hle hgap).trans
          (or_congr_left ?_)
        exact h.mem_unnamed hr hmem
  · have hnot : r ∉ s.tasks := fun hr => task_none hnone (List.mem_map_of_mem hr)
    have htask : ({ s with running := none } : DelayQueue).task r.addr = none := hnone
    simp only [endDelayTask, destroyDelayTask, htask]
    refine ⟨sound_stop h hr hnot, hw, fun t => ?_⟩
    simp only [asked, Names, Option.bind_none, reduceCtorEq, or_false]
    exact ⟨fun ht => ⟨ht, fun hrun => hnot (Option.some.inj (hr.symm.trans hrun) ▸ ht)⟩, And.left⟩

lemma sound_step {e : Event} {s' : DelayQueue} (h : s.Sound) (hw : s.wild = false) (hclock : s.Clocked e)
    (hspares : s.Spares e) (hstep : s.step e = some s') : s'.Sound ∧ s'.wild = false ∧ s.Changes e s' := by
  cases e with
  | create mem proc arg delay now =>
    rw [step, Option.ite_none_right_eq_some, Option.some.injEq] at hstep
    obtain ⟨⟨hmem, hdelay⟩, rfl⟩ := hstep
    cases mem with
    | none => exact ⟨h, hw, changes_same rfl (fun _ => not_false) rfl⟩
    | some addr =>
      obtain ⟨hle, hgap⟩ := hclock now rfl
      refine ⟨sound_add h (task_none (hmem addr rfl)) proc arg hdelay hle hgap, ?_, fun t => ?_⟩
      · rw [createDelayTask, wild_add]
        exact hw
      · simp only [asked, Names, Option.map_some, Option.some.injEq, not_false_eq_true, and_true]
        exact mem_add hle hgap
  | destroy addr =>
    cases hstep
    refine ⟨sound_destroy h addr, wild_destroy hw hspares, fun t => ?_⟩
    simp only [asked, Names, reduceCtorEq, or_false]
    exact mem_destroy h
  | destroySess arg =>
    cases hstep
    refine ⟨sound_destroyAll _ h, wild_destroySess h hw hspares, fun t => ?_⟩
    simp only [asked, Names, reduceCtorEq, or_false]
    exact mem_destroySess h
  | getMin now =>
    cases hstep
    rw [getMinDelayTime]
    split_ifs with hq
    · exact ⟨h, hw, changes_same rfl (fun _ => not_false) rfl⟩
    · obtain ⟨hle, hgap⟩ := hclock now (by simp [reading, hq])
      refine ⟨sound_sync h hle hgap, ?_, changes_same ?_ (fun _ => not_false) rfl⟩
      · rw [syncDelayTime_eq hle hgap]
        exact hw
      · rw [syncDelayTime_eq hle hgap, tasks, tasks_elapse]
  | begin now =>
    rw [step, Option.ite_none_right_eq_some, Option.some.injEq] at hstep
    obtain ⟨hrun, rfl⟩ := hstep
    obtain ⟨hsound, hwild, htasks⟩ := sound_begin h hrun hclock
    exact ⟨hsound, hwild.trans hw, changes_same htasks (fun _ => not_false) rfl⟩
  | done nextDelay now =>
    rw [step, Option.ite_none_right_eq_some] at hstep
    obtain ⟨hdelay, hstep⟩ := hstep
    obtain ⟨r, hr, rfl⟩ := Option.map_eq_some_iff.mp hstep
    exact sound_done h hw hr hdelay hclock hspares

lemma sound_start (now : ℕ) : (start now).Sound :=
  ⟨trivial, .nil, .nil, nofun, nofun, .nil, nofun, nofun, nofun⟩

/-- A run in which every deletion spares the last of several tasks keeps the due times, whatever is
created, deleted or delayed in it. -/
theorem kept_of_spares (now : ℕ) {es : List Event} {s : DelayQueue}
    (hmeets : MeetsAlong step (fun s e => s.Clocked e ∧ s.Spares e) (start now) es)
    (hrun : run step (start now) es = some s) :
    s.Kept ∧ ∀ e s', s.Clocked e → s.Spares e → s.step e = some s' → s.Changes e s' := by
  have hinv : s.Sound ∧ s.wild = false := by
    refine @run_invariant_along _ _ step (fun s => s.Sound ∧ s.wild = false) _ ?_ _ _ _
      ⟨sound_start now, rfl⟩ hmeets hrun
    intro s e s' hs hm hstep
    obtain ⟨hsound, hwild, -⟩ := sound_step hs.1 hs.2 hm.1 hm.2 hstep
    exact ⟨hsound, hwild⟩
  refine ⟨hinv.1.kept hinv.2, fun e s' hclock hspares hstep => ?_⟩
  exact (sound_step hinv.1 hinv.2 hclock hspares hstep).2.2

def sessionRun : List Event := [.create (some 64) .prefetchFrm 7 0 5000, .begin 5000, .done (some 10000) 5200,
  .create (some 96) .handleRtspReq 7 0 9000, .begin 9000, .create (some 128) .destroyRtspSess 7 10000 9100,
  .done none 9200, .getMin 9300, .begin 15300, .done (some 5000) 15300, .begin 19100, .destroySess 7,
  .done none 19200]

theorem kept_of_spares_session : (∃ s, run step (start 5000) sessionRun = some s ∧ s.Kept)
    ∧ ∃ s s', run step (start 5000) (sessionRun.take 9) = some s
      ∧ s.step (.done (some 5000) 15300) = some s' ∧ s.Changes (.done (some 5000) 15300) s'
      ∧ s.tasks.length = 2 ∧ s'.tasks.length = 2 := by
  have hruns : (run step (start 5000) sessionRun).isSome := by decide +kernel
  obtain ⟨s, hs⟩ := Option.isSome_iff_exists.mp hruns
  refine ⟨⟨s, hs, (kept_of_spares 5000 (by decide +kernel) hs).1⟩, ?_⟩
  have hprefix : run step (start 5000) (sessionRun.take 9) = some _ := rfl
  refine ⟨_, _, rfl, rfl, ?_, rfl, rfl⟩
  exact (kept_of_spares 5000 (by decide +kernel) hprefix).2 _ _ (by decide) (by decide) rfl

/-- Two tasks, and the second is deleted: the head of the list gets its `delta_time`. -/
theorem destroy_last_wild : ∃ s, run step (start 0) [.create (some 64) .prefetchFrm 7 10 0,
    .create (some 96) .handleRtspReq 8 20 0, .destroy 96] = some s ∧ ¬ s.Kept :=
  ⟨_, rfl, fun h => Bool.noConfusion h.tame⟩

end Steps

end DelayQueue

end SimpleCode.LibRtspServer
