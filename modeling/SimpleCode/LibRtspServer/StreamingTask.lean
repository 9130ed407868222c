import SimpleCode.LibRtspServer.RequestHandling

set_option autoImplicit false

namespace SimpleCode.LibRtspServer

open Foundations
open LibRtsp hiding Fault

structure TaskSess where
  sess : ReqSess
  recvBuf : Bytes
  -- The procedures of the tasks of the session in the delay queue. Which of them is the next one whose
  -- time is up depends on their delays and the clock, and is left open.
  tasks : List Task
  listed : Bool
deriving DecidableEq, Repr

/-- What the execution of a task meets: a call of `handle_rtsp_req`, the frame that is got, of a type that
is known or not, and the memory for the tasks that are created. -/
structure ExecEnv where
  call : Call
  frm : Option (Option FrmType)
  createDelayTask : Bool

inductive TaskEvent
  | recv (text : Bytes) (createDelayTask : Bool)
  | exec (task : Task) (env : ExecEnv)
  | close

namespace TaskSess

variable (s : TaskSess) (env : ExecEnv)

def call : Call :=
  { env.call with
    recvBuf := s.recvBuf
    rtspSessExist := s.listed }

-- The next delay of `prefetch_frm`, or none for `-1`. What it does with the frame is not modelled here.
def prefetchFrm : Option ℕ :=
  if s.sess.rtspState ≠ .playing ∨ s.sess.state ≠ .init then none
  else match env.frm with
    | none => some (5 * 1000)
    | some none => none
    | some (some _) => some (10 * 1000)

def execHandleRtspReq : Option TaskSess :=
  match s.sess.handleRtspReq (s.call env) with
  | .error _ => none
  | .ok r =>
    let created := (r.created.drop s.sess.created.length).map Prod.fst
    let tasks := s.tasks ++ if env.createDelayTask then created else []
    some { s with
      sess := r
      tasks := if r.state = .retry then tasks else tasks.erase .handleRtspReq }

def execPrefetchFrm : TaskSess :=
  match s.prefetchFrm env with
  | some _ => s
  | none => { s with tasks := s.tasks.erase .prefetchFrm }

-- It is tried again later while a request is being handled.
def destroyRtspSess : TaskSess :=
  if s.sess.state ≠ .init then s
  else { s with
    sess.rtspState := .init
    tasks := []
    listed := false }

def step (s : TaskSess) : TaskEvent → Option TaskSess
  | .recv text createDelayTask =>
    if s.listed then some { s with
      recvBuf := text
      tasks := s.tasks ++ if createDelayTask then [.handleRtspReq] else [] }
    else none
  | .exec task env =>
    if task ∈ s.tasks then
      match task with
      | .handleRtspReq => s.execHandleRtspReq env
      | .prefetchFrm => some (s.execPrefetchFrm env)
      | .destroyRtspSess => some s.destroyRtspSess
    else none
  | .close => if s.listed then some s.destroyRtspSess else none

def start : TaskSess := ⟨.fresh, [], [], true⟩

/-- One task that fetches frames while they are played, and at most one else. -/
def Streams : Prop :=
  if s.sess.rtspState = .playing then s.tasks.count .prefetchFrm = 1 else s.tasks.count .prefetchFrm ≤ 1

/-- The call handles a PLAY request that is valid in the state of the session. -/
def Plays : Prop :=
  s.sess.rtspState ≠ .init ∧ match (s.sess.handlingMethodInit (s.call env)).parseRtspReq (s.call env) with
    | .error _ => False
    | .ok t => (t.state = .parsed ∨ t.state = .retry) ∧ t.req.method = some .play

/-- With a PLAY request there is one task in the end, and frames are only fetched in between the requests
while they are played. -/
def Steady : TaskEvent → Prop
  | .exec .handleRtspReq env =>
    s.Plays env → s.tasks.count .prefetchFrm + (if env.createDelayTask then 1 else 0) = 1
  | .exec .prefetchFrm env => s.sess.rtspState = .playing → s.sess.state = .init ∧ env.frm ≠ some none
  | _ => True

section Methods

structure Quiet (s r : RtspSess) : Prop where
  playing : r.rtspState = .playing → s.rtspState = .playing
  created : ∃ new, r.created = s.created ++ new ∧ Task.prefetchFrm ∉ new.map Prod.fst

variable {s r : RtspSess} {env : MethodEnv}

lemma quiet_of_eq (hstate : r.rtspState = s.rtspState) (hcreated : r.created = s.created) : Quiet s r :=
  ⟨fun h => hstate ▸ h, [], by rw [hcreated, List.append_nil], List.not_mem_nil⟩

lemma quiet_describe (h : s.handleMethodDescribe env = .ok r) : Quiet s r := by
  obtain ⟨state, sdpInfo, hr, -⟩ := s.handleMethodDescribe_spec env
  obtain rfl := Except.ok.inj (hr.symm.trans h)
  exact quiet_of_eq rfl rfl

lemma quiet_setup : Quiet s (s.handleMethodSetup env) := by
  obtain ⟨-, -, hstate, hcreated⟩ := ReqSess.createRtpSess_same env s
  rw [RtspSess.handleMethodSetup]
  by_cases hdone : (s.createRtpSess env).2
  · rw [if_pos hdone]
    refine ⟨fun hplaying => ?_, [], ?_, List.not_mem_nil⟩
    · by_cases hp : s.rtspState = .playing
      · exact hp
      · rw [hstate] at hplaying
        simp [RtspSess.become, hp] at hplaying
    · exact hcreated.trans (List.append_nil _).symm
  · rw [if_neg hdone]
    exact quiet_of_eq hstate hcreated

lemma quiet_pause : Quiet s s.handleMethodPause := by
  refine ⟨fun hplaying => ?_, [], (List.append_nil _).symm, List.not_mem_nil⟩
  by_cases hp : s.rtspState = .playing
  · exact hp
  · simp [RtspSess.handleMethodPause, RtspSess.become, hp] at hplaying

lemma handleMethod_cases {method : Method} (h : s.handleMethod env method = .ok r) :
    (method = .play ∧ s.rtspState ≠ .init ∧ r.rtspState = .playing
        ∧ r.created = s.created ++ [(.prefetchFrm, 0)])
      ∨ ¬ (s.rtspState ≠ .init ∧ method = .play) ∧ Quiet s r := by
  cases method with
  | play =>
    obtain rfl : s.handleMethodPlay = r := Except.ok.inj h
    rw [RtspSess.handleMethodPlay]
    by_cases hinit : s.rtspState = .init
    · rw [if_pos hinit]
      exact .inr ⟨fun h => h.1 hinit, quiet_of_eq rfl rfl⟩
    · rw [if_neg hinit]
      exact .inl ⟨rfl, hinit, rfl, rfl⟩
  | describe => exact .inr ⟨by rintro ⟨-, ⟨⟩⟩, quiet_describe h⟩
  | setup =>
    obtain rfl : s.handleMethodSetup env = r := Except.ok.inj h
    exact .inr ⟨by rintro ⟨-, ⟨⟩⟩, quiet_setup⟩
  | pause =>
    obtain rfl : s.handleMethodPause = r := Except.ok.inj h
    exact .inr ⟨by rintro ⟨-, ⟨⟩⟩, quiet_pause⟩
  | teardown =>
    obtain rfl := Except.ok.inj h
    exact .inr ⟨by rintro ⟨-, ⟨⟩⟩, by rintro ⟨-, ⟨⟩⟩, [(.destroyRtspSess, 10 * 1000)], rfl, by simp⟩
  | options | getParameter | setParameter =>
    obtain rfl := Except.ok.inj h
    exact .inr ⟨by rintro ⟨-, ⟨⟩⟩, quiet_of_eq rfl rfl⟩

end Methods

section Calls

variable {s t r : ReqSess} {c : Call}

def SameTasks (s t : ReqSess) : Prop := t.rtspState = s.rtspState ∧ t.created = s.created

lemma same_init : SameTasks s (s.handlingMethodInit c) := by
  rw [ReqSess.handlingMethodInit]
  split_ifs <;> exact ⟨rfl, rfl⟩

lemma same_parse (h : s.parseRtspReq c = .ok t) : SameTasks s t := by
  rw [ReqSess.parseRtspReq] at h
  split_ifs at h
  · cases h
    exact ⟨rfl, rfl⟩
  · obtain ⟨_, -, h⟩ := bind_eq_ok.mp h
    split at h
    · cases h
    · cases h
      exact ⟨rfl, rfl⟩

lemma same_produce (h : s.produceRtspResp c = .ok t) : SameTasks s t := by
  rw [ReqSess.produceRtspResp] at h
  split_ifs at h
  · cases h
    exact ⟨rfl, rfl⟩
  · obtain ⟨_, -, h⟩ := bind_eq_ok.mp h
    cases h
    exact ⟨rfl, rfl⟩
  · cases h
    exact ⟨rfl, rfl⟩
  · cases h
    exact ⟨rfl, rfl⟩

lemma same_done (h : s.handlingMethodDone = .ok t) : SameTasks s t := by
  rw [ReqSess.handlingMethodDone] at h
  split_ifs at h
  · cases h
    exact ⟨rfl, rfl⟩
  · obtain ⟨_, -, h⟩ := bind_eq_ok.mp h
    cases h
    exact ⟨rfl, rfl⟩

lemma run_cases (h : s.runRtspStateMachine c = .ok t) :
    ((s.state = .parsed ∨ s.state = .retry) ∧ s.req.method = some .play ∧ s.rtspState ≠ .init
        ∧ t.rtspState = .playing ∧ t.created = s.created ++ [(.prefetchFrm, 0)])
      ∨ ¬ (s.rtspState ≠ .init ∧ (s.state = .parsed ∨ s.state = .retry) ∧ s.req.method = some .play)
        ∧ Quiet s.toRtspSess t.toRtspSess := by
  rw [ReqSess.runRtspStateMachine] at h
  split_ifs at h with hskip
  · cases h
    exact .inr ⟨fun hplay => hplay.2.1.elim hskip.1 hskip.2, quiet_of_eq rfl rfl⟩
  · have hgo : s.state = .parsed ∨ s.state = .retry := by tauto
    obtain ⟨_, -, h⟩ := bind_eq_ok.mp h
    rw [RtspSess.runRtspStateMachine, if_neg hskip] at h
    cases hm : s.req.method with
    | none =>
      rw [hm] at h
      cases h
    | some method =>
      simp only [hm] at h
      cases hr : s.toRtspSess.handleMethod c.method method with
      | error f =>
        rw [hr] at h
        cases h
      | ok r =>
        rw [hr] at h
        obtain rfl := Except.ok.inj h
        rcases handleMethod_cases hr with ⟨rfl, hplay⟩ | ⟨hno, hquiet⟩
        · exact .inl ⟨hgo, rfl, hplay⟩
        · exact .inr ⟨fun hplay => hno ⟨hplay.1, Option.some.inj hplay.2.2⟩, hquiet⟩

lemma handleRtspReq_cases (h : s.handleRtspReq c = .ok r) :
    ∃ t, (s.handlingMethodInit c).parseRtspReq c = .ok t ∧
      (((t.state = .parsed ∨ t.state = .retry) ∧ t.req.method = some .play ∧ s.rtspState ≠ .init
          ∧ r.rtspState = .playing ∧ r.created = s.created ++ [(.prefetchFrm, 0)])
        ∨ ¬ (s.rtspState ≠ .init ∧ (t.state = .parsed ∨ t.state = .retry) ∧ t.req.method = some .play)
          ∧ Quiet s.toRtspSess r.toRtspSess) := by
  obtain ⟨v, hhandled, hdone⟩ := bind_eq_ok.mp h
  obtain ⟨t, ht, hrest⟩ := bind_eq_ok.mp hhandled
  obtain ⟨u, hu, hv⟩ := bind_eq_ok.mp hrest
  have hst : t.rtspState = s.rtspState ∧ t.created = s.created :=
    ⟨(same_parse ht).1.trans same_init.1, (same_parse ht).2.trans same_init.2⟩
  have hur : r.rtspState = u.rtspState ∧ r.created = u.created :=
    ⟨(same_done hdone).1.trans (same_produce hv).1, (same_done hdone).2.trans (same_produce hv).2⟩
  refine ⟨t, ht, ?_⟩
  rw [← hst.1, hur.1, hur.2, ← hst.2]
  refine (run_cases hu).imp_right fun hno => ⟨hno.1, ?_, ?_⟩
  · exact fun hplaying => hst.1 ▸ hno.2.playing (hur.1 ▸ hplaying)
  · obtain ⟨new, hnew, hmem⟩ := hno.2.created
    exact ⟨new, by rw [hur.2, hnew, hst.2], hmem⟩

end Calls

section Steps

variable {s s' : TaskSess} {env : ExecEnv}

lemma streams_handle (h : s.Streams) (hstep : s.execHandleRtspReq env = some s') :
    s'.Streams ↔ s.Steady (.exec .handleRtspReq env) := by
  rw [execHandleRtspReq] at hstep
  cases hr : s.sess.handleRtspReq (s.call env) with
  | error f =>
    rw [hr] at hstep
    cases hstep
  | ok r =>
    rw [hr] at hstep
    obtain rfl := Option.some.inj hstep
    obtain ⟨t, ht, hcases⟩ := handleRtspReq_cases hr
    have hplays : s.Plays env ↔ s.sess.rtspState ≠ .init ∧ (t.state = .parsed ∨ t.state = .retry)
        ∧ t.req.method = some .play := by rw [Plays, ht]
    -- The task of the request itself does not count.
    have hcount (ts : List Task) :
        (if r.state = .retry then ts else ts.erase .handleRtspReq).count .prefetchFrm = ts.count .prefetchFrm := by
      split_ifs
      · rfl
      · exact List.count_erase_of_ne (by decide)
    rw [Streams, Steady, hplays]
    dsimp only
    rw [hcount, List.count_append]
    rcases hcases with ⟨hgo, hmethod, hinit, hplaying, hcreated⟩ | ⟨hno, hplaying, new, hcreated, hmem⟩
    · rw [if_pos hplaying, hcreated, List.drop_left]
      have hone : (if env.createDelayTask then [(Task.prefetchFrm, 0)].map Prod.fst else []).count .prefetchFrm
          = if env.createDelayTask then 1 else 0 := by
        split_ifs <;> rfl
      rw [hone]
      exact ⟨fun hsum _ => hsum, fun hsum => hsum ⟨hinit, hgo, hmethod⟩⟩
    · have hzero : (if env.createDelayTask then (r.created.drop s.sess.created.length).map Prod.fst else []).count
          .prefetchFrm = 0 := by
        rw [hcreated, List.drop_left]
        split_ifs
        · exact List.count_eq_zero_of_not_mem hmem
        · rfl
      rw [hzero, Nat.add_zero]
      refine iff_of_true ?_ fun hp => absurd hp hno
      rw [Streams] at h
      by_cases hr' : r.rtspState = .playing
      · rw [if_pos hr']
        rwa [if_pos (hplaying hr')] at h
      · rw [if_neg hr']
        split_ifs at h
        · exact Nat.le_of_eq h
        · exact h

lemma streams_prefetch (h : s.Streams) (hmem : Task.prefetchFrm ∈ s.tasks) :
    (s.execPrefetchFrm env).Streams ↔ s.Steady (.exec .prefetchFrm env) := by
  have hpos := List.count_pos_iff.mpr hmem
  rw [Streams] at h
  rw [execPrefetchFrm, prefetchFrm, Steady]
  by_cases hplaying : s.sess.rtspState = .playing
  · rw [if_pos hplaying] at h
    by_cases hinit : s.sess.state = .init
    · rw [if_neg (by simp [hplaying, hinit])]
      cases hfrm : env.frm with
      | none =>
        refine iff_of_true ?_ fun _ => ⟨hinit, nofun⟩
        exact (if_pos hplaying).mpr h
      | some frm =>
        cases frm with
        | none =>
          refine iff_of_false (fun hs => ?_) fun hs => (hs hplaying).2 rfl
          have hone := (if_pos hplaying).mp hs
          rw [List.count_erase_self, h] at hone
          cases hone
        | some frm =>
          refine iff_of_true ?_ fun _ => ⟨hinit, nofun⟩
          exact (if_pos hplaying).mpr h
    · rw [if_pos (.inr hinit)]
      refine iff_of_false (fun hs => ?_) fun hs => hinit (hs hplaying).1
      have hone := (if_pos hplaying).mp hs
      rw [List.count_erase_self, h] at hone
      cases hone
  · rw [if_neg hplaying] at h
    rw [if_pos (.inl hplaying)]
    refine iff_of_true ((if_neg hplaying).mpr ?_) fun hp => absurd hp hplaying
    rw [List.count_erase_self]
    exact (Nat.sub_le _ _).trans h

lemma streams_destroy (h : s.Streams) : s.destroyRtspSess.Streams := by
  rw [destroyRtspSess]
  split_ifs
  · exact h
  · exact Nat.zero_le 1

lemma streams_step {e : TaskEvent} (h : s.Streams) (hstep : s.step e = some s') : s'.Streams ↔ s.Steady e := by
  cases e with
  | recv text createDelayTask =>
    rw [step, Option.ite_none_right_eq_some, Option.some.injEq] at hstep
    obtain ⟨-, rfl⟩ := hstep
    refine iff_of_true ?_ trivial
    have hcount : (s.tasks ++ if createDelayTask then [Task.handleRtspReq] else []).count Task.prefetchFrm
        = s.tasks.count Task.prefetchFrm := by
      rw [List.count_append]
      split_ifs <;> rfl
    rw [Streams, hcount]
    exact h
  | exec task env =>
    simp only [step, Option.ite_none_right_eq_some] at hstep
    obtain ⟨hmem, hstep⟩ := hstep
    cases task with
    | handleRtspReq => exact streams_handle h hstep
    | prefetchFrm =>
      cases hstep
      exact streams_prefetch h hmem
    | destroyRtspSess =>
      cases hstep
      exact iff_of_true (streams_destroy h) trivial
  | close =>
    rw [step, Option.ite_none_right_eq_some, Option.some.injEq] at hstep
    obtain ⟨-, rfl⟩ := hstep
    exact iff_of_true (streams_destroy h) trivial

end Steps

/-- Between the tasks of a run the number of those that fetch frames is right exactly when every event of
it is steady. -/
theorem streams_iff (es : List TaskEvent) :
    MeetsAlong step (fun s e => ∀ s', s.step e = some s' → s'.Streams) start es
      ↔ MeetsAlong step (fun s e => ∀ s', s.step e = some s' → s.Steady e) start es := by
  refine @meetsAlong_iff _ _ step Streams (fun _ _ => True) _ _ ?_ ?_ _ _ (Nat.zero_le 1) (meetsAlong_true _ _)
  · intro s e h _
    exact forall₂_congr fun s' hstep => streams_step h hstep
  · intro s e s' h _ hsteady hstep
    exact (streams_step h hstep).mpr (hsteady s' hstep)

def request (method : Method) : List TaskEvent :=
  [.recv (method.token ++ bytes " rtsp://h RTSP/1.0" ++ crlf ++ crlf) true,
    .exec .handleRtspReq ⟨⟨[], ⟨fun _ => false, fun _ => false, true, true, true, true, true⟩,
      ⟨true, none, none, (0, 0), true, true, 0, some (5000, 5001), true⟩, ⟨0, 0, 1, 0, 0, 0, 0⟩, true, true, true, true⟩,
      none, true⟩]

/-- A second PLAY leaves two tasks that fetch frames. -/
theorem playTwice_streams : ¬ MeetsAlong step (fun s e => ∀ s', s.step e = some s' → s'.Streams) start
    (request .setup ++ request .play ++ request .play) := by
  intro h
  have hrun : (run step start (request .setup ++ request .play ++ request .play)).map
      (fun s => (s.sess.rtspState, s.tasks)) = some (.playing, [.prefetchFrm, .prefetchFrm]) := by decide +kernel
  obtain ⟨t, ht, heq⟩ := Option.map_eq_some_iff.mp hrun
  obtain ⟨hplaying, htasks⟩ := Prod.mk.inj heq
  have hstart : start.Streams := Nat.zero_le 1
  have hstreams : t.Streams :=
    run_invariant_along (fun s e s' _ hall hstep => hall s' hstep) hstart h ht
  rw [Streams, if_pos hplaying, htasks] at hstreams
  exact absurd hstreams (by decide)

end TaskSess

end SimpleCode.LibRtspServer
