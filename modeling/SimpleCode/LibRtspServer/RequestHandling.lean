import SimpleCode.Foundations.Runs
import SimpleCode.LibRtspServer.RequestParsing

set_option autoImplicit false

namespace SimpleCode.LibRtspServer

open Foundations
open LibRtsp hiding Fault

inductive Objects
  | null
  | live
  | freed
deriving DecidableEq, Repr

inductive HandlingFault
  | text (f : LibRtsp.Fault)
  | noObject
  | freedObject
deriving DecidableEq, Repr

structure ReqSess extends RtspSess where
  objects : Objects
  sendQueue : List SendBuf
  request : Bytes
deriving DecidableEq, Repr

/-- A call of `handle_rtsp_req`: the text in `recv_buf`, and what the system gives to the call. -/
structure Call where
  recvBuf : Bytes
  parse : ParseEnv
  method : MethodEnv
  tm : Tm
  mallocReq : Bool
  mallocResp : Bool
  rtspSessExist : Bool
  createSendBuf : Bool

namespace ReqSess

variable (c : Call) (s : ReqSess)

def use : Except HandlingFault Unit :=
  match s.objects with
  | .null => .error .noObject
  | .live => .ok ()
  | .freed => .error .freedObject

def become (state : HandlingState) : ReqSess := { s with state }

def handlingMethodInit : ReqSess :=
  if s.state = .retry then s
  else if ¬ c.mallocReq ∨ ¬ c.mallocResp then s.become .failed
  else { s with
    req := .fresh
    resp := .fresh
    objects := .live
    state := .ready
    request := c.recvBuf }

def parseRtspReq : Except HandlingFault ReqSess :=
  if s.state ≠ .ready then .ok s
  else do
    s.use
    match s.toHandling.parseRtspReq c.parse c.recvBuf with
    | .error f => .error (.text f)
    | .ok h => .ok { s with toHandling := h }

def runRtspStateMachine : Except HandlingFault ReqSess :=
  if s.state ≠ .parsed ∧ s.state ≠ .retry then .ok s
  else do
    s.use
    match s.toRtspSess.runRtspStateMachine c.method with
    | .error f => .error (.text f)
    | .ok r => .ok { s with toRtspSess := r }

def produceRtspResp : Except HandlingFault ReqSess :=
  if ¬ c.rtspSessExist then .ok s
  else if s.state ≠ .error ∧ s.state ≠ .handled then .ok s
  else if ¬ c.createSendBuf then .ok (s.become .failed)
  else do
    s.use
    .ok { s with
      sendQueue := s.sendQueue ++ [⟨.rtspResp, respText c.tm s.toHandling⟩]
      state := .done }

def handlingMethodDone : Except HandlingFault ReqSess :=
  if s.state = .retry then .ok s
  else do
    s.use
    .ok { s with
      objects := .freed
      state := .init }

-- `handle_rtsp_req` up to the call of `handling_method_done`.
def handled : Except HandlingFault ReqSess := do
  let s ← (s.handlingMethodInit c).parseRtspReq c
  let s ← s.runRtspStateMachine c
  s.produceRtspResp c

-- The task is delayed if the state is `RETRY`, else it is finished.
def handleRtspReq : Except HandlingFault ReqSess := do
  let s ← s.handled c
  s.handlingMethodDone

def IsCseq (text : Bytes) (n : ℕ) : Prop := (hdrLines text).filterMap cseqOf = [n]

def Answers (n : ℕ) (buf : SendBuf) : Prop :=
  buf.type = .rtspResp ∧ ∃ (tm : Tm) (h : Handling), buf.data = respText tm h ∧ h.resp.cseq = n

/-- The call returns, without an access to an object that is not there; it has answered the request
once, unless it has failed, or will be repeated. -/
def Answered : Prop :=
  ∃ t s', s.handled c = .ok t ∧ s.handleRtspReq c = .ok s' ∧ (s'.state = .init ∨ s'.state = .retry)
    ∧ if s'.state = .init ∧ t.state ≠ .failed then
        ∃ buf, s'.sendQueue = s.sendQueue ++ [buf] ∧ ∀ n, IsCseq s'.request n → Answers n buf
      else s'.sendQueue = s.sendQueue

/-- The objects can be allocated, the parser has what it reads and gets to the `CSeq` header, and the
session is in the list. -/
structure Sane : Prop where
  listed : c.rtspSessExist
  malloc : s.state ≠ .retry → c.mallocReq ∧ c.mallocResp
  readable : s.state ≠ .retry → Handling.Readable c.parse c.recvBuf
  cseq : s.state ≠ .retry → ∀ n, IsCseq c.recvBuf n →
    (Handling.reached c.parse (hdrLines c.recvBuf)).filterMap cseqOf = [n]

structure Sound : Prop where
  state : s.state = .init ∨ s.state = .retry
  retry : s.state = .retry → s.objects = .live ∧ s.req.method ≠ none
    ∧ ∀ n, IsCseq s.request n → s.resp.cseq = n

variable {c : Call} {s : ReqSess}

structure Outcome (s r : RtspSess) : Prop where
  state : r.state = .handled ∨ r.state = .error ∨ r.state = .failed ∨ r.state = .retry
  method : r.req.method = s.req.method
  cseq : r.resp.cseq = s.resp.cseq

section Methods

variable (env : MethodEnv) (s : RtspSess)

lemma outcome_describe : ∃ r, s.handleMethodDescribe env = .ok r ∧ Outcome s r := by
  obtain ⟨state, sdpInfo, hr, hstate⟩ := s.handleMethodDescribe_spec env
  refine ⟨_, hr, ?_, rfl, rfl⟩
  rcases hstate with rfl | rfl | ⟨rfl, -⟩
  · exact .inr (.inr (.inl rfl))
  · exact .inr (.inr (.inr rfl))
  · exact .inl rfl

structure SameRequest (s r : RtspSess) : Prop where
  method : r.req.method = s.req.method
  cseq : r.resp.cseq = s.resp.cseq
  rtspState : r.rtspState = s.rtspState
  created : r.created = s.created

lemma createRtpSess_same : SameRequest s (s.createRtpSess env).1 := by
  have hid : SameRequest s (s.newSessId env) := by
    rw [RtspSess.newSessId]
    split_ifs <;> exact ⟨rfl, rfl, rfl, rfl⟩
  rw [RtspSess.createRtpSess]
  generalize s.newSessId env = s' at hid
  cases hmode : s'.intlvdMode with
  | true => exact ⟨hid.method, hid.cseq, hid.rtspState, hid.created⟩
  | false =>
    rw [if_neg Bool.false_ne_true, RtspSess.setupNonIntlvdMode]
    cases env.srvPorts with
    | none => exact hid
    | some ports => exact ⟨hid.method, hid.cseq, hid.rtspState, hid.created⟩

lemma outcome_setup : Outcome s (s.handleMethodSetup env) := by
  obtain ⟨hmethod, hcseq, -, -⟩ := createRtpSess_same env s
  rw [RtspSess.handleMethodSetup]
  by_cases hdone : (s.createRtpSess env).2
  · rw [if_pos hdone]
    exact ⟨.inl rfl, hmethod, hcseq⟩
  · rw [if_neg hdone]
    exact ⟨.inr (.inr (.inl rfl)), hmethod, hcseq⟩

lemma outcome_play : Outcome s s.handleMethodPlay := by
  rw [RtspSess.handleMethodPlay]
  split_ifs
  · exact ⟨.inr (.inl rfl), rfl, rfl⟩
  · exact ⟨.inl rfl, rfl, rfl⟩

lemma outcome_handleMethod (method : Method) : ∃ r, s.handleMethod env method = .ok r ∧ Outcome s r := by
  cases method with
  | describe => exact outcome_describe env s
  | setup => exact ⟨_, rfl, outcome_setup env s⟩
  | play => exact ⟨_, rfl, outcome_play s⟩
  | options | pause | getParameter | setParameter | teardown => exact ⟨_, rfl, .inl rfl, rfl, rfl⟩

end Methods

section Stages

structure Kept (s t : ReqSess) : Prop where
  objects : t.objects = .live
  sendQueue : t.sendQueue = s.sendQueue
  cseq : ∀ n, IsCseq t.request n → t.resp.cseq = n

lemma use_live (h : s.objects = .live) : s.use = .ok () := by
  rw [use, h]

lemma parse_ok (h : s.Sound) (hc : s.Sane c) : ∃ t, (s.handlingMethodInit c).parseRtspReq c = .ok t ∧ Kept s t
    ∧ ((t.state = .parsed ∨ t.state = .retry) ∧ t.req.method ≠ none ∨ t.state = .error ∨ t.state = .failed) := by
  rw [handlingMethodInit]
  by_cases hretry : s.state = .retry
  · obtain ⟨hlive, hmethod, hcseq⟩ := h.retry hretry
    rw [if_pos hretry, parseRtspReq, if_pos (by rw [hretry]; exact nofun)]
    exact ⟨s, rfl, ⟨hlive, rfl, hcseq⟩, .inl ⟨.inr hretry, hmethod⟩⟩
  · obtain ⟨hreq, hresp⟩ := hc.malloc hretry
    have hmalloc : ¬ (¬ c.mallocReq ∨ ¬ c.mallocResp) := fun hno => hno.elim (· hreq) (· hresp)
    rw [if_neg hretry, if_neg hmalloc]
    obtain ⟨p, hp, hstate, hcseq⟩ := Handling.parseRtspReq_spec (hc.readable hretry)
      (h := { s.toHandling with
        req := .fresh
        resp := .fresh
        state := .ready }) rfl rfl
    refine ⟨{ s with
      toHandling := p
      objects := .live
      request := c.recvBuf }, ?_, ⟨rfl, rfl, ?_⟩, ?_⟩
    · rw [parseRtspReq, if_neg (not_not_intro rfl), use_live rfl]
      change (match Handling.parseRtspReq c.parse _ c.recvBuf with
        | .error f => _
        | .ok h => _) = _
      simp only [hp]
    · intro n hn
      change p.resp.cseq = n
      rw [hcseq, hc.cseq hretry n hn]
      rfl
    · exact hstate.imp_left fun hparsed => ⟨.inl hparsed.1, hparsed.2⟩

lemma run_ok {t : ReqSess} (hk : Kept s t)
    (hstate : (t.state = .parsed ∨ t.state = .retry) ∧ t.req.method ≠ none ∨ t.state = .error ∨ t.state = .failed) :
    ∃ u, t.runRtspStateMachine c = .ok u ∧ Kept s u
      ∧ (u.state = .handled ∨ u.state = .error ∨ u.state = .failed ∨ u.state = .retry ∧ u.req.method ≠ none) := by
  rcases hstate with ⟨hrun, hmethod⟩ | hskip
  · obtain ⟨method, hm⟩ := Option.ne_none_iff_exists'.mp hmethod
    obtain ⟨r, hr, houtcome⟩ := outcome_handleMethod c.method t.toRtspSess method
    have hgo : ¬ (t.state ≠ .parsed ∧ t.state ≠ .retry) := fun hno => hrun.elim hno.1 hno.2
    refine ⟨{ t with toRtspSess := r }, ?_, ⟨hk.objects, hk.sendQueue, ?_⟩, ?_⟩
    · rw [runRtspStateMachine, if_neg hgo, use_live hk.objects, RtspSess.runRtspStateMachine, if_neg hgo, hm]
      dsimp only
      rw [hr]
      rfl
    · exact fun n hn => houtcome.cseq.trans (hk.cseq n hn)
    · refine houtcome.state.imp_right fun hrest => hrest.imp_right fun hrest => hrest.imp_right fun hretry => ?_
      exact ⟨hretry, fun hnone => hmethod (houtcome.method.symm.trans hnone)⟩
  · refine ⟨t, ?_, hk, ?_⟩
    · rw [runRtspStateMachine, if_pos]
      rcases hskip with hskip | hskip <;> rw [hskip] <;> exact ⟨nofun, nofun⟩
    · exact hskip.elim (fun he => .inr (.inl he)) fun hf => .inr (.inr (.inl hf))

lemma produce_ok {t : ReqSess} (hk : Kept s t) (hlisted : c.rtspSessExist)
    (hstate : t.state = .handled ∨ t.state = .error ∨ t.state = .failed ∨ t.state = .retry ∧ t.req.method ≠ none) :
    ∃ u, t.produceRtspResp c = .ok u ∧ u.objects = .live ∧ u.request = t.request
      ∧ ((u.state = .retry ∧ u.req.method ≠ none ∨ u.state = .failed) ∧ Kept s u
        ∨ u.state = .done ∧ ∃ buf, u.sendQueue = s.sendQueue ++ [buf] ∧ ∀ n, IsCseq u.request n → Answers n buf) := by
  have hsend (hanswer : t.state = .handled ∨ t.state = .error) : ¬ (t.state ≠ .error ∧ t.state ≠ .handled) :=
    fun hno => hanswer.elim hno.2 hno.1
  have hwith (hanswer : t.state = .handled ∨ t.state = .error) : ∃ u, t.produceRtspResp c = .ok u ∧ u.objects = .live
      ∧ u.request = t.request ∧ ((u.state = .retry ∧ u.req.method ≠ none ∨ u.state = .failed) ∧ Kept s u
        ∨ u.state = .done ∧ ∃ buf, u.sendQueue = s.sendQueue ++ [buf] ∧ ∀ n, IsCseq u.request n → Answers n buf) := by
    rw [produceRtspResp, if_neg (not_not_intro hlisted), if_neg (hsend hanswer)]
    by_cases hbuf : c.createSendBuf
    · rw [if_neg (not_not_intro hbuf), use_live hk.objects]
      refine ⟨_, rfl, hk.objects, rfl, .inr ⟨rfl, ⟨.rtspResp, respText c.tm t.toHandling⟩, ?_, ?_⟩⟩
      · exact congrArg (· ++ _) hk.sendQueue
      · exact fun n hn => ⟨rfl, c.tm, t.toHandling, rfl, hk.cseq n hn⟩
    · rw [if_pos hbuf]
      exact ⟨_, rfl, hk.objects, rfl, .inl ⟨.inr rfl, hk.objects, hk.sendQueue, hk.cseq⟩⟩
  have hskip (hno : t.state ≠ .error ∧ t.state ≠ .handled) : t.produceRtspResp c = .ok t := by
    rw [produceRtspResp, if_neg (not_not_intro hlisted), if_pos hno]
  rcases hstate with hstate | hstate | hstate | ⟨hstate, hmethod⟩
  · exact hwith (.inl hstate)
  · exact hwith (.inr hstate)
  · refine ⟨t, hskip ?_, hk.objects, rfl, .inl ⟨.inr hstate, hk⟩⟩
    rw [hstate]
    exact ⟨nofun, nofun⟩
  · refine ⟨t, hskip ?_, hk.objects, rfl, .inl ⟨.inl ⟨hstate, hmethod⟩, hk⟩⟩
    rw [hstate]
    exact ⟨nofun, nofun⟩

lemma done_ok {t : ReqSess} (h : s.handled c = .ok t) (hlive : t.objects = .live) (hstate : t.state ≠ .retry) :
    s.handleRtspReq c = .ok { t with
      objects := .freed
      state := .init } := by
  simp only [handleRtspReq, h, ok_bind, handlingMethodDone, if_neg hstate, use_live hlive]

end Stages

lemma answered_of_sane (h : s.Sound) (hc : s.Sane c) :
    s.Answered c ∧ ∀ s', s.handleRtspReq c = .ok s' → s'.Sound := by
  obtain ⟨t, ht, hkt, htstate⟩ := parse_ok h hc
  obtain ⟨u, hu, hku, hustate⟩ := run_ok (c := c) hkt htstate
  obtain ⟨v, hv, hlive, -, hvstate⟩ := produce_ok hku hc.listed hustate
  have hhandled : s.handled c = .ok v := by
    simp only [handled, ht, ok_bind, hu, hv]
  rcases hvstate with ⟨⟨hretry, hmethod⟩ | hfailed, hkv⟩ | ⟨hdone, hanswer⟩
  · have hnext : s.handleRtspReq c = .ok v := by
      simp only [handleRtspReq, hhandled, ok_bind, handlingMethodDone, if_pos hretry]
    refine ⟨⟨v, v, hhandled, hnext, .inr hretry, ?_⟩, fun s' hs' => ?_⟩
    · rw [if_neg fun hinit => nomatch hinit.1.symm.trans hretry]
      exact hkv.sendQueue
    · obtain rfl : v = s' := Except.ok.inj (hnext.symm.trans hs')
      exact ⟨.inr hretry, fun _ => ⟨hlive, hmethod, hkv.cseq⟩⟩
  · have hnext := done_ok hhandled hlive (by rw [hfailed]; exact nofun)
    refine ⟨⟨v, _, hhandled, hnext, .inl rfl, ?_⟩, fun s' hs' => ?_⟩
    · rw [if_neg fun hinit => hinit.2 hfailed]
      exact hkv.sendQueue
    · exact Except.ok.inj (hnext.symm.trans hs') ▸ ⟨.inl rfl, nofun⟩
  · have hnext := done_ok hhandled hlive (by rw [hdone]; exact nofun)
    refine ⟨⟨v, _, hhandled, hnext, .inl rfl, ?_⟩, fun s' hs' => ?_⟩
    · rw [if_pos ⟨rfl, by rw [hdone]; exact nofun⟩]
      exact hanswer
    · exact Except.ok.inj (hnext.symm.trans hs') ▸ ⟨.inl rfl, nofun⟩

section Runs

def step (s : ReqSess) (c : Call) : Option ReqSess := (s.handleRtspReq c).toOption

/-- From a session that handles no request, calls that are all sane answer their requests. -/
theorem answered_of_sane_calls {s : ReqSess} (hs : s.state = .init) {cs : List Call}
    (hc : MeetsAlong step (fun s c => s.Sane c) s cs) : MeetsAlong step (fun s c => s.Answered c) s cs := by
  refine @meetsAlong_mono _ _ step Sound _ _ ?_ ?_ _ _ ⟨.inl hs, fun hretry => nomatch hs.symm.trans hretry⟩ hc
  · exact fun s c h hc => (answered_of_sane h hc).1
  · intro s c s' h hc hstep
    rw [step] at hstep
    cases hcall : s.handleRtspReq c with
    | error f => cases hcall ▸ hstep
    | ok r =>
      rw [hcall] at hstep
      exact Option.some.inj hstep ▸ (answered_of_sane h hc).2 r hcall

def fresh : ReqSess :=
  ⟨⟨⟨.init, false, ⟨0, .main, none⟩, .fresh, .fresh⟩, .init, 0, []⟩, .null, [], []⟩

def optionsCall (malloc : Bool) : Call where
  recvBuf := bytes "OPTIONS rtsp://h RTSP/1.0" ++ crlf ++ bytes "CSeq: 2" ++ crlf ++ crlf
  parse := ⟨fun _ => false, fun _ => false, true, true, true, true, true⟩
  method := ⟨false, none, none, (0, 0), true, true, 0, none, true⟩
  tm := ⟨0, 0, 1, 0, 0, 0, 0⟩
  mallocReq := malloc
  mallocResp := malloc
  rtspSessExist := true
  createSendBuf := true

def describeCall (frmType : FrmType) : Call :=
  { optionsCall true with
    recvBuf := bytes "DESCRIBE rtsp://h RTSP/1.0" ++ crlf ++ bytes "CSeq: 2" ++ crlf ++ crlf
    method := ⟨true, some ⟨frmType, [0, 0, 0, 1, 0x67, 0x42, 0, 0x1e, 0, 0, 0, 1, 0x68, 0xce], fun _ => 0⟩,
      some fun _ => 1, (0, 0), true, true, 0, none, true⟩ }

def cseqLine : Bytes := bytes "CSeq: 2" ++ crlf ++ crlf

lemma hdrLines_cseqLine {text : Bytes} (h : getNextLine text = some cseqLine) : hdrLines text = [cseqLine] := by
  have hlast : getNextLine cseqLine = none := by decide +kernel
  rw [hdrLines, h]
  change lines _ = _
  rw [Handling.lines_eq, hdrLines, hlast]

lemma cseqLine_goesOn : Handling.goesOn (optionsCall true).parse cseqLine = .ok true := by
  have hscan : Scan.sscanf (Scan.lits (bytes "CSeq:") ++ [.space, .int]) cseqLine = [.num 2] := by decide +kernel
  rw [Handling.goesOn, Handling.reqHdr, if_pos (by decide +kernel), Handling.cseqHdr, hscan]
  rfl

lemma sane_of_lines {c : Call} (s : ReqSess) (h : hdrLines c.recvBuf = [cseqLine])
    (hparse : c.parse = (optionsCall true).parse) (hlisted : c.rtspSessExist) (hmalloc : c.mallocReq ∧ c.mallocResp) :
    s.Sane c := by
  refine ⟨hlisted, fun _ => hmalloc, fun _ => ⟨?_, ?_⟩, fun _ n hn => ?_⟩
  · rw [hparse]
    exact fun _ ptr _ => ⟨rfl, fun _ _ => rfl⟩
  · rw [h, hparse]
    intro line hline
    obtain rfl := List.mem_singleton.mp hline
    exact ⟨true, cseqLine_goesOn⟩
  · rw [IsCseq, h] at hn
    rwa [h, hparse, Handling.reached, cseqLine_goesOn]

-- The first call is to be repeated, as its frame does not describe the stream.
def retriedCalls : List Call := [describeCall .pframe, describeCall .iframe, optionsCall true]

theorem answered_of_sane_calls_retried : MeetsAlong step (fun s c => s.Answered c) fresh retriedCalls
    ∧ (run step fresh (retriedCalls.take 1)).map (·.state) = some .retry
    ∧ (run step fresh retriedCalls).map (·.sendQueue.length) = some 2 := by
  refine ⟨answered_of_sane_calls rfl (meetsAlong_of_forall (fun c hc s => ?_) _), by decide +kernel, by decide +kernel⟩
  have hlines (frmType : FrmType) : hdrLines (describeCall frmType).recvBuf = [cseqLine] :=
    hdrLines_cseqLine (by change getNextLine (describeCall .iframe).recvBuf = _; decide +kernel)
  simp only [retriedCalls, List.mem_cons, List.not_mem_nil, or_false] at hc
  rcases hc with rfl | rfl | rfl
  · exact sane_of_lines s (hlines .pframe) rfl rfl ⟨rfl, rfl⟩
  · exact sane_of_lines s (hlines .iframe) rfl rfl ⟨rfl, rfl⟩
  · exact sane_of_lines s (hdrLines_cseqLine (by decide +kernel)) rfl rfl ⟨rfl, rfl⟩

/-- Without memory for the request the cleanup reads through a pointer that was never set. -/
theorem noMemory_faults : ¬ MeetsAlong step (fun s c => s.Answered c) fresh [optionsCall false] := by
  rintro ⟨⟨t, s', -, hs', -⟩, -⟩
  exact nomatch hs'

end Runs

end ReqSess

end SimpleCode.LibRtspServer
