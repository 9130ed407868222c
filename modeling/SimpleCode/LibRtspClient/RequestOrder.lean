import SimpleCode.Foundations.Runs
import SimpleCode.LibRtspClient.RtspCli

set_option autoImplicit false

namespace SimpleCode.LibRtspClient

open Foundations Scan LibRtsp

inductive Event
  | step (env : SendEnv)
  | resp (msg : Bytes)

-- A request, with the session description when it was sent, or a response.
inductive Item
  | sent (sdp : Option SdpInfo) (request : Request)
  | handled (resp : RtspResp)

abbrev Traced := CliSess × List Item

def sentBy (s s' : CliSess) : List Item :=
  (s'.sendQueue.drop s.sendQueue.length).map (.sent s'.sdpInfo)

/-- The machine stops where the session ends or where its behaviour is not defined. -/
def clientStep (t : Traced) : Event → Option Traced
  | .step env =>
    match t.1.singleStep env with
    | .ok (some s) => some (s, t.2 ++ sentBy t.1 s)
    | _ => none
  | .resp msg =>
    match CliSess.parse msg, t.1.handleRtspResp msg with
    | .ok p, .ok s => some (s, t.2 ++ [.handled p.1])
    | _, _ => none

section Order

/-- The request of the medium was sent, and then a response with status 200 and its number handled. -/
def Answered (tr : List Item) (sdp : SdpInfo) (media : MediaType) : Prop :=
  ∃ r resp, [.sent (some sdp) r, .handled resp].Sublist tr ∧ r.media = some media ∧ r.req.method = .setup
    ∧ resp.code = 200 ∧ resp.cseq = r.req.cseq.toNat

structure InOrder (pre : List Item) (sdp : Option SdpInfo) (r : Request) : Prop where
  play : r.req.method = .play →
    ∃ d, sdp = some d ∧ ∀ media, (d media).enable → Answered pre d media
  setup : r.req.method = .setup →
    ∃ d media, sdp = some d ∧ r.media = some media ∧ (d media).enable

def Ordered (tr : List Item) : Prop :=
  ∀ pre sdp r post, tr = pre ++ .sent sdp r :: post → InOrder pre sdp r

variable {tr : List Item} {sdp : SdpInfo} {media : MediaType}

lemma ordered_nil : Ordered [] := by
  intro pre sdp r post h
  exact absurd h.symm (List.append_ne_nil_of_right_ne_nil _ (List.cons_ne_nil _ _))

lemma Ordered.append_handled (h : Ordered tr) (resp : RtspResp) : Ordered (tr ++ [.handled resp]) := by
  intro pre sdp r post heq
  cases post using List.reverseRecOn with
  | nil => exact nomatch (List.append_inj_right' heq rfl)
  | append_singleton post x =>
    rw [← List.cons_append, ← List.append_assoc] at heq
    exact h pre sdp r post (List.append_inj_left' heq rfl)

lemma Ordered.append_sent (h : Ordered tr) {d : Option SdpInfo} {request : Request}
    (hr : InOrder tr d request) : Ordered (tr ++ [.sent d request]) := by
  intro pre sdp r post heq
  cases post using List.reverseRecOn with
  | nil =>
    obtain ⟨rfl, hlast⟩ := List.append_inj' heq rfl
    injection hlast with hitem
    injection hitem with hd hrequest
    subst hd hrequest
    exact hr
  | append_singleton post x =>
    rw [← List.cons_append, ← List.append_assoc] at heq
    exact h pre sdp r post (List.append_inj_left' heq rfl)

lemma Answered.append (h : Answered tr sdp media) (items : List Item) : Answered (tr ++ items) sdp media := by
  obtain ⟨r, resp, hsub, hr⟩ := h
  exact ⟨r, resp, hsub.trans (List.sublist_append_left tr items), hr⟩

lemma answered_append_handled {r : Request} {resp : RtspResp} (hr : Item.sent (some sdp) r ∈ tr)
    (hmedia : r.media = some media) (hmethod : r.req.method = .setup) (hcode : resp.code = 200)
    (hcseq : resp.cseq = r.req.cseq.toNat) : Answered (tr ++ [.handled resp]) sdp media :=
  ⟨r, resp, (List.singleton_sublist.mpr hr).append (List.Sublist.refl _), hmedia, hmethod, hcode, hcseq⟩

end Order

section Regular

def enablesMedium : SdpPtr → Bool
  | .null => true
  | .info sdp => (sdp .video).enable || (sdp .audio).enable
  | .freed => false

def RegularResp (s : CliSess) (resp : RtspResp) : Prop :=
  (s.handlingState = .doing ∧ s.todo = some .setup → resp.code = 200 ∧ resp.cseq = s.curCseq.toNat)
    ∧ (s.todo = some .describe ∧ resp.cseq = s.curCseq.toNat → enablesMedium resp.sdpInfo)

instance (s : CliSess) (resp : RtspResp) : Decidable (RegularResp s resp) :=
  inferInstanceAs (Decidable ((_ → _) ∧ (_ → _)))

/-- While the request of a medium waits for its response, the response has status 200 and its number; and
a description that is taken over enables a medium. -/
def Regular (t : Traced) : Event → Prop
  | .step _ => True
  | .resp msg =>
    match CliSess.parse msg with
    | .ok p => RegularResp t.1 p.1
    | .error _ => True

instance (t : Traced) : (e : Event) → Decidable (Regular t e)
  | .step _ => isTrue trivial
  | .resp msg => by
    rw [Regular]
    exact match CliSess.parse msg with
      | .ok p => inferInstanceAs (Decidable (RegularResp t.1 p.1))
      | .error _ => isTrue trivial

end Regular

section Phases

def Waiting (s : CliSess) (tr : List Item) (sdp : SdpInfo) (media : MediaType) : Prop :=
  s.handlingState = .doing ∧ ∃ r, .sent (some sdp) r ∈ tr ∧ r.media = some media ∧ r.req.method = .setup
    ∧ r.req.cseq = s.curCseq

inductive Phase (s : CliSess) (tr : List Item) : Prop
  | asking (state : s.rtspState = .init) (todo : s.todo ≠ some .setup ∧ s.todo ≠ some .play)
      (rtp : ∀ media, (s.rtpRtcp media).enable = false)
      (enabled : ∀ sdp, s.sdpInfo = some sdp → ∃ media, (sdp media).enable)
  | settingUp (sdp : SdpInfo) (state : s.rtspState = .init) (todo : s.todo = some .setup)
      (info : s.sdpInfo = some sdp) (supported : ∃ method, s.supportedMethod method = true)
      (rtp : ∀ media, (s.rtpRtcp media).enable → Answered tr sdp media ∨ Waiting s tr sdp media)
      (left : s.handlingState = .init → ∃ media, (sdp media).enable ∧ (s.rtpRtcp media).enable = false)
  | answered (sdp : SdpInfo) (state : s.rtspState ≠ .init) (todo : s.todo ≠ some .describe)
      (info : s.sdpInfo = some sdp) (all : ∀ media, (sdp media).enable → Answered tr sdp media)

structure Inv (t : Traced) : Prop where
  ordered : Ordered t.2
  freed : t.1.sdpFreed = false
  phase : Phase t.1 t.2

variable {s s' : CliSess} {tr : List Item} {env : SendEnv} {sdp : SdpInfo}

lemma sentBy_same (h : s'.sendQueue = s.sendQueue) : tr ++ sentBy s s' = tr := by
  rw [sentBy, h, List.drop_length, List.map_nil, List.append_nil]

lemma sentBy_enqueue (h : s'.sendQueue = s.sendQueue) (media : Option MediaType) (req : RtspReq) :
    sentBy s (s'.enqueue env media req)
      = [.sent s'.sdpInfo ⟨media, req, produceRtspReq s'.sessId env.tm req⟩] := by
  rw [sentBy, CliSess.enqueue, h, List.drop_left]
  rfl

lemma inOrder_of_ne {pre : List Item} {d : Option SdpInfo} {r : Request} (hplay : r.req.method ≠ .play)
    (hsetup : r.req.method ≠ .setup) : InOrder pre d r :=
  ⟨fun h => absurd h hplay, fun h => absurd h hsetup⟩

lemma nextMedia_spec {media : MediaType} (h : s.nextMedia sdp = some media) :
    (sdp media).enable ∧ (s.rtpRtcp media).enable = false := by
  have hspec := List.find?_some h
  rw [Bool.and_eq_true, Bool.not_eq_true'] at hspec
  exact hspec

lemma nextMedia_none (h : s.nextMedia sdp = none) (media : MediaType) (hm : (sdp media).enable) :
    (s.rtpRtcp media).enable := by
  have hmem : media ∈ [MediaType.video, .audio] := by cases media <;> simp
  have hnot := List.find?_eq_none.mp h media hmem
  rw [hm, Bool.true_and, Bool.not_eq_true', Bool.not_eq_false] at hnot
  exact hnot

lemma exists_nextMedia (h : ∃ media, (sdp media).enable ∧ (s.rtpRtcp media).enable = false) :
    ∃ media, s.nextMedia sdp = some media := by
  obtain ⟨media, henable, hrtp⟩ := h
  cases hnext : s.nextMedia sdp with
  | none => exact absurd (nextMedia_none hnext media henable) (by rw [hrtp]; exact Bool.false_ne_true)
  | some media' => exact ⟨media', rfl⟩

lemma all_media_ne {s : CliSess} (h : ¬ ∀ method ∈ Method.all, s.supportedMethod method = false) :
    ∃ method, s.supportedMethod method = true := by
  by_contra hno
  exact h fun method _ => Bool.eq_false_of_not_eq_true fun hm => hno ⟨method, hm⟩

structure Same (s u : CliSess) : Prop where
  sendQueue : u.sendQueue = s.sendQueue
  rtspState : u.rtspState = s.rtspState
  todo : u.todo = s.todo
  sdpInfo : u.sdpInfo = s.sdpInfo
  sdpFreed : u.sdpFreed = s.sdpFreed
  supportedMethod : u.supportedMethod = s.supportedMethod
  handlingState : u.handlingState = s.handlingState
  enable : ∀ media, (u.rtpRtcp media).enable = (s.rtpRtcp media).enable

lemma setupTransport_same (env : SendEnv) (media : MediaType) (s : CliSess) :
    Same s (s.setupTransport env media) := by
  rw [CliSess.setupTransport]
  split
  · exact ⟨rfl, rfl, rfl, rfl, rfl, rfl, rfl, fun _ => rfl⟩
  · split
    · exact ⟨rfl, rfl, rfl, rfl, rfl, rfl, rfl, fun _ => rfl⟩
    · refine ⟨rfl, rfl, rfl, rfl, rfl, rfl, rfl, fun media' => ?_⟩
      change (Function.update s.rtpRtcp media _ media').enable = _
      by_cases hmedia : media' = media
      · rw [hmedia, Function.update_self]
      · rw [Function.update_of_ne hmedia]

lemma setup_step (hordered : Ordered tr) (hfreed : s.sdpFreed = false) (hstate : s.rtspState = .init)
    (htodo : s.todo = some .setup) (hsdp : s.sdpInfo = some sdp)
    (hsupported : ∃ method, s.supportedMethod method = true)
    (hrtp : ∀ media, (s.rtpRtcp media).enable → Answered tr sdp media)
    (hleft : ∃ media, (sdp media).enable ∧ (s.rtpRtcp media).enable = false)
    (hs : s.sendMethodSetup env = .ok s') : Inv (s', tr ++ sentBy s s') := by
  rw [CliSess.sendMethodSetup, hfreed, hsdp] at hs
  split at hs
  · obtain ⟨media, hnext⟩ := exists_nextMedia hleft
    simp only [hnext, Bool.false_eq_true, if_false] at hs
    obtain rfl := Except.ok.inj hs
    obtain ⟨henable, -⟩ := nextMedia_spec hnext
    have hu := setupTransport_same env media s.begin
    set u := s.begin.setupTransport env media
    rw [CliSess.setupMedia, @sentBy_enqueue s (u.enableMedia media) env hu.sendQueue]
    refine ⟨?_, hu.sdpFreed.trans hfreed, .settingUp sdp (hu.rtspState.trans hstate) (hu.todo.trans htodo)
      (hu.sdpInfo.trans hsdp) ?_ ?_ ?_⟩
    · exact hordered.append_sent ⟨nofun, fun _ => ⟨sdp, media, hu.sdpInfo.trans hsdp, rfl, henable⟩⟩
    · obtain ⟨method, hmethod⟩ := hsupported
      exact ⟨method, (congrFun hu.supportedMethod method).trans hmethod⟩
    · intro media' hmedia'
      by_cases hmedia : media' = media
      · subst hmedia
        have hsdp' : (u.enableMedia media').sdpInfo = some sdp := hu.sdpInfo.trans hsdp
        rw [hsdp']
        exact .inr ⟨hu.handlingState, ⟨some media', u.setupReq (some media'), _⟩,
          List.mem_append_right _ (List.mem_singleton_self _), rfl, rfl, rfl⟩
      · change (Function.update u.rtpRtcp media _ media').enable = true at hmedia'
        rw [Function.update_of_ne hmedia, hu.enable] at hmedia'
        exact .inl ((hrtp media' hmedia').append _)
    · exact fun hinit => nomatch hu.handlingState.symm.trans hinit
  · obtain rfl := Except.ok.inj hs
    rw [sentBy_same rfl]
    exact ⟨hordered, hfreed, .settingUp sdp hstate htodo hsdp hsupported (fun media hm => .inl (hrtp media hm))
      fun _ => hleft⟩

lemma eq_ready {st : RtspState} (hinit : st ≠ .init) (hplaying : st ≠ .playing) : st = .ready := by
  cases st with
  | init => exact absurd rfl hinit
  | ready => rfl
  | playing => exact absurd rfl hplaying

lemma sendMethodSetup_rtspState (hs : s.sendMethodSetup env = .ok s') : s'.rtspState = s.rtspState := by
  rw [CliSess.sendMethodSetup] at hs
  split at hs
  · split at hs
    · exact nomatch hs
    · split at hs
      · exact Except.ok.inj hs ▸ rfl
      · split at hs
        · obtain rfl := Except.ok.inj hs
          exact (setupTransport_same env _ s.begin).rtspState
        · exact Except.ok.inj hs ▸ rfl
  · exact Except.ok.inj hs ▸ rfl

lemma startPlaying_rtspState (hs : s.startPlaying env = .ok s') : s'.rtspState = s.rtspState := by
  rw [CliSess.startPlaying] at hs
  split at hs
  · exact Except.ok.inj hs ▸ rfl
  · split at hs
    · exact Except.ok.inj hs ▸ rfl
    · split at hs
      · split at hs
        · obtain rfl := Except.ok.inj hs
          rw [CliSess.sendMethodDescribe]
          split <;> rfl
        · exact (@sendMethodSetup_rtspState (s.doing .setup) s' env hs).trans rfl
      · obtain rfl := Except.ok.inj hs
        rw [CliSess.sendMethodPlay]
        split <;> rfl

lemma startPlaying_inv (h : Inv (s, tr)) (hplaying : s.rtspState ≠ .playing)
    (hs : s.startPlaying env = .ok s') : Inv (s', tr ++ sentBy s s') := by
  obtain ⟨hordered, hfreed, hphase⟩ := h
  rw [CliSess.startPlaying] at hs
  by_cases hinit : s.handlingState ≠ .init
  · rw [if_pos hinit] at hs
    obtain rfl := Except.ok.inj hs
    rw [sentBy_same rfl]
    exact ⟨hordered, hfreed, hphase⟩
  rw [if_neg hinit] at hs
  have hhandling : s.handlingState = .init := not_not.mp hinit
  by_cases hnone : ∀ method ∈ Method.all, s.supportedMethod method = false
  · rw [if_pos hnone] at hs
    obtain rfl := Except.ok.inj hs
    rw [CliSess.sendMethodOptions, @sentBy_enqueue s (s.doing .options).begin env rfl]
    refine ⟨hordered.append_sent (inOrder_of_ne nofun nofun), hfreed, ?_⟩
    cases hphase with
    | asking state todo rtp enabled => exact .asking state ⟨nofun, nofun⟩ rtp enabled
    | settingUp sdp state todo info supported rtp left =>
      obtain ⟨method, hmethod⟩ := supported
      exact nomatch (hnone method (Method.mem_all method)).symm.trans hmethod
    | answered sdp state todo info all =>
      exact .answered sdp state nofun info fun media hm => (all media hm).append _
  rw [if_neg hnone] at hs
  have hsupported := all_media_ne hnone
  by_cases hready : s.rtspState ≠ .ready
  · rw [if_pos hready] at hs
    by_cases hsdp : s.sdpInfo.isNone ∧ ¬ s.sdpFreed
    · rw [if_pos hsdp] at hs
      obtain rfl := Except.ok.inj hs
      have hnosdp := Option.isNone_iff_eq_none.mp hsdp.1
      cases hphase with
      | asking state todo rtp enabled =>
        rw [CliSess.sendMethodDescribe]
        split
        · rw [@sentBy_enqueue s (s.doing .describe).begin env rfl]
          exact ⟨hordered.append_sent (inOrder_of_ne nofun nofun), hfreed,
            .asking state ⟨nofun, nofun⟩ rtp enabled⟩
        · rw [@sentBy_same s (s.doing .describe) tr rfl]
          exact ⟨hordered, hfreed, .asking state ⟨nofun, nofun⟩ rtp enabled⟩
      | settingUp sdp state todo info supported rtp left => exact nomatch hnosdp.symm.trans info
      | answered sdp state todo info all => exact nomatch hnosdp.symm.trans info
    · rw [if_neg hsdp] at hs
      have hfreed' : ¬ s.sdpFreed := by rw [hfreed]; exact Bool.false_ne_true
      obtain ⟨sdp, hinfo⟩ : ∃ sdp, s.sdpInfo = some sdp := by
        rw [not_and_not_right] at hsdp
        exact Option.ne_none_iff_exists'.mp fun hno => hfreed' (hsdp (Option.isNone_iff_eq_none.mpr hno))
      cases hphase with
      | asking state todo rtp enabled =>
        obtain ⟨media, henable⟩ := enabled sdp hinfo
        exact @setup_step (s.doing .setup) s' tr env sdp hordered hfreed state rfl hinfo hsupported
          (fun media hm => nomatch (rtp media).symm.trans hm) ⟨media, henable, rtp media⟩ hs
      | settingUp sdp' state todo info supported rtp left =>
        have hwaits : ∀ media, ¬ Waiting s tr sdp' media := fun media hw => nomatch hhandling.symm.trans hw.1
        exact @setup_step (s.doing .setup) s' tr env sdp' hordered hfreed state rfl info supported
          (fun media hm => (rtp media hm).resolve_right (hwaits media)) (left hhandling) hs
      | answered sdp state todo info all => exact absurd (eq_ready state hplaying) hready
  · rw [if_neg hready] at hs
    obtain rfl := Except.ok.inj hs
    have hisReady := not_not.mp hready
    cases hphase with
    | asking state todo rtp enabled => exact nomatch state.symm.trans hisReady
    | settingUp sdp state todo info supported rtp left => exact nomatch state.symm.trans hisReady
    | answered sdp state todo info all =>
      rw [CliSess.sendMethodPlay]
      split
      · rw [@sentBy_enqueue s (s.doing .play).begin env rfl]
        exact ⟨hordered.append_sent ⟨fun _ => ⟨sdp, info, all⟩, nofun⟩, hfreed,
          .answered sdp state nofun info fun media hm => (all media hm).append _⟩
      · rw [@sentBy_same s (s.doing .play) tr rfl]
        exact ⟨hordered, hfreed, .answered sdp state nofun info all⟩

lemma keepalive_inv (h : Inv (s, tr)) (hs : s.keepalive env = some s') : Inv (s', tr ++ sentBy s s') := by
  obtain ⟨hordered, hfreed, hphase⟩ := h
  rw [CliSess.keepalive] at hs
  split at hs
  · next hdue =>
    split at hs
    · exact nomatch hs
    · obtain rfl := Option.some.inj hs
      have hsent : sentBy s { (s.doing .options).sendMethodOptions env with
          lastKeepalive := env.now
          keepaliveCnt := s.keepaliveCnt + 1 } = sentBy s ((s.doing .options).sendMethodOptions env) := rfl
      rw [hsent, CliSess.sendMethodOptions, @sentBy_enqueue s (s.doing .options).begin env rfl]
      refine ⟨hordered.append_sent (inOrder_of_ne nofun nofun), hfreed, ?_⟩
      cases hphase with
      | asking state todo rtp enabled => exact nomatch state.symm.trans hdue.1
      | settingUp sdp state todo info supported rtp left => exact nomatch state.symm.trans hdue.1
      | answered sdp state todo info all =>
        exact .answered sdp state nofun info fun media hm => (all media hm).append _
  · obtain rfl := Option.some.inj hs
    rw [sentBy_same rfl]
    exact ⟨hordered, hfreed, hphase⟩

lemma keepalive_not_playing (h : s.rtspState ≠ .playing) : s.keepalive env = some s :=
  if_neg fun hdue => h hdue.1

lemma setServerPorts_same (s : CliSess) (resp : RtspResp) : Same s (s.setServerPorts resp) := by
  rw [CliSess.setServerPorts]
  split
  · exact ⟨rfl, rfl, rfl, rfl, rfl, rfl, rfl, fun _ => rfl⟩
  · next media _ =>
    refine ⟨rfl, rfl, rfl, rfl, rfl, rfl, rfl, fun media' => ?_⟩
    change (Function.update s.rtpRtcp media _ media').enable = _
    by_cases hmedia : media' = media
    · rw [hmedia, Function.update_self]
    · rw [Function.update_of_ne hmedia]

lemma mediaSetUp_spec {resp : RtspResp} (hfreed : s.sdpFreed = false) (hsdp : s.sdpInfo = some sdp)
    (hs : s.mediaSetUp resp = .ok s') : ∃ u : CliSess, Same u s'
      ∧ u = if s.nextMedia sdp = none then { s with rtspState := .ready } else s := by
  rw [CliSess.mediaSetUp] at hs
  split at hs
  · next htrue => cases hfreed.symm.trans htrue
  · split at hs
    · next hnone => cases hnone.symm.trans hsdp
    · next sdp' hsome =>
      obtain rfl := Option.some.inj (hsome.symm.trans hsdp)
      obtain rfl := Except.ok.inj hs
      refine ⟨_, ?_, rfl⟩
      generalize (if s.nextMedia sdp' = none then { s with rtspState := .ready } else s) = u
      split
      · exact ⟨rfl, rfl, rfl, rfl, rfl, rfl, rfl, fun _ => rfl⟩
      · exact setServerPorts_same u resp

lemma keepSessId_same (s : CliSess) (resp : RtspResp) : Same s (s.keepSessId resp) := by
  rw [CliSess.keepSessId]
  split <;> exact ⟨rfl, rfl, rfl, rfl, rfl, rfl, rfl, fun _ => rfl⟩

lemma not_doing {s : CliSess} (h : s.handlingState ≠ .doing) : s.handlingState = .init := by
  cases hs : s.handlingState with
  | init => rfl
  | doing => exact absurd hs h

/-- What the state machine makes of a session by a response with the number of its last request. -/
inductive Handles (resp : RtspResp) (s : CliSess) : CliSess → Prop
  | options (todo : s.todo = some .options) : Handles resp s (s.supportMethods resp)
  | describe (todo : s.todo = some .describe) : Handles resp s (s.keepSdpInfo resp.sdpInfo)
  | setup {s' : CliSess} (todo : s.todo = some .setup) (hs : s.mediaSetUp resp = .ok s') : Handles resp s s'
  | play (todo : s.todo = some .play) : Handles resp s { s with rtspState := .playing }
  | other (todo : s.todo ≠ some .setup) : Handles resp s s

variable {resp : RtspResp}

lemma runRtspStateMachine_handles (hcseq : resp.cseq = s.curCseq.toNat) (hs : s.runRtspStateMachine resp = .ok s') :
    Handles resp (s.keepSessId resp) s' := by
  rw [CliSess.runRtspStateMachine, if_neg (not_not_intro hcseq)] at hs
  dsimp only at hs
  split at hs
  · next htodo => exact Except.ok.inj hs ▸ .options htodo
  · next htodo => exact Except.ok.inj hs ▸ .describe htodo
  · next htodo => exact .setup htodo hs
  · next htodo => exact Except.ok.inj hs ▸ .play htodo
  · next _ _ hsetup _ => exact Except.ok.inj hs ▸ .other hsetup

-- The phase that is left when a response was handled; what is done afterwards does not change it.
def Left (s : CliSess) (tr : List Item) : Prop :=
  s.sdpFreed = false ∧ Phase { s with handlingState := .init } tr

lemma asking_left (hfreed : s.sdpFreed = false) (state : s.rtspState = .init)
    (todo : s.todo ≠ some .setup ∧ s.todo ≠ some .play) (rtp : ∀ media, (s.rtpRtcp media).enable = false)
    (enabled : ∀ sdp, s.sdpInfo = some sdp → ∃ media, (sdp media).enable)
    (hdescribe : s.todo = some .describe → enablesMedium resp.sdpInfo) (hs : Handles resp s s') : Left s' tr := by
  cases hs with
  | options | other => exact ⟨hfreed, .asking state todo rtp enabled⟩
  | describe htodo =>
    have henables := hdescribe htodo
    cases hinfo : resp.sdpInfo with
    | null => exact ⟨rfl, .asking state todo rtp fun sdp hsdp => nomatch hsdp⟩
    | info sdp =>
      refine ⟨rfl, .asking state todo rtp fun sdp' hsdp => ?_⟩
      obtain rfl := Option.some.inj hsdp
      rw [hinfo, enablesMedium, Bool.or_eq_true] at henables
      exact henables.elim (fun h => ⟨.video, h⟩) fun h => ⟨.audio, h⟩
    | freed =>
      rw [hinfo] at henables
      exact nomatch henables
  | setup htodo => exact absurd htodo todo.1
  | play htodo => exact absurd htodo todo.2

lemma settingUp_left (hfreed : s.sdpFreed = false) (state : s.rtspState = .init) (todo : s.todo = some .setup)
    (info : s.sdpInfo = some sdp) (supported : ∃ method, s.supportedMethod method = true)
    (rtp : ∀ media, (s.rtpRtcp media).enable → Answered tr sdp media) (hs : s.mediaSetUp resp = .ok s') :
    Left s' tr := by
  obtain ⟨u, hu, rfl⟩ := mediaSetUp_spec hfreed info hs
  cases hnext : s.nextMedia sdp with
  | none =>
    rw [if_pos hnext] at hu
    refine ⟨hu.sdpFreed.trans hfreed, .answered sdp ?_ ?_ (hu.sdpInfo.trans info) ?_⟩
    · exact fun hinit => nomatch hu.rtspState.symm.trans hinit
    · exact fun hd => nomatch (hu.todo.trans todo).symm.trans hd
    · exact fun media hm => rtp media (nextMedia_none hnext media hm)
  | some media =>
    rw [if_neg (by rw [hnext]; exact nofun)] at hu
    obtain ⟨henable, hrtp⟩ := nextMedia_spec hnext
    obtain ⟨method, hmethod⟩ := supported
    refine ⟨hu.sdpFreed.trans hfreed, .settingUp sdp (hu.rtspState.trans state) (hu.todo.trans todo)
      (hu.sdpInfo.trans info) ⟨method, ?_⟩ ?_ ?_⟩
    · exact (congrFun hu.supportedMethod method).trans hmethod
    · exact fun media' hm => .inl (rtp media' ((hu.enable media').symm.trans hm))
    · exact fun _ => ⟨media, henable, (hu.enable media).trans hrtp⟩

lemma answered_left (hfreed : s.sdpFreed = false) (state : s.rtspState ≠ .init) (todo : s.todo ≠ some .describe)
    (info : s.sdpInfo = some sdp) (all : ∀ media, (sdp media).enable → Answered tr sdp media)
    (hs : Handles resp s s') : Left s' tr := by
  cases hs with
  | options | other => exact ⟨hfreed, .answered sdp state todo info all⟩
  | describe htodo => exact absurd htodo todo
  | play => exact ⟨hfreed, .answered sdp nofun todo info all⟩
  | setup _ hs =>
    obtain ⟨u, hu, rfl⟩ := mediaSetUp_spec hfreed info hs
    refine ⟨?_, .answered sdp ?_ ?_ ?_ all⟩
    · rw [hu.sdpFreed]
      split <;> exact hfreed
    · change s'.rtspState ≠ _
      rw [hu.rtspState]
      split
      · exact nofun
      · exact state
    · change s'.todo ≠ _
      rw [hu.todo]
      split <;> exact todo
    · refine Eq.trans hu.sdpInfo ?_
      split <;> exact info

lemma answered_of_waiting (hsetup : s.handlingState = .doing → resp.code = 200 ∧ resp.cseq = s.curCseq.toNat)
    {media : MediaType} (h : Answered tr sdp media ∨ Waiting s tr sdp media) :
    Answered (tr ++ [.handled resp]) sdp media := by
  rcases h with hanswered | ⟨hdoing, r, hr, hmedia, hmethod, hcseq⟩
  · exact hanswered.append _
  · obtain ⟨hcode, hnumber⟩ := hsetup hdoing
    exact answered_append_handled hr hmedia hmethod hcode (hnumber.trans (congrArg UInt32.toNat hcseq).symm)

lemma other_left (h : Inv (s, tr)) (hreg : RegularResp s resp) (hother : resp.cseq ≠ s.curCseq.toNat) :
    Left s (tr ++ [.handled resp]) := by
  obtain ⟨-, hfreed, hphase⟩ := h
  refine ⟨hfreed, ?_⟩
  cases hphase with
  | asking state todo rtp enabled => exact .asking state todo rtp enabled
  | settingUp sdp state todo info supported rtp left =>
    have hinit : s.handlingState = .init := not_doing fun hdoing => hother (hreg.1 ⟨hdoing, todo⟩).2
    exact .settingUp sdp state todo info supported
      (fun media hm => .inl (answered_of_waiting (fun hdoing => hreg.1 ⟨hdoing, todo⟩) (rtp media hm)))
      fun _ => left hinit
  | answered sdp state todo info all => exact .answered sdp state todo info fun media hm => (all media hm).append _

lemma runRtspStateMachine_left (h : Inv (s, tr)) (hreg : RegularResp s resp)
    (hs : s.runRtspStateMachine resp = .ok s') : Left s' (tr ++ [.handled resp]) := by
  by_cases hcseq : resp.cseq = s.curCseq.toNat
  · have hhandles := runRtspStateMachine_handles hcseq hs
    obtain ⟨-, hfreed, hphase⟩ := h
    have hk := keepSessId_same s resp
    generalize s.keepSessId resp = k at hk hhandles
    have hkfreed := hk.sdpFreed.trans hfreed
    cases hphase with
    | asking state todo rtp enabled =>
      exact asking_left hkfreed (hk.rtspState.trans state) (hk.todo ▸ todo)
        (fun media => (hk.enable media).trans (rtp media)) (fun sdp hsdp => enabled sdp (hk.sdpInfo.symm.trans hsdp))
        (fun htodo => hreg.2 ⟨hk.todo.symm.trans htodo, hcseq⟩) hhandles
    | settingUp sdp state todo info supported rtp left =>
      have hktodo := hk.todo.trans todo
      have hsetup : k.mediaSetUp resp = .ok s' := by
        cases hhandles with
        | setup _ hs => exact hs
        | other hno => exact absurd hktodo hno
        | options htodo | describe htodo | play htodo => exact nomatch hktodo.symm.trans htodo
      obtain ⟨method, hmethod⟩ := supported
      refine settingUp_left hkfreed (hk.rtspState.trans state) hktodo (hk.sdpInfo.trans info)
        ⟨method, (congrFun hk.supportedMethod method).trans hmethod⟩ (fun media hm => ?_) hsetup
      exact answered_of_waiting (fun hdoing => hreg.1 ⟨hdoing, todo⟩) (rtp media ((hk.enable media).symm.trans hm))
    | answered sdp state todo info all =>
      exact answered_left hkfreed (hk.rtspState ▸ state) (hk.todo ▸ todo) (hk.sdpInfo.trans info)
        (fun media hm => (all media hm).append _) hhandles
  · rw [CliSess.runRtspStateMachine, if_pos hcseq] at hs
    exact Except.ok.inj hs ▸ other_left h hreg hcseq

end Phases

lemma clientStep_inv {t t' : Traced} {e : Event} (h : Inv t) (hreg : Regular t e)
    (ht : clientStep t e = some t') : Inv t' := by
  obtain ⟨s, tr⟩ := t
  cases e with
  | step env =>
    rw [clientStep] at ht
    split at ht
    · next s' hs =>
      obtain rfl := Option.some.inj ht
      rw [CliSess.singleStep] at hs
      by_cases hplaying : s.rtspState ≠ .playing
      · rw [if_pos hplaying] at hs
        cases hstart : s.startPlaying env with
        | error f =>
          rw [hstart] at hs
          exact nomatch hs
        | ok u =>
          rw [hstart, ok_bind] at hs
          have hinv := startPlaying_inv h hplaying hstart
          have hstate : u.rtspState ≠ .playing := by
            rwa [startPlaying_rtspState hstart]
          obtain rfl := Option.some.inj ((keepalive_not_playing hstate).symm.trans (Except.ok.inj hs))
          exact hinv
      · rw [if_neg hplaying] at hs
        exact keepalive_inv h (Except.ok.inj hs)
    · exact nomatch ht
  | resp msg =>
    rw [clientStep] at ht
    split at ht
    · next p s' hp hs =>
      obtain rfl := Option.some.inj ht
      rw [CliSess.handleRtspResp, hp, ok_bind] at hs
      cases hrun : s.runRtspStateMachine p.1 with
      | error f =>
        rw [hrun] at hs
        exact nomatch hs
      | ok u =>
        rw [hrun, ok_bind] at hs
        obtain rfl := Except.ok.inj hs
        rw [Regular, hp] at hreg
        obtain ⟨hfreed, hphase⟩ := runRtspStateMachine_left h hreg hrun
        exact ⟨h.ordered.append_handled p.1, hfreed, hphase⟩
    · exact nomatch ht

lemma fresh_inv (uri : Bytes) (intlvd : Bool) : Inv (CliSess.fresh uri intlvd, []) :=
  ⟨ordered_nil, rfl, .asking rfl ⟨nofun, nofun⟩ (fun _ => rfl) nofun⟩

theorem ordered_of_regular (uri : Bytes) (intlvd : Bool) (es : List Event) (t : Traced)
    (hreg : MeetsAlong clientStep Regular (CliSess.fresh uri intlvd, []) es)
    (ht : run clientStep (CliSess.fresh uri intlvd, []) es = some t) : Ordered t.2 :=
  (run_invariant_along (fun _ _ _ => clientStep_inv) (fresh_inv uri intlvd) hreg ht).ordered

def anyEnv : SendEnv := ⟨0, ⟨0, 0, 1, 1970, 0, 0, 0⟩, none⟩

def optionsResp : Bytes :=
  bytes "RTSP/1.0 200 OK\r\nCSeq: 1\r\nPublic: DESCRIBE, SETUP, PLAY\r\n\r\n"

def describeResp : Bytes :=
  bytes "RTSP/1.0 200 OK\r\nCSeq: 2\r\nContent-Type: application/sdp\r\nContent-Length: 46\r\nm=video 0 RTP/AVP 96\r\nm=audio 0 RTP/AVP 8\r\n-\r\n\r\n"

def okResp (cseq : String) : Bytes := bytes ("RTSP/1.0 200 OK\r\nCSeq: " ++ cseq ++ "\r\n\r\n")

def notFoundResp : Bytes := bytes "RTSP/1.0 404 Not Found\r\nCSeq: 3\r\n\r\n"

def toSetup : List Event :=
  [.step anyEnv, .resp optionsResp, .step anyEnv, .resp describeResp, .step anyEnv]

def played : List Event :=
  toSetup ++ [.resp (okResp "3"), .step anyEnv, .resp (okResp "4"), .step anyEnv]

def playedAfterNotFound : List Event :=
  toSetup ++ [.resp notFoundResp, .step anyEnv, .resp (okResp "4"), .step anyEnv]

def shortUri : Bytes := bytes "rtsp://h/av0_0"

lemma played_runs : (run clientStep (CliSess.fresh shortUri true, []) played).isSome := by decide +kernel

theorem played_ordered :
    Ordered ((run clientStep (CliSess.fresh shortUri true, []) played).get played_runs).2 :=
  ordered_of_regular shortUri true played _ (by decide +kernel) (Option.some_get played_runs).symm

def mayBeAnswered (tr : List Item) (media : MediaType) : Bool :=
  tr.any fun
    | .sent _ r => r.media = some media && tr.any fun
      | .handled resp => resp.code = 200 && resp.cseq = r.req.cseq.toNat
      | .sent _ _ => false
    | .handled _ => false

def playedUnanswered (tr : List Item) (media : MediaType) : Bool :=
  match tr.getLast? with
  | some (.sent (some d) r) => r.req.method = .play && (d media).enable && !mayBeAnswered tr.dropLast media
  | _ => false

lemma Answered.mayBeAnswered {tr : List Item} {sdp : SdpInfo} {media : MediaType}
    (h : Answered tr sdp media) : mayBeAnswered tr media := by
  obtain ⟨r, resp, hsub, hmedia, -, hcode, hcseq⟩ := h
  refine List.any_eq_true.mpr ⟨_, hsub.subset List.mem_cons_self, ?_⟩
  dsimp only
  rw [Bool.and_eq_true, decide_eq_true_eq]
  refine ⟨hmedia, List.any_eq_true.mpr ⟨_, hsub.subset (List.mem_cons_of_mem _ List.mem_cons_self), ?_⟩⟩
  dsimp only
  rw [Bool.and_eq_true, decide_eq_true_eq, decide_eq_true_eq]
  exact ⟨hcode, hcseq⟩

lemma not_ordered_of_playedUnanswered {tr : List Item} {media : MediaType}
    (h : playedUnanswered tr media) : ¬ Ordered tr := by
  intro hordered
  rw [playedUnanswered] at h
  split at h
  · next d r hlast =>
    rw [Bool.and_eq_true, Bool.and_eq_true, decide_eq_true_eq, Bool.not_eq_true'] at h
    obtain ⟨⟨hplay, henable⟩, hno⟩ := h
    have htr : tr = tr.dropLast ++ .sent (some d) r :: [] := (List.dropLast_append_getLast? _ hlast).symm
    obtain ⟨d', hd, hall⟩ := (hordered _ _ r [] htr).play hplay
    obtain rfl := Option.some.inj hd
    exact nomatch hno.symm.trans (hall media henable).mayBeAnswered
  · exact nomatch h

lemma playedAfterNotFound_runs :
    (run clientStep (CliSess.fresh shortUri true, []) playedAfterNotFound).isSome := by decide +kernel

theorem playedAfterNotFound_unordered :
    ¬ Ordered ((run clientStep (CliSess.fresh shortUri true, []) playedAfterNotFound).get
      playedAfterNotFound_runs).2 :=
  @not_ordered_of_playedUnanswered _ .video (by decide +kernel)

end SimpleCode.LibRtspClient
