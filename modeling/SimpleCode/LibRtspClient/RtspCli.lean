import SimpleCode.LibRtspClient.Parser

set_option autoImplicit false

/-! The RTSP client: what it sends next, and how it handles a response. The allocations succeed. -/

namespace SimpleCode.LibRtspClient

open Foundations Scan
open LibRtsp hiding Fault

inductive CliFault
  | text (f : LibRtsp.Fault)
  | nullPointer
  | freed
deriving DecidableEq, Repr

-- A request in the queue, with the medium whose URI and transport it has, if it has any.
structure Request where
  media : Option MediaType
  req : RtspReq
  text : Bytes
deriving DecidableEq

/-- `sdpFreed`: the pointer to the description is not `NULL`, and what it points to is freed. -/
structure CliSess extends RtspSess where
  sdpFreed : Bool
  lastKeepalive : ℕ
  keepaliveCnt : ℕ
  sendQueue : List Request

def keepaliveIntvl : ℕ := 3 * (1000 * 1000)

def maxKeepalive : ℕ := 3

structure SendEnv where
  now : ℕ
  tm : Tm
  ports : Option (UInt16 × UInt16)

def freshRtpRtcp : RtpRtcp := ⟨false, 0, 0, 0, 0⟩

def CliSess.fresh (uri : Bytes) (intlvd : Bool) : CliSess where
  uri
  sessId := 0
  curCseq := 0
  todo := none
  handlingState := .init
  rtspState := .init
  intlvdMode := intlvd
  supportedMethod _ := false
  sdpInfo := none
  rtpRtcp _ := freshRtpRtcp
  sdpFreed := false
  lastKeepalive := 0
  keepaliveCnt := 0
  sendQueue := []

namespace CliSess

section Sending

variable (env : SendEnv) (s : CliSess)

def begin : CliSess := { s with handlingState := .doing, curCseq := s.curCseq + 1 }

def enqueue (media : Option MediaType) (req : RtspReq) : CliSess :=
  { s with sendQueue := s.sendQueue ++ [⟨media, req, produceRtspReq s.sessId env.tm req⟩] }

def sendMethodOptions : CliSess := s.begin.enqueue env none s.begin.optionsReq

def sendMethodDescribe : CliSess :=
  if s.supportedMethod .describe then s.begin.enqueue env none s.begin.describeReq else s

def nextMedia (sdp : SdpInfo) : Option MediaType :=
  [MediaType.video, .audio].find? fun media => (sdp media).enable && !(s.rtpRtcp media).enable

-- The new sockets have the ports of `env`; without them the ports stay as they are.
def setupTransport (media : MediaType) : CliSess :=
  if s.intlvdMode then s
  else match env.ports with
    | none => s
    | some ports => { s with rtpRtcp := Function.update s.rtpRtcp media { s.rtpRtcp media with
        rtpPort := ports.1
        rtcpPort := ports.2 } }

def enableMedia (media : MediaType) : CliSess :=
  { s with rtpRtcp := Function.update s.rtpRtcp media { s.rtpRtcp media with enable := true } }

def setupMedia (media : MediaType) : CliSess :=
  let s := s.setupTransport env media
  (s.enableMedia media).enqueue env (some media) (s.setupReq (some media))

def sendMethodSetup : Except CliFault CliSess :=
  if s.supportedMethod .setup then
    if s.sdpFreed then .error .freed
    else match s.sdpInfo with
      | none => .ok s.begin
      | some sdp => match s.nextMedia sdp with
        | some media => .ok (s.begin.setupMedia env media)
        | none => .ok (s.begin.enqueue env none (s.begin.setupReq none))
  else .ok s

def sendMethodPlay : CliSess :=
  if s.supportedMethod .play then s.begin.enqueue env none s.begin.playReq else s

def doing (method : Method) : CliSess := { s with todo := some method }

def startPlaying : Except CliFault CliSess :=
  if s.handlingState ≠ .init then .ok s
  else if ∀ method ∈ Method.all, s.supportedMethod method = false then
    .ok ((s.doing .options).sendMethodOptions env)
  else if s.rtspState ≠ .ready then
    if s.sdpInfo.isNone ∧ ¬ s.sdpFreed then .ok ((s.doing .describe).sendMethodDescribe env)
    else (s.doing .setup).sendMethodSetup env
  else .ok ((s.doing .play).sendMethodPlay env)

def keepalive : Option CliSess :=
  if s.rtspState = .playing
      ∧ (env.now < s.lastKeepalive ∨ keepaliveIntvl ≤ env.now - s.lastKeepalive) then
    if maxKeepalive ≤ s.keepaliveCnt then none
    else some { (s.doing .options).sendMethodOptions env with
      lastKeepalive := env.now
      keepaliveCnt := s.keepaliveCnt + 1 }
  else some s

-- What `single_step` does before it waits for events; without a session it has returned -1.
def singleStep : Except CliFault (Option CliSess) := do
  let s ← if s.rtspState ≠ .playing then s.startPlaying env else .ok s
  .ok (s.keepalive env)

end Sending

section Responses

variable (s : CliSess) (resp : RtspResp)

def setServerPorts : CliSess :=
  match [MediaType.video, .audio].find? fun media =>
      (s.rtpRtcp media).rtpPort.toNat = resp.transport.rtpCliPort with
  | none => s
  | some media => { s with rtpRtcp := Function.update s.rtpRtcp media { s.rtpRtcp media with
      rtpSaPort := resp.transport.rtpSrvPort
      rtcpSaPort := resp.transport.rtcpSrvPort } }

def keepSdpInfo : SdpPtr → CliSess
  | .null => { s with sdpInfo := none, sdpFreed := false }
  | .info sdp => { s with sdpInfo := some sdp, sdpFreed := false }
  | .freed => { s with sdpInfo := none, sdpFreed := true }

def supportMethods : CliSess :=
  { s with
    keepaliveCnt := 0
    supportedMethod := fun method =>
      s.supportedMethod method || (Bytes.find method.token resp.publicHdr).isSome }

def mediaSetUp : Except CliFault CliSess :=
  if s.sdpFreed then .error .freed
  else match s.sdpInfo with
    | none => .error .nullPointer
    | some sdp =>
      let s := if s.nextMedia sdp = none then { s with rtspState := .ready } else s
      .ok (if s.intlvdMode then s else s.setServerPorts resp)

def keepSessId : CliSess :=
  if resp.sessId ≠ 0 then { s with sessId := UInt64.ofNat resp.sessId } else s

def runRtspStateMachine : Except CliFault CliSess :=
  if resp.cseq ≠ s.curCseq.toNat then .ok s
  else
    let s := s.keepSessId resp
    match s.todo with
    | some .options => .ok (s.supportMethods resp)
    | some .describe => .ok (s.keepSdpInfo resp.sdpInfo)
    | some .setup => s.mediaSetUp resp
    | some .play => .ok { s with rtspState := .playing }
    | _ => .ok s

def parse (msg : Bytes) : Except CliFault (RtspResp × Bool) :=
  match parseRtspResp (msg.takeWhile (· ≠ 0)) with
  | .ok p => .ok p
  | .error f => .error (.text f)

-- The result of the parsing is not looked at.
def handleRtspResp (msg : Bytes) : Except CliFault CliSess := do
  let p ← parse msg
  let s ← s.runRtspStateMachine p.1
  .ok { s with handlingState := .init }

end Responses

end CliSess

end SimpleCode.LibRtspClient
