import SimpleCode.LibRtspServer.EncodeBase64
import SimpleCode.LibRtspServer.RtspParser

set_option autoImplicit false

namespace SimpleCode.LibRtspServer

open Foundations Scan Buffer
open LibRtsp hiding Fault

inductive RtspState
  | init
  | ready
  | playing
deriving DecidableEq, Repr

inductive Task
  | handleRtspReq
  | prefetchFrm
  | destroyRtspSess
deriving DecidableEq, Repr

inductive FrmType
  | iframe
  | bframe
  | pframe
  | aframe
deriving DecidableEq, Repr

structure FrmInfo where
  frmType : FrmType
  frm : Bytes
  beyond : ℕ → UInt8

structure RtspSess extends Handling where
  rtspState : RtspState
  sessId : ℕ
  created : List (Task × ℕ)
deriving DecidableEq, Repr

structure MethodEnv where
  startStrm : Bool
  getFrm : Option FrmInfo
  -- `sin_addr`, unless `getsockname` has failed.
  sinAddr : Option (Fin 4 → UInt8)
  times : ℤ × ℤ
  mallocSps : Bool
  mallocPps : Bool
  random64 : UInt64
  srvPorts : Option (UInt16 × UInt16)
  dupPublic : Bool

def supportedMethods : Bytes :=
  bytes "OPTIONS, DESCRIBE, SETUP, TEARDOWN, PLAY, PAUSE, GET_PARAMETER, SET_PARAMETER"

section Sdp

def str (s : Option Bytes) : Bytes := s.getD (bytes "(null)")

def naluTypeSps : UInt8 := 7

def naluTypePps : UInt8 := 8

-- `while (!sps || !pps)`: both are found with the rest of the frame behind them.
def findSpsPps (beyond : ℕ → UInt8) (sps pps : Option Bytes) (ptr : Bytes) : Option (Bytes × Bytes) :=
  match sps, pps with
  | some sps, some pps => some (sps, pps)
  | sps, pps =>
    match _h : skipNaluStartCode ptr with
    | none => none
    | some ptr =>
      let naluType := peek beyond ptr 0 &&& 0x1F
      if naluType = naluTypeSps then findSpsPps beyond (some ptr) pps ptr
      else if naluType = naluTypePps then findSpsPps beyond sps (some ptr) ptr
      else findSpsPps beyond sps pps ptr
termination_by ptr.length
decreasing_by all_goals exact length_skipNaluStartCode ‹_›

lemma findSpsPps_sps {beyond : ℕ → UInt8} {ptr nalu : Bytes} (h : skipNaluStartCode ptr = some nalu)
    (htype : peek beyond nalu 0 &&& 0x1F = naluTypeSps) :
    findSpsPps beyond none none ptr = findSpsPps beyond (some nalu) none nalu := by
  rw [findSpsPps]
  · split
    · next hnone => cases hnone.symm.trans h
    · next ptr' hsome =>
      obtain rfl := Option.some.inj (hsome.symm.trans h)
      exact if_pos htype
  · rintro _ _ ⟨⟩

lemma findSpsPps_pps {beyond : ℕ → UInt8} {sps ptr nalu : Bytes} (h : skipNaluStartCode ptr = some nalu)
    (htype : peek beyond nalu 0 &&& 0x1F = naluTypePps) :
    findSpsPps beyond (some sps) none ptr = some (sps, nalu) := by
  rw [findSpsPps]
  · split
    · next hnone => cases hnone.symm.trans h
    · next ptr' hsome =>
      obtain rfl := Option.some.inj (hsome.symm.trans h)
      dsimp only
      rw [if_neg (by rw [htype]; decide), if_pos htype, findSpsPps]
  · rintro _ _ - ⟨⟩

def inetNtoa (a : Fin 4 → UInt8) : Bytes :=
  List.intercalate (bytes ".") ((List.ofFn a).map fun b => dec b.toNat)

def upperDigit (v : UInt8) : UInt8 := if v < 10 then 48 + v else 55 + v

def upperHex (c : UInt8) : Bytes := [upperDigit (c / 16), upperDigit (c % 16)]

-- `get_nalu_sz` is passed on; a `NULL` comes from the allocation too.
def encodeNalu (malloc : Bool) (beyond : ℕ → UInt8) (nalu : Bytes) : Except LibRtsp.Fault (Option Bytes) :=
  match EncodeBase64.encodeBase64 (nalu.take (getNaluSz beyond nalu)) with
  | .error .overflow => .error .overflow
  | .ok res => .ok (if malloc then res else none)

def sdpLines (env : MethodEnv) (beyond : ℕ → UInt8) (sa : Fin 4 → UInt8) (sps : Bytes)
    (b64Sps b64Pps : Option Bytes) : List Bytes :=
  [[],
    bytes "v=0",
    bytes "o=- " ++ decInt env.times.1 ++ bytes " " ++ decInt (env.times.2 + 1) ++ bytes " IN IP4 " ++ inetNtoa sa,
    bytes "s=streamed by the ZMODO RTSP server",
    bytes "t=0 0",
    bytes "m=video 0 RTP/AVP " ++ dec rtpPtH264.toNat,
    bytes "a=rtpmap:" ++ dec rtpPtH264.toNat ++ bytes " H264/90000",
    bytes "a=control:track0",
    bytes "a=range:npt=0-",
    bytes "a=fmtp:" ++ dec rtpPtH264.toNat ++ bytes " packetization-mode=1;profile-level-id="
      ++ upperHex (peek beyond sps 1) ++ upperHex (peek beyond sps 2) ++ upperHex (peek beyond sps 3)
      ++ bytes ";sprop-parameter-sets=" ++ str b64Sps ++ bytes "," ++ str b64Pps]

-- `snprintf(line, left, ...)` and `MOVE_FORWARD()`, where `left` has no sign.
def putLine (sdp line : Bytes) : Bytes := sdp ++ (line ++ crlf).take (2048 - sdp.length - 1)

def makeSdpInfo (env : MethodEnv) (frm : FrmInfo) : Except LibRtsp.Fault (Option Bytes) :=
  match findSpsPps frm.beyond none none frm.frm, env.sinAddr with
  | some (sps, pps), some sa => do
    let b64Sps ← encodeNalu env.mallocSps frm.beyond sps
    let b64Pps ← encodeNalu env.mallocPps frm.beyond pps
    .ok (some ((sdpLines env frm.beyond sa sps b64Sps b64Pps).foldl putLine []))
  | _, _ => .ok none

lemma encodeBase64_ok (src : Bytes) : ∃ res, EncodeBase64.encodeBase64 src = .ok res := by
  by_cases h : src.length < EncodeBase64.uintMax / 4
  · rw [EncodeBase64.encodeBase64_eq h,
      EncodeBase64.encoded_eq EncodeBase64.borrows_signedChar (Nat.lt_succ_self _)]
    exact ⟨_, rfl⟩
  · exact ⟨none, if_pos (Nat.le_of_not_lt h)⟩

lemma encodeNalu_ok (malloc : Bool) (beyond : ℕ → UInt8) (nalu : Bytes) :
    ∃ res, encodeNalu malloc beyond nalu = .ok res := by
  obtain ⟨res, hres⟩ := encodeBase64_ok (nalu.take (getNaluSz beyond nalu))
  rw [encodeNalu, hres]
  exact ⟨_, rfl⟩

lemma makeSdpInfo_ok (env : MethodEnv) (frm : FrmInfo) : ∃ sdp, makeSdpInfo env frm = .ok sdp
    ∧ (sdp.isSome ↔ (findSpsPps frm.beyond none none frm.frm).isSome ∧ env.sinAddr.isSome) := by
  rw [makeSdpInfo]
  cases hfound : findSpsPps frm.beyond none none frm.frm with
  | none => exact ⟨none, rfl, by simp⟩
  | some nalus =>
    obtain ⟨sps, pps⟩ := nalus
    cases haddr : env.sinAddr with
    | none => exact ⟨none, rfl, by simp⟩
    | some sa =>
      obtain ⟨b64Sps, hsps⟩ := encodeNalu_ok env.mallocSps frm.beyond sps
      obtain ⟨b64Pps, hpps⟩ := encodeNalu_ok env.mallocPps frm.beyond pps
      simp only [hsps, hpps, ok_bind]
      exact ⟨_, rfl, by simp⟩

end Sdp

namespace RtspSess

variable (env : MethodEnv) (s : RtspSess)

def become (s : RtspSess) (state : HandlingState) : RtspSess := { s with state }

def handleMethodOptions : RtspSess :=
  become { s with resp.publicHdr := strndup env.dupPublic supportedMethods } .handled

def handleMethodDescribe : Except LibRtsp.Fault RtspSess :=
  if s.state ≠ .retry ∧ ¬ env.startStrm then .ok (s.become .failed)
  else match env.getFrm with
    | none => .ok (s.become .failed)
    | some frm =>
      if frm.frmType ≠ .iframe then .ok (s.become .retry)
      else do
        let sdpInfo ← makeSdpInfo env frm
        .ok (become { s with resp.sdpInfo := sdpInfo } (if sdpInfo.isSome then .handled else .failed))

lemma handleMethodDescribe_spec : ∃ state sdpInfo,
    s.handleMethodDescribe env = .ok (become { s with resp.sdpInfo := sdpInfo } state)
      ∧ (state = .failed ∨ state = .retry ∨ state = .handled ∧ sdpInfo.isSome = true) := by
  rw [handleMethodDescribe]
  split_ifs
  · exact ⟨.failed, s.resp.sdpInfo, rfl, .inl rfl⟩
  · cases env.getFrm with
    | none => exact ⟨.failed, s.resp.sdpInfo, rfl, .inl rfl⟩
    | some frm =>
      obtain ⟨sdpInfo, hsdp, -⟩ := makeSdpInfo_ok env frm
      dsimp only
      split_ifs with htype
      · exact ⟨.retry, s.resp.sdpInfo, rfl, .inr (.inl rfl)⟩
      · rw [hsdp]
        cases sdpInfo with
        | none => exact ⟨.failed, none, rfl, .inl rfl⟩
        | some sdp => exact ⟨.handled, some sdp, rfl, .inr (.inr ⟨rfl, rfl⟩)⟩

def setupIntlvdMode : RtspSess :=
  { s with
    resp.transport.rtpChn := s.req.transport.rtpChn
    resp.transport.rtcpChn := s.req.transport.rtcpChn }

def setupNonIntlvdMode : Option RtspSess :=
  env.srvPorts.map fun ports => { s with
    resp.transport.rtpCliPort := s.req.transport.rtpCliPort
    resp.transport.rtcpCliPort := s.req.transport.rtcpCliPort
    resp.transport.rtpSrvPort := ports.1.toNat
    resp.transport.rtcpSrvPort := ports.2.toNat }

def newSessId : RtspSess :=
  if s.rtspState = .init then
    { s with
      sessId := env.random64.toNat
      resp.sessId := env.random64.toNat }
  else s

def createRtpSess : RtspSess × Bool :=
  let s := s.newSessId env
  match if s.intlvdMode then some s.setupIntlvdMode else s.setupNonIntlvdMode env with
  | none => (s, false)
  | some s => (s, env.startStrm)

def handleMethodSetup : RtspSess :=
  let r := s.createRtpSess env
  if r.2 then
    become { r.1 with rtspState := if r.1.rtspState ≠ .playing then .ready else r.1.rtspState } .handled
  else r.1.become .failed

def handleMethodPlay : RtspSess :=
  if s.rtspState = .init then
    become { s with resp.statusCode := .methodNotValidInThisState } .error
  else
    become { s with
      rtspState := .playing
      created := s.created ++ [(.prefetchFrm, 0)] } .handled

def handleMethodPause : RtspSess :=
  become { s with rtspState := if s.rtspState = .playing then .ready else s.rtspState } .handled

def handleMethodGetParameter : RtspSess := s.become .handled

def handleMethodSetParameter : RtspSess := s.become .handled

def handleMethodTeardown : RtspSess :=
  become { s with
    rtspState := .init
    created := s.created ++ [(.destroyRtspSess, 10 * 1000)] } .handled

def handleMethod : Method → Except LibRtsp.Fault RtspSess
  | .options => .ok (s.handleMethodOptions env)
  | .describe => s.handleMethodDescribe env
  | .setup => .ok (s.handleMethodSetup env)
  | .play => .ok s.handleMethodPlay
  | .pause => .ok s.handleMethodPause
  | .getParameter => .ok s.handleMethodGetParameter
  | .setParameter => .ok s.handleMethodSetParameter
  | .teardown => .ok s.handleMethodTeardown

-- The method -1 would be looked up in front of the table.
def runRtspStateMachine : Except LibRtsp.Fault RtspSess :=
  if s.state ≠ .parsed ∧ s.state ≠ .retry then .ok s
  else match s.req.method with
    | none => .error .overread
    | some method => s.handleMethod env method

end RtspSess

section Responses

def transportLine (h : Handling) : Bytes :=
  if h.intlvdMode then bytes "Transport: RTP/AVP/TCP;unicast;interleaved=" ++ decInt h.resp.transport.rtpChn
    ++ bytes "-" ++ decInt h.resp.transport.rtcpChn
  else bytes "Transport: RTP/AVP/UDP;unicast;client_port=" ++ dec h.resp.transport.rtpCliPort ++ bytes "-"
    ++ dec h.resp.transport.rtcpCliPort ++ bytes ";server_port=" ++ dec h.resp.transport.rtpSrvPort
    ++ bytes "-" ++ dec h.resp.transport.rtcpSrvPort

def methodLines (h : Handling) : List Bytes :=
  match h.req.method with
  | some .options => [bytes "Public: " ++ str h.resp.publicHdr]
  | some .describe => [bytes "Content-type: application/sdp",
      bytes "Content-length: " ++ dec (h.resp.sdpInfo.getD []).length]
  | some .setup => [transportLine h]
  | _ => []

def respLines (tm : Tm) (h : Handling) : List Bytes :=
  [str h.resp.ver ++ bytes " " ++ dec h.resp.statusCode.code ++ bytes " " ++ h.resp.statusCode.reason,
    bytes "CSeq: " ++ dec h.resp.cseq,
    bytes "Date: " ++ tm.gmt,
    bytes "Server: " ++ str h.resp.server]
    ++ if h.state = .handled then
        (if h.resp.sessId ≠ 0 then [bytes "Session: " ++ dec h.resp.sessId] else []) ++ methodLines h
      else []

def body (h : Handling) : Bytes :=
  if h.state = .handled ∧ h.req.method = some .describe then h.resp.sdpInfo.getD [] else []

-- The text that `produce_rtsp_resp` makes; it fits into the buffer of `RTSP_RESP_SZ`.
def respText (tm : Tm) (h : Handling) : Bytes :=
  joined (respLines tm h) (body h ++ crlf)

end Responses

end SimpleCode.LibRtspServer
