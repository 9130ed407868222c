import SimpleCode.LibRtsp.Text
import SimpleCode.LibRtspClient.SdHandler

set_option autoImplicit false

namespace SimpleCode.LibRtspClient

open Foundations Scan LibRtsp

inductive RtspState
  | init
  | ready
  | playing
deriving DecidableEq, Repr

inductive HandlingState
  | init
  | doing
deriving DecidableEq, Repr

inductive SdpA
  | rtpmap (pt : ℤ) (encName : Bytes) (clkRate : ℤ)
  | control (track : Bytes)
deriving DecidableEq, Repr

structure SdpM where
  enable : Bool
  port : ℤ
  proto : Bytes
  pt : ℤ
  attrs : List SdpA
deriving DecidableEq, Repr

abbrev SdpInfo := MediaType → SdpM

structure RtpRtcp where
  enable : Bool
  rtpPort : UInt16
  rtcpPort : UInt16
  rtpSaPort : ℕ
  rtcpSaPort : ℕ
deriving DecidableEq, Repr

structure RtspReq where
  method : Method
  uri : Bytes
  ver : Bytes
  cseq : UInt32
  accept : Bytes
  transport : Bytes
  range : Bytes
deriving DecidableEq, Repr

structure RtspSess where
  uri : Bytes
  sessId : UInt64
  curCseq : UInt32
  todo : Option Method
  handlingState : HandlingState
  rtspState : RtspState
  intlvdMode : Bool
  supportedMethod : Method → Bool
  sdpInfo : Option SdpInfo
  rtpRtcp : MediaType → RtpRtcp

def maxUriSz : ℕ := 256

def MediaType.toNat : MediaType → ℕ
  | .video => 0
  | .audio => 1

-- The lines fit into the buffer of `RTSP_MSG_SZ`, as the fields of a request are much shorter.
def reqLines (sessId : UInt64) (tm : Tm) (req : RtspReq) : List Bytes :=
  [req.method.token ++ bytes " " ++ req.uri ++ bytes " " ++ req.ver,
    bytes "CSeq: " ++ decInt ((req.cseq.toNat : ℤ).bmod (2 ^ 32)),
    bytes "Date: " ++ tm.gmt,
    bytes "User-Agent: Zmodo RTSP Client"]
    ++ (if sessId ≠ 0 then [bytes "Session: " ++ dec sessId.toNat] else [])
    ++ match req.method with
      | .describe => [bytes "Accept: " ++ req.accept]
      | .setup => [bytes "Transport: " ++ req.transport]
      | .play => [bytes "Range: " ++ req.range]
      | _ => []

def produceRtspReq (sessId : UInt64) (tm : Tm) (req : RtspReq) : Bytes :=
  joined (reqLines sessId tm req) crlf

def SdpA.control? : SdpA → Option Bytes
  | .control track => some track
  | .rtpmap _ _ _ => none

-- The attribute `control` of the medium, or the name that is made up without one.
def track (sdp : SdpInfo) (media : MediaType) : Bytes :=
  let control := ((sdp media).attrs.findSome? SdpA.control?).getD []
  if control = [] then bytes "track" ++ dec media.toNat else control

namespace RtspSess

def makeRtspUri (s : RtspSess) (media : MediaType) : Bytes :=
  if s.todo = some .setup then
    match s.sdpInfo with
    | some sdp =>
      if (Bytes.find (bytes "rtsp://") (track sdp media)).isSome then (track sdp media).take (maxUriSz - 1)
      else (s.uri ++ bytes "/" ++ track sdp media).take (maxUriSz - 1)
    | none => []
  else s.uri

def makeTransportHdr (s : RtspSess) (media : MediaType) : Bytes :=
  if s.intlvdMode then bytes "RTP/AVP/TCP;unicast;interleaved=" ++ dec (media.toNat * 2) ++ bytes "-"
    ++ dec (media.toNat * 2 + 1)
  else bytes "RTP/AVP/UDP;unicast;client_port=" ++ dec (s.rtpRtcp media).rtpPort.toNat ++ bytes "-"
    ++ dec (s.rtpRtcp media).rtcpPort.toNat

def allocRtspReq (method : Method) (cseq : UInt32) : RtspReq := ⟨method, [], rtspVersion, cseq, [], [], []⟩

def optionsReq (s : RtspSess) : RtspReq :=
  { allocRtspReq .options s.curCseq with uri := s.makeRtspUri .video }

def describeReq (s : RtspSess) : RtspReq :=
  { allocRtspReq .describe s.curCseq with
    uri := s.makeRtspUri .video
    accept := bytes "application/sdp" }

-- Without a medium that is left to be set up the request has no URI and no transport.
def setupReq (s : RtspSess) (media : Option MediaType) : RtspReq :=
  match media with
  | some media =>
    { allocRtspReq .setup s.curCseq with
      uri := s.makeRtspUri media
      transport := s.makeTransportHdr media }
  | none => allocRtspReq .setup s.curCseq

def playReq (s : RtspSess) : RtspReq :=
  { allocRtspReq .play s.curCseq with
    uri := s.makeRtspUri .video
    range := bytes "npt=0.000-" }

def teardownReq (s : RtspSess) : RtspReq :=
  { allocRtspReq .teardown s.curCseq with uri := s.makeRtspUri .video }

end RtspSess

end SimpleCode.LibRtspClient
