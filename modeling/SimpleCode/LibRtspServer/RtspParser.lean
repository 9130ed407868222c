import SimpleCode.LibRtsp.Text
import SimpleCode.LibRtspServer.Rtp

set_option autoImplicit false

namespace SimpleCode.LibRtspServer

open Foundations Scan
open LibRtsp hiding Fault

inductive HandlingState
  | init
  | ready
  | parsed
  | handled
  | retry
  | done
  | error
  | failed
deriving DecidableEq, Repr

inductive StatusCode
  | ok
  | notFound
  | requestUriTooLarge
  | sessionNotFound
  | methodNotValidInThisState
  | invalidRange
  | internalServerError
  | notImplemented
  | versionNotSupported
deriving DecidableEq, Repr

namespace StatusCode

def code : StatusCode → ℕ
  | ok => 200
  | notFound => 404
  | requestUriTooLarge => 414
  | sessionNotFound => 454
  | methodNotValidInThisState => 455
  | invalidRange => 457
  | internalServerError => 500
  | notImplemented => 501
  | versionNotSupported => 505

def reason : StatusCode → Bytes
  | ok => bytes "OK"
  | notFound => bytes "Not Found"
  | requestUriTooLarge => bytes "Request-URI Too Large"
  | sessionNotFound => bytes "Session Not Found"
  | methodNotValidInThisState => bytes "Method Not Valid in This State"
  | invalidRange => bytes "Invalid Range"
  | internalServerError => bytes "Internal Server Error"
  | notImplemented => bytes "Not Implemented"
  | versionNotSupported => bytes "Version not supported"

end StatusCode

structure Transport where
  rtpChn : ℤ
  rtcpChn : ℤ
  rtpCliPort : ℕ
  rtcpCliPort : ℕ
  rtpSrvPort : ℕ
  rtcpSrvPort : ℕ
deriving DecidableEq, Repr

-- `method` is `none` for -1, and a string is `none` for `NULL`.
structure RtspReq where
  method : Option Method
  uri : Option Bytes
  ver : Option Bytes
  sessId : ℕ
  cseq : ℕ
  transport : Transport
  media : MediaType
deriving DecidableEq, Repr

structure RtspResp where
  ver : Option Bytes
  statusCode : StatusCode
  sessId : ℕ
  cseq : ℕ
  server : Option Bytes
  publicHdr : Option Bytes
  transport : Transport
  sdpInfo : Option Bytes
deriving DecidableEq, Repr

inductive ChnType
  | main
  | minor
deriving DecidableEq, Repr

structure StrmInfo where
  chnNo : ℤ
  chnType : ChnType
  fileName : Option Bytes
deriving DecidableEq, Repr

structure Handling where
  state : HandlingState
  intlvdMode : Bool
  strmInfo : StrmInfo
  req : RtspReq
  resp : RtspResp
deriving DecidableEq, Repr

def Transport.zero : Transport := ⟨0, 0, 0, 0, 0, 0⟩

-- What `mallocz` gives, with the status that is set afterwards.
def RtspReq.fresh : RtspReq := ⟨some .options, none, none, 0, 0, .zero, .video⟩

def RtspResp.fresh : RtspResp := ⟨none, .ok, 0, 0, none, none, .zero, none⟩

/-- Which files exist, which session ids the server knows, and which calls of `strndup` succeed. -/
structure ParseEnv where
  access : Bytes → Bool
  rtspSessIdExist : ℕ → Bool
  dupVer : Bool
  dupServer : Bool
  dupUri : Bool
  dupReqVer : Bool
  dupFileName : Bool

def maxUriSz : ℕ := 256

def maxChnNum : ℤ := 8

def getRtspMethod (str : Bytes) : Option Method := Method.all.find? fun m => hasPrefix m.token str

def getNextWord : Bytes → Option Bytes
  | [] => none
  | c :: str =>
    if c = 32 ∧ str.head? ≠ some 32 then some str
    else if c = 13 ∨ c = 10 then none
    else getNextWord str

-- `strndup(word, get_word_sz(word))`
def wordOf (word : Bytes) : Bytes := word.takeWhile fun c => c ≠ 32 ∧ c ≠ 13 ∧ c ≠ 10

def strndup (ok : Bool) (s : Bytes) : Option Bytes := if ok then some s else none

namespace Handling

def status (h : Handling) (code : StatusCode) : Handling := { h with resp.statusCode := code }

def hostFormat : List Dir := lits (bytes "rtsp://") ++ [.skipNoneOf [47]]

def chnFormat : List Dir := hostFormat ++ (lits (bytes "/av") ++ [.int, .lit 95, .int])

def trackFormat : List Dir :=
  hostFormat ++ (.lit 47 :: .skipNoneOf [47] :: (lits (bytes "/track") ++ [.int]))

def fileFormat : List Dir := hostFormat ++ [.lit 47, .word]

def setChn (h : Handling) (chnNo chnType : ℤ) : Handling :=
  if chnNo < 0 ∨ maxChnNum ≤ chnNo ∨ chnType < 0 ∨ 1 < chnType then h.status .invalidRange
  else { h with
    strmInfo.chnNo := chnNo
    strmInfo.chnType := if chnType ≠ 0 then .main else .minor }

def setMedia (h : Handling) (mediaType : ℤ) : Handling :=
  if mediaType < 0 ∨ 1 < mediaType then h.status .invalidRange
  else { h with req.media := if mediaType ≠ 0 then .audio else .video }

def setFile (env : ParseEnv) (h : Handling) (fileName : Bytes) : Handling :=
  if env.access fileName then { h with strmInfo.fileName := strndup env.dupFileName fileName }
  else h.status .invalidRange

def setDefault (h : Handling) (uri : Bytes) : Handling :=
  if assigned hostFormat uri = 0 then
    { h with
      strmInfo.chnNo := 0
      strmInfo.chnType := .main }
  else h.status .invalidRange

def parseRtspUri (env : ParseEnv) (h : Handling) (uri : Bytes) : Handling :=
  if ¬ hasPrefixCase (bytes "rtsp://") uri then h.status .notFound
  else if maxUriSz ≤ uri.length then h.status .requestUriTooLarge
  else match sscanf chnFormat uri with
    | [.num chnNo, .num chnType] => h.setChn (int chnNo) (int chnType)
    | _ => match sscanf trackFormat uri with
      | [.num mediaType] => h.setMedia (int mediaType)
      | _ => match sscanf fileFormat uri with
        | [.text fileName] => h.setFile env fileName
        | _ => h.setDefault uri

def checkVersion (h : Handling) (ver : Bytes) : Handling :=
  if ver = rtspVersion then h else h.status .versionNotSupported

-- A duplicate that could not be allocated is read as a `NULL`.
def parseReqLine (env : ParseEnv) (h : Handling) (line : Bytes) : Except LibRtsp.Fault Handling :=
  let h := { h with req.method := getRtspMethod line }
  if h.req.method = none then .ok (h.status .notImplemented)
  else match getNextWord line with
    | none => .ok { h with state := .failed }
    | some ptr =>
      match strndup env.dupUri (wordOf ptr) with
      | none => .error .nullPointer
      | some uri =>
        let h := parseRtspUri env { h with req.uri := some uri } uri
        match getNextWord ptr with
        | none => .ok { h with state := .failed }
        | some ptr =>
          match strndup env.dupReqVer (wordOf ptr) with
          | none => .error .nullPointer
          | some ver => .ok (checkVersion { h with req.ver := some ver } ver)

def clientPort (h : Handling) (ptr : Bytes) : Handling × Bool :=
  match sscanf (lits (bytes "client_port=") ++ [.int, .lit 45, .int]) ptr with
  | [.num rtp, .num rtcp] => ({ h with
      req.transport.rtpCliPort := ushort rtp
      req.transport.rtcpCliPort := ushort rtcp }, true)
  | [.num rtp] => ({ h with req.transport.rtpCliPort := ushort rtp }, false)
  | _ => (h, false)

def interleaved (h : Handling) (ptr : Bytes) : Handling × Bool :=
  match sscanf (lits (bytes "interleaved=") ++ [.int, .lit 45, .int]) ptr with
  | [.num rtp, .num rtcp] => ({ h with
      req.transport.rtpChn := char rtp
      req.transport.rtcpChn := char rtcp }, true)
  | [.num rtp] => ({ h with req.transport.rtpChn := char rtp }, false)
  | _ => (h, false)

def transportField (h : Handling) (ptr : Bytes) : Handling × Bool :=
  if hasPrefix (bytes "RTP/AVP/TCP") ptr then ({ h with intlvdMode := true }, true)
  else if hasPrefix (bytes "RTP/AVP/UDP") ptr ∨ hasPrefix (bytes "RTP/AVP") ptr then
    ({ h with intlvdMode := false }, true)
  else if hasPrefix (bytes "unicast") ptr then (h, true)
  else if hasPrefix (bytes "mode") ptr then (h, true)
  else if hasPrefix (bytes "client_port") ptr then h.clientPort ptr
  else if hasPrefix (bytes "interleaved") ptr then h.interleaved ptr
  else (h, true)

def transportFields (h : Handling) (ptr : Bytes) : Except LibRtsp.Fault (Handling × Bool) :=
  fields transportField h ptr

def parseHdrTransport (h : Handling) (line : Bytes) : Except LibRtsp.Fault (Handling × Bool) :=
  if hasPrefix (bytes "Transport: ") line then
    h.transportFields (line.drop (bytes "Transport: ").length)
  else .ok (h, false)

def sessionHdr (env : ParseEnv) (h : Handling) (line : Bytes) : Handling × Bool :=
  match sscanf (lits (bytes "Session:") ++ [.space, .int]) line with
  | [.num v] =>
    let h := { h with req.sessId := ulong v }
    if env.rtspSessIdExist (ulong v) then ({ h with resp.sessId := ulong v }, true)
    else ({ h with resp.sessId := 0 }.status .sessionNotFound, false)
  | _ => (h.status .internalServerError, false)

def cseqHdr (h : Handling) (line : Bytes) : Handling × Bool :=
  match sscanf (lits (bytes "CSeq:") ++ [.space, .int]) line with
  | [.num v] => ({ h with
      req.cseq := uint v
      resp.cseq := uint v }, true)
  | _ => (h.status .internalServerError, false)

def transportHdr (h : Handling) (line : Bytes) : Except LibRtsp.Fault (Handling × Bool) := do
  let (h, parsed) ← h.parseHdrTransport line
  .ok (if parsed then (h, true) else (h.status .internalServerError, false))

def reqHdr (env : ParseEnv) (h : Handling) (line : Bytes) : Except LibRtsp.Fault (Handling × Bool) :=
  if hasPrefix (bytes "CSeq") line then .ok (h.cseqHdr line)
  else if hasPrefix (bytes "Session") line then .ok (h.sessionHdr env line)
  else if hasPrefix (bytes "User-Agent") line then .ok (h, true)
  else if hasPrefix (bytes "Transport") line then h.transportHdr line
  else .ok (h, true)

def cseqFound (line : Bytes) : Bool :=
  hasPrefix (bytes "CSeq") line && (sscanf (lits (bytes "CSeq:") ++ [.space, .int]) line).length = 1

def reqHdrs (env : ParseEnv) (h : Handling) (found : Bool) (line : Bytes) :
    Except LibRtsp.Fault (Handling × Bool) := do
  let r ← h.reqHdr env line
  let found := found || cseqFound line
  if r.2 then
    match _h : getNextLine line with
    | none => .ok (r.1, found)
    | some line => reqHdrs env r.1 found line
  else .ok (r.1, found)
termination_by line.length
decreasing_by exact length_getNextLine ‹_›

def parseReqHdrs (env : ParseEnv) (h : Handling) (line : Bytes) : Except LibRtsp.Fault Handling := do
  let (h, found) ← h.reqHdrs env false line
  .ok (if found then h else h.status .internalServerError)

def parsed (h : Handling) : Handling :=
  if h.state = .failed then h
  else { h with state := if h.resp.statusCode = .ok then .parsed else .error }

def parseRtspReq (env : ParseEnv) (h : Handling) (recvBuf : Bytes) : Except LibRtsp.Fault Handling :=
  if h.state ≠ .ready then .ok h
  else do
    let h := { h with
      resp.ver := strndup env.dupVer rtspVersion
      resp.server := strndup env.dupServer (bytes "Zmodo-RTSP-Server")
      resp.cseq := h.req.cseq
      resp.sessId := h.req.sessId }
    let h ← h.parseReqLine env recvBuf
    match getNextLine recvBuf with
    | none => .ok h.parsed
    | some line =>
      let h ← h.parseReqHdrs env line
      .ok h.parsed

end Handling

end SimpleCode.LibRtspServer
