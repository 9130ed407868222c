import SimpleCode.LibRtspClient.RtspMethod

set_option autoImplicit false

/-! How the RTSP client parses a response. The allocations succeed. -/

namespace SimpleCode.LibRtspClient

open Foundations Scan
open LibRtsp hiding Fault

structure RespTransport where
  intlvdMode : Bool
  rtpChn : ℤ
  rtcpChn : ℤ
  rtpCliPort : ℕ
  rtcpCliPort : ℕ
  rtpSrvPort : ℕ
  rtcpSrvPort : ℕ
deriving DecidableEq, Repr

-- `freed` is a pointer to a session description that does not exist any more.
inductive SdpPtr
  | null
  | info (sdp : SdpInfo)
  | freed

structure RtspResp where
  ver : Bytes
  code : ℤ
  reason : Bytes
  cseq : ℕ
  sessId : ℕ
  date : Bytes
  publicHdr : Bytes
  contentType : Bytes
  contentLength : ℕ
  transport : RespTransport
  sdpInfo : SdpPtr

def RtspResp.fresh : RtspResp :=
  ⟨[], 0, [], 0, 0, [], [], [], 0, ⟨false, 0, 0, 0, 0, 0, 0⟩, .null⟩

def store (sz : ℕ) (s : Bytes) : Except LibRtsp.Fault Bytes :=
  if s.length < sz then .ok s else .error .overflow

def skip (n : ℕ) (line : Bytes) : Except LibRtsp.Fault Bytes :=
  if n ≤ line.length then .ok (line.drop n) else .error .overread

section Sdp

def SdpInfo.set (sdp : SdpInfo) (media : MediaType) (m : SdpM) : SdpInfo := Function.update sdp media m

def SdpInfo.add (sdp : SdpInfo) (media : MediaType) (a : SdpA) : SdpInfo :=
  sdp.set media { sdp media with attrs := (sdp media).attrs ++ [a] }

def allocSdpInfo : SdpInfo := fun _ => ⟨false, 0, [], 0, []⟩

def rtpmapFormat : List Dir :=
  lits (bytes "a=rtpmap:") ++ [.int, .space, .noneOf [47], .lit 47, .int, .skipWord]

inductive AttrLine
  | attr (a : SdpA)
  -- `b=AS`
  | bandwidth
  | other
  | bad

def rtpmapAttr (line : Bytes) : Except LibRtsp.Fault AttrLine :=
  match sscanf rtpmapFormat line with
  | [.num pt, .text encName, .num clkRate] => do
    let encName ← store 32 encName
    .ok (.attr (.rtpmap (int pt) encName (int clkRate)))
  | [.num _, .text encName] => do
    let _ ← store 32 encName
    .ok .bad
  | _ => .ok .bad

def controlAttr (line : Bytes) : Except LibRtsp.Fault AttrLine :=
  match sscanf (lits (bytes "a=control:") ++ [.word]) line with
  | [.text track] => do
    let track ← store 256 track
    .ok (.attr (.control track))
  | _ => .ok .bad

def attrLine (line : Bytes) : Except LibRtsp.Fault AttrLine :=
  if hasPrefix (bytes "a=rtpmap") line then rtpmapAttr line
  else if hasPrefix (bytes "a=control") line then controlAttr line
  else .ok (if hasPrefix (bytes "b=AS") line then .bandwidth else .other)

/-- The attributes of a medium, on the lines after `line`, and where the parsing of the lines goes on:
in front of the end of the last line, so that the next line is found once more. -/
def sdpAttrs (sdp : SdpInfo) (media : MediaType) (line : Bytes) :
    Except LibRtsp.Fault (Option (SdpInfo × Bytes)) :=
  match _h : lineEnd line with
  | none => .error .nullPointer
  | some (c, line) => do
    match ← attrLine line with
    | .attr a => sdpAttrs (sdp.add media a) media line
    | .bandwidth => sdpAttrs sdp media line
    | .other => .ok (some (sdp, c :: line))
    | .bad => .ok none
termination_by line.length
decreasing_by all_goals exact length_lineEnd ‹_›

lemma length_sdpAttrs {sdp : SdpInfo} {media : MediaType} {line : Bytes} {r : SdpInfo × Bytes}
    (h : sdpAttrs sdp media line = .ok (some r)) : r.2.length ≤ line.length := by
  induction hn : line.length using Nat.strong_induction_on generalizing sdp line with
  | h n ih =>
    subst hn
    rw [sdpAttrs] at h
    split at h
    · exact nomatch h
    · next c rest hend =>
      have hlt := length_lineEnd hend
      cases hattr : attrLine rest with
      | error e =>
        rw [hattr] at h
        exact nomatch h
      | ok a =>
        rw [hattr, ok_bind] at h
        cases a with
        | attr a => exact (ih _ hlt h rfl).trans hlt.le
        | bandwidth => exact (ih _ hlt h rfl).trans hlt.le
        | other =>
          obtain rfl := Option.some.inj (Except.ok.inj h)
          exact hlt
        | bad => exact nomatch Except.ok.inj h

def mediaFormat : List Dir := [.skipNoneOf [32], .space, .int, .space, .word, .space, .int]

def mediaLine (sdp : SdpInfo) (media : MediaType) (line : Bytes) :
    Except LibRtsp.Fault (Option (SdpInfo × Bytes)) :=
  match sscanf mediaFormat line with
  | [.num port, .text proto, .num pt] => do
    let proto ← store 16 proto
    let m := { sdp media with
      enable := true
      port := int port
      proto
      pt := int pt }
    sdpAttrs (sdp.set media m) media line
  | [.num _, .text proto] => do
    let _ ← store 16 proto
    .ok none
  | _ => .ok none

def sdpLine (sdp : SdpInfo) (line : Bytes) : Except LibRtsp.Fault (Option (SdpInfo × Bytes)) :=
  if hasPrefix (bytes "m=video") line then mediaLine sdp .video line
  else if hasPrefix (bytes "m=audio") line then mediaLine sdp .audio line
  else match sscanf (lits (bytes "v=") ++ [.int]) line with
    | [.num v] => .ok (if int v ≠ 0 then none else some (sdp, line))
    | _ => .ok (some (sdp, line))

lemma length_mediaLine {sdp : SdpInfo} {media : MediaType} {line : Bytes} {r : SdpInfo × Bytes}
    (h : mediaLine sdp media line = .ok (some r)) : r.2.length ≤ line.length := by
  rw [mediaLine] at h
  split at h
  · rw [store] at h
    split at h
    · exact length_sdpAttrs h
    · exact nomatch h
  · rw [store] at h
    split at h
    · exact nomatch Except.ok.inj h
    · exact nomatch h
  · exact nomatch Except.ok.inj h

lemma length_sdpLine {sdp : SdpInfo} {line : Bytes} {r : SdpInfo × Bytes}
    (h : sdpLine sdp line = .ok (some r)) : r.2.length ≤ line.length := by
  rw [sdpLine] at h
  split at h
  · exact length_mediaLine h
  · split at h
    · exact length_mediaLine h
    · split at h
      · split at h
        · exact nomatch Except.ok.inj h
        · obtain rfl := Option.some.inj (Except.ok.inj h)
          exact le_rfl
      · obtain rfl := Option.some.inj (Except.ok.inj h)
        exact le_rfl

-- `while (line)`; without a result the description is freed.
def parseSdpInfo (sdp : SdpInfo) (line : Bytes) : Except LibRtsp.Fault (Option SdpInfo) :=
  match _h : sdpLine sdp line with
  | .error e => .error e
  | .ok none => .ok none
  | .ok (some (sdp, last)) =>
    match _h' : getNextLine last with
    | none => .ok (some sdp)
    | some line => parseSdpInfo sdp line
termination_by line.length
decreasing_by exact (length_getNextLine _h').trans_le (length_sdpLine _h)

end Sdp

namespace RtspResp

/-- `while (line)` of `parse_hdr_content`, in the line before; the result is not -1. -/
def content (r : RtspResp) (line : Bytes) : Except LibRtsp.Fault (RtspResp × Bool) :=
  match _h : getNextLine line with
  | none => .error .nullPointer
  | some line =>
    if hasPrefixCase (bytes "Content-Length") line then
      match sscanf (lits (bytes "Content-Length:") ++ [.space, .int]) line with
      | [.num v] =>
        let r := { r with contentLength := uint v }
        if crlf.length < r.contentLength then
          match if (Bytes.find crlf line).isSome then (Bytes.find crlf line).map (· + 2)
              else (Bytes.find [10] line).map (· + 1) with
          | none => .ok (r, false)
          | some n =>
            if (Bytes.find (bytes "sdp") r.contentType).isSome then do
              match ← parseSdpInfo allocSdpInfo (line.drop n) with
              | none => .ok ({ r with sdpInfo := .freed }, false)
              | some sdp => .ok ({ r with sdpInfo := .info sdp }, true)
            else content r (line.drop n)
        else content r line
      | _ => .ok (r, false)
    else content r line
termination_by line.length
decreasing_by
  · rw [List.length_drop]
    exact Nat.lt_of_le_of_lt (Nat.sub_le _ _) (length_getNextLine ‹_›)
  all_goals exact length_getNextLine ‹_›

def parseHdrContent (r : RtspResp) (line : Bytes) : Except LibRtsp.Fault (RtspResp × Bool) := do
  match sscanf [.noneOf crlf] (← skip (bytes "Content-Type: ").length line) with
  | [.text contentType] =>
    let contentType ← store 64 contentType
    { r with contentType }.content line
  | _ => .ok (r, false)

def portPair (name : String) (ptr : Bytes) : List Val :=
  sscanf (lits (bytes name) ++ [.int, .lit 45, .int]) ptr

def clientPort (r : RtspResp) (ptr : Bytes) : RtspResp × Bool :=
  if r.transport.intlvdMode then (r, true)
  else match portPair "client_port=" ptr with
    | [.num rtp, .num rtcp] => ({ r with
        transport.rtpCliPort := ushort rtp
        transport.rtcpCliPort := ushort rtcp }, true)
    | [.num rtp] => ({ r with transport.rtpCliPort := ushort rtp }, false)
    | _ => (r, false)

def serverPort (r : RtspResp) (ptr : Bytes) : RtspResp × Bool :=
  if r.transport.intlvdMode then (r, true)
  else match portPair "server_port=" ptr with
    | [.num rtp, .num rtcp] => ({ r with
        transport.rtpSrvPort := ushort rtp
        transport.rtcpSrvPort := ushort rtcp }, true)
    | [.num rtp] => ({ r with transport.rtpSrvPort := ushort rtp }, false)
    | _ => (r, false)

def interleaved (r : RtspResp) (ptr : Bytes) : RtspResp × Bool :=
  if r.transport.intlvdMode then
    match portPair "interleaved=" ptr with
    | [.num rtp, .num rtcp] => ({ r with
        transport.rtpChn := char rtp
        transport.rtcpChn := char rtcp }, true)
    | [.num rtp] => ({ r with transport.rtpChn := char rtp }, false)
    | _ => (r, false)
  else (r, true)

def transportField (r : RtspResp) (ptr : Bytes) : RtspResp × Bool :=
  if hasPrefix (bytes "RTP/AVP/TCP") ptr then ({ r with transport.intlvdMode := true }, true)
  else if hasPrefix (bytes "RTP/AVP/UDP") ptr ∨ hasPrefix (bytes "RTP/AVP") ptr then
    ({ r with transport.intlvdMode := false }, true)
  else if hasPrefix (bytes "unicast") ptr then (r, true)
  else if hasPrefix (bytes "mode") ptr then (r, true)
  else if hasPrefix (bytes "client_port") ptr then r.clientPort ptr
  else if hasPrefix (bytes "server_port") ptr then r.serverPort ptr
  else if hasPrefix (bytes "interleaved") ptr then r.interleaved ptr
  else (r, true)

def transportFields (r : RtspResp) (ptr : Bytes) : Except LibRtsp.Fault (RtspResp × Bool) :=
  fields transportField r ptr

def parseHdrTransport (r : RtspResp) (line : Bytes) : Except LibRtsp.Fault (RtspResp × Bool) :=
  if hasPrefix (bytes "Transport: ") line then
    r.transportFields (line.drop (bytes "Transport: ").length)
  else .ok (r, false)

def respLineFormat : List Dir := [.word, .space, .int, .space, .noneOf crlf]

def parseRespLine (r : RtspResp) (line : Bytes) : Except LibRtsp.Fault (RtspResp × Bool) :=
  match sscanf respLineFormat line with
  | [.text ver, .num code, .text reason] => do
    let ver ← store 16 ver
    let reason ← store 64 reason
    .ok ({ r with
      ver
      code := int code
      reason }, ver = rtspVersion ∧ int code = 200)
  | [.text ver, .num code] => do
    let ver ← store 16 ver
    .ok ({ r with
      ver
      code := int code }, false)
  | [.text ver] => do
    let ver ← store 16 ver
    .ok ({ r with ver }, false)
  | _ => .ok (r, false)

def cseqHdr (r : RtspResp) (line : Bytes) : Except LibRtsp.Fault (RtspResp × Bool) := do
  match sscanf [.int] (← skip (bytes "CSeq: ").length line) with
  | [.num v] => .ok ({ r with cseq := uint v }, true)
  | _ => .ok (r, false)

def dateHdr (r : RtspResp) (line : Bytes) : Except LibRtsp.Fault (RtspResp × Bool) := do
  match sscanf [.noneOf crlf] (← skip (bytes "Date: ").length line) with
  | [.text date] =>
    let date ← store 64 date
    .ok ({ r with date }, true)
  | _ => .ok (r, false)

def sessionHdr (r : RtspResp) (line : Bytes) : Except LibRtsp.Fault (RtspResp × Bool) := do
  match sscanf [.int] (← skip (bytes "Session: ").length line) with
  | [.num v] => .ok ({ r with sessId := ulong v }, true)
  | _ => .ok (r, false)

def publicLine (r : RtspResp) (line : Bytes) : Except LibRtsp.Fault (RtspResp × Bool) := do
  match sscanf [.noneOf crlf] (← skip (bytes "Public: ").length line) with
  | [.text publicHdr] =>
    let publicHdr ← store 128 publicHdr
    .ok ({ r with publicHdr }, true)
  | _ => .ok (r, false)

def respHdr (r : RtspResp) (line : Bytes) : Except LibRtsp.Fault (RtspResp × Bool) :=
  if hasPrefixCase (bytes "CSeq") line then r.cseqHdr line
  else if hasPrefixCase (bytes "Date") line then r.dateHdr line
  else if hasPrefixCase (bytes "Session") line then r.sessionHdr line
  else if hasPrefixCase (bytes "Public") line then r.publicLine line
  else if hasPrefixCase (bytes "Transport") line then r.parseHdrTransport line
  else .ok (r, true)

-- The other names are compared before this one, and none of them begins in the same way.
def isContentType (line : Bytes) : Bool := hasPrefixCase (bytes "Content-Type") line

def respHdrs (r : RtspResp) (found : Bool) (line : Bytes) : Except LibRtsp.Fault (RtspResp × Bool) := do
  if isContentType line then
    let p ← r.parseHdrContent line
    .ok (p.1, p.2 && found)
  else
    let p ← r.respHdr line
    let found := found || hasPrefixCase (bytes "CSeq") line
    if p.2 then
      match _h : getNextLine line with
      | none => .ok (p.1, found)
      | some line => respHdrs p.1 found line
    else .ok p
termination_by line.length
decreasing_by exact length_getNextLine ‹_›

def parseRespHdrs (r : RtspResp) : Option Bytes → Except LibRtsp.Fault (RtspResp × Bool)
  | none => .ok (r, false)
  | some line => r.respHdrs false line

end RtspResp

def parseRtspResp (msg : Bytes) : Except LibRtsp.Fault (RtspResp × Bool) := do
  let p ← RtspResp.fresh.parseRespLine msg
  if p.2 then p.1.parseRespHdrs (getNextLine msg) else .ok p

end SimpleCode.LibRtspClient
