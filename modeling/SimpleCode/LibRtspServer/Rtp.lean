import SimpleCode.Foundations.Buffer

set_option autoImplicit false

namespace SimpleCode.LibRtspServer

open Foundations Buffer

inductive MediaType
  | video
  | audio
deriving DecidableEq, Repr

inductive DataType
  | rtspResp
  | rtpVPkt
  | rtpAPkt
  | rtcpVPkt
  | rtcpAPkt
deriving DecidableEq, Repr

structure SendBuf where
  type : DataType
  data : Bytes
deriving DecidableEq, Repr

-- `seq`, `ts` and `ssrc` are stored in network order.
structure RtpHdr where
  v : UInt8
  p : UInt8
  x : UInt8
  cc : UInt8
  m : Bool
  pt : UInt8
  seq : UInt16
  ts : UInt32
  ssrc : UInt32
deriving DecidableEq, Repr

-- The union of the payloads: `idr` lies where `hdr` of a single NALU does, and what was not set has no value.
structure RtpPl where
  idr : UInt8
  hdr : Option UInt8
  don : Option UInt16
  pl : Bytes
  plSz : ℕ
deriving DecidableEq, Repr

inductive Fault
  | overflow
  | indeterminate
deriving DecidableEq, Repr

structure RtpSess where
  intlvdMode : Bool
  rtpChn : MediaType → UInt8
  rtpHdr : MediaType → RtpHdr
  sendQueue : List SendBuf

def maxRtpPktSz : ℕ := 1440

def maxRtpPlSz : ℕ := maxRtpPktSz - 12 - 4

def rtpPtH264 : UInt8 := 96

def rtpPtPcmu : UInt8 := 0

def rtpPtPcma : UInt8 := 8

def naluPtFuA : UInt8 := 28

def naluPtFuB : UInt8 := 29

def be16 (n : UInt16) : Bytes := [(n >>> 8).toUInt8, n.toUInt8]

def be32 (n : UInt32) : Bytes :=
  [(n >>> 24).toUInt8, (n >>> 16).toUInt8, (n >>> 8).toUInt8, n.toUInt8]

namespace RtpHdr

def encode (h : RtpHdr) : Bytes :=
  [h.v <<< 6 ||| h.p <<< 5 ||| h.x <<< 4 ||| h.cc, (if h.m then 0x80 else 0) ||| h.pt]
    ++ be16 h.seq ++ be32 h.ts ++ be32 h.ssrc

def updateSeq (h : RtpHdr) : RtpHdr := { h with seq := h.seq + 1 }

def updateTs (h : RtpHdr) : RtpHdr := { h with ts := h.ts + 90000 / 25 }

end RtpHdr

def naluPrefix (p : RtpPl) : Except Fault (Option Bytes) :=
  let naluPt := p.idr &&& 0x1F
  if 1 ≤ naluPt ∧ naluPt ≤ 23 then .ok (some [p.idr])
  else if naluPt = naluPtFuA then
    match p.hdr with
    | some hdr => .ok (some [p.idr, hdr])
    | none => .error .indeterminate
  else if naluPt = naluPtFuB then
    match p.hdr, p.don with
    | some hdr, some don => .ok (some (p.idr :: hdr :: be16 don))
    | _, _ => .error .indeterminate
  else .ok none

def plPrefix (pt : UInt8) (p : RtpPl) : Except Fault (Option Bytes) :=
  if pt = rtpPtH264 then naluPrefix p
  else if pt = rtpPtPcma ∨ pt = rtpPtPcmu then .ok (some [])
  else .ok none

namespace RtpSess

def addSendBuf (s : RtpSess) (b : SendBuf) : RtpSess := { s with sendQueue := s.sendQueue ++ [b] }

def intlvd (s : RtpSess) (media : MediaType) (sendSz : ℕ) : Bytes :=
  if s.intlvdMode then 36 :: s.rtpChn media :: be16 (UInt16.ofNat sendSz) else []

def rtpDataType : MediaType → DataType
  | .video => .rtpVPkt
  | .audio => .rtpAPkt

-- Without a packet where the type of the payload is not known; the allocation succeeds.
def produceRtpPkt (s : RtpSess) (media : MediaType) (p : RtpPl) : Except Fault RtpSess := do
  let hdr := s.rtpHdr media
  match ← plPrefix hdr.pt p with
  | none => .ok s
  | some front =>
    let sendSz := hdr.encode.length + front.length + p.plSz
    let intlvd := s.intlvd media sendSz
    if intlvd.length + sendSz ≤ maxRtpPktSz then
      .ok (s.addSendBuf ⟨rtpDataType media, intlvd ++ hdr.encode ++ front ++ p.pl.take p.plSz⟩)
    else .error .overflow

def updateHdr (s : RtpSess) (f : RtpHdr → RtpHdr) : RtpSess :=
  { s with rtpHdr := Function.update s.rtpHdr .video (f (s.rtpHdr .video)) }

def sendPkt (s : RtpSess) (m : Bool) (p : RtpPl) : Except Fault RtpSess := do
  let s ← (s.updateHdr fun h => { h with m }).produceRtpPkt .video p
  .ok (s.updateHdr .updateSeq)

def maxFuSz : ℕ := maxRtpPlSz - 2

def fuIdr (nalu0 : UInt8) : UInt8 := nalu0 &&& 0xF0 ||| nalu0 &&& 0x60 ||| naluPtFuA

def fuHdr (nalu0 : UInt8) (first last : Bool) : UInt8 :=
  (if first then 0x80 else 0) ||| (if last then 0x40 else 0) ||| nalu0 &&& 0x1F

def sendFuA (s : RtpSess) (nalu0 : UInt8) (last : Bool) (num i : ℕ) (ptr : Bytes) (left : ℕ) :
    Except Fault RtpSess :=
  if i < num then do
    let fin := i = num - 1
    let plSz := if fin then left else maxFuSz
    let s ← s.sendPkt (fin && last) ⟨fuIdr nalu0, some (fuHdr nalu0 (i = 0) fin), none, ptr, plSz⟩
    sendFuA s nalu0 last num (i + 1) (ptr.drop plSz) (left - plSz)
  else .ok s
termination_by num - i

def sendH264Nalu (beyond : ℕ → UInt8) (s : RtpSess) (nalu : Bytes) (sz : ℕ) (last : Bool) :
    Except Fault RtpSess := do
  let nalu0 := peek beyond nalu 0
  let s ← if sz ≤ maxRtpPlSz then
      -- The size of an empty NALU is decreased below 0 without a sign.
      s.sendPkt last ⟨nalu0, none, none, nalu.drop 1, (sz + 2 ^ 32 - 1) % 2 ^ 32⟩
    else
      let left := sz - 1
      s.sendFuA nalu0 last (left / maxFuSz + if left % maxFuSz ≠ 0 then 1 else 0) 0 (nalu.drop 1) left
  .ok (if last then s.updateHdr .updateTs else s)

end RtpSess

def skipNaluStartCode : Bytes → Option Bytes
  | a :: b :: c :: d :: rest =>
    if a = 0 ∧ b = 0 ∧ c = 0 ∧ d = 1 then some rest
    else if a = 0 ∧ b = 0 ∧ c = 1 then some (d :: rest)
    else skipNaluStartCode (b :: c :: d :: rest)
  | _ => none

-- The bytes at the end are compared with the ones that follow on them.
def getNaluSz (beyond : ℕ → UInt8) : Bytes → ℕ
  | [] => 0
  | c :: rest =>
    let p := peek beyond (c :: rest)
    if p 0 = 0 ∧ p 1 = 0 ∧ p 2 = 0 ∧ p 3 = 0 then (c :: rest).length
    else if p 0 = 0 ∧ p 1 = 0 ∧ p 2 = 0 ∧ p 3 = 1 then
      if (c :: rest).length ≤ 4 then (c :: rest).length else 0
    else if p 0 = 0 ∧ p 1 = 0 ∧ p 2 = 1 then
      if (c :: rest).length ≤ 3 then (c :: rest).length else 0
    else getNaluSz beyond rest + 1

lemma length_skipNaluStartCode {data rest : Bytes} (h : skipNaluStartCode data = some rest) :
    rest.length < data.length := by
  induction data using skipNaluStartCode.induct with
  | case1 a b c d tail hlong =>
    rw [skipNaluStartCode, if_pos hlong] at h
    obtain rfl := Option.some.inj h
    simp only [List.length_cons]
    omega
  | case2 a b c d tail hlong hshort =>
    rw [skipNaluStartCode, if_neg hlong, if_pos hshort] at h
    obtain rfl := Option.some.inj h
    simp only [List.length_cons]
    omega
  | case3 a b c d tail hlong hshort ih =>
    rw [skipNaluStartCode, if_neg hlong, if_neg hshort] at h
    exact (ih h).trans (Nat.lt_succ_self _)
  | case4 data hshort =>
    rw [skipNaluStartCode.eq_2 _ hshort] at h
    exact nomatch h

def RtpSess.sendVideoFrm (beyond : ℕ → UInt8) (s : RtpSess) (fb : Bytes) : Except Fault RtpSess :=
  if fb = [] then .ok s
  else match _h : skipNaluStartCode fb with
    | none => .ok s
    | some nalu => do
      let sz := getNaluSz beyond nalu
      let s ← s.sendH264Nalu beyond nalu sz (nalu.length = sz)
      sendVideoFrm beyond s (nalu.drop sz)
termination_by fb.length
decreasing_by
  rw [List.length_drop]
  have := length_skipNaluStartCode ‹_›
  omega

end SimpleCode.LibRtspServer
