import SimpleCode.Foundations.Buffer

set_option autoImplicit false

namespace SimpleCode.LibRtspClient

open Foundations Buffer

inductive FrmType
  | iframe
  | bframe
  | pframe
  | aframe
deriving DecidableEq, Repr

inductive RtpFault
  | overflow
deriving DecidableEq, Repr

def maxFrmSz : ℕ := 1024 * 1024

def rtpHdrSz : ℕ := 12

/-- `frm_info`, with the first `frm_sz` bytes behind the frame header, and the frames that were given to
`store_frm`; the type of a frame without known packets is not set. -/
structure RtpSess where
  frmHdrSz : ℕ
  frm : Bytes
  stored : List (Option FrmType × Bytes)
deriving DecidableEq

namespace RtpSess

def startCode : Bytes := [0, 0, 0, 1]

def append (s : RtpSess) (data : Bytes) (n : ℕ) : Except RtpFault RtpSess :=
  if s.frmHdrSz + s.frm.length + n ≤ maxFrmSz then .ok { s with frm := s.frm ++ data.take n }
  else .error .overflow

-- Without a sign.
def minus (n k : ℕ) : ℕ := (n + 2 ^ 64 - k) % 2 ^ 64

def frmTypeOf (naluHdr : UInt8) : FrmType := if naluHdr &&& 0x1F = 1 then .pframe else .iframe

def storeFrm (s : RtpSess) (type : Option FrmType) : RtpSess :=
  { s with frm := [], stored := s.stored ++ [(type, s.frm)] }

def handleH264 (s : RtpSess) (pl : ℕ → UInt8) (data : Bytes) (sz : ℕ) :
    Except RtpFault (RtpSess × Option FrmType) := do
  let naluPt := pl 0 &&& 0x1F
  if 1 ≤ naluPt ∧ naluPt ≤ 23 then
    let s ← s.append startCode startCode.length
    let s ← s.append data (minus sz rtpHdrSz)
    .ok (s, some (frmTypeOf (pl 0)))
  else if naluPt = 28 then
    let naluHdr := pl 0 &&& 0xE0 ||| pl 1 &&& 0x1F
    let s ← if pl 1 &&& 0x80 ≠ 0 then do
        let s ← s.append startCode startCode.length
        s.append [naluHdr] 1
      else .ok s
    let s ← s.append (data.drop 2) (minus sz (rtpHdrSz + 2))
    .ok (s, some (frmTypeOf naluHdr))
  else .ok (s, none)

def handlePl (s : RtpSess) (pt : UInt8) (pl : ℕ → UInt8) (data : Bytes) (sz : ℕ) :
    Except RtpFault (RtpSess × Option FrmType) :=
  if pt = 96 then s.handleH264 pl data sz
  else if pt = 8 ∨ pt = 0 then .ok (s, some .aframe)
  else .ok (s, none)

-- What follows on `data` in memory is read when the packet is too short.
def handleRtpPkt (beyond : ℕ → UInt8) (s : RtpSess) (data : Bytes) : Except RtpFault RtpSess := do
  let byte := peek beyond data
  let (s, type) ← s.handlePl (byte 1 &&& 0x7F) (fun i => byte (rtpHdrSz + i)) (data.drop rtpHdrSz)
    data.length
  .ok (if byte 1 &&& 0x80 ≠ 0 then s.storeFrm type else s)

end RtpSess

end SimpleCode.LibRtspClient
