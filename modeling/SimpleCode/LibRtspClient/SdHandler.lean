import SimpleCode.Foundations.Buffer

set_option autoImplicit false

/-! The receiving side of the RTSP connection: RTSP responses and interleaved RTP and RTCP packets are
told apart, with the data of an incomplete one kept from one receive to the next. -/

namespace SimpleCode.LibRtspClient

open Foundations Buffer

def recvBufSz : ℕ := 100 * 1024

def dollar : UInt8 := 36

inductive MediaType
  | video
  | audio
deriving DecidableEq, Repr

inductive Handed
  | rtpPkt (media : MediaType) (data : Bytes)
  | rtcpPkt (media : MediaType) (data : Bytes)
  | rtspResp (msg : Bytes)
deriving DecidableEq, Repr

inductive Fault
  | overflow
  -- `assert(ntohs(intlvdp->sz) == (sz - sizeof(*intlvdp)))`
  | assertion
deriving DecidableEq, Repr

def intlvdSz (data : Bytes) : ℕ := (data.getD 2 0).toNat * 256 + (data.getD 3 0).toNat

def handlePkt (chn : UInt8) (data : Bytes) : List Handed :=
  if chn = 0 then [.rtpPkt .video data]
  else if chn = 2 then [.rtpPkt .audio data]
  else if chn = 1 then [.rtcpPkt .video data]
  else if chn = 3 then [.rtcpPkt .audio data]
  else []

def handleIntlvdData (data : Bytes) : Except Fault (List Handed) :=
  if data.head? = some dollar then
    if 4 < data.length then
      if intlvdSz data = data.length - 4 then .ok (handlePkt (data.getD 1 0) (data.drop 4))
      else .error .assertion
    else .ok []
  else .ok [.rtspResp data]

def rtspMsgComplete (data : Bytes) : Bool := 4 ≤ data.length && [13, 10].isSuffixOf data

structure Receiver where
  buf : ℕ → UInt8
  sz : ℕ
  log : List Handed

namespace Receiver

def last (r : Receiver) : Bytes := contents r.buf r.sz

def handle (r : Receiver) (data : Bytes) : Except Fault Receiver := do
  .ok { r with log := r.log ++ (← handleIntlvdData data) }

def append (r : Receiver) (data : Bytes) : Except Fault Receiver :=
  if r.sz + data.length ≤ recvBufSz then
    .ok { r with buf := put r.buf r.sz data, sz := r.sz + data.length }
  else .error .overflow

-- `lastp->buf[lastp->sz] = 0;`, and the data of the buffer is handled.
def flush (r : Receiver) : Except Fault Receiver :=
  if r.sz < recvBufSz then do
    let r ← { r with buf := put r.buf r.sz [0] }.handle r.last
    .ok { r with sz := 0 }
  else .error .overflow

def flushText (r : Receiver) (text : Bytes) : Except Fault Receiver :=
  if text = [] then .ok r else r.append text >>= flush

-- The received data has come to its end in a text; an incomplete one is counted twice.
def endText (r : Receiver) (text : Bytes) : Except Fault Receiver := do
  let r ← r.append text
  if rtspMsgComplete r.last then r.flush else .ok { r with sz := r.sz + text.length }

/-- `while (left > 0)`, with the text from `new` to `ptr` and the data from `ptr` on. -/
def scan (r : Receiver) (text : Bytes) : Bytes → Except Fault Receiver
  | [] => .ok r
  | c :: rest =>
    if c = dollar then do
      let r ← r.flushText text
      if 4 ≤ (c :: rest).length ∧ 4 + intlvdSz (c :: rest) ≤ (c :: rest).length then
        let r ← r.handle ((c :: rest).take (4 + intlvdSz (c :: rest)))
        scan r [] ((c :: rest).drop (4 + intlvdSz (c :: rest)))
      else .ok { r with buf := put r.buf 0 (c :: rest), sz := (c :: rest).length }
    else if rest = [] then r.endText (text ++ [c])
    else scan r (text ++ [c]) rest
termination_by data => data.length
decreasing_by
  · rw [List.length_drop]
    simp only [List.length_cons]
    omega
  · exact Nat.lt_succ_self _

-- `data` is what `recv` has put into the buffer; the missing size is calculated without a sign.
def recvFromRtspSd (r : Receiver) (data : Bytes) : Except Fault Receiver :=
  if 4 ≤ r.sz ∧ r.buf 0 = dollar then
    let size := 4 + intlvdSz r.last
    let missing := (size + 2 ^ 64 - r.sz) % 2 ^ 64
    if missing ≤ data.length then do
      let r ← r.append (data.take missing)
      let r ← r.handle (contents r.buf size)
      { r with sz := 0 }.scan [] (data.drop missing)
    else r.append data
  else r.scan [] data

end Receiver

end SimpleCode.LibRtspClient
