import SimpleCode.Foundations.Runs
import SimpleCode.LibRtspServer.Rtp

set_option autoImplicit false

namespace SimpleCode.LibRtspServer

open Foundations

inductive Connection
  | rtsp
  | rtp (media : MediaType)
  | rtcp (media : MediaType)
deriving DecidableEq, Repr

-- The number of bytes that `send` takes from the front of a buffer, if it does not report an error.
abbrev SendAnswer := Option ℕ

structure SendSess where
  intlvdMode : Bool
  sendQueue : List SendBuf
  stream : Bytes
  -- All buffers that were added, and those that have left the queue with what was accepted of them.
  added : List SendBuf
  consumed : List (SendBuf × ℕ)
deriving DecidableEq, Repr

namespace SendSess

variable (s : SendSess)

def addSendBuf (sendp : SendBuf) : SendSess :=
  { s with
    sendQueue := s.sendQueue ++ [sendp]
    added := s.added ++ [sendp] }

def connection (type : DataType) : Connection :=
  if s.intlvdMode then .rtsp
  else match type with
    | .rtspResp => .rtsp
    | .rtpVPkt => .rtp .video
    | .rtpAPkt => .rtp .audio
    | .rtcpVPkt => .rtcp .video
    | .rtcpAPkt => .rtcp .audio

def sendBufData (sendp : SendBuf) (answer : SendAnswer) : Option ℕ × SendSess :=
  match answer with
  | none => (none, s)
  | some n =>
    let ns := min n sendp.data.length
    (some ns, if s.connection sendp.type = .rtsp then { s with stream := s.stream ++ sendp.data.take ns }
      else s)

-- The mask `type` is the list of its data types.
def consumeSendBuf (type : List DataType) (answer : SendAnswer) : ℤ × SendSess :=
  match s.sendQueue with
  | [] => (0, s)
  | sendp :: sendQueue =>
    if sendp.type ∈ type then
      match s.sendBufData sendp answer with
      | (none, s) => (-1, s)
      | (some ns, s) => (0, { s with sendQueue, consumed := s.consumed ++ [(sendp, ns)] })
    else (0, s)

end SendSess

inductive SendEvent
  | add (sendp : SendBuf)
  | consume (type : List DataType) (answer : SendAnswer)
deriving DecidableEq, Repr

namespace SendSess

def step (s : SendSess) : SendEvent → SendSess
  | .add sendp => s.addSendBuf sendp
  | .consume type answer => (s.consumeSendBuf type answer).2

def interleaved (sendQueue : List SendBuf) : SendSess := ⟨true, sendQueue, [], sendQueue, []⟩

/-- The connection has accepted a prefix of the queued bytes, and every buffer that has left the queue whole. -/
structure Unbroken (s : SendSess) : Prop where
  stream : s.stream <+: s.added.flatMap SendBuf.data
  whole : ∀ b ∈ s.consumed, b.2 = b.1.data.length

/-- A send that accepts anything of the first buffer accepts all of it. -/
def SendsWhole (s : SendSess) : SendEvent → Prop
  | .add _ => True
  | .consume type answer => ∀ sendp ∈ s.sendQueue.head?, sendp.type ∈ type →
      ∀ n ∈ answer, sendp.data.length ≤ n

structure Kept (s : SendSess) : Prop where
  mode : s.intlvdMode = true
  added : s.added = s.consumed.map Prod.fst ++ s.sendQueue
  stream : s.stream = s.consumed.flatMap fun b => b.1.data.take b.2

variable {s : SendSess}

lemma kept_step (h : s.Kept) (e : SendEvent) : (s.step e).Kept := by
  cases e with
  | add sendp =>
    refine ⟨h.mode, ?_, h.stream⟩
    change s.added ++ [sendp] = s.consumed.map Prod.fst ++ (s.sendQueue ++ [sendp])
    rw [h.added, List.append_assoc]
  | consume type answer =>
    rw [step, consumeSendBuf]
    cases hq : s.sendQueue with
    | nil => exact h
    | cons sendp sendQueue =>
      by_cases hmem : sendp.type ∈ type
      · cases answer with
        | none =>
          simp only [hmem, if_true]
          exact h
        | some n =>
          simp only [hmem, if_true, sendBufData, connection, h.mode]
          refine ⟨rfl, ?_, ?_⟩
          · simp [h.added, hq]
          · simp [h.stream]
      · simp only [hmem, if_false]
        exact h

lemma stream_of_whole (h : s.Kept) (hw : ∀ b ∈ s.consumed, b.2 = b.1.data.length) :
    s.stream <+: s.added.flatMap SendBuf.data := by
  have hall : s.consumed.flatMap (fun b => b.1.data.take b.2) =
      (s.consumed.map Prod.fst).flatMap SendBuf.data := by
    rw [List.flatMap_map]
    apply List.flatMap_congr
    intro b hb
    rw [hw b hb, List.take_length]
  rw [h.stream, h.added, List.flatMap_append, hall]
  exact List.prefix_append _ _

lemma unbroken_step (h : s.Kept) (hu : s.Unbroken) (e : SendEvent) :
    (s.step e).Unbroken ↔ s.SendsWhole e := by
  cases e with
  | add sendp =>
    simp only [SendsWhole, iff_true]
    exact ⟨stream_of_whole (kept_step h (.add sendp)) hu.whole, hu.whole⟩
  | consume type answer =>
    have hkept := kept_step h (.consume type answer)
    have hiff : (s.step (.consume type answer)).Unbroken ↔
        ∀ b ∈ (s.step (.consume type answer)).consumed, b.2 = b.1.data.length :=
      ⟨Unbroken.whole, fun hw => ⟨stream_of_whole hkept hw, hw⟩⟩
    rw [hiff, step, consumeSendBuf, SendsWhole]
    cases hq : s.sendQueue with
    | nil => simpa using hu.whole
    | cons sendp sendQueue =>
      by_cases hmem : sendp.type ∈ type
      · cases answer with
        | none => simpa [hmem, sendBufData] using hu.whole
        | some n =>
          have hlast : (∀ b ∈ s.consumed ++ [(sendp, min n sendp.data.length)], b.2 = b.1.data.length)
              ↔ sendp.data.length ≤ n := by
            simp only [List.forall_mem_append, List.forall_mem_singleton]
            exact (and_iff_right hu.whole).trans min_eq_right_iff
          simpa [hmem, sendBufData, connection, h.mode] using hlast
      · simpa [hmem] using hu.whole

theorem unbroken_iff (sendQueue : List SendBuf) (es : List SendEvent) :
    (∀ pre, pre <+: es → (pre.foldl step (interleaved sendQueue)).Unbroken)
      ↔ ∀ pre e, pre ++ [e] <+: es → (pre.foldl step (interleaved sendQueue)).SendsWhole e := by
  apply @always_iff _ _ step Unbroken Kept SendsWhole (fun s e h => kept_step h e)
    (fun s e h hu => unbroken_step h hu e)
  · exact ⟨rfl, rfl, rfl⟩
  · exact ⟨List.nil_prefix, fun b hb => absurd hb List.not_mem_nil⟩

/-- Half of a response is lost. -/
theorem shortSend_breaks :
    ¬ ∀ pre, pre <+: [SendEvent.consume [.rtspResp] (some 2)] →
      (pre.foldl step (interleaved [⟨.rtspResp, [82, 84, 83, 80]⟩])).Unbroken := by
  intro h
  have hwhole := (h _ List.prefix_rfl).whole (⟨.rtspResp, [82, 84, 83, 80]⟩, 2) (by decide)
  exact absurd hwhole (by decide)

end SendSess

end SimpleCode.LibRtspServer
