import SimpleCode.Foundations.Runs
import SimpleCode.LibRtsp.Packetization
import SimpleCode.LibRtspServer.SendQueue
import SimpleCode.LibRtspClient.Demultiplexing

set_option autoImplicit false

namespace SimpleCode.LibRtsp

open Foundations
open LibRtspServer (SendBuf SendSess SendAnswer DataType rtpPtH264)
open LibRtspClient (Message Receiver Handed FrmType encodeAll encodeAll_append encodeAll_cons CutAt CutsKeepMessages
  Receiving Received dollar recvBufSz maxFrmSz cutAt_cons cutAt_concat
  not_cutAt)
open LibRtspClient.RtpSess (handleRtpPkt)

section Cuts

variable {ms more before after : List Message} {m : Message} {cs : List Bytes} {p q : ℕ}

lemma cutAt_cons_alone {P : ℕ → Prop} {x : UInt8} {xs : Bytes} (hone : xs = [] ∨ P 1)
    (hcut : ∀ p, CutAt cs p ↔ p = 0 ∨ p ≤ xs.length ∧ (P (p + 1) ∨ p = xs.length)) (p : ℕ) :
    CutAt ([x] :: cs) p ↔ p = 0 ∨ p ≤ (x :: xs).length ∧ (P p ∨ p = (x :: xs).length) := by
  rw [cutAt_cons]
  simp only [hcut, List.length_cons, List.length_nil, Nat.zero_add]
  constructor
  · rintro (rfl | ⟨q, rfl | ⟨hle, hq⟩, rfl⟩)
    · exact .inl rfl
    · refine .inr ⟨by omega, hone.symm.imp id fun h => ?_⟩
      rw [h, List.length_nil]
    · rw [Nat.add_comm 1 q]
      exact .inr ⟨by omega, hq.imp id (congrArg (· + 1))⟩
  · rintro (rfl | ⟨hle, hp⟩)
    · exact .inl rfl
    · rcases p with _ | q
      · exact .inl rfl
      · exact .inr ⟨q, .inr ⟨by omega, hp.imp id (by omega)⟩, Nat.add_comm q 1⟩

lemma cutAt_cons_joined {P : ℕ → Prop} {x : UInt8} {xs c : Bytes} (hxs : xs ≠ []) (hP : ¬ P 1) (hc : c ≠ [])
    (hcut : ∀ p, CutAt (c :: cs) p ↔ p = 0 ∨ p ≤ xs.length ∧ (P (p + 1) ∨ p = xs.length)) (p : ℕ) :
    CutAt ((x :: c) :: cs) p ↔ p = 0 ∨ p ≤ (x :: xs).length ∧ (P p ∨ p = (x :: xs).length) := by
  have hpos := List.length_pos_iff.mpr hc
  simp only [cutAt_cons] at hcut
  rw [cutAt_cons]
  simp only [List.length_cons]
  constructor
  · rintro (rfl | ⟨q, hq, rfl⟩)
    · exact .inl rfl
    · obtain hzero | ⟨hle, hq'⟩ := (hcut (c.length + q)).mp (.inr ⟨q, hq, rfl⟩)
      · omega
      · rw [Nat.add_right_comm]
        exact .inr ⟨by omega, hq'.imp id (congrArg (· + 1))⟩
  · rintro (rfl | ⟨hle, hp⟩)
    · exact .inl rfl
    · rcases p with _ | q
      · exact .inl rfl
      · obtain rfl | ⟨q', hq', rfl⟩ := (hcut q).mpr (.inr ⟨by omega, hp.imp id (by omega)⟩)
        · refine absurd hp (not_or.mpr ⟨hP, fun h => hxs (List.length_eq_zero_iff.mp ?_)⟩)
          omega
        · exact .inr ⟨q', hq', by omega⟩

lemma exists_cuts (P : ℕ → Prop) (xs : Bytes) : ∃ cs : List Bytes, cs.flatten = xs ∧ (∀ c ∈ cs, c ≠ [])
    ∧ ∀ p, CutAt cs p ↔ p = 0 ∨ p ≤ xs.length ∧ (P p ∨ p = xs.length) := by
  induction xs generalizing P with
  | nil =>
    refine ⟨[], rfl, fun c hc => absurd hc List.not_mem_nil, fun p => ?_⟩
    constructor
    · rintro ⟨seen, later, hsplit, rfl⟩
      obtain ⟨rfl, -⟩ := List.append_eq_nil_iff.mp hsplit.symm
      exact .inl rfl
    · intro hp
      have hzero : p = 0 := hp.elim id fun h => Nat.le_zero.mp h.1
      exact ⟨[], [], rfl, hzero.symm⟩
  | cons x xs ih =>
    obtain ⟨cs, hflat, hne, hcut⟩ := ih fun q => P (q + 1)
    by_cases hone : xs = [] ∨ P 1
    · refine ⟨[x] :: cs, by rw [List.flatten_cons, hflat]; rfl, ?_, cutAt_cons_alone hone hcut⟩
      exact List.forall_mem_cons.mpr ⟨List.cons_ne_nil x [], hne⟩
    · rw [not_or] at hone
      obtain ⟨c, cs, rfl⟩ := List.exists_cons_of_ne_nil fun hnil : cs = [] => hone.1 (by rw [← hflat, hnil]; rfl)
      obtain ⟨hc, hrest⟩ := List.forall_mem_cons.mp hne
      refine ⟨(x :: c) :: cs, congrArg (x :: ·) hflat, ?_, cutAt_cons_joined hone.1 hone.2 hc hcut⟩
      exact List.forall_mem_cons.mpr ⟨List.cons_ne_nil x c, hrest⟩

-- The first `p` bytes end with a message, or in a packet behind its header.
def EndsAt (ms : List Message) (p : ℕ) : Prop := ∀ before m after, ms = before ++ m :: after →
  (encodeAll before).length < p → p < (encodeAll (before ++ [m])).length →
  m.isPacket ∧ (encodeAll before).length + 4 ≤ p

-- Between the bytes `p` and `q` no two responses meet.
def Apart (ms : List Message) (p q : ℕ) : Prop := ∀ before t t' after,
  ms = before ++ .response t :: .response t' :: after →
    ¬ (p < (encodeAll (before ++ [.response t])).length ∧ (encodeAll (before ++ [.response t])).length < q)

lemma length_encodeAll_mono {ms ms' : List Message} (h : ms <+: ms') :
    (encodeAll ms).length ≤ (encodeAll ms').length := by
  obtain ⟨more, rfl⟩ := h
  rw [encodeAll_append, List.length_append]
  exact Nat.le_add_right _ _

lemma not_inside_of_boundary {front back : List Message} (hsplit : ms = before ++ m :: after)
    (hboundary : ms = front ++ back) (hlt : (encodeAll before).length < (encodeAll front).length) :
    (encodeAll (before ++ [m])).length ≤ (encodeAll front).length := by
  rw [List.append_cons] at hsplit
  rcases List.append_eq_append_iff.mp (hsplit.symm.trans hboundary) with ⟨x, hfront, -⟩ | ⟨x, hx, -⟩
  · exact length_encodeAll_mono ⟨x, hfront.symm⟩
  · rcases List.eq_nil_or_concat x with rfl | ⟨y, z, rfl⟩
    · rw [hx, List.append_nil]
    · rw [List.concat_eq_append, ← List.append_assoc] at hx
      obtain ⟨rfl, -⟩ := List.append_inj' hx rfl
      exact absurd (length_encodeAll_mono ⟨y, rfl⟩) hlt.not_ge

lemma EndsAt.append (h : EndsAt ms p) (hle : p ≤ (encodeAll ms).length) (more : List Message) :
    EndsAt (ms ++ more) p := by
  intro before m after hsplit hlt hend
  rcases List.append_eq_append_iff.mp hsplit with ⟨x, hbefore, -⟩ | ⟨x, hms, hx⟩
  · exact absurd (hle.trans (length_encodeAll_mono ⟨x, hbefore.symm⟩)) hlt.not_ge
  · cases x with
    | nil =>
      rw [List.append_nil] at hms
      exact absurd (hms ▸ hle) hlt.not_ge
    | cons m' x =>
      obtain ⟨rfl, -⟩ := List.cons.inj hx
      exact h before m x hms hlt hend

lemma endsAt_packet {front back : List Message} (hms : ms = front ++ m :: back) (hpacket : m.isPacket)
    (hlow : (encodeAll front).length + 4 ≤ p) (hhigh : p ≤ (encodeAll (front ++ [m])).length) : EndsAt ms p := by
  intro before m' after hsplit hlt hend
  rcases List.append_eq_append_iff.mp (hms.symm.trans hsplit) with ⟨x, rfl, hx⟩ | ⟨x, rfl, hx⟩
  · cases x with
    | nil =>
      rw [List.append_nil]
      obtain ⟨rfl, -⟩ := List.cons.inj hx
      exact ⟨hpacket, hlow⟩
    | cons m₁ x =>
      obtain ⟨rfl, -⟩ := List.cons.inj hx
      have hle : (encodeAll (front ++ [m])).length ≤ (encodeAll (front ++ m :: x)).length :=
        length_encodeAll_mono ⟨x, (List.append_cons front m x).symm⟩
      omega
  · cases x with
    | nil =>
      rw [List.append_nil] at hlow
      obtain ⟨rfl, -⟩ := List.cons.inj hx
      exact ⟨hpacket, hlow⟩
    | cons m₁ x =>
      obtain ⟨rfl, -⟩ := List.cons.inj hx
      have hle : (encodeAll (before ++ [m'])).length ≤ (encodeAll (before ++ m' :: x)).length :=
        length_encodeAll_mono ⟨x, (List.append_cons before m' x).symm⟩
      omega

lemma exists_receiving (hms : ∀ m ∈ ms, m.WellFormed) (hp : EndsAt ms p) (hq : EndsAt ms q) (hpq : p < q)
    (hle : q ≤ (encodeAll ms).length) (hsz : q - p < recvBufSz) (hapart : Apart ms p q) :
    ∃ cs seen later, seen.flatten.length = p
      ∧ Receiving ms cs seen (((encodeAll ms).drop p).take (q - p)) later := by
  -- The cuts are those of this receive, and the ends of the messages that are not in it.
  obtain ⟨cs, hflat, hne, hcut⟩ := exists_cuts (fun x => x = p ∨ x = q
    ∨ (∃ front back, ms = front ++ back ∧ (encodeAll front).length = x) ∧ ¬ (p < x ∧ x < q)) (encodeAll ms)
  have hnone {x : ℕ} (hx : CutAt cs x) : ¬ (p < x ∧ x < q) := by
    rintro ⟨hpx, hxq⟩
    rcases (hcut x).mp hx with rfl | ⟨-, (rfl | rfl | ⟨-, hout⟩) | rfl⟩
    · exact absurd hpx (Nat.not_lt_zero p)
    · exact absurd hpx (lt_irrefl x)
    · exact absurd hxq (lt_irrefl x)
    · exact hout ⟨hpx, hxq⟩
    · exact absurd hle hxq.not_ge
  have hkeep : CutsKeepMessages ms cs := by
    constructor
    · intro before m after x hsplit hx hlt hend
      suffices h : m.isPacket ∧ (encodeAll before).length + 4 ≤ x from ⟨h.1, .inl h.2⟩
      have hall : (encodeAll (before ++ [m])).length ≤ (encodeAll ms).length :=
        length_encodeAll_mono ⟨after, by rw [hsplit, ← List.append_cons]⟩
      rcases (hcut x).mp hx with rfl | ⟨-, (rfl | rfl | ⟨⟨front, back, hfront, rfl⟩, -⟩) | rfl⟩
      · exact absurd hlt (Nat.not_lt_zero _)
      · exact hp before m after hsplit hlt hend
      · exact hq before m after hsplit hlt hend
      · exact absurd (not_inside_of_boundary hsplit hfront hlt) hend.not_ge
      · exact absurd hall hend.not_ge
    · intro before t t' after hsplit
      have hfront : ms = before ++ [.response t] ++ .response t' :: after := by rw [hsplit, List.append_cons]
      refine (hcut _).mpr (.inr ⟨length_encodeAll_mono ⟨_, hfront.symm⟩, .inl (.inr (.inr ?_))⟩)
      exact ⟨⟨_, _, hfront, rfl⟩, hapart before t t' after hsplit⟩
  obtain ⟨seen, rest, rfl, hseen⟩ := (hcut p).mpr (.inr ⟨hpq.le.trans hle, .inl (.inl rfl)⟩)
  cases rest with
  | nil =>
    rw [List.append_nil] at hflat
    rw [hflat] at hseen
    exact absurd (hseen ▸ hle) hpq.not_ge
  | cons c later =>
    -- The next cut is the one behind this receive.
    have hc := List.length_pos_iff.mpr (hne c (List.mem_append_right seen List.mem_cons_self))
    have hnext := hnone (cutAt_concat rfl)
    have hend := not_cutAt (p := q) (rfl : seen ++ c :: later = seen ++ c :: later)
    rw [hseen] at hnext hend
    have hlen : c.length = q - p := by
      have hlast : ¬ q < p + c.length := fun h =>
        hend hpq h ((hcut q).mpr (.inr ⟨hle, .inl (.inr (.inl rfl))⟩))
      omega
    have hdata : ((encodeAll ms).drop p).take (q - p) = c := by
      rw [← hflat, List.flatten_append, List.flatten_cons, ← hseen, List.drop_left, hseen, ← hlen, List.take_left]
    rw [hdata]
    refine ⟨_, seen, later, hseen, hms, hkeep, hflat.symm, rfl, ?_, hlen ▸ hsz⟩
    exact hne c (List.mem_append_right seen List.mem_cons_self)

end Cuts

def rtpPkts (log : List Handed) : List Bytes := log.filterMap fun
  | .rtpPkt _ data => some data
  | _ => none

def respTexts (log : List Handed) : List Bytes := log.filterMap fun
  | .rtspResp msg => some msg
  | _ => none

lemma rtpPkts_append (log more : List Handed) : rtpPkts (log ++ more) = rtpPkts log ++ rtpPkts more :=
  List.filterMap_append

lemma respTexts_append (log more : List Handed) : respTexts (log ++ more) = respTexts log ++ respTexts more :=
  List.filterMap_append

def messageOf (b : SendBuf) : Message :=
  if b.type = .rtspResp then .response b.data else .packet (b.data.getD 1 0) (b.data.drop 4)

-- The frame as the client stores it, with the type of its last NALU.
def conveyed (nalus : List (Bool × Nalu)) : Option FrmType × Bytes :=
  (nalus.getLast?.map fun n => n.2.frmType, storedFrame nalus)

/-- A session with the connection to its client, all frames and responses that came to the session, and
how many bytes of the connection's stream the client has received. -/
structure Streaming where
  server : LibRtspServer.RtpSess
  sess : SendSess
  frames : List (List (Bool × Nalu))
  responses : List Bytes
  received : ℕ
  receiver : Receiver
  client : LibRtspClient.RtpSess

inductive StreamingEvent
  | frame (nalus : List (Bool × Nalu))
  | response (text : Bytes)
  | send (type : List DataType) (answer : SendAnswer)
  | receive (n : ℕ)

namespace Streaming

-- What follows on the frame and on a packet in memory.
variable (after beyond : ℕ → UInt8)

def start (server : LibRtspServer.RtpSess) (frmHdrSz : ℕ) : Streaming :=
  ⟨server, .interleaved [], [], [], 0, .start, ⟨frmHdrSz, [], []⟩⟩

def sendFrame (s : Streaming) (nalus : List (Bool × Nalu)) : Option Streaming := do
  let server ← (s.server.sendVideoFrm after (frame nalus)).toOption
  some { s with
    server := { server with sendQueue := [] }
    sess := server.sendQueue.foldl SendSess.addSendBuf s.sess
    frames := s.frames ++ [nalus] }

def receive (s : Streaming) (n : ℕ) : Option Streaming := do
  let receiver ← (s.receiver.recvFromRtspSd ((s.sess.stream.drop s.received).take n)).toOption
  let client ← ((rtpPkts (receiver.log.drop s.receiver.log.length)).foldlM (handleRtpPkt beyond) s.client).toOption
  some { s with received := s.received + n, receiver, client }

def step (s : Streaming) : StreamingEvent → Option Streaming
  | .frame nalus => s.sendFrame after nalus
  | .response text => some { s with
      sess := s.sess.addSendBuf ⟨.rtspResp, text⟩
      responses := s.responses ++ [text] }
  | .send type answer => some { s with sess := (s.sess.consumeSendBuf type answer).2 }
  | .receive n => s.receive beyond n

def messages (s : Streaming) : List Message := s.sess.added.map messageOf

/-- The frames fit the client's buffer, and the responses end as they must; a send that accepts anything of a
buffer accepts all of it; and a receive ends with a message or in a packet behind its header, and takes no two
responses that meet. -/
def Orderly (s : Streaming) : StreamingEvent → Prop
  | .frame nalus => nalus ≠ [] ∧ s.client.frmHdrSz + (storedFrame nalus).length ≤ maxFrmSz
  | .response text => dollar ∉ text ∧ [13, 10, 13, 10] <:+ text
  | .send type answer => s.sess.SendsWhole (.consume type answer)
  | .receive n => 0 < n ∧ n < recvBufSz ∧ s.received + n ≤ s.sess.stream.length
      ∧ EndsAt s.messages (s.received + n) ∧ Apart s.messages s.received (s.received + n)

end Streaming

section Frames

variable {server : LibRtspServer.RtpSess}

-- The session serves H.264 on the channel 0 of the RTSP connection.
structure Serving (server : LibRtspServer.RtpSess) : Prop where
  mode : server.intlvdMode = true
  chn : server.rtpChn .video = 0
  pt : (server.rtpHdr .video).pt = rtpPtH264
  sendQueue : server.sendQueue = []

def Sound (b : SendBuf) : Prop := (messageOf b).WellFormed ∧ (messageOf b).encode = b.data

lemma be16_ofNat {n : ℕ} (h : n < 2 ^ 16) :
    LibRtspServer.be16 (UInt16.ofNat n) = [UInt8.ofNat (n / 256), UInt8.ofNat (n % 256)] := by
  have hn : (UInt16.ofNat n).toNat = n := by rw [UInt16.toNat_ofNat', Nat.mod_eq_of_lt h]
  have hhigh : ((UInt16.ofNat n) >>> 8).toUInt8 = UInt8.ofNat (n / 256) := by
    apply UInt8.toNat_inj.mp
    rw [UInt16.toNat_toUInt8, UInt16.toNat_shiftRight, hn, UInt8.toNat_ofNat', Nat.shiftRight_eq_div_pow]
    rfl
  have hlow : (UInt16.ofNat n).toUInt8 = UInt8.ofNat (n % 256) := by
    apply UInt8.toNat_inj.mp
    rw [UInt16.toNat_toUInt8, hn, UInt8.toNat_ofNat', Nat.mod_mod]
  rw [LibRtspServer.be16, hhigh, hlow]

lemma messageOf_packet (hs : Serving server) (h : LibRtspServer.RtpHdr) {pl : Bytes}
    (hpl : pl.length ≤ LibRtspServer.maxRtpPlSz) :
    messageOf (packet server h pl) = .packet 0 (h.encode ++ pl)
      ∧ (Message.packet 0 (h.encode ++ pl)).encode = (packet server h pl).data
      ∧ (Message.packet 0 (h.encode ++ pl)).WellFormed := by
  have hmax : LibRtspServer.maxRtpPlSz = 1424 := rfl
  have hlen : (h.encode ++ pl).length = 12 + pl.length := List.length_append
  have hdata : (packet server h pl).data = 36 :: 0 :: UInt8.ofNat ((12 + pl.length) / 256)
      :: UInt8.ofNat ((12 + pl.length) % 256) :: (h.encode ++ pl) := by
    rw [packet, LibRtspServer.RtpSess.intlvd, if_pos hs.mode, hs.chn, be16_ofNat (by omega), List.append_assoc]
    rfl
  refine ⟨?_, ?_, .packet (by decide) (List.ne_nil_of_length_pos (by omega)) (by omega)⟩
  · rw [messageOf, hdata, if_neg (by rintro ⟨⟩)]
    rfl
  · rw [hdata, Message.encode, hlen]
    rfl

lemma sendVideoFrm_serving (after beyond : ℕ → UInt8) (hs : Serving server) {nalus : List (Bool × Nalu)}
    (hne : nalus ≠ []) (hfits : (storedFrame nalus).length ≤ maxFrmSz) :
    ∃ server' pkts, server.sendVideoFrm after (frame nalus) = .ok server'
      ∧ Serving { server' with sendQueue := [] } ∧ (∀ b ∈ server'.sendQueue, Sound b)
      ∧ server'.sendQueue.map (fun b => (messageOf b).handed) = pkts.map (Handed.rtpPkt .video)
      ∧ Feeds beyond pkts (storedFrame nalus) (some (nalus.getLast hne).2.frmType) := by
  have hmax : maxFrmSz = 1024 * 1024 := rfl
  have hlen := length_frame_le nalus
  obtain ⟨server', pkts, hsend, hq, hconveys⟩ :=
    sendVideoFrm_queued after beyond hne (by omega) hs.pt
  have hall := sendVideoFrm_eq after hne hs.pt
  set parts := marked true (nalus.flatMap fun n => payloads n.2) with hparts
  obtain ⟨hmode, hchn, hpt, -, -, hqueue⟩ := queueAll_spec server parts
  obtain rfl := Except.ok.inj (hsend.symm.trans hall)
  have hpl {part : Bool × Bytes} (hpart : part ∈ parts) : part.2.length ≤ LibRtspServer.maxRtpPlSz := by
    obtain ⟨j, hj, rfl⟩ := List.exists_of_mem_mapIdx hpart
    obtain ⟨n, -, hmem⟩ := List.mem_flatMap.mp (List.getElem_mem hj)
    exact length_of_mem_payloads n.2 _ hmem
  have hbuf {b : SendBuf} (hb : b ∈ (queueAll server parts).sendQueue) : ∃ h part, part ∈ parts
      ∧ b = packet server h part.2 := by
    rw [hqueue, hs.sendQueue, List.nil_append] at hb
    obtain ⟨k, hk, rfl⟩ := List.exists_of_mem_mapIdx hb
    exact ⟨_, _, List.getElem_mem hk, rfl⟩
  refine ⟨_, pkts, hsend, ⟨hmode.trans hs.mode, (congrFun hchn .video).trans hs.chn, hq.pt.trans hs.pt, rfl⟩, ?_, ?_,
    hconveys.feeds⟩
  · intro b hb
    obtain ⟨h, part, hpart, rfl⟩ := hbuf hb
    obtain ⟨hmessage, hencode, hwell⟩ := messageOf_packet hs h (hpl hpart)
    exact ⟨hmessage ▸ hwell, hmessage ▸ hencode⟩
  · obtain ⟨bufs, hbufs, rfl⟩ := hq.queue
    rw [hs.sendQueue, List.nil_append] at hbufs
    rw [hbufs, List.map_map]
    refine List.map_congr_left fun b hb => ?_
    obtain ⟨h, part, hpart, rfl⟩ := hbuf (hbufs ▸ hb)
    rw [(messageOf_packet hs h (hpl hpart)).1, packet, List.append_assoc, Function.comp_apply, rtpPkt_eq]
    rfl

end Frames

section Stored

open LibRtspClient (RtpSess FrmType)

variable {beyond pl : ℕ → UInt8} {c c' : RtpSess} {data : Bytes} {n : ℕ}

def SameStored (c c' : RtpSess) : Prop := c'.stored = c.stored ∧ c'.frmHdrSz = c.frmHdrSz

lemma SameStored.trans {c'' : RtpSess} (h : SameStored c c') (h' : SameStored c' c'') : SameStored c c'' :=
  ⟨h'.1.trans h.1, h'.2.trans h.2⟩

lemma sameStored_append (h : c.append data n = .ok c') : SameStored c c' := by
  rw [RtpSess.append] at h
  split_ifs at h
  rw [← Except.ok.inj h]
  exact ⟨rfl, rfl⟩

lemma sameStored_handleH264 {p : RtpSess × Option FrmType} (h : c.handleH264 pl data n = .ok p) :
    SameStored c p.1 := by
  rw [RtpSess.handleH264] at h
  split_ifs at h
  · obtain ⟨c₁, h₁, h⟩ := bind_eq_ok.mp h
    obtain ⟨c₂, h₂, h⟩ := bind_eq_ok.mp h
    rw [← Except.ok.inj h]
    exact (sameStored_append h₁).trans (sameStored_append h₂)
  · obtain ⟨c₁, h₁, h⟩ := bind_eq_ok.mp h
    obtain ⟨c₂, h₂, h⟩ := bind_eq_ok.mp h
    obtain ⟨c₃, h₃, h⟩ := bind_eq_ok.mp h
    rw [← Except.ok.inj h]
    exact ((sameStored_append h₁).trans (sameStored_append h₂)).trans (sameStored_append h₃)
  · obtain ⟨c₁, h₁, h⟩ := bind_eq_ok.mp h
    obtain ⟨c₂, h₂, h⟩ := bind_eq_ok.mp h
    rw [← Except.ok.inj h]
    exact (Except.ok.inj h₁ ▸ sameStored_append h₂ :)
  · rw [← Except.ok.inj h]
    exact ⟨rfl, rfl⟩

lemma stored_extends {pkts : List Bytes} (h : pkts.foldlM (handleRtpPkt beyond) c = .ok c') :
    c.stored <+: c'.stored ∧ c'.frmHdrSz = c.frmHdrSz := by
  induction pkts generalizing c with
  | nil =>
    obtain rfl := Except.ok.inj h
    exact ⟨List.prefix_rfl, rfl⟩
  | cons pkt pkts ih =>
    rw [List.foldlM_cons] at h
    obtain ⟨d, hd, h⟩ := bind_eq_ok.mp h
    obtain ⟨hstored, hhdr⟩ := ih h
    obtain ⟨⟨e, type⟩, he, hd⟩ := bind_eq_ok.mp hd
    have hsame : SameStored c e := by
      rw [RtpSess.handlePl] at he
      split_ifs at he
      · exact sameStored_handleH264 he
      · obtain ⟨rfl, -⟩ := Prod.mk.inj (Except.ok.inj he)
        exact ⟨rfl, rfl⟩
      · obtain ⟨rfl, -⟩ := Prod.mk.inj (Except.ok.inj he)
        exact ⟨rfl, rfl⟩
    rw [← hsame.1, ← hsame.2]
    obtain rfl := Except.ok.inj hd
    split_ifs at hstored hhdr
    · exact ⟨(List.prefix_append _ _).trans hstored, hhdr⟩
    · exact ⟨hstored, hhdr⟩

end Stored

section Runs

variable {after beyond : ℕ → UInt8} {s : Streaming} {ms : List Message} {seen seen' : List Bytes} {r r' : Receiver}
  {done left done' left' : List Message}

lemma received_append (h : Received ms seen r done left) (more : List Message) :
    Received (ms ++ more) seen r done (left ++ more) := by
  refine ⟨by rw [h.split, List.append_assoc], h.length, h.log, h.kept.imp id ?_⟩
  rintro ⟨chn, body, rest, rfl, hlt, hlast⟩
  exact ⟨chn, body, rest ++ more, rfl, hlt, hlast⟩

lemma done_extends (hms : ∀ m ∈ ms, m.WellFormed) (h : Received ms seen r done left)
    (h' : Received ms seen' r' done' left') (hle : seen.flatten.length ≤ seen'.flatten.length) : done <+: done' := by
  rcases List.prefix_or_prefix_of_prefix ⟨left, h.split.symm⟩ ⟨left', h'.split.symm⟩ with hp | ⟨rest, rfl⟩
  · exact hp
  cases rest with
  | nil => rw [List.append_nil]
  | cons m rest =>
    have hleft : left' = m :: (rest ++ left) := by
      have hsplit := h'.split
      rw [h.split, List.append_assoc] at hsplit
      exact (List.append_cancel_left hsplit).symm
    have hpos := (hms m (by rw [h'.split, hleft]; simp)).length_pos
    have hsz : r'.sz < m.encode.length := by
      rcases h'.kept with hzero | ⟨chn, body, tail, heq, hlt, -⟩
      · omega
      · rwa [(List.cons.inj (hleft.symm.trans heq)).1]
    have hlen := h.length
    have hlen' := h'.length
    rw [encodeAll_append, encodeAll_cons, List.length_append, List.length_append] at hlen
    omega

lemma addAll {sess : SendSess} (hkept : sess.Kept) (hu : sess.Unbroken) (bufs : List SendBuf) :
    (bufs.foldl SendSess.addSendBuf sess).Kept ∧ (bufs.foldl SendSess.addSendBuf sess).Unbroken
      ∧ (bufs.foldl SendSess.addSendBuf sess).added = sess.added ++ bufs
      ∧ (bufs.foldl SendSess.addSendBuf sess).stream = sess.stream := by
  induction bufs generalizing sess with
  | nil => exact ⟨hkept, hu, (List.append_nil _).symm, rfl⟩
  | cons b bufs ih =>
    obtain ⟨hk, hu', hadded, hstream⟩ := ih (SendSess.kept_step hkept (.add b))
      ((SendSess.unbroken_step hkept hu (.add b)).mpr trivial)
    exact ⟨hk, hu', hadded.trans (List.append_assoc ..), hstream⟩

lemma consume_added (sess : SendSess) (type : List DataType) (answer : SendAnswer) :
    (sess.consumeSendBuf type answer).2.added = sess.added
      ∧ sess.stream <+: (sess.consumeSendBuf type answer).2.stream := by
  rw [SendSess.consumeSendBuf]
  cases sess.sendQueue with
  | nil => exact ⟨rfl, List.prefix_rfl⟩
  | cons sendp sendQueue =>
    by_cases hmem : sendp.type ∈ type
    · cases answer with
      | none => simp [hmem, SendSess.sendBufData]
      | some n =>
        simp only [hmem, if_true, SendSess.sendBufData]
        split_ifs
        · exact ⟨rfl, List.prefix_append _ _⟩
        · exact ⟨rfl, List.prefix_rfl⟩
    · simp [hmem]

namespace Streaming

/-- The stream is one of whole messages, which convey all frames and responses; and the client has made of what
it has received what it makes of the messages that are whole. -/
structure Flowing (beyond : ℕ → UInt8) (frmHdrSz : ℕ) (s : Streaming) : Prop where
  serving : Serving s.server
  kept : s.sess.Kept
  unbroken : s.sess.Unbroken
  sound : ∀ b ∈ s.sess.added, Sound b
  frames : (rtpPkts (s.messages.map Message.handed)).foldlM (handleRtpPkt beyond) ⟨frmHdrSz, [], []⟩
    = .ok ⟨frmHdrSz, [], s.frames.map conveyed⟩
  responses : respTexts (s.messages.map Message.handed) = s.responses
  received : ∃ seen done left, seen.flatten.length = s.received ∧ Received s.messages seen s.receiver done left
  ends : EndsAt s.messages s.received
  le : s.received ≤ s.sess.stream.length
  client : (rtpPkts s.receiver.log).foldlM (handleRtpPkt beyond) ⟨frmHdrSz, [], []⟩ = .ok s.client

variable {frmHdrSz : ℕ}

lemma encodeAll_messages (h : s.Flowing beyond frmHdrSz) :
    encodeAll s.messages = s.sess.added.flatMap SendBuf.data := by
  rw [messages, encodeAll, List.flatMap_map]
  exact List.flatMap_congr fun b hb => (h.sound b hb).2

lemma stream_le_messages (h : s.Flowing beyond frmHdrSz) : s.sess.stream <+: encodeAll s.messages :=
  encodeAll_messages h ▸ h.unbroken.stream

lemma le_messages (h : s.Flowing beyond frmHdrSz) : s.received ≤ (encodeAll s.messages).length :=
  h.le.trans (stream_le_messages h).length_le

lemma flowing_add (h : s.Flowing beyond frmHdrSz) {server : LibRtspServer.RtpSess} (hserving : Serving server)
    (bufs : List SendBuf) (hsound : ∀ b ∈ bufs, Sound b) (frames : List (List (Bool × Nalu))) {responses : List Bytes}
    (hframes : (rtpPkts (bufs.map fun b => (messageOf b).handed)).foldlM (handleRtpPkt beyond)
      ⟨frmHdrSz, [], s.frames.map conveyed⟩ = .ok ⟨frmHdrSz, [], (s.frames ++ frames).map conveyed⟩)
    (hresponses : respTexts (bufs.map fun b => (messageOf b).handed) = responses) :
    Flowing beyond frmHdrSz { s with
      server
      sess := bufs.foldl SendSess.addSendBuf s.sess
      frames := s.frames ++ frames
      responses := s.responses ++ responses } := by
  obtain ⟨hkept, hunbroken, hadded, hstream⟩ := addAll h.kept h.unbroken bufs
  have hmessages : (bufs.foldl SendSess.addSendBuf s.sess).added.map messageOf
      = s.messages ++ bufs.map messageOf := by
    rw [hadded, List.map_append]
    rfl
  have hhanded : ((bufs.foldl SendSess.addSendBuf s.sess).added.map messageOf).map Message.handed
      = s.messages.map Message.handed ++ bufs.map fun b => (messageOf b).handed := by
    rw [hmessages, List.map_append, List.map_map]
    rfl
  refine ⟨hserving, hkept, hunbroken, ?_, ?_, ?_, ?_, ?_, hstream ▸ h.le, h.client⟩
  · rw [hadded]
    exact List.forall_mem_append.mpr ⟨h.sound, hsound⟩
  · rw [messages, hhanded, rtpPkts_append, List.foldlM_append, h.frames]
    exact hframes
  · rw [messages, hhanded, respTexts_append, h.responses, hresponses]
  · obtain ⟨seen, done, left, hseen, hr⟩ := h.received
    refine ⟨seen, done, left ++ bufs.map messageOf, hseen, ?_⟩
    rw [messages, hmessages]
    exact received_append hr (bufs.map messageOf)
  · rw [messages, hmessages]
    exact h.ends.append (le_messages h) (bufs.map messageOf)

lemma flowing_frame (h : s.Flowing beyond frmHdrSz) {nalus : List (Bool × Nalu)} (hne : nalus ≠ [])
    (hfits : frmHdrSz + (storedFrame nalus).length ≤ maxFrmSz) :
    ∃ s', s.sendFrame after nalus = some s' ∧ s'.Flowing beyond frmHdrSz := by
  obtain ⟨server, pkts, hsend, hserving, hsound, hhanded, hfeeds⟩ :=
    sendVideoFrm_serving after beyond h.serving hne (by omega)
  have hpkts : rtpPkts (server.sendQueue.map fun b => (messageOf b).handed) = pkts := by
    rw [hhanded, rtpPkts, List.filterMap_map]
    exact List.filterMap_some
  have hresponses : respTexts (server.sendQueue.map fun b => (messageOf b).handed) = [] := by
    rw [hhanded, respTexts, List.filterMap_map]
    exact List.filterMap_none pkts
  refine ⟨_, by rw [sendFrame, hsend]; rfl, ?_⟩
  have hflow := flowing_add h hserving _ hsound [nalus] ?_ hresponses
  · rwa [List.append_nil] at hflow
  · have hroom : frmHdrSz + ([] : Bytes).length + (storedFrame nalus).length ≤ maxFrmSz := hfits
    rw [hpkts, hfeeds _ (Nat.le_of_add_right_le hroom), LibRtsp.receive, if_pos hroom, List.map_append,
      List.map_singleton, conveyed, List.getLast?_eq_getLast_of_ne_nil hne]
    rfl

lemma flowing_response (h : s.Flowing beyond frmHdrSz) {text : Bytes} (hdollar : dollar ∉ text)
    (hend : [13, 10, 13, 10] <:+ text) :
    ∃ s', s.step after beyond (.response text) = some s' ∧ s'.Flowing beyond frmHdrSz := by
  refine ⟨_, rfl, ?_⟩
  have hflow := flowing_add h h.serving [⟨.rtspResp, text⟩] ?_ [] ?_ rfl
  · rwa [List.append_nil] at hflow
  · intro b hb
    obtain rfl := List.mem_singleton.mp hb
    exact ⟨.response hdollar hend, rfl⟩
  · rw [List.append_nil]
    rfl

lemma flowing_send (h : s.Flowing beyond frmHdrSz) {type : List DataType} {answer : SendAnswer}
    (hwhole : s.sess.SendsWhole (.consume type answer)) :
    ∃ s', s.step after beyond (.send type answer) = some s' ∧ s'.Flowing beyond frmHdrSz := by
  obtain ⟨hadded, hstream⟩ := consume_added s.sess type answer
  refine ⟨_, rfl, h.serving, SendSess.kept_step h.kept (.consume type answer),
    (SendSess.unbroken_step h.kept h.unbroken (.consume type answer)).mpr hwhole, ?_, ?_, ?_, ?_, ?_, ?_, h.client⟩
  · rw [hadded]
    exact h.sound
  · rw [messages, hadded]
    exact h.frames
  · rw [messages, hadded]
    exact h.responses
  · rw [messages, hadded]
    exact h.received
  · rw [messages, hadded]
    exact h.ends
  · exact h.le.trans hstream.length_le

lemma flowing_receive (h : s.Flowing beyond frmHdrSz) {n : ℕ} (hpos : 0 < n) (hlt : n < recvBufSz)
    (hle : s.received + n ≤ s.sess.stream.length) (hends : EndsAt s.messages (s.received + n))
    (hapart : Apart s.messages s.received (s.received + n)) :
    ∃ s', s.receive beyond n = some s' ∧ s'.Flowing beyond frmHdrSz := by
  have hms : ∀ m ∈ s.messages, m.WellFormed := by
    intro m hm
    obtain ⟨b, hb, rfl⟩ := List.mem_map.mp hm
    exact (h.sound b hb).1
  obtain ⟨seen, done, left, hseen, hr⟩ := h.received
  obtain ⟨cs, seen', later, hseen', hreceiving⟩ := exists_receiving hms h.ends hends (Nat.lt_add_of_pos_right hpos)
    (hle.trans (stream_le_messages h).length_le) (by rwa [Nat.add_sub_cancel_left]) hapart
  have hdata : (s.sess.stream.drop s.received).take n
      = ((encodeAll s.messages).drop s.received).take (s.received + n - s.received) := by
    obtain ⟨rest, hrest⟩ := stream_le_messages h
    rw [← hrest, Nat.add_sub_cancel_left, List.drop_append_of_le_length h.le, List.take_append_of_le_length]
    rw [List.length_drop]
    omega
  have hr' : Received s.messages seen' s.receiver done left :=
    ⟨hr.split, by rw [hseen', ← hseen, hr.length], hr.log, hr.kept⟩
  obtain ⟨receiver, done', left', hrecv, hreceived⟩ := LibRtspClient.recv_received hreceiving hr'
  rw [← hdata] at hrecv hreceived
  have hlen : (seen' ++ [(s.sess.stream.drop s.received).take n]).flatten.length = s.received + n := by
    rw [LibRtspClient.length_flatten_concat, hseen', List.length_take, List.length_drop]
    omega
  -- The messages that are whole now, and what the client makes of them.
  obtain ⟨more, rfl⟩ := done_extends hms hr' hreceived (by rw [hlen, hseen']; exact Nat.le_add_right _ _)
  have hlog : receiver.log = s.receiver.log ++ more.map Message.handed := by
    rw [hreceived.log, hr.log, List.map_append]
  have hall := h.frames
  rw [hreceived.split, List.map_append, ← hreceived.log, rtpPkts_append, List.foldlM_append] at hall
  obtain ⟨client, hclient, -⟩ := bind_eq_ok.mp hall
  have hnext := hclient
  rw [hlog, rtpPkts_append, List.foldlM_append, h.client, ok_bind] at hnext
  have hdrop : receiver.log.drop s.receiver.log.length = more.map Message.handed := by
    rw [hlog, List.drop_left]
  refine ⟨{ s with received := s.received + n, receiver, client }, ?_, h.serving, h.kept, h.unbroken, h.sound,
    h.frames, h.responses, ⟨_, _, _, hlen, hreceived⟩, hends, hle, hclient⟩
  simp only [receive, hrecv, Except.toOption, Option.bind_eq_bind, Option.bind_some, hdrop, hnext]

lemma flowing_step (s : Streaming) (e : StreamingEvent) (h : s.Flowing beyond frmHdrSz) (he : s.Orderly e) :
    ∃ s', s.step after beyond e = some s' ∧ s'.Flowing beyond frmHdrSz := by
  cases e with
  | frame nalus =>
    have hfits := he.2
    rw [(stored_extends h.client).2] at hfits
    exact flowing_frame h he.1 hfits
  | response text => exact flowing_response h he.1 he.2
  | send type answer => exact flowing_send h he
  | receive n => exact flowing_receive h he.1 he.2.1 he.2.2.1 he.2.2.2.1 he.2.2.2.2

lemma flowing_start (beyond : ℕ → UInt8) (frmHdrSz : ℕ) {server : LibRtspServer.RtpSess} (hs : Serving server) :
    (start server frmHdrSz).Flowing beyond frmHdrSz := by
  have hnone {P : SendBuf → Prop} : ∀ b ∈ ([] : List SendBuf), P b := fun b hb => absurd hb List.not_mem_nil
  refine ⟨hs, ⟨rfl, rfl, rfl⟩, ⟨List.prefix_rfl, ?_⟩, hnone, rfl, rfl, ?_, ?_, le_rfl, rfl⟩
  · exact fun b hb => absurd hb List.not_mem_nil
  · exact ⟨[], [], [], rfl, rfl, rfl, rfl, .inl rfl⟩
  · intro before m after hsplit
    exact absurd hsplit.symm (List.append_ne_nil_of_right_ne_nil before (List.cons_ne_nil m after))

lemma left_eq_nil (h : s.Flowing beyond frmHdrSz) (hqueue : s.sess.sendQueue = [])
    (hall : s.received = s.sess.stream.length) (hseen : seen.flatten.length = s.received)
    (hr : Received s.messages seen s.receiver done left) : left = [] := by
  have hstream : s.sess.stream.length = (encodeAll s.messages).length := by
    have hconsumed : s.sess.consumed.flatMap (fun b => b.1.data.take b.2)
        = (s.sess.consumed.map Prod.fst).flatMap SendBuf.data := by
      rw [List.flatMap_map]
      exact List.flatMap_congr fun b hb => by rw [h.unbroken.whole b hb, List.take_length]
    rw [encodeAll_messages h, h.kept.stream, hconsumed, h.kept.added, hqueue, List.append_nil]
  have hlen := hr.length
  rw [hseen, hall, hstream, hr.split, encodeAll_append, List.length_append] at hlen
  cases left with
  | nil => rfl
  | cons m left =>
    have hm : m ∈ s.messages := by
      rw [hr.split]
      exact List.mem_append_right done List.mem_cons_self
    obtain ⟨b, hb, rfl⟩ := List.mem_map.mp hm
    have hpos := (h.sound b hb).1.length_pos
    rw [encodeAll_cons, List.length_append] at hlen
    rcases hr.kept with hzero | ⟨chn, body, rest, heq, hlt, -⟩
    · omega
    · rw [(List.cons.inj heq).1] at hlen
      omega

/-- In an orderly run the client stores the frames that the server was given and handles its responses, each
once and in their order, and all of them when everything has been sent and received. -/
theorem streams (after beyond : ℕ → UInt8) {server : LibRtspServer.RtpSess} (hs : Serving server) (frmHdrSz : ℕ)
    {es : List StreamingEvent} (hes : MeetsAlong (step after beyond) Orderly (start server frmHdrSz) es) :
    ∃ t, run (step after beyond) (start server frmHdrSz) es = some t
      ∧ t.client.stored <+: t.frames.map conveyed ∧ respTexts t.receiver.log <+: t.responses
      ∧ (t.sess.sendQueue = [] → t.received = t.sess.stream.length →
        t.client.stored = t.frames.map conveyed ∧ respTexts t.receiver.log = t.responses) := by
  obtain ⟨t, hrun, ht⟩ := run_of_meetsAlong (fun s e h he => flowing_step s e h he)
    (flowing_start beyond frmHdrSz hs) hes
  obtain ⟨seen, done, left, hseen, hr⟩ := ht.received
  have hframes := ht.frames
  rw [hr.split, List.map_append, ← hr.log, rtpPkts_append, List.foldlM_append, ht.client] at hframes
  have hresponses := ht.responses
  rw [hr.split, List.map_append, ← hr.log, respTexts_append] at hresponses
  refine ⟨t, hrun, (stored_extends hframes).1, ⟨_, hresponses⟩, fun hqueue hall => ?_⟩
  obtain rfl := left_eq_nil ht hqueue hall hseen hr
  exact ⟨congrArg LibRtspClient.RtpSess.stored (Except.ok.inj hframes), (List.append_nil _).symm.trans hresponses⟩

def slice : List (Bool × Nalu) :=
  [(true, ⟨[0x65, 1], by decide, by decide, by decide, by decide, by decide⟩)]

def otherSlice : List (Bool × Nalu) :=
  [(false, ⟨[0x41, 2, 3], by decide, by decide, by decide, by decide, by decide⟩)]

def shortResp : Bytes := [82, 13, 10, 13, 10]

lemma sendFrame_eq {s : Streaming} {nalus : List (Bool × Nalu)} (hne : nalus ≠ [])
    (hpt : (s.server.rtpHdr .video).pt = rtpPtH264) :
    let server := (queueAll s.server (marked true (nalus.flatMap fun n => payloads n.2))).updateHdr .updateTs
    s.sendFrame after nalus = some { s with
      server := { server with sendQueue := [] }
      sess := server.sendQueue.foldl SendSess.addSendBuf s.sess
      frames := s.frames ++ [nalus] } := by
  rw [sendFrame, sendVideoFrm_eq after hne hpt]
  rfl

lemma receive_sess {s s' : Streaming} {n : ℕ} (h : s.receive beyond n = some s') :
    s'.sess = s.sess ∧ s'.received = s.received + n := by
  obtain ⟨receiver, -, h⟩ := Option.bind_eq_some_iff.mp h
  obtain ⟨client, -, h⟩ := Option.bind_eq_some_iff.mp h
  obtain rfl := Option.some.inj h
  exact ⟨rfl, rfl⟩

def sendAny : StreamingEvent := .send [.rtspResp, .rtpVPkt] (some 2000)

def sentMessages : List Message :=
  [.packet 0 [128, 224, 0, 7, 0, 1, 95, 144, 0, 0, 0, 1, 101, 1], .response shortResp,
    .packet 0 [128, 224, 0, 8, 0, 1, 109, 160, 0, 0, 0, 1, 65, 2, 3]]

lemma apart_sentMessages (p q : ℕ) : Apart sentMessages p q := by
  intro before t t' after hsplit
  rcases before with _ | ⟨_, _ | ⟨_, before⟩⟩
  · cases (List.cons.inj hsplit).1
  · cases (List.cons.inj (List.cons.inj (List.cons.inj hsplit).2).2).1
  · have hlength := congrArg List.length hsplit
    simp only [sentMessages, List.length_append, List.length_cons, List.length_nil] at hlength
    omega

lemma meetsAlong_receives {s : Streaming} (hmessages : s.messages = sentMessages) (hreceived : s.received = 0)
    (hstream : s.sess.stream.length = 42) :
    MeetsAlong (step after beyond) Orderly s [.receive 30, .receive 12] := by
  have hends {p : ℕ} (hlow : 27 ≤ p) (hhigh : p ≤ 42) : EndsAt sentMessages p :=
    endsAt_packet (show sentMessages = [_, _] ++ _ :: [] from rfl) trivial hlow hhigh
  refine ⟨⟨by decide, by decide, ?_, ?_, ?_⟩, fun s' hs' => ?_⟩
  · omega
  · rw [hmessages, hreceived]
    exact hends (by decide) (by decide)
  · exact hmessages ▸ apart_sentMessages _ _
  obtain ⟨hsess, hreceived'⟩ := receive_sess hs'
  have hmessages' : s'.messages = sentMessages := by rw [messages, hsess, ← hmessages, messages]
  refine ⟨⟨by decide, by decide, ?_, ?_, ?_⟩, fun _ _ => trivial⟩
  · rw [hsess]
    omega
  · rw [hmessages', hreceived', hreceived]
    exact hends (by decide) (by decide)
  · exact hmessages' ▸ apart_sentMessages _ _

def cutEvents : List StreamingEvent :=
  [.frame slice, .response shortResp, .frame otherSlice, sendAny, sendAny, sendAny, .receive 30, .receive 12]

theorem streams_cut : ∃ t, run (step (fun _ => 0) fun _ => 0) (start someSess 0) cutEvents = some t
    ∧ t.client.stored <+: t.frames.map conveyed ∧ respTexts t.receiver.log <+: t.responses
    ∧ (t.sess.sendQueue = [] → t.received = t.sess.stream.length →
      t.client.stored = t.frames.map conveyed ∧ respTexts t.receiver.log = t.responses) := by
  apply streams
  · exact ⟨rfl, rfl, rfl, rfl⟩
  have hwhole {sess : SendSess} (hlen : ∀ b ∈ sess.sendQueue.head?, b.data.length ≤ 2000) :
      sess.SendsWhole (.consume [.rtspResp, .rtpVPkt] (some 2000)) := by
    intro sendp hsendp _ n hn
    obtain rfl := Option.some.inj hn
    exact hlen sendp hsendp
  refine ⟨⟨List.cons_ne_nil _ _, by decide⟩, fun s hs => ?_⟩
  obtain rfl := Option.some.inj ((sendFrame_eq (List.cons_ne_nil _ _) rfl).symm.trans hs)
  refine ⟨⟨by decide, by decide⟩, fun s hs => ?_⟩
  obtain rfl := Option.some.inj hs
  refine ⟨⟨List.cons_ne_nil _ _, by decide⟩, fun s hs => ?_⟩
  obtain rfl := Option.some.inj ((sendFrame_eq (List.cons_ne_nil _ _) rfl).symm.trans hs)
  refine ⟨hwhole (by decide +kernel), fun s hs => ?_⟩
  obtain rfl := Option.some.inj hs
  refine ⟨hwhole (by decide +kernel), fun s hs => ?_⟩
  obtain rfl := Option.some.inj hs
  refine ⟨hwhole (by decide +kernel), fun s hs => ?_⟩
  obtain rfl := Option.some.inj hs
  exact meetsAlong_receives (by decide +kernel) rfl (by decide +kernel)

end Streaming

end Runs

end SimpleCode.LibRtsp
