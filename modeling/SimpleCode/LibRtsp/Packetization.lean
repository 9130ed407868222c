import SimpleCode.LibRtsp.VideoRoundTrip

set_option autoImplicit false

namespace SimpleCode.LibRtsp

open Foundations Buffer
open LibRtspServer (RtpSess RtpHdr RtpPl SendBuf rtpPtH264 maxRtpPktSz maxRtpPlSz be16 be32 skipNaluStartCode getNaluSz)
open LibRtspServer.RtpSess (maxFuSz fuIdr fuHdr)

section Queueing

variable {s : RtpSess} {p : RtpPl} {h : RtpHdr} {m : Bool} {pl : Bytes}

def packet (s : RtpSess) (h : RtpHdr) (pl : Bytes) : SendBuf :=
  ⟨.rtpVPkt, s.intlvd .video (12 + pl.length) ++ h.encode ++ pl⟩

def queuePkt (s : RtpSess) (m : Bool) (pl : Bytes) : RtpSess :=
  ((s.updateHdr fun h => { h with m }).addSendBuf (packet s { s.rtpHdr .video with m } pl)).updateHdr .updateSeq

def queueAll (s : RtpSess) (parts : List (Bool × Bytes)) : RtpSess :=
  parts.foldl (fun s part => queuePkt s part.1 part.2) s

lemma queuePkt_hdr (s : RtpSess) (m : Bool) (pl : Bytes) :
    (queuePkt s m pl).rtpHdr .video = { s.rtpHdr .video with
      m
      seq := (s.rtpHdr .video).seq + 1 } := by
  have hmark := updateHdr_video s fun h => { h with m }
  rw [queuePkt, updateHdr_video, RtpSess.addSendBuf, hmark]
  rfl

theorem sendPkt_eq (hpt : (s.rtpHdr .video).pt = rtpPtH264) {front : Bytes}
    (hfront : LibRtspServer.naluPrefix p = .ok (some front)) (hsz : front.length + p.plSz ≤ maxRtpPlSz)
    (hpl : p.plSz ≤ p.pl.length) :
    s.sendPkt m p = .ok (queuePkt s m (front ++ p.pl.take p.plSz)) := by
  set s' := s.updateHdr fun h => { h with m } with hs'
  have hhdr : s'.rtpHdr .video = { s.rtpHdr .video with m } := updateHdr_video s _
  have hpart : (front ++ p.pl.take p.plSz).length = front.length + p.plSz := by
    rw [List.length_append, List.length_take, Nat.min_eq_left hpl]
  have hlen : (s'.rtpHdr .video).encode.length + front.length + p.plSz = 12 + (front ++ p.pl.take p.plSz).length := by
    rw [hpart, ← Nat.add_assoc]
    rfl
  have hfits (n : ℕ) : (s'.intlvd .video n).length + (12 + (front ++ p.pl.take p.plSz).length) ≤ maxRtpPktSz := by
    have hfour := length_intlvd s' .video n
    rw [maxRtpPlSz, maxRtpPktSz] at hsz
    rw [hpart, maxRtpPktSz]
    omega
  have hproduce : s'.produceRtpPkt .video p
      = .ok (s'.addSendBuf (packet s { s.rtpHdr .video with m } (front ++ p.pl.take p.plSz))) := by
    have hpt' : (s'.rtpHdr .video).pt = rtpPtH264 := hhdr ▸ hpt
    rw [RtpSess.produceRtpPkt, LibRtspServer.plPrefix, if_pos hpt', hfront, ok_bind]
    dsimp only
    rw [hlen, if_pos (hfits _), packet, ← hhdr]
    simp only [List.append_assoc]
    rfl
  rw [RtpSess.sendPkt, hproduce, ok_bind]
  rfl

lemma queueAll_cons (part : Bool × Bytes) (parts : List (Bool × Bytes)) :
    queueAll s (part :: parts) = queueAll (queuePkt s part.1 part.2) parts := rfl

lemma queueAll_append (parts parts' : List (Bool × Bytes)) :
    queueAll s (parts ++ parts') = queueAll (queueAll s parts) parts' := List.foldl_append ..

structure QueuedAll (s s' : RtpSess) (parts : List (Bool × Bytes)) : Prop where
  intlvdMode : s'.intlvdMode = s.intlvdMode
  rtpChn : s'.rtpChn = s.rtpChn
  pt : (s'.rtpHdr .video).pt = (s.rtpHdr .video).pt
  ts : (s'.rtpHdr .video).ts = (s.rtpHdr .video).ts
  seq : (s'.rtpHdr .video).seq = (s.rtpHdr .video).seq + UInt16.ofNat parts.length
  queue : s'.sendQueue = s.sendQueue ++ parts.mapIdx fun k part =>
    packet s { s.rtpHdr .video with
      m := part.1
      seq := (s.rtpHdr .video).seq + UInt16.ofNat k } part.2

theorem queueAll_spec (s : RtpSess) (parts : List (Bool × Bytes)) : QueuedAll s (queueAll s parts) parts := by
  induction parts generalizing s with
  | nil => exact ⟨rfl, rfl, rfl, rfl, (UInt16.add_zero _).symm, (List.append_nil _).symm⟩
  | cons part parts ih =>
    obtain ⟨hmode, hchn, hpt, hts, hseq, hqueue⟩ := ih (queuePkt s part.1 part.2)
    have hnext (n : ℕ) : (s.rtpHdr .video).seq + 1 + UInt16.ofNat n
        = (s.rtpHdr .video).seq + UInt16.ofNat (n + 1) := by
      rw [UInt16.ofNat_add, UInt16.add_assoc, UInt16.add_comm 1]
      rfl
    rw [queuePkt_hdr] at hpt hts hseq hqueue
    refine ⟨hmode, hchn, hpt, hts, ?_, ?_⟩
    · rw [queueAll_cons, hseq, hnext, List.length_cons]
    · have hfirst : (queuePkt s part.1 part.2).sendQueue
          = s.sendQueue ++ [packet s { s.rtpHdr .video with m := part.1 } part.2] := rfl
      have hzero : (s.rtpHdr .video).seq + UInt16.ofNat 0 = (s.rtpHdr .video).seq := UInt16.add_zero _
      rw [queueAll_cons, hqueue, hfirst, List.append_assoc, List.mapIdx_cons, hzero]
      simp only [hnext]
      rfl

end Queueing

section Fragments

variable {s : RtpSess} {part rest : Bytes} {k : ℕ}

-- All but the last of `k + 1` fragments are of the largest size.
def fragments : ℕ → Bytes → List Bytes
  | 0, part => [part]
  | k + 1, part => part.take maxFuSz :: fragments k (part.drop maxFuSz)

lemma length_fragments (k : ℕ) (part : Bytes) : (fragments k part).length = k + 1 := by
  induction k generalizing part with
  | zero => rfl
  | succ k ih => rw [fragments, List.length_cons, ih]

lemma flatten_fragments (k : ℕ) (part : Bytes) : (fragments k part).flatten = part := by
  induction k generalizing part with
  | zero => rw [fragments, List.flatten_singleton]
  | succ k ih => rw [fragments, List.flatten_cons, ih, List.take_append_drop]

lemma length_of_mem_fragments (h : part.length ≤ (k + 1) * maxFuSz) : ∀ c ∈ fragments k part, c.length ≤ maxFuSz := by
  induction k generalizing part with
  | zero =>
    intro c hc
    rw [List.mem_singleton.mp hc]
    rwa [Nat.zero_add, Nat.one_mul] at h
  | succ k ih =>
    have hdrop : (part.drop maxFuSz).length ≤ (k + 1) * maxFuSz := by
      rw [List.length_drop]
      rw [Nat.succ_mul] at h
      omega
    intro c hc
    rcases List.mem_cons.mp hc with rfl | hc
    · exact List.length_take_le _ _
    · exact ih hdrop c hc

def fuPayloads (nalu0 : UInt8) (num i : ℕ) (cs : List Bytes) : List Bytes :=
  cs.mapIdx fun j c => fuIdr nalu0 :: fuHdr nalu0 (decide (i + j = 0)) (decide (i + j + 1 = num)) :: c

def fuParts (nalu0 : UInt8) (last : Bool) (num i : ℕ) (cs : List Bytes) : List (Bool × Bytes) :=
  cs.mapIdx fun j c => (decide (i + j + 1 = num) && last,
    fuIdr nalu0 :: fuHdr nalu0 (decide (i + j = 0)) (decide (i + j + 1 = num)) :: c)

lemma fuParts_cons (nalu0 : UInt8) (last : Bool) (num i : ℕ) (c : Bytes) (cs : List Bytes) :
    fuParts nalu0 last num i (c :: cs) = (decide (i + 1 = num) && last,
        fuIdr nalu0 :: fuHdr nalu0 (decide (i = 0)) (decide (i + 1 = num)) :: c)
      :: fuParts nalu0 last num (i + 1) cs := by
  rw [fuParts, List.mapIdx_cons]
  refine congrArg₂ List.cons rfl (congrArg (List.mapIdx · cs) (funext₂ fun j c => ?_))
  rw [Nat.add_assoc i 1 j, Nat.add_comm 1 j]

lemma sendFu_eq (nalu0 : UInt8) (i : ℕ) (fin m : Bool) {ptr : Bytes} {n : ℕ} (hn : n ≤ maxFuSz) (hle : n ≤ ptr.length)
    (hpt : (s.rtpHdr .video).pt = rtpPtH264) :
    s.sendPkt m ⟨fuIdr nalu0, some (fuHdr nalu0 (i = 0) fin), none, ptr, n⟩
      = .ok (queuePkt s m (fuIdr nalu0 :: fuHdr nalu0 (decide (i = 0)) fin :: ptr.take n)) := by
  have hmax : maxFuSz = 1422 := rfl
  have hsend := sendPkt_eq (m := m) hpt (naluPrefix_fuA nalu0 (fuHdr nalu0 (i = 0) fin) none ptr n)
    (by change 2 + n ≤ 1424; omega) hle
  rwa [List.cons_append, List.cons_append, List.nil_append] at hsend

theorem sendFuA_eq (nalu0 : UInt8) (last : Bool) (rest : Bytes) {num i : ℕ} (hnum : num = i + (k + 1))
    (hlt : k * maxFuSz < part.length) (hle : part.length ≤ (k + 1) * maxFuSz)
    (hpt : (s.rtpHdr .video).pt = rtpPtH264) :
    s.sendFuA nalu0 last num i (part ++ rest) part.length
      = .ok (queueAll s (fuParts nalu0 last num i (fragments k part))) := by
  induction k generalizing s i part with
  | zero =>
    have hfin : i = num - 1 := by omega
    have hend : i + 1 = num := by omega
    rw [Nat.zero_add, Nat.one_mul] at hle
    rw [RtpSess.sendFuA, if_pos (by omega), fragments, fuParts_cons]
    simp only [decide_eq_true hfin, decide_eq_true hend, Bool.true_and, if_pos hfin]
    rw [sendFu_eq nalu0 i true last hle (by rw [List.length_append]; omega) hpt, ok_bind, RtpSess.sendFuA,
      if_neg (by omega), List.take_left]
    rfl
  | succ k ih =>
    have hfin : ¬ i = num - 1 := by omega
    have hend : ¬ i + 1 = num := by omega
    rw [Nat.succ_mul] at hlt hle
    have hmax : maxFuSz ≤ part.length := by omega
    have hdrop : (part ++ rest).drop maxFuSz = part.drop maxFuSz ++ rest := List.drop_append_of_le_length hmax
    have hlen : part.length - maxFuSz = (part.drop maxFuSz).length := List.length_drop.symm
    rw [RtpSess.sendFuA, if_pos (by omega), fragments, fuParts_cons]
    simp only [decide_eq_false hfin, decide_eq_false hend, Bool.false_and, if_neg hfin]
    rw [sendFu_eq nalu0 i false false le_rfl (by rw [List.length_append]; omega) hpt, ok_bind, hdrop, hlen,
      ih (by omega) (by omega) (by omega) (by rw [queuePkt_hdr]; exact hpt), List.take_append_of_le_length hmax]
    rfl

end Fragments

section Frames

variable {s : RtpSess}

def payloads (n : Nalu) : List Bytes :=
  if n.data.length ≤ maxRtpPlSz then [n.data]
  else fuPayloads (n.data.head n.ne) ((n.data.length - 2) / maxFuSz + 1) 0
    (fragments ((n.data.length - 2) / maxFuSz) n.data.tail)

def marked (last : Bool) (pls : List Bytes) : List (Bool × Bytes) :=
  pls.mapIdx fun j pl => (decide (j + 1 = pls.length) && last, pl)

lemma marked_fu (nalu0 : UInt8) (last : Bool) (k : ℕ) (part : Bytes) :
    marked last (fuPayloads nalu0 (k + 1) 0 (fragments k part)) = fuParts nalu0 last (k + 1) 0 (fragments k part) := by
  have hlen : (fuPayloads nalu0 (k + 1) 0 (fragments k part)).length = k + 1 := by
    rw [fuPayloads, List.length_mapIdx, length_fragments]
  rw [marked, hlen, fuPayloads, List.mapIdx_mapIdx, fuParts]
  simp only [Nat.zero_add]
  rfl

lemma marked_append {pls pls' : List Bytes} (last : Bool) (h : pls' ≠ []) :
    marked last (pls ++ pls') = marked false pls ++ marked last pls' := by
  have hpos := List.length_pos_iff.mpr h
  rw [marked, marked, marked, List.mapIdx_append]
  congr 1
  · refine List.mapIdx_eq_mapIdx_iff.mpr fun j hj => ?_
    have hlast : ¬ j + 1 = (pls ++ pls').length := by
      rw [List.length_append]
      omega
    rw [decide_eq_false hlast, Bool.false_and, Bool.and_false]
  · refine List.mapIdx_eq_mapIdx_iff.mpr fun j _ => ?_
    have hlast : j + pls.length + 1 = (pls ++ pls').length ↔ j + 1 = pls'.length := by
      rw [List.length_append]
      omega
    rw [decide_eq_decide.mpr hlast]

theorem sendH264Nalu_eq (after : ℕ → UInt8) (n : Nalu) (rest : Bytes) (last : Bool)
    (hpt : (s.rtpHdr .video).pt = rtpPtH264) :
    s.sendH264Nalu after (n.data ++ rest) n.data.length last
      = .ok (if last then (queueAll s (marked last (payloads n))).updateHdr .updateTs
        else queueAll s (marked last (payloads n))) := by
  obtain ⟨nalu0, pl, hdata⟩ := List.exists_cons_of_ne_nil n.ne
  have hmax : maxFuSz = 1422 := rfl
  have hpl : maxRtpPlSz = 1424 := rfl
  have hsz : n.data.length = pl.length + 1 := congrArg List.length hdata
  have htype := n.type
  have hhead : n.data.head n.ne = nalu0 := by simp only [hdata, List.head_cons]
  have htail : n.data.tail = pl := by rw [hdata, List.tail_cons]
  rw [hhead] at htype
  rw [RtpSess.sendH264Nalu, payloads]
  by_cases hsingle : n.data.length ≤ maxRtpPlSz
  · have hminus : (n.data.length + 2 ^ 32 - 1) % 2 ^ 32 = pl.length := by omega
    have hmark : marked last [n.data] = [(last, n.data)] := rfl
    have hsend := sendPkt_eq (s := s) (m := last) (p := ⟨nalu0, none, none, pl ++ rest, pl.length⟩) hpt
      (naluPrefix_single htype) (by change 1 + pl.length ≤ 1424; omega)
      (by change pl.length ≤ (pl ++ rest).length; rw [List.length_append]; omega)
    rw [List.take_left, List.singleton_append] at hsend
    rw [if_pos hsingle, if_pos hsingle, hminus, hmark, hdata]
    exact congrArg (· >>= _) hsend
  · obtain ⟨k, hk, hnum, hlt, hle⟩ : ∃ k, (n.data.length - 2) / maxFuSz = k
        ∧ pl.length / maxFuSz + (if pl.length % maxFuSz ≠ 0 then 1 else 0) = 0 + (k + 1)
        ∧ k * maxFuSz < pl.length ∧ pl.length ≤ (k + 1) * maxFuSz := by
      rw [hmax]
      refine ⟨_, rfl, ?_, ?_, ?_⟩
      · split_ifs <;> omega
      all_goals omega
    have hsend := sendFuA_eq (s := s) nalu0 last rest hnum hlt hle hpt
    rw [if_neg hsingle, if_neg hsingle, hk, hhead, htail, marked_fu, ← Nat.zero_add (k + 1), ← hnum, hdata]
    exact congrArg (· >>= _) hsend

lemma payloads_ne_nil (n : Nalu) : payloads n ≠ [] := by
  rw [payloads]
  split_ifs
  · exact List.cons_ne_nil _ _
  · rw [fuPayloads, Ne, List.mapIdx_eq_nil_iff, ← List.length_eq_zero_iff, length_fragments]
    exact Nat.succ_ne_zero _

lemma queueAll_pt (parts : List (Bool × Bytes)) (hpt : (s.rtpHdr .video).pt = rtpPtH264) :
    ((queueAll s parts).rtpHdr .video).pt = rtpPtH264 := (queueAll_spec s parts).pt.trans hpt

theorem sendVideoFrm_eq (after : ℕ → UInt8) {nalus : List (Bool × Nalu)} (hne : nalus ≠ [])
    (hpt : (s.rtpHdr .video).pt = rtpPtH264) :
    s.sendVideoFrm after (frame nalus)
      = .ok ((queueAll s (marked true (nalus.flatMap fun n => payloads n.2))).updateHdr .updateTs) := by
  induction nalus generalizing s with
  | nil => exact absurd rfl hne
  | cons n nalus ih =>
    have hskip : skipNaluStartCode (frame (n :: nalus)) = some (n.2.data ++ frame nalus) := by
      rw [frame, List.flatMap_cons, List.append_assoc]
      exact skipNaluStartCode_frame n.1 (List.append_ne_nil_of_left_ne_nil n.2.ne _)
    have hsz : getNaluSz after (n.2.data ++ frame nalus) = n.2.data.length :=
      getNaluSz_append (fun _ => n.2.last) n.2.no_zeros n.2.no_start (atNext_frame nalus)
    have hlast : (n.2.data ++ frame nalus).length = n.2.data.length ↔ nalus = [] := by
      rw [List.length_append, Nat.add_eq_left, List.length_eq_zero_iff, frame_eq_nil]
    have hstep : s.sendVideoFrm after (frame (n :: nalus))
        = (s.sendH264Nalu after (n.2.data ++ frame nalus) n.2.data.length (decide (nalus = [])) >>= fun s' =>
          s'.sendVideoFrm after (frame nalus)) := by
      rw [RtpSess.sendVideoFrm, if_neg (frame_eq_nil.not.mpr (List.cons_ne_nil n nalus))]
      split
      · next hnone => cases hnone.symm.trans hskip
      · next nalu hsome =>
        obtain rfl := Option.some.inj (hsome.symm.trans hskip)
        simp only [hsz, hlast, List.drop_left]
    rw [hstep, sendH264Nalu_eq after n.2 (frame nalus) _ hpt, ok_bind, List.flatMap_cons]
    by_cases hnil : nalus = []
    · subst hnil
      rw [frame, List.flatMap_nil, List.flatMap_nil, List.append_nil, RtpSess.sendVideoFrm, if_pos rfl]
      rfl
    · have hmore : (nalus.flatMap fun n => payloads n.2) ≠ [] := by
        obtain ⟨n', nalus', rfl⟩ := List.exists_cons_of_ne_nil hnil
        exact List.append_ne_nil_of_left_ne_nil (payloads_ne_nil n'.2) _
      rw [decide_eq_false hnil, marked_append true hmore, queueAll_append]
      exact ih hnil (queueAll_pt _ hpt)

end Frames

section Headers

variable {s : RtpSess} {h : RtpHdr} {pl : Bytes} {k : ℕ} {m : Bool}

/-- The packet number `k` of a frame that the session `s` sends. -/
structure FramePacket (s : RtpSess) (k : ℕ) (m : Bool) (pl : Bytes) (b : SendBuf) : Prop where
  type : b.type = .rtpVPkt
  le : b.data.length ≤ maxRtpPktSz
  intlvd : s.intlvdMode = true →
    ∃ rest, b.data = 36 :: s.rtpChn .video :: be16 (UInt16.ofNat rest.length) ++ rest ∧ rest = rtpPkt s b
  marker : (rtpPkt s b).getD 1 0 &&& 0x80 ≠ 0 ↔ m = true
  seq : ((rtpPkt s b).drop 2).take 2 = be16 ((s.rtpHdr .video).seq + UInt16.ofNat k)
  ts : ((rtpPkt s b).drop 4).take 4 = be32 (s.rtpHdr .video).ts
  payload : (rtpPkt s b).drop 12 = pl

/-- The fragments of a NALU: the first one alone has the S bit and the last one alone the E bit. -/
structure Fragmented (nalu0 : UInt8) (rest : Bytes) (pls : List Bytes) : Prop where
  two_le : 2 ≤ pls.length
  fragment : ∀ j (hj : j < pls.length), ∃ idr hdr c, pls[j] = idr :: hdr :: c ∧ idr &&& 0x1F = 28
    ∧ idr &&& 0xE0 = nalu0 &&& 0xE0 ∧ hdr &&& 0x1F = nalu0 &&& 0x1F
    ∧ (hdr &&& 0x80 ≠ 0 ↔ j = 0) ∧ (hdr &&& 0x40 ≠ 0 ↔ j + 1 = pls.length)
  whole : (pls.map (List.drop 2)).flatten = rest

def Carries (n : Nalu) (pls : List Bytes) : Prop :=
  if n.data.length ≤ maxRtpPlSz then pls = [n.data] else Fragmented (n.data.head n.ne) n.data.tail pls

lemma packet_framePacket (hpt : h.pt = rtpPtH264) (hts : h.ts = (s.rtpHdr .video).ts)
    (hseq : h.seq = (s.rtpHdr .video).seq + UInt16.ofNat k) (hpl : pl.length ≤ maxRtpPlSz) :
    FramePacket s k h.m pl (packet s h pl) := by
  have hrtp : rtpPkt s (packet s h pl) = h.encode ++ pl := by
    rw [packet, List.append_assoc]
    exact rtpPkt_eq s .video _ _
  have hlen : (h.encode ++ pl).length = 12 + pl.length := by
    rw [List.length_append]
    rfl
  refine ⟨rfl, ?_, ?_, ?_, ?_, ?_, ?_⟩
  · have hfour := length_intlvd s .video (12 + pl.length)
    rw [packet, List.append_assoc, List.length_append, hlen]
    rw [maxRtpPlSz, maxRtpPktSz] at hpl
    rw [maxRtpPktSz]
    omega
  · intro hmode
    refine ⟨h.encode ++ pl, ?_, hrtp.symm⟩
    rw [packet, RtpSess.intlvd, if_pos hmode, hlen, List.append_assoc]
  · rw [hrtp]
    change ((if h.m then 0x80 else 0) ||| h.pt) &&& 0x80 ≠ 0 ↔ h.m = true
    rw [hpt]
    cases h.m <;> decide
  · rw [hrtp, ← hseq]
    rfl
  · rw [hrtp, ← hts]
    rfl
  · rw [hrtp]
    rfl

lemma fuIdr_bits (nalu0 : UInt8) : fuIdr nalu0 &&& 0xE0 = nalu0 &&& 0xE0 := by
  apply UInt8.eq_of_toBitVec_eq
  ext i hi
  simp [fuIdr, LibRtspServer.naluPtFuA]
  interval_cases i <;> simp

lemma fuHdr_bits (nalu0 : UInt8) (first last : Bool) : fuHdr nalu0 first last &&& 0x1F = nalu0 &&& 0x1F
    ∧ fuHdr nalu0 first last &&& 0x40 = if last then 0x40 else 0 := by
  constructor
  · apply UInt8.eq_of_toBitVec_eq
    ext i hi
    cases first <;> cases last <;> simp [fuHdr] <;> interval_cases i <;> simp
  · apply UInt8.eq_of_toBitVec_eq
    ext i hi
    cases first <;> cases last <;> simp [fuHdr] <;> interval_cases i <;> simp

lemma map_drop_fuPayloads (nalu0 : UInt8) (num i : ℕ) (cs : List Bytes) :
    (fuPayloads nalu0 num i cs).map (List.drop 2) = cs := by
  refine List.ext_getElem ?_ fun j hj hj' => ?_
  · rw [List.length_map, fuPayloads, List.length_mapIdx]
  · rw [List.getElem_map]
    exact congrArg (List.drop 2) (List.getElem_mapIdx ..)

lemma payloads_carries (n : Nalu) : Carries n (payloads n) := by
  have hmax : maxFuSz = 1422 := rfl
  have hpl : maxRtpPlSz = 1424 := rfl
  rw [Carries, payloads]
  split_ifs with hsingle
  · rfl
  set k := (n.data.length - 2) / maxFuSz with hk
  set cs := fragments k n.data.tail with hcs
  have hlen : (fuPayloads (n.data.head n.ne) (k + 1) 0 cs).length = k + 1 := by
    rw [fuPayloads, List.length_mapIdx, hcs, length_fragments]
  refine ⟨?_, fun j hj => ?_, ?_⟩
  · rw [hlen, hk, hmax]
    omega
  · have hj' : j < cs.length := by rwa [fuPayloads, List.length_mapIdx] at hj
    refine ⟨_, _, cs[j], List.getElem_mapIdx .., fuIdr_type _, fuIdr_bits _, (fuHdr_bits _ _ _).1, ?_, ?_⟩
    · rw [fuHdr_first, Nat.zero_add]
      by_cases hzero : j = 0 <;> simp [hzero]
    · rw [(fuHdr_bits _ _ _).2, Nat.zero_add, hlen]
      by_cases hend : j + 1 = k + 1 <;> simp [hend]
  · rw [map_drop_fuPayloads, hcs, flatten_fragments]

lemma length_of_mem_payloads (n : Nalu) : ∀ pl ∈ payloads n, pl.length ≤ maxRtpPlSz := by
  have hmax : maxFuSz = 1422 := rfl
  have hpl : maxRtpPlSz = 1424 := rfl
  intro pl hmem
  rw [payloads] at hmem
  split_ifs at hmem with hsingle
  · rwa [List.mem_singleton.mp hmem]
  · obtain ⟨j, hj, rfl⟩ := List.exists_of_mem_mapIdx hmem
    have hfits : n.data.tail.length ≤ ((n.data.length - 2) / maxFuSz + 1) * maxFuSz := by
      rw [List.length_tail, hmax]
      omega
    have hfragment := length_of_mem_fragments hfits _ (List.getElem_mem hj)
    rw [List.length_cons, List.length_cons]
    omega

theorem sendVideoFrm_packets (after : ℕ → UInt8) {nalus : List (Bool × Nalu)} (hne : nalus ≠ [])
    (hpt : (s.rtpHdr .video).pt = rtpPtH264) :
    ∃ s' bufs groups, s.sendVideoFrm after (frame nalus) = .ok s' ∧ s'.sendQueue = s.sendQueue ++ bufs
      ∧ List.Forall₂ (fun n pls => Carries n.2 pls) nalus groups ∧ bufs.length = groups.flatten.length
      ∧ (∀ k b pl, bufs[k]? = some b → groups.flatten[k]? = some pl →
        FramePacket s k (decide (k + 1 = bufs.length)) pl b)
      ∧ (s'.rtpHdr .video).ts = (s.rtpHdr .video).ts + 3600
      ∧ (s'.rtpHdr .video).seq = (s.rtpHdr .video).seq + UInt16.ofNat bufs.length := by
  set groups := nalus.map fun n => payloads n.2 with hgroups
  set parts := marked true groups.flatten with hparts
  have hlen : parts.length = groups.flatten.length := List.length_mapIdx
  have hspec := queueAll_spec s parts
  have hlast : ((queueAll s parts).updateHdr .updateTs).rtpHdr .video
      = ((queueAll s parts).rtpHdr .video).updateTs := updateHdr_video _ _
  refine ⟨(queueAll s parts).updateHdr .updateTs, _, groups, sendVideoFrm_eq after hne hpt, hspec.queue, ?_, ?_, ?_, ?_, ?_⟩
  · rw [hgroups, List.forall₂_map_right_iff, List.forall₂_same]
    exact fun n _ => payloads_carries n.2
  · rw [List.length_mapIdx, hlen]
  · intro k b pl hb hpl
    rw [List.length_mapIdx, hlen]
    rw [List.getElem?_mapIdx, Option.map_eq_some_iff] at hb
    obtain ⟨part, hpart, rfl⟩ := hb
    rw [hparts, marked, List.getElem?_mapIdx, hpl] at hpart
    obtain rfl := Option.some.inj hpart
    have hmem : pl.length ≤ maxRtpPlSz := by
      obtain ⟨g, hg, hin⟩ := List.mem_flatten.mp (List.mem_of_getElem? hpl)
      obtain ⟨n, -, rfl⟩ := List.mem_map.mp hg
      exact length_of_mem_payloads n.2 pl hin
    have hpacket := packet_framePacket (s := s) (k := k) (h := { s.rtpHdr .video with
      m := decide (k + 1 = groups.flatten.length) && true
      seq := (s.rtpHdr .video).seq + UInt16.ofNat k }) hpt rfl rfl hmem
    simp only [Bool.and_true] at hpacket ⊢
    exact hpacket
  · rw [hlast, RtpHdr.updateTs]
    exact congrArg (· + 3600) hspec.ts
  · rw [hlast, RtpHdr.updateTs, List.length_mapIdx]
    exact hspec.seq

theorem sendVideoFrm_packets_two : ∃ s' bufs groups,
    someSess.sendVideoFrm (fun _ => 0) (frame twoNalus) = .ok s'
      ∧ s'.sendQueue = someSess.sendQueue ++ bufs
      ∧ List.Forall₂ (fun n pls => Carries n.2 pls) twoNalus groups ∧ bufs.length = groups.flatten.length
      ∧ (∀ k b pl, bufs[k]? = some b → groups.flatten[k]? = some pl →
        FramePacket someSess k (decide (k + 1 = bufs.length)) pl b)
      ∧ (s'.rtpHdr .video).ts = (someSess.rtpHdr .video).ts + 3600
      ∧ (s'.rtpHdr .video).seq = (someSess.rtpHdr .video).seq + UInt16.ofNat bufs.length :=
  sendVideoFrm_packets (fun _ => 0) (List.cons_ne_nil _ _) rfl

end Headers

end SimpleCode.LibRtsp
