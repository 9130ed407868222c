import SimpleCode.LibRtspServer.Rtp
import SimpleCode.LibRtspClient.Rtp

set_option autoImplicit false

namespace SimpleCode.LibRtsp

open Foundations Buffer
open LibRtspServer (RtpHdr RtpPl SendBuf skipNaluStartCode getNaluSz)
open LibRtspClient.RtpSess (startCode)

structure Nalu where
  data : Bytes
  ne : data ≠ []
  type : 1 ≤ data.head ne &&& 0x1F ∧ data.head ne &&& 0x1F ≤ 23
  last : data.getLast ne ≠ 0
  no_zeros : ¬ [0, 0, 0] <:+: data
  no_start : ¬ [0, 0, 1] <:+: data

def Nalu.frmType (n : Nalu) : LibRtspClient.FrmType := LibRtspClient.RtpSess.frmTypeOf (n.data.head n.ne)

-- With the start code of four bytes or of three.
def frame (nalus : List (Bool × Nalu)) : Bytes :=
  nalus.flatMap fun n => (if n.1 then startCode else [0, 0, 1]) ++ n.2.data

def storedFrame (nalus : List (Bool × Nalu)) : Bytes := nalus.flatMap fun n => startCode ++ n.2.data

section Scanning

variable {beyond : ℕ → UInt8} {data rest : Bytes}

lemma peek_append {i : ℕ} (h : i < data.length) (rest : Bytes) :
    peek beyond (data ++ rest) i = data.getD i 0 := by
  rw [peek, List.getD_append _ _ _ _ h, List.getD_eq_getElem _ _ h, List.getD_eq_getElem _ _ h]

def AtNext (rest : Bytes) : Prop :=
  rest = [] ∨ ∃ c tail, rest = [0, 0, 1] ++ c :: tail ∨ rest = startCode ++ c :: tail

lemma getNaluSz_next (h : AtNext rest) : getNaluSz beyond rest = 0 := by
  rcases h with rfl | ⟨c, tail, rfl | rfl⟩
  · rfl
  · simp [getNaluSz, peek]
  · simp [getNaluSz, peek, startCode]

lemma getNaluSz_append (hlast : ∀ h : data ≠ [], data.getLast h ≠ 0) (hzeros : ¬ [0, 0, 0] <:+: data)
    (hstart : ¬ [0, 0, 1] <:+: data) (hrest : AtNext rest) :
    getNaluSz beyond (data ++ rest) = data.length := by
  induction data with
  | nil => exact getNaluSz_next hrest
  | cons c data ih =>
    have htail := ih (fun h => List.getLast_cons h ▸ hlast (List.cons_ne_nil c data))
      (fun h => hzeros (h.trans (List.suffix_cons c data).isInfix))
      (fun h => hstart (h.trans (List.suffix_cons c data).isInfix))
    have hcode : ¬ (peek beyond (c :: data ++ rest) 0 = 0 ∧ peek beyond (c :: data ++ rest) 1 = 0
        ∧ (peek beyond (c :: data ++ rest) 2 = 0 ∨ peek beyond (c :: data ++ rest) 2 = 1)) := by
      rintro ⟨hc, hd, he⟩
      rw [peek_append (by simp)] at hc
      match data with
      | [] => exact hlast (by simp) hc
      | [d] =>
        rw [peek_append (by simp)] at hd
        exact hlast (by simp) hd
      | d :: e :: u =>
        rw [peek_append (by simp)] at hd he
        obtain rfl : c = 0 := hc
        obtain rfl : d = 0 := hd
        rcases he with he | he
        · obtain rfl : e = 0 := he
          exact hzeros (List.prefix_append [0, 0, 0] u).isInfix
        · obtain rfl : e = 1 := he
          exact hstart (List.prefix_append [0, 0, 1] u).isInfix
    rw [List.cons_append, getNaluSz, ← List.cons_append, if_neg, if_neg, if_neg, htail]
    · rfl
    all_goals exact fun h => hcode (by tauto)

lemma skipNaluStartCode_frame (long : Bool) {nalu : Bytes} (h : nalu ≠ []) :
    skipNaluStartCode ((if long then startCode else [0, 0, 1]) ++ nalu) = some nalu := by
  cases long with
  | true => rfl
  | false =>
    obtain ⟨c, tail, rfl⟩ := List.exists_cons_of_ne_nil h
    rfl

end Scanning

section HeaderBytes

open LibRtspServer LibRtspServer.RtpSess

variable (nalu0 : UInt8) (first last : Bool)

lemma fuIdr_type : fuIdr nalu0 &&& 0x1F = 28 := by
  apply UInt8.eq_of_toBitVec_eq
  ext i hi
  simp [fuIdr, naluPtFuA]
  interval_cases i <;> simp

lemma fu_naluHdr : fuIdr nalu0 &&& 0xE0 ||| fuHdr nalu0 first last &&& 0x1F = nalu0 := by
  apply UInt8.eq_of_toBitVec_eq
  ext i hi
  cases first <;> cases last <;> simp [fuIdr, fuHdr, naluPtFuA] <;> interval_cases i <;> simp

lemma fuHdr_first : fuHdr nalu0 first last &&& 0x80 = if first then 0x80 else 0 := by
  apply UInt8.eq_of_toBitVec_eq
  ext i hi
  cases first <;> cases last <;> simp [fuHdr] <;> interval_cases i <;> simp

end HeaderBytes

section Client

open LibRtspClient (RtpSess FrmType RtpFault maxFrmSz rtpHdrSz)
open LibRtspClient.RtpSess (frmTypeOf minus)

variable {beyond : ℕ → UInt8} {c : RtpSess} {h : RtpHdr} {part front back pl : Bytes} {m t : Option FrmType}

def receive (c : RtpSess) (part : Bytes) (m : Option FrmType) : Except RtpFault RtpSess :=
  if c.frmHdrSz + c.frm.length + part.length ≤ maxFrmSz then
    .ok (match m with
      | none => { c with frm := c.frm ++ part }
      | some type => { c with frm := [], stored := c.stored ++ [(some type, c.frm ++ part)] })
  else .error .overflow

lemma receive_append (c : RtpSess) (front back : Bytes) (m : Option FrmType) :
    (receive c front none >>= fun c => receive c back m) = receive c (front ++ back) m := by
  by_cases hfront : c.frmHdrSz + c.frm.length + front.length ≤ maxFrmSz
  · by_cases hback : c.frmHdrSz + c.frm.length + front.length + back.length ≤ maxFrmSz
    · have hall : c.frmHdrSz + c.frm.length + (front ++ back).length ≤ maxFrmSz := by
        rwa [List.length_append, ← Nat.add_assoc]
      have hrest : c.frmHdrSz + (c.frm ++ front).length + back.length ≤ maxFrmSz := by
        rwa [List.length_append, ← Nat.add_assoc]
      simp only [receive, if_pos hfront, if_pos hall, ok_bind, if_pos hrest, List.append_assoc]
    · have hall : ¬ c.frmHdrSz + c.frm.length + (front ++ back).length ≤ maxFrmSz := by
        rwa [List.length_append, ← Nat.add_assoc]
      have hrest : ¬ c.frmHdrSz + (c.frm ++ front).length + back.length ≤ maxFrmSz := by
        rwa [List.length_append, ← Nat.add_assoc]
      simp only [receive, if_pos hfront, if_neg hall, ok_bind, if_neg hrest]
  · have hall : ¬ c.frmHdrSz + c.frm.length + (front ++ back).length ≤ maxFrmSz := by
      rw [List.length_append]
      omega
    simp only [receive, if_neg hfront, if_neg hall]
    rfl

lemma append_eq {n : ℕ} (hn : n = part.length) : c.append part n = receive c part none := by
  subst hn
  rw [LibRtspClient.RtpSess.append, List.take_length]
  rfl

lemma length_encode (h : RtpHdr) : h.encode.length = rtpHdrSz := rfl

lemma encode_marker (beyond : ℕ → UInt8) (hpt : h.pt = LibRtspServer.rtpPtH264) (pl : Bytes) :
    peek beyond (h.encode ++ pl) 1 &&& 0x7F = 96
      ∧ (peek beyond (h.encode ++ pl) 1 &&& 0x80 ≠ 0 ↔ h.m) := by
  change ((if h.m then 0x80 else 0) ||| h.pt) &&& 0x7F = 96
    ∧ (((if h.m then 0x80 else 0) ||| h.pt) &&& 0x80 ≠ 0 ↔ h.m)
  rw [hpt]
  cases h.m <;> decide

def Feeds (beyond : ℕ → UInt8) (pkts : List Bytes) (part : Bytes) (m : Option FrmType) : Prop :=
  ∀ c : RtpSess, c.frmHdrSz + c.frm.length ≤ maxFrmSz →
    pkts.foldlM (RtpSess.handleRtpPkt beyond) c = receive c part m

lemma feeds_nil (beyond : ℕ → UInt8) : Feeds beyond [] [] none := by
  intro c hc
  simp only [receive, List.length_nil, Nat.add_zero, if_pos hc, List.append_nil]
  rfl

lemma Feeds.append {pkts pkts' : List Bytes} (hfront : Feeds beyond pkts front none)
    (hback : Feeds beyond pkts' back m) : Feeds beyond (pkts ++ pkts') (front ++ back) m := by
  intro c hc
  rw [List.foldlM_append, hfront c hc, ← receive_append, receive]
  split
  · next hfits =>
    apply hback
    rwa [List.length_append, ← Nat.add_assoc]
  · rfl

lemma feeds_pkt (hpt : h.pt = LibRtspServer.rtpPtH264) {type : FrmType}
    (hpl : ∀ c : RtpSess, c.handleH264 (fun i => peek beyond (h.encode ++ pl) (rtpHdrSz + i)) pl
      (rtpHdrSz + pl.length) = (receive c part none).map fun c => (c, some type)) :
    Feeds beyond [h.encode ++ pl] part (if h.m then some type else none) := by
  intro c _
  obtain ⟨hpt', hm⟩ := encode_marker beyond hpt pl
  have hdrop : (h.encode ++ pl).drop rtpHdrSz = pl := rfl
  have hlen : (h.encode ++ pl).length = rtpHdrSz + pl.length := List.length_append
  rw [List.foldlM_cons, RtpSess.handleRtpPkt, hpt', RtpSess.handlePl, if_pos rfl, hdrop, hlen, hpl]
  by_cases hfits : c.frmHdrSz + c.frm.length + part.length ≤ maxFrmSz
  · simp only [receive, if_pos hfits]
    by_cases hmark : h.m = true
    · simp only [Except.map, ok_bind, if_pos (hm.mpr hmark), if_pos hmark]
      rfl
    · simp only [Except.map, ok_bind, if_neg fun hset => hmark (hm.mp hset), if_neg hmark]
      rfl
  · simp only [receive, if_neg hfits]
    rfl

lemma peek_pl {i : ℕ} (hi : i < pl.length) :
    peek beyond (h.encode ++ pl) (rtpHdrSz + i) = pl.getD i 0 := by
  have hlen := length_encode h
  rw [← List.append_nil (h.encode ++ pl), peek_append (by rw [List.length_append]; omega),
    List.getD_append_right _ _ _ _ (by omega), hlen, Nat.add_sub_cancel_left]

lemma minus_eq {n k : ℕ} (hk : k ≤ n) (hn : n < 2 ^ 64) : minus n k = n - k := by
  rw [minus]
  omega

lemma feeds_single (hpt : h.pt = LibRtspServer.rtpPtH264) {nalu0 : UInt8}
    (htype : 1 ≤ nalu0 &&& 0x1F ∧ nalu0 &&& 0x1F ≤ 23) (hlen : pl.length < 2 ^ 32) :
    Feeds beyond [h.encode ++ (nalu0 :: pl)] (startCode ++ nalu0 :: pl)
      (if h.m then some (frmTypeOf nalu0) else none) := by
  apply feeds_pkt hpt
  intro c
  have hfirst : peek beyond (h.encode ++ nalu0 :: pl) (rtpHdrSz + 0) = nalu0 := peek_pl (by simp)
  have hsz : minus (rtpHdrSz + (nalu0 :: pl).length) rtpHdrSz = (nalu0 :: pl).length := by
    rw [minus_eq (by omega) (by rw [rtpHdrSz, List.length_cons]; omega)]
    omega
  simp only [RtpSess.handleH264, hfirst, if_pos htype, append_eq rfl, append_eq hsz]
  rw [← receive_append]
  cases receive c startCode none with
  | error e => rfl
  | ok c' =>
    rw [ok_bind, ok_bind]
    cases receive c' (nalu0 :: pl) none <;> rfl

lemma feeds_fuA (hpt : h.pt = LibRtspServer.rtpPtH264) (nalu0 : UInt8) (first last : Bool)
    (hlen : pl.length < 2 ^ 32) :
    Feeds beyond [h.encode ++ (LibRtspServer.RtpSess.fuIdr nalu0
        :: LibRtspServer.RtpSess.fuHdr nalu0 first last :: pl)]
      ((if first then startCode ++ [nalu0] else []) ++ pl)
      (if h.m then some (frmTypeOf nalu0) else none) := by
  apply feeds_pkt hpt
  intro c
  set pl' := LibRtspServer.RtpSess.fuIdr nalu0 :: LibRtspServer.RtpSess.fuHdr nalu0 first last :: pl
    with hpl'
  have hidr : peek beyond (h.encode ++ pl') (rtpHdrSz + 0) = LibRtspServer.RtpSess.fuIdr nalu0 :=
    peek_pl (by simp [hpl'])
  have hhdr : peek beyond (h.encode ++ pl') (rtpHdrSz + 1)
      = LibRtspServer.RtpSess.fuHdr nalu0 first last := peek_pl (by simp [hpl'])
  have hsz : minus (rtpHdrSz + pl'.length) (rtpHdrSz + 2) = pl.length := by
    rw [minus_eq (by simp [hpl']) (by rw [rtpHdrSz, hpl', List.length_cons, List.length_cons]; omega),
      hpl', List.length_cons, List.length_cons]
    omega
  have hdrop : pl'.drop 2 = pl := rfl
  have hsingle : ¬ ((1 : UInt8) ≤ 28 ∧ (28 : UInt8) ≤ 23) := by decide
  simp only [RtpSess.handleH264, hidr, hhdr, fuIdr_type, if_neg hsingle, if_true, fu_naluHdr,
    fuHdr_first, hdrop, append_eq hsz]
  cases first with
  | false =>
    simp only [Bool.false_eq_true, if_false, ne_eq, not_true_eq_false, ok_bind, List.nil_append]
    cases receive c pl none <;> rfl
  | true =>
    have hset : (0x80 : UInt8) ≠ 0 := by decide
    have hnalu : ∀ c : RtpSess, c.append [nalu0] 1 = receive c [nalu0] none := fun _ => append_eq rfl
    simp only [if_true, if_pos hset, append_eq rfl, hnalu]
    rw [← receive_append, ← receive_append]
    cases receive c startCode none with
    | error e => rfl
    | ok c' =>
      rw [ok_bind, ok_bind]
      cases receive c' [nalu0] none with
      | error e => rfl
      | ok c'' =>
        rw [ok_bind, ok_bind]
        cases receive c'' pl none <;> rfl

end Client

section Server

open LibRtspServer (RtpSess MediaType rtpPtH264 maxRtpPktSz maxRtpPlSz)
open LibRtspServer.RtpSess (maxFuSz fuIdr fuHdr)
open LibRtspClient.RtpSess (frmTypeOf)

variable {beyond : ℕ → UInt8} {s : RtpSess} {p : RtpPl}

def rtpPkt (s : RtpSess) (b : SendBuf) : Bytes := if s.intlvdMode then b.data.drop 4 else b.data

structure Queued (s s' : RtpSess) (pkts : List Bytes) : Prop where
  intlvdMode : s'.intlvdMode = s.intlvdMode
  pt : (s'.rtpHdr .video).pt = (s.rtpHdr .video).pt
  queue : ∃ bufs, s'.sendQueue = s.sendQueue ++ bufs ∧ bufs.map (rtpPkt s) = pkts

lemma Queued.refl (s : RtpSess) : Queued s s [] := ⟨rfl, rfl, [], by simp, rfl⟩

lemma Queued.trans {s₁ s₂ s₃ : RtpSess} {pkts pkts' : List Bytes} (h : Queued s₁ s₂ pkts)
    (h' : Queued s₂ s₃ pkts') : Queued s₁ s₃ (pkts ++ pkts') := by
  obtain ⟨bufs, hq, hp⟩ := h.queue
  obtain ⟨bufs', hq', hp'⟩ := h'.queue
  refine ⟨h'.intlvdMode.trans h.intlvdMode, h'.pt.trans h.pt, bufs ++ bufs', ?_, ?_⟩
  · rw [hq', hq, List.append_assoc]
  · have hpkt : rtpPkt s₂ = rtpPkt s₁ := by
      funext b
      rw [rtpPkt, rtpPkt, h.intlvdMode]
    rw [List.map_append, hp, ← hpkt, hp']

lemma length_intlvd (s : RtpSess) (media : MediaType) (n : ℕ) : (s.intlvd media n).length ≤ 4 := by
  rw [RtpSess.intlvd]
  split
  · exact le_rfl
  · exact Nat.zero_le 4

lemma rtpPkt_eq (s : RtpSess) (media : MediaType) (n : ℕ) (pkt : Bytes) :
    rtpPkt s ⟨.rtpVPkt, s.intlvd media n ++ pkt⟩ = pkt := by
  rw [rtpPkt, RtpSess.intlvd]
  split <;> rfl

lemma updateHdr_video (s : RtpSess) (f : RtpHdr → RtpHdr) :
    (s.updateHdr f).rtpHdr .video = f (s.rtpHdr .video) :=
  Function.update_self MediaType.video _ s.rtpHdr

lemma updateHdr_queued (s : RtpSess) {f : RtpHdr → RtpHdr} (hf : ∀ h, (f h).pt = h.pt) :
    Queued s (s.updateHdr f) [] := by
  refine ⟨rfl, ?_, [], (List.append_nil _).symm, rfl⟩
  rw [updateHdr_video, hf]

lemma produceRtpPkt_queued (hpt : (s.rtpHdr .video).pt = rtpPtH264) {front : Bytes}
    (hfront : LibRtspServer.naluPrefix p = .ok (some front)) (hsz : front.length + p.plSz ≤ maxRtpPlSz) :
    ∃ s', s.produceRtpPkt .video p = .ok s'
      ∧ Queued s s' [(s.rtpHdr .video).encode ++ (front ++ p.pl.take p.plSz)] := by
  have hlen : ∀ n, (s.intlvd .video n).length + ((s.rtpHdr .video).encode.length + front.length + p.plSz)
      ≤ maxRtpPktSz := by
    intro n
    have hfour := length_intlvd s .video n
    have htwelve : (s.rtpHdr .video).encode.length = 12 := length_encode _
    rw [maxRtpPlSz, maxRtpPktSz] at hsz
    rw [maxRtpPktSz]
    omega
  refine ⟨s.addSendBuf ⟨.rtpVPkt, s.intlvd .video ((s.rtpHdr .video).encode.length + front.length + p.plSz)
    ++ (s.rtpHdr .video).encode ++ front ++ p.pl.take p.plSz⟩, ?_, rfl, rfl, [_], rfl, ?_⟩
  · rw [RtpSess.produceRtpPkt, LibRtspServer.plPrefix, if_pos hpt, hfront, ok_bind]
    exact if_pos (hlen _)
  · rw [List.map_singleton, List.append_assoc, List.append_assoc]
    exact congrArg (fun b => [b]) (rtpPkt_eq s _ _ _)

lemma sendPkt_queued (m : Bool) (hpt : (s.rtpHdr .video).pt = rtpPtH264) {front : Bytes}
    (hfront : LibRtspServer.naluPrefix p = .ok (some front)) (hsz : front.length + p.plSz ≤ maxRtpPlSz) :
    ∃ s' h, s.sendPkt m p = .ok s' ∧ h.pt = rtpPtH264 ∧ h.m = m
      ∧ Queued s s' [RtpHdr.encode h ++ (front ++ p.pl.take p.plSz)] := by
  have hmark := updateHdr_queued s (f := fun h => { h with m }) fun _ => rfl
  obtain ⟨s', hs, hq⟩ := produceRtpPkt_queued (hmark.pt.trans hpt) hfront hsz
  refine ⟨_, _, ?_, ?_, ?_, (hmark.trans hq).trans (updateHdr_queued s' (f := .updateSeq) fun _ => rfl)⟩
  · rw [RtpSess.sendPkt, hs]
    rfl
  · rw [updateHdr_video]
    exact hpt
  · rw [updateHdr_video]

def Conveys (beyond : ℕ → UInt8) (pkts : List Bytes) (part : Bytes)
    (m : Option LibRtspClient.FrmType) : Prop :=
  ∃ init p front back, pkts = init ++ [p] ∧ part = front ++ back ∧ Feeds beyond init front none
    ∧ Feeds beyond [p] back m

lemma Feeds.conveys {pkts pkts' : List Bytes} {front back : Bytes} {m : Option LibRtspClient.FrmType}
    (hfront : Feeds beyond pkts front none) (hback : Conveys beyond pkts' back m) :
    Conveys beyond (pkts ++ pkts') (front ++ back) m := by
  obtain ⟨init, p, back₁, back₂, rfl, rfl, hinit, hp⟩ := hback
  exact ⟨pkts ++ init, p, front ++ back₁, back₂, (List.append_assoc ..).symm,
    (List.append_assoc ..).symm, hfront.append hinit, hp⟩

lemma Conveys.feeds {pkts : List Bytes} {part : Bytes} {m : Option LibRtspClient.FrmType}
    (h : Conveys beyond pkts part m) : Feeds beyond pkts part m := by
  obtain ⟨init, p, front, back, rfl, rfl, hinit, hp⟩ := h
  exact hinit.append hp

lemma Feeds.conveys_one {p part : Bytes} {m : Option LibRtspClient.FrmType}
    (h : Feeds beyond [p] part m) : Conveys beyond [p] part m :=
  ⟨[], p, [], part, rfl, rfl, feeds_nil beyond, h⟩

lemma naluPrefix_single (h : 1 ≤ p.idr &&& 0x1F ∧ p.idr &&& 0x1F ≤ 23) :
    LibRtspServer.naluPrefix p = .ok (some [p.idr]) := if_pos h

lemma naluPrefix_fuA (nalu0 hdr : UInt8) (don : Option UInt16) (pl : Bytes) (plSz : ℕ) :
    LibRtspServer.naluPrefix ⟨fuIdr nalu0, some hdr, don, pl, plSz⟩ = .ok (some [fuIdr nalu0, hdr]) := by
  have hsingle : ¬ ((1 : UInt8) ≤ 28 ∧ (28 : UInt8) ≤ 23) := by decide
  rw [LibRtspServer.naluPrefix]
  simp only [fuIdr_type, if_neg hsingle]
  rfl

def fuPart (nalu0 : UInt8) (i : ℕ) (part : Bytes) : Bytes :=
  (if i = 0 then startCode ++ [nalu0] else []) ++ part

lemma sendFu_queued (beyond : ℕ → UInt8) (nalu0 : UInt8) {i n : ℕ} (fin m : Bool) {ptr : Bytes}
    (hn : n ≤ maxFuSz) (hpt : (s.rtpHdr .video).pt = rtpPtH264) :
    ∃ s' pkt, s.sendPkt m ⟨fuIdr nalu0, some (fuHdr nalu0 (i = 0) fin), none, ptr, n⟩ = .ok s'
      ∧ Queued s s' [pkt]
      ∧ Feeds beyond [pkt] (fuPart nalu0 i (ptr.take n)) (if m then some (frmTypeOf nalu0) else none) := by
  have hmax : maxFuSz = 1422 := rfl
  obtain ⟨s', h, hs, hhpt, hm, hq⟩ := sendPkt_queued m hpt
    (naluPrefix_fuA nalu0 (fuHdr nalu0 (i = 0) fin) none ptr n)
    (by change 2 + n ≤ 1424; omega)
  refine ⟨s', _, hs, hq, ?_⟩
  have hlen : (ptr.take n).length < 2 ^ 32 := by
    rw [List.length_take]
    omega
  have hfeeds := @feeds_fuA beyond _ _ hhpt nalu0 (decide (i = 0)) fin hlen
  simpa only [fuPart, hm, decide_eq_true_eq, List.cons_append, List.nil_append] using hfeeds

lemma sendFuA_queued (beyond : ℕ → UInt8) (nalu0 : UInt8) (last : Bool) (rest : Bytes) {num i k : ℕ}
    {part : Bytes} (hnum : num = i + (k + 1)) (hlt : k * maxFuSz < part.length)
    (hle : part.length ≤ (k + 1) * maxFuSz) (hpt : (s.rtpHdr .video).pt = rtpPtH264) :
    ∃ s' pkts, s.sendFuA nalu0 last num i (part ++ rest) part.length = .ok s' ∧ Queued s s' pkts
      ∧ Conveys beyond pkts (fuPart nalu0 i part) (if last then some (frmTypeOf nalu0) else none) := by
  induction k generalizing s i part with
  | zero =>
    have hfin : i = num - 1 := by omega
    obtain ⟨s', pkt, hs, hq, hfeeds⟩ := @sendFu_queued s beyond nalu0 i part.length true last
      (part ++ rest) (by omega) hpt
    refine ⟨s', [pkt], ?_, hq, ?_⟩
    · rw [RtpSess.sendFuA, if_pos (by omega)]
      simp only [decide_eq_true hfin, Bool.true_and, if_pos hfin, hs, ok_bind]
      rw [RtpSess.sendFuA, if_neg (by omega)]
    · rw [List.take_left] at hfeeds
      exact hfeeds.conveys_one
  | succ k ih =>
    have hfin : ¬ i = num - 1 := by omega
    have hmax : maxFuSz ≤ part.length := by
      rw [Nat.succ_mul] at hlt
      omega
    obtain ⟨s', pkt, hs, hq, hfeeds⟩ := @sendFu_queued s beyond nalu0 i maxFuSz false false
      (part ++ rest) le_rfl hpt
    rw [List.take_append_of_le_length hmax] at hfeeds
    have hdrop : (part ++ rest).drop maxFuSz = part.drop maxFuSz ++ rest :=
      List.drop_append_of_le_length hmax
    have hlen : (part.drop maxFuSz).length = part.length - maxFuSz := List.length_drop
    rw [Nat.succ_mul] at hlt hle
    obtain ⟨s'', pkts, hs', hq', hconveys⟩ := @ih s' (i + 1) (part.drop maxFuSz)
      (by omega) (by omega) (by omega) (hq.pt.trans hpt)
    refine ⟨s'', [pkt] ++ pkts, ?_, hq.trans hq', ?_⟩
    · rw [RtpSess.sendFuA, if_pos (by omega)]
      simp only [decide_eq_false hfin, Bool.false_and, if_neg hfin, hs, ok_bind]
      rw [hdrop, ← hlen]
      exact hs'
    · have hpart : fuPart nalu0 i part
          = fuPart nalu0 i (part.take maxFuSz) ++ fuPart nalu0 (i + 1) (part.drop maxFuSz) := by
        rw [fuPart, fuPart, fuPart, if_neg (Nat.succ_ne_zero i), List.nil_append, List.append_assoc,
          List.take_append_drop]
      rw [hpart]
      exact hfeeds.conveys hconveys

lemma sendH264Nalu_queued (after beyond : ℕ → UInt8) (n : Nalu) (rest : Bytes) (last : Bool)
    (hlen : n.data.length < 2 ^ 32) (hpt : (s.rtpHdr .video).pt = rtpPtH264) :
    ∃ s' pkts, s.sendH264Nalu after (n.data ++ rest) n.data.length last = .ok s' ∧ Queued s s' pkts
      ∧ Conveys beyond pkts (startCode ++ n.data) (if last then some n.frmType else none) := by
  obtain ⟨nalu0, pl, hdata⟩ := List.exists_cons_of_ne_nil n.ne
  have hmax : maxFuSz = 1422 := rfl
  have hpl : maxRtpPlSz = 1424 := rfl
  have hsz : n.data.length = pl.length + 1 := congrArg List.length hdata
  have hpl32 : pl.length < 2 ^ 32 := by omega
  have htype := n.type
  have hfrm : n.frmType = frmTypeOf nalu0 := by
    rw [Nalu.frmType]
    simp only [hdata, List.head_cons]
  simp only [hdata, List.head_cons] at htype
  have hts : ∀ s' : RtpSess, Queued s' (if last then s'.updateHdr .updateTs else s') [] := by
    intro s'
    split
    · exact updateHdr_queued s' fun h => by rw [RtpHdr.updateTs]
    · exact .refl s'
  rw [RtpSess.sendH264Nalu, hfrm]
  by_cases hsingle : n.data.length ≤ maxRtpPlSz
  · have hminus : (n.data.length + 2 ^ 32 - 1) % 2 ^ 32 = pl.length := by omega
    obtain ⟨s', h, hs, hhpt, hm, hq⟩ := sendPkt_queued
      (p := ⟨nalu0, none, none, pl ++ rest, pl.length⟩) last hpt (naluPrefix_single htype)
      (by change 1 + pl.length ≤ 1424; omega)
    have hq' := hq.trans (hts s')
    rw [List.take_left, List.append_nil] at hq'
    refine ⟨_, _, ?_, hq', ?_⟩
    · rw [if_pos hsingle, hminus, hdata]
      exact congrArg (· >>= _) hs
    · rw [hdata, ← hm]
      exact (feeds_single hhpt htype hpl32).conveys_one
  · -- The number of packets is rounded up.
    obtain ⟨k, hnum, hlt, hle⟩ : ∃ k, pl.length / maxFuSz
          + (if pl.length % maxFuSz ≠ 0 then 1 else 0) = 0 + (k + 1)
        ∧ k * maxFuSz < pl.length ∧ pl.length ≤ (k + 1) * maxFuSz := by
      rw [hmax]
      refine ⟨(pl.length - 1) / 1422, ?_, ?_, ?_⟩
      · split_ifs <;> omega
      all_goals omega
    obtain ⟨s', pkts, hs, hq, hconveys⟩ := sendFuA_queued beyond nalu0 last rest hnum hlt hle hpt
    have hq' := hq.trans (hts s')
    rw [List.append_nil] at hq'
    refine ⟨_, pkts, ?_, hq', ?_⟩
    · rw [if_neg hsingle, hdata]
      exact congrArg (· >>= _) hs
    · rw [fuPart, if_pos rfl, List.append_assoc] at hconveys
      rw [hdata]
      exact hconveys

lemma atNext_frame (nalus : List (Bool × Nalu)) : AtNext (frame nalus) := by
  cases nalus with
  | nil => exact .inl rfl
  | cons n nalus =>
    obtain ⟨long, n⟩ := n
    obtain ⟨c, tail, hdata⟩ := List.exists_cons_of_ne_nil n.ne
    rw [frame, List.flatMap_cons, hdata]
    cases long with
    | true => exact .inr ⟨c, tail ++ frame nalus, .inr rfl⟩
    | false => exact .inr ⟨c, tail ++ frame nalus, .inl rfl⟩

lemma frame_eq_nil {nalus : List (Bool × Nalu)} : frame nalus = [] ↔ nalus = [] := by
  cases nalus with
  | nil => exact iff_of_true rfl rfl
  | cons n nalus =>
    refine iff_of_false ?_ (List.cons_ne_nil n nalus)
    rw [frame, List.flatMap_cons]
    exact List.append_ne_nil_of_left_ne_nil (List.append_ne_nil_of_right_ne_nil _ n.2.ne) _

lemma length_frame_cons (n : Bool × Nalu) (nalus : List (Bool × Nalu)) :
    (frame (n :: nalus)).length = (if n.1 then 4 else 3) + n.2.data.length + (frame nalus).length := by
  rw [frame, List.flatMap_cons, List.length_append, List.length_append]
  cases n.1 <;> rfl

lemma sendVideoFrm_queued (after beyond : ℕ → UInt8) {nalus : List (Bool × Nalu)} (hne : nalus ≠ [])
    (hlen : (frame nalus).length < 2 ^ 32) (hpt : (s.rtpHdr .video).pt = rtpPtH264) :
    ∃ s' pkts, s.sendVideoFrm after (frame nalus) = .ok s' ∧ Queued s s' pkts
      ∧ Conveys beyond pkts (storedFrame nalus) (some (nalus.getLast hne).2.frmType) := by
  induction nalus generalizing s with
  | nil => exact absurd rfl hne
  | cons n nalus ih =>
    rw [length_frame_cons] at hlen
    have hskip : skipNaluStartCode (frame (n :: nalus)) = some (n.2.data ++ frame nalus) := by
      rw [frame, List.flatMap_cons, List.append_assoc]
      exact skipNaluStartCode_frame n.1 (List.append_ne_nil_of_left_ne_nil n.2.ne _)
    have hsz : getNaluSz after (n.2.data ++ frame nalus) = n.2.data.length :=
      getNaluSz_append (fun _ => n.2.last) n.2.no_zeros n.2.no_start (atNext_frame nalus)
    have hlast : (n.2.data ++ frame nalus).length = n.2.data.length ↔ nalus = [] := by
      rw [List.length_append, Nat.add_eq_left, List.length_eq_zero_iff, frame_eq_nil]
    obtain ⟨s', pkts, hs, hq, hconveys⟩ := sendH264Nalu_queued (s := s) after beyond n.2 (frame nalus)
      (decide (nalus = [])) (by omega) hpt
    have hstep : s.sendVideoFrm after (frame (n :: nalus)) = s'.sendVideoFrm after (frame nalus) := by
      rw [RtpSess.sendVideoFrm, if_neg (frame_eq_nil.not.mpr (List.cons_ne_nil n nalus))]
      split
      · next hnone => cases hnone.symm.trans hskip
      · next nalu hsome =>
        obtain rfl := Option.some.inj (hsome.symm.trans hskip)
        simp only [hsz, hlast, hs, ok_bind, List.drop_left]
    rw [hstep]
    by_cases hnil : nalus = []
    · subst hnil
      refine ⟨s', pkts, ?_, hq, ?_⟩
      · rw [frame, List.flatMap_nil, RtpSess.sendVideoFrm, if_pos rfl]
      · rw [storedFrame, List.flatMap_singleton]
        exact hconveys
    · obtain ⟨s'', pkts', hs', hq', hconveys'⟩ := ih hnil (by omega) (hq.pt.trans hpt)
      refine ⟨s'', pkts ++ pkts', hs', hq.trans hq', ?_⟩
      rw [decide_eq_false hnil] at hconveys
      rw [storedFrame, List.flatMap_cons, List.getLast_cons hnil]
      exact hconveys.feeds.conveys hconveys'

lemma length_frame_le (nalus : List (Bool × Nalu)) : (frame nalus).length ≤ (storedFrame nalus).length := by
  induction nalus with
  | nil => exact le_rfl
  | cons n nalus ih =>
    rw [length_frame_cons, storedFrame, List.flatMap_cons, List.length_append, List.length_append]
    have hfour : (if n.1 then 4 else 3) ≤ startCode.length := by
      split
      · exact le_rfl
      · exact Nat.le_succ 3
    rw [storedFrame] at ih
    omega

theorem video_round_trip (after beyond : ℕ → UInt8) {nalus : List (Bool × Nalu)} (hne : nalus ≠ [])
    (s : RtpSess) (c : LibRtspClient.RtpSess) (hpt : (s.rtpHdr .video).pt = rtpPtH264) (hfrm : c.frm = [])
    (hfits : c.frmHdrSz + (storedFrame nalus).length ≤ LibRtspClient.maxFrmSz) :
    ∃ s' init last front, s.sendVideoFrm after (frame nalus) = .ok s'
      ∧ s'.sendQueue = s.sendQueue ++ init ++ [last]
      ∧ (init.map (rtpPkt s)).foldlM (LibRtspClient.RtpSess.handleRtpPkt beyond) c
        = .ok { c with frm := front }
      ∧ LibRtspClient.RtpSess.handleRtpPkt beyond { c with frm := front } (rtpPkt s last)
        = .ok { c with
          frm := []
          stored := c.stored ++ [(some (nalus.getLast hne).2.frmType, storedFrame nalus)] } := by
  have hmax : LibRtspClient.maxFrmSz = 1024 * 1024 := rfl
  have hle := length_frame_le nalus
  obtain ⟨s', pkts, hs, hq, init, p, front, back, hpkts, hstored, hinit, hp⟩ :=
    sendVideoFrm_queued after beyond hne (by omega) hpt
  obtain ⟨bufs, hqueue, hbufs⟩ := hq.queue
  rw [hpkts] at hbufs
  obtain ⟨ibufs, lbufs, rfl, hibufs, hlbufs⟩ := List.map_eq_append_iff.mp hbufs
  obtain ⟨last, rfl, hlast⟩ := List.map_eq_singleton_iff.mp hlbufs
  rw [hstored, List.length_append] at hfits
  refine ⟨s', ibufs, last, front, hs, ?_, ?_, ?_⟩
  · rw [hqueue, List.append_assoc]
  · rw [hibufs, hinit c (by rw [hfrm, List.length_nil]; omega), receive, hfrm,
      if_pos (by rw [List.length_nil]; omega), List.nil_append]
  · have hone := hp { c with frm := front } (by rw [← Nat.add_assoc] at hfits; exact Nat.le_of_add_right_le hfits)
    simp only [List.foldlM_cons, List.foldlM_nil, bind_pure] at hone
    rw [hlast, hone, receive, if_pos (by rwa [Nat.add_assoc]), hstored]

def someHdr : RtpHdr := ⟨2, 0, 0, 0, false, rtpPtH264, 7, 90000, 1⟩

def someSess : RtpSess := ⟨true, fun _ => 0, fun _ => someHdr, []⟩

lemma infix_replicate {n : ℕ} {c d : UInt8} {sub : Bytes} (h : sub <:+: c :: List.replicate n d) :
    ∀ x ∈ sub, x = c ∨ x = d := by
  intro x hx
  rcases List.mem_cons.mp (h.subset hx) with hc | hd
  · exact .inl hc
  · exact .inr (List.eq_of_mem_replicate hd)

lemma replicate_succ_ne_nil (n : ℕ) (c : UInt8) : List.replicate (n + 1) c ≠ [] :=
  List.cons_ne_nil c (List.replicate n c)

def onesNalu (n : ℕ) : Nalu where
  data := 0x65 :: List.replicate (n + 1) 1
  ne := List.cons_ne_nil _ _
  type := by
    rw [List.head_cons]
    decide
  last := by
    rw [List.getLast_cons (replicate_succ_ne_nil n 1), List.getLast_replicate]
    decide
  no_zeros h := absurd (infix_replicate h 0 List.mem_cons_self) (by decide)
  no_start h := absurd (infix_replicate h 0 List.mem_cons_self) (by decide)

lemma length_onesNalu (n : ℕ) : (onesNalu n).data.length = n + 2 := by
  rw [onesNalu, List.length_cons, List.length_replicate]

def twoNalus : List (Bool × Nalu) :=
  [(true, ⟨[0x67, 1], by decide, by decide, by decide, by decide, by decide⟩), (false, onesNalu 1500)]

theorem video_round_trip_two : ∃ s' init last front,
    someSess.sendVideoFrm (fun _ => 0) (frame twoNalus) = .ok s'
      ∧ s'.sendQueue = someSess.sendQueue ++ init ++ [last]
      ∧ (init.map (rtpPkt someSess)).foldlM (LibRtspClient.RtpSess.handleRtpPkt fun _ => 0) ⟨0, [], []⟩
        = .ok ⟨0, front, []⟩
      ∧ LibRtspClient.RtpSess.handleRtpPkt (fun _ => 0) ⟨0, front, []⟩ (rtpPkt someSess last)
        = .ok ⟨0, [], [(some .iframe, storedFrame twoNalus)]⟩ := by
  refine video_round_trip (fun _ => 0) (fun _ => 0) (List.cons_ne_nil _ _) someSess ⟨0, [], []⟩ rfl rfl ?_
  simp only [storedFrame, List.flatMap_cons, List.flatMap_nil, List.length_append, length_onesNalu]
  decide

lemma short_start_code {n : ℕ} (hn : LibRtspClient.maxFrmSz = n + 5) :
    (frame [(false, onesNalu n)]).length = LibRtspClient.maxFrmSz
    ∧ ∃ s', someSess.sendVideoFrm (fun _ => 0) (frame [(false, onesNalu n)]) = .ok s'
      ∧ (s'.sendQueue.map (rtpPkt someSess)).foldlM (LibRtspClient.RtpSess.handleRtpPkt fun _ => 0)
        ⟨0, [], []⟩ = .error .overflow := by
  have hmax : LibRtspClient.maxFrmSz = 1024 * 1024 := rfl
  have hlen : (frame [(false, onesNalu n)]).length = n + 5 := by
    rw [length_frame_cons, length_onesNalu]
    change 3 + (n + 2) + 0 = n + 5
    omega
  refine ⟨hlen.trans hn.symm, ?_⟩
  obtain ⟨s', pkts, hs, hq, hconveys⟩ := sendVideoFrm_queued (s := someSess) (fun _ => 0) (fun _ => 0)
    (List.cons_ne_nil (false, onesNalu n) []) (by omega) rfl
  obtain ⟨bufs, hqueue, rfl⟩ := hq.queue
  refine ⟨s', hs, ?_⟩
  have hfeeds := hconveys.feeds ⟨0, [], []⟩ (Nat.zero_le _)
  rw [hqueue, someSess, List.nil_append]
  refine hfeeds.trans (if_neg ?_)
  rw [storedFrame, List.flatMap_singleton, List.length_append, length_onesNalu, hn]
  change ¬ 0 + 0 + (4 + (n + 2)) ≤ n + 5
  omega

-- With a start code of three bytes the frame is just as long as the buffer.
theorem short_start_code_overflows :
    (frame [(false, onesNalu (LibRtspClient.maxFrmSz - 5))]).length = LibRtspClient.maxFrmSz
    ∧ ∃ s', someSess.sendVideoFrm (fun _ => 0)
        (frame [(false, onesNalu (LibRtspClient.maxFrmSz - 5))]) = .ok s'
      ∧ (s'.sendQueue.map (rtpPkt someSess)).foldlM (LibRtspClient.RtpSess.handleRtpPkt fun _ => 0)
        ⟨0, [], []⟩ = .error .overflow :=
  short_start_code (Nat.sub_add_cancel (by decide)).symm

end Server

end SimpleCode.LibRtsp
