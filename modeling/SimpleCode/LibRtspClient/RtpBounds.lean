import SimpleCode.Foundations.Computation
import SimpleCode.LibRtspClient.Rtp

set_option autoImplicit false

namespace SimpleCode.LibRtspClient

open Foundations Buffer

inductive PktFault
  | overread
  -- A length from which more is taken than it is.
  | wrapped
  | overflow
deriving DecidableEq, Repr

namespace RtpSess

def byteAt (data : Bytes) (i : ℕ) : Except PktFault UInt8 :=
  match data[i]? with
  | none => .error .overread
  | some c => .ok c

def less (n k : ℕ) : Except PktFault ℕ := if k ≤ n then .ok (n - k) else .error .wrapped

def copy (s : RtpSess) (data : Bytes) (p n : ℕ) : Except PktFault RtpSess :=
  if data.length < p + n then .error .overread
  else if maxFrmSz < s.frmHdrSz + s.frm.length + n then .error .overflow
  else .ok { s with frm := s.frm ++ (data.drop p).take n }

def copyH264 (s : RtpSess) (data : Bytes) : Except PktFault (RtpSess × Option FrmType) := do
  let pl0 ← byteAt data rtpHdrSz
  let naluPt := pl0 &&& 0x1F
  if 1 ≤ naluPt ∧ naluPt ≤ 23 then
    let s ← s.copy startCode 0 startCode.length
    let n ← less data.length rtpHdrSz
    let s ← s.copy data rtpHdrSz n
    .ok (s, some (frmTypeOf pl0))
  else if naluPt = 28 then
    let pl1 ← byteAt data (rtpHdrSz + 1)
    let naluHdr := pl0 &&& 0xE0 ||| pl1 &&& 0x1F
    let s ← if pl1 &&& 0x80 ≠ 0 then do
        let s ← s.copy startCode 0 startCode.length
        s.copy [naluHdr] 0 1
      else .ok s
    let n ← less data.length (rtpHdrSz + 2)
    let s ← s.copy data (rtpHdrSz + 2) n
    .ok (s, some (frmTypeOf naluHdr))
  else .ok (s, none)

def copyPl (s : RtpSess) (pt : UInt8) (data : Bytes) : Except PktFault (RtpSess × Option FrmType) :=
  if pt = 96 then s.copyH264 data
  else if pt = 8 ∨ pt = 0 then .ok (s, some .aframe)
  else .ok (s, none)

-- `handle_rtp_pkt`
def readRtpPkt (s : RtpSess) (data : Bytes) : Except PktFault RtpSess := do
  let hdr ← byteAt data 1
  let (s, type) ← s.copyPl (hdr &&& 0x7F) data
  .ok (if hdr &&& 0x80 ≠ 0 then s.storeFrm type else s)

section Conditions

def payloadType (data : Bytes) : UInt8 := data.getD 1 0 &&& 0x7F

def naluType (data : Bytes) : UInt8 := data.getD rtpHdrSz 0 &&& 0x1F

def startsNalu (data : Bytes) : Prop := data.getD (rtpHdrSz + 1) 0 &&& 0x80 ≠ 0

instance (data : Bytes) : Decidable (startsNalu data) := inferInstanceAs (Decidable (_ ≠ _))

def Room (s : RtpSess) (n : ℕ) : Prop := s.frmHdrSz + s.frm.length + n ≤ maxFrmSz

/-- The packet has the bytes that are looked at, and what is copied from it fits the frame buffer. -/
structure PktFits (s : RtpSess) (data : Bytes) : Prop where
  hdr : 2 ≤ data.length
  nalu : payloadType data = 96 → rtpHdrSz + 1 ≤ data.length
  single : payloadType data = 96 → 1 ≤ naluType data → naluType data ≤ 23 → s.Room (4 + (data.length - rtpHdrSz))
  fuHdr : payloadType data = 96 → naluType data = 28 → rtpHdrSz + 2 ≤ data.length
  fu : payloadType data = 96 → naluType data = 28 →
    s.Room ((if startsNalu data then 5 else 0) + (data.length - (rtpHdrSz + 2)))

variable {s s' : RtpSess} {data : Bytes}

lemma byteAt_ok {i : ℕ} (h : i < data.length) : byteAt data i = .ok (data.getD i 0) := by
  rw [byteAt, List.getElem?_eq_getElem h, List.getD_eq_getElem _ _ h]

lemma of_byteAt {i : ℕ} {c : UInt8} (h : byteAt data i = .ok c) : i < data.length ∧ c = data.getD i 0 := by
  have hi : i < data.length := by
    by_contra hi
    rw [byteAt, List.getElem?_eq_none (not_lt.mp hi)] at h
    cases h
  rw [byteAt_ok hi] at h
  exact ⟨hi, (Except.ok.inj h).symm⟩

lemma copy_iff {p n : ℕ} : s.copy data p n = .ok s' ↔ p + n ≤ data.length ∧ s.Room n
    ∧ s' = { s with frm := s.frm ++ (data.drop p).take n } := by
  rw [copy, Room]
  split_ifs with hread hwrite
  · exact iff_of_false nofun fun h => absurd h.1 (not_le.mpr hread)
  · exact iff_of_false nofun fun h => absurd h.2.1 (not_le.mpr hwrite)
  · rw [Except.ok.injEq, and_iff_right (not_lt.mp hread), and_iff_right (not_lt.mp hwrite), eq_comm]

lemma of_less {n k m : ℕ} (h : less n k = .ok m) : k ≤ n ∧ m = n - k := by
  rw [less] at h
  split_ifs at h with hle
  · exact ⟨hle, (Except.ok.inj h).symm⟩

lemma less_ok {n k : ℕ} (h : k ≤ n) : less n k = .ok (n - k) := if_pos h

lemma copyRest_iff {α : Type} {k : ℕ} (a : RtpSess → α) : (∃ r, (do
      let n ← less data.length k
      let s ← s.copy data k n
      .ok (a s)) = .ok r) ↔ k ≤ data.length ∧ s.Room (data.length - k) := by
  constructor
  · rintro ⟨r, hr⟩
    obtain ⟨n, hn, hr⟩ := bind_eq_ok.mp hr
    obtain ⟨hk, rfl⟩ := of_less hn
    obtain ⟨s', hs', -⟩ := bind_eq_ok.mp hr
    exact ⟨hk, (copy_iff.mp hs').2.1⟩
  · rintro ⟨hk, hroom⟩
    rw [less_ok hk, ok_bind, copy_iff.mpr ⟨(Nat.add_sub_cancel' hk).le, hroom, rfl⟩]
    exact ⟨_, rfl⟩

lemma copyAll_iff (front : Bytes) : s.copy front 0 front.length = .ok s' ↔ s.Room front.length
    ∧ s' = { s with frm := s.frm ++ front } := by
  rw [copy_iff, Nat.zero_add, and_iff_right le_rfl, List.drop_zero, List.take_length]

lemma room_append (front : Bytes) (n : ℕ) : s.Room front.length ∧ Room { s with frm := s.frm ++ front } n
    ↔ s.Room (front.length + n) := by
  change _ ≤ maxFrmSz ∧ s.frmHdrSz + (s.frm ++ front).length + n ≤ maxFrmSz ↔ _ ≤ maxFrmSz
  rw [List.length_append]
  omega

lemma copyFront_iff {α : Type} {front : Bytes} {f : RtpSess → Except PktFault α} {P : Prop} (n : ℕ)
    (h : (∃ r, f { s with frm := s.frm ++ front } = .ok r) ↔ P ∧ Room { s with frm := s.frm ++ front } n) :
    (∃ r, (do
      let s ← s.copy front 0 front.length
      f s) = .ok r) ↔ P ∧ s.Room (front.length + n) := by
  rw [← room_append]
  constructor
  · rintro ⟨r, hr⟩
    obtain ⟨s', hs', hr⟩ := bind_eq_ok.mp hr
    obtain ⟨hroom, rfl⟩ := (copyAll_iff front).mp hs'
    obtain ⟨hP, hn⟩ := h.mp ⟨r, hr⟩
    exact ⟨hP, hroom, hn⟩
  · rintro ⟨hP, hroom, hn⟩
    rw [(copyAll_iff front).mpr ⟨hroom, rfl⟩]
    exact h.mpr ⟨hP, hn⟩

lemma copyH264_iff : (∃ r, s.copyH264 data = .ok r) ↔ rtpHdrSz + 1 ≤ data.length
    ∧ (1 ≤ naluType data → naluType data ≤ 23 → s.Room (4 + (data.length - rtpHdrSz)))
    ∧ (naluType data = 28 → rtpHdrSz + 2 ≤ data.length
      ∧ s.Room ((if startsNalu data then 5 else 0) + (data.length - (rtpHdrSz + 2)))) := by
  by_cases hlen : rtpHdrSz + 1 ≤ data.length
  · rw [copyH264, byteAt_ok hlen, ok_bind, and_iff_right hlen]
    change (∃ r, (if 1 ≤ naluType data ∧ naluType data ≤ 23 then _ else if naluType data = 28 then _ else _)
      = Except.ok r) ↔ _
    by_cases hsingle : 1 ≤ naluType data ∧ naluType data ≤ 23
    · have hnot : naluType data ≠ 28 := fun h => absurd (h ▸ hsingle.2) (by decide)
      rw [if_pos hsingle, copyFront_iff _ (copyRest_iff _), and_iff_right ((Nat.le_succ _).trans hlen)]
      exact ⟨fun h => ⟨fun _ _ => h, fun h28 => absurd h28 hnot⟩, fun h => h.1 hsingle.1 hsingle.2⟩
    rw [if_neg hsingle]
    have hfst {P : Prop} : (1 ≤ naluType data → naluType data ≤ 23 → P) ↔ True :=
      iff_true_intro fun h h' => absurd ⟨h, h'⟩ hsingle
    rw [hfst, true_and]
    by_cases hfu : naluType data = 28
    · rw [if_pos hfu, imp_iff_right hfu]
      by_cases hhdr : rtpHdrSz + 2 ≤ data.length
      · rw [byteAt_ok hhdr, ok_bind]
        dsimp only
        generalize data.getD rtpHdrSz 0 &&& 0xE0 ||| data.getD (rtpHdrSz + 1) 0 &&& 0x1F = naluHdr
        change (∃ r, (if startsNalu data then _ else _) = Except.ok r) ↔ _
        split_ifs with hstart
        · have hnaluHdr (s : RtpSess) : (∃ r, (do
              let s ← s.copy [naluHdr] 0 1
              let n ← less data.length (rtpHdrSz + 2)
              let s ← s.copy data (rtpHdrSz + 2) n
              .ok (s, some (frmTypeOf naluHdr))) = .ok r) ↔ rtpHdrSz + 2 ≤ data.length
                ∧ s.Room (1 + (data.length - (rtpHdrSz + 2))) :=
            @copyFront_iff s _ [naluHdr] _ _ _ (copyRest_iff _)
          have hsum (n : ℕ) : 5 + n = startCode.length + (1 + n) := Nat.add_assoc 4 1 n
          rw [hsum]
          exact copyFront_iff _ (hnaluHdr _)
        · rw [ok_bind, copyRest_iff, Nat.zero_add]
      · refine iff_of_false (fun ⟨r, hr⟩ => ?_) fun h => hhdr h.1
        obtain ⟨pl1, hpl1, -⟩ := bind_eq_ok.mp hr
        exact hhdr (of_byteAt hpl1).1
    · rw [if_neg hfu]
      exact iff_of_true ⟨_, rfl⟩ fun h => absurd h hfu
  · refine iff_of_false (fun ⟨r, hr⟩ => ?_) fun h => hlen h.1
    obtain ⟨pl0, hpl0, -⟩ := bind_eq_ok.mp hr
    exact hlen (of_byteAt hpl0).1

lemma readRtpPkt_iff : (∃ s', s.readRtpPkt data = .ok s') ↔ PktFits s data := by
  by_cases hhdr : 2 ≤ data.length
  · have hok : (∃ s', s.readRtpPkt data = .ok s') ↔ ∃ r, s.copyPl (payloadType data) data = .ok r := by
      rw [readRtpPkt, byteAt_ok hhdr, ok_bind]
      constructor
      · rintro ⟨s', hs'⟩
        obtain ⟨r, hr, -⟩ := bind_eq_ok.mp hs'
        exact ⟨r, hr⟩
      · rintro ⟨r, hr⟩
        change ∃ s', (s.copyPl (payloadType data) data >>= _) = Except.ok s'
        rw [hr]
        exact ⟨_, rfl⟩
    rw [hok, copyPl]
    split_ifs with h264 haudio
    · rw [copyH264_iff]
      constructor
      · rintro ⟨hnalu, hsingle, hfu⟩
        exact ⟨hhdr, fun _ => hnalu, fun _ => hsingle, fun _ h => (hfu h).1, fun _ h => (hfu h).2⟩
      · intro h
        exact ⟨h.nalu h264, h.single h264, fun h28 => ⟨h.fuHdr h264 h28, h.fu h264 h28⟩⟩
    · have hno {P : Prop} (h : payloadType data = 96) : P := absurd h h264
      exact iff_of_true ⟨_, rfl⟩ ⟨hhdr, hno, hno, hno, hno⟩
    · have hno {P : Prop} (h : payloadType data = 96) : P := absurd h h264
      exact iff_of_true ⟨_, rfl⟩ ⟨hhdr, hno, hno, hno, hno⟩
  · refine iff_of_false (fun ⟨s', hs'⟩ => ?_) fun h => hhdr h.hdr
    obtain ⟨c, hc, -⟩ := bind_eq_ok.mp hs'
    exact hhdr (of_byteAt hc).1

end Conditions

section Agreement

variable {beyond : ℕ → UInt8} {s s' : RtpSess} {data : Bytes}

lemma append_of_copy {p n : ℕ} (h : s.copy data p n = .ok s') : s.append (data.drop p) n = .ok s' := by
  obtain ⟨-, hroom, rfl⟩ := copy_iff.mp h
  exact if_pos hroom

lemma append_front {front : Bytes} {n : ℕ} (h : s.copy front 0 n = .ok s') : s.append front n = .ok s' := by
  have hcopied := append_of_copy h
  rwa [List.drop_zero] at hcopied

lemma minus_of_copy {p k : ℕ} (hk : k ≤ data.length) (h : s.copy data p (data.length - k) = .ok s') :
    minus data.length k = data.length - k := by
  have hroom := (copy_iff.mp h).2.1
  rw [Room] at hroom
  have hmax : maxFrmSz < 2 ^ 64 := by decide
  rw [minus]
  omega

lemma peek_of_byteAt {i : ℕ} {c : UInt8} (h : byteAt data i = .ok c) : peek beyond data i = c := by
  obtain ⟨hi, rfl⟩ := of_byteAt h
  rw [peek, List.getD_eq_getElem _ _ hi, List.getD_eq_getElem _ _ hi]

lemma of_copyH264 {r : RtpSess × Option FrmType} (hr : s.copyH264 data = .ok r) :
    s.handleH264 (fun i => peek beyond data (rtpHdrSz + i)) (data.drop rtpHdrSz) data.length = .ok r := by
  obtain ⟨pl0, hpl0, hr⟩ := bind_eq_ok.mp hr
  have hpeek0 : peek beyond data (rtpHdrSz + 0) = pl0 := peek_of_byteAt hpl0
  rw [handleH264]
  dsimp only at hr ⊢
  rw [hpeek0]
  by_cases hsingle : 1 ≤ pl0 &&& 0x1F ∧ pl0 &&& 0x1F ≤ 23
  · rw [if_pos hsingle] at hr ⊢
    obtain ⟨s₁, hs₁, hr⟩ := bind_eq_ok.mp hr
    obtain ⟨n, hn, hr⟩ := bind_eq_ok.mp hr
    obtain ⟨hle, rfl⟩ := of_less hn
    obtain ⟨s₂, hs₂, hr⟩ := bind_eq_ok.mp hr
    rw [append_front hs₁, ok_bind, minus_of_copy hle hs₂, append_of_copy hs₂, ok_bind]
    exact congrArg Except.ok (Except.ok.inj hr)
  rw [if_neg hsingle] at hr ⊢
  by_cases hfu : pl0 &&& 0x1F = 28
  · rw [if_pos hfu] at hr ⊢
    obtain ⟨pl1, hpl1, hr⟩ := bind_eq_ok.mp hr
    rw [peek_of_byteAt hpl1]
    have hrest {s₁ : RtpSess} {naluHdr : UInt8} (hr : (do
        let n ← less data.length (rtpHdrSz + 2)
        let s ← s₁.copy data (rtpHdrSz + 2) n
        .ok (s, some (frmTypeOf naluHdr))) = .ok r) : (do
        let s ← s₁.append ((data.drop rtpHdrSz).drop 2) (minus data.length (rtpHdrSz + 2))
        .ok (s, some (frmTypeOf naluHdr))) = Except.ok r := by
      obtain ⟨n, hn, hr⟩ := bind_eq_ok.mp hr
      obtain ⟨hle, rfl⟩ := of_less hn
      obtain ⟨s₂, hs₂, hr⟩ := bind_eq_ok.mp hr
      rw [List.drop_drop, minus_of_copy hle hs₂, append_of_copy hs₂, ok_bind]
      exact congrArg Except.ok (Except.ok.inj hr)
    split_ifs at hr ⊢
    · obtain ⟨s₁, hs₁, hr⟩ := bind_eq_ok.mp hr
      obtain ⟨s₂, hs₂, hr⟩ := bind_eq_ok.mp hr
      rw [append_front hs₁, ok_bind, append_front hs₂, ok_bind]
      exact hrest hr
    · rw [ok_bind] at hr ⊢
      exact hrest hr
  · rw [if_neg hfu] at hr ⊢
    exact congrArg Except.ok (Except.ok.inj hr)

/-- Inside of the packet and of the frame buffer, what follows the packet in memory plays no role. -/
lemma of_readRtpPkt (h : s.readRtpPkt data = .ok s') : s.handleRtpPkt beyond data = .ok s' := by
  obtain ⟨hdr, hhdr, h⟩ := bind_eq_ok.mp h
  obtain ⟨r, hr, h⟩ := bind_eq_ok.mp h
  have hpl : s.handlePl (hdr &&& 0x7F) (fun i => peek beyond data (rtpHdrSz + i)) (data.drop rtpHdrSz) data.length
      = .ok r := by
    rw [copyPl] at hr
    rw [handlePl]
    split_ifs at hr ⊢
    · exact of_copyH264 hr
    · exact congrArg Except.ok (Except.ok.inj hr)
    · exact congrArg Except.ok (Except.ok.inj hr)
  rw [handleRtpPkt]
  dsimp only
  rw [peek_of_byteAt hhdr, hpl]
  exact congrArg Except.ok (Except.ok.inj h)

end Agreement

end RtpSess

end SimpleCode.LibRtspClient
