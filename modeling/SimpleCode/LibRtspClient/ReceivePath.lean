import SimpleCode.Foundations.Runs
import SimpleCode.LibRtspClient.Demultiplexing
import SimpleCode.LibRtspClient.RtpBounds

set_option autoImplicit false

namespace SimpleCode.LibRtspClient

open Foundations Buffer

section Blocks

def Whole (data : Bytes) : Prop := 4 ≤ data.length ∧ 4 + intlvdSz data ≤ data.length

instance (data : Bytes) : Decidable (Whole data) := inferInstanceAs (Decidable (_ ∧ _))

-- What begins with a `$` is as long as its header says.
def Sized (block : Bytes) : Prop :=
  block.head? = some dollar → 4 < block.length → intlvdSz block = block.length - 4

def frontText (data : Bytes) : Bytes := data.takeWhile (· ≠ dollar)

def behindText (data : Bytes) : Bytes := data.dropWhile (· ≠ dollar)

-- A text is handled if a packet follows or if it is complete.
def Handled (text next : Bytes) : Prop := next ≠ [] ∨ rtspMsgComplete text

instance (text next : Bytes) : Decidable (Handled text next) := inferInstanceAs (Decidable (_ ∨ _))

lemma length_behindText {c : UInt8} (hc : c ≠ dollar) (rest : Bytes) :
    (behindText (c :: rest)).length < (c :: rest).length := by
  rw [behindText, List.dropWhile_cons_of_pos (by simpa using hc)]
  exact Nat.lt_succ_of_le (List.dropWhile_suffix _).length_le

/-- The blocks that are handled: the whole packets, and the texts, with `kept` in front of the first one. -/
def blocks (kept : Bytes) : Bytes → List Bytes
  | [] => []
  | c :: rest =>
    if c = dollar then
      if Whole (c :: rest) then
        (c :: rest).take (4 + intlvdSz (c :: rest)) :: blocks kept ((c :: rest).drop (4 + intlvdSz (c :: rest)))
      else []
    else
      (if Handled (kept ++ frontText (c :: rest)) (behindText (c :: rest)) then [kept ++ frontText (c :: rest)] else [])
        ++ blocks [] (behindText (c :: rest))
termination_by data => data.length
decreasing_by
  · rw [List.length_drop]
    simp only [List.length_cons]
    omega
  · exact length_behindText ‹_› rest

/-- Each text fits the buffer, with `kept` in front of the first one; one that is handled is terminated
there, and is as long as its header says if it is taken for a packet. -/
def TextsFit (kept : Bytes) : Bytes → Prop
  | [] => True
  | c :: rest =>
    if c = dollar then
      if Whole (c :: rest) then TextsFit kept ((c :: rest).drop (4 + intlvdSz (c :: rest))) else True
    else
      (kept ++ frontText (c :: rest)).length ≤ recvBufSz
        ∧ (Handled (kept ++ frontText (c :: rest)) (behindText (c :: rest)) →
          (kept ++ frontText (c :: rest)).length < recvBufSz ∧ Sized (kept ++ frontText (c :: rest)))
        ∧ TextsFit [] (behindText (c :: rest))
termination_by data => data.length
decreasing_by
  · rw [List.length_drop]
    simp only [List.length_cons]
    omega
  · exact length_behindText ‹_› rest

def handedOf (block : Bytes) : List Handed :=
  if block.head? = some dollar then
    if 4 < block.length then handlePkt (block.getD 1 0) (block.drop 4) else []
  else [.rtspResp block]

lemma handle_sized {block : Bytes} (h : Sized block) : handleIntlvdData block = .ok (handedOf block) := by
  rw [handleIntlvdData, handedOf]
  split_ifs with hhead hlen hsz
  · rfl
  · exact absurd (h hhead hlen) hsz
  · rfl
  · rfl

lemma of_handle {block : Bytes} {out : List Handed} (h : handleIntlvdData block = .ok out) :
    Sized block ∧ out = handedOf block := by
  have hsized : Sized block := by
    intro hhead hlen
    rw [handleIntlvdData, if_pos hhead, if_pos hlen] at h
    split_ifs at h with hsz
    exact hsz
  rw [handle_sized hsized] at h
  exact ⟨hsized, (Except.ok.inj h).symm⟩

lemma intlvdSz_take {data : Bytes} (h : Whole data) : intlvdSz (data.take (4 + intlvdSz data)) = intlvdSz data := by
  have hlen : 4 ≤ (data.take (4 + intlvdSz data)).length := by
    rw [List.length_take]
    exact le_min (Nat.le_add_right 4 _) h.1
  rw [← intlvdSz_append hlen (data.drop (4 + intlvdSz data)), List.take_append_drop]

lemma sized_packet {data : Bytes} (h : Whole data) : Sized (data.take (4 + intlvdSz data)) := by
  intro _ _
  rw [intlvdSz_take h, List.length_take, Nat.min_eq_left h.2, Nat.add_sub_cancel_left]

end Blocks

namespace Receiver

variable {r s : Receiver} {text data : Bytes}

lemma of_append (h : r.append text = .ok s) :
    r.sz + text.length ≤ recvBufSz ∧ s.last = r.last ++ text ∧ s.sz = r.sz + text.length ∧ s.log = r.log := by
  have hfit : r.sz + text.length ≤ recvBufSz := by
    rw [append] at h
    split_ifs at h with hfit
    exact hfit
  obtain ⟨s', hs', hspec⟩ := append_ok r text hfit
  obtain rfl := Except.ok.inj (h.symm.trans hs')
  exact ⟨hfit, hspec⟩

lemma of_flush (h : r.flush = .ok s) :
    (r.sz < recvBufSz ∧ Sized r.last) ∧ s.sz = 0 ∧ s.log = r.log ++ handedOf r.last := by
  rw [flush] at h
  split_ifs at h with hroom
  obtain ⟨p, hp, h⟩ := bind_eq_ok.mp h
  obtain ⟨out, hout, hp⟩ := bind_eq_ok.mp hp
  obtain ⟨hsized, rfl⟩ := of_handle hout
  cases hp
  cases h
  exact ⟨⟨hroom, hsized⟩, rfl, rfl⟩

lemma flushText_iff (hne : text ≠ []) : (∃ s, r.flushText text = .ok s)
    ↔ (r.last ++ text).length < recvBufSz ∧ Sized (r.last ++ text) := by
  rw [flushText, if_neg hne, List.length_append, length_last]
  constructor
  · rintro ⟨s, hs⟩
    obtain ⟨q, hq, hs⟩ := bind_eq_ok.mp hs
    obtain ⟨-, hlast, hsz, -⟩ := of_append hq
    obtain ⟨⟨hroom, hsized⟩, -⟩ := of_flush hs
    exact ⟨hsz ▸ hroom, hlast ▸ hsized⟩
  · rintro ⟨hroom, hsized⟩
    obtain ⟨q, hq, hlast, hsz, -⟩ := append_ok r text hroom.le
    obtain ⟨s, hs, -⟩ := flush_ok (r := q) (hsz ▸ hroom) (handle_sized (hlast ▸ hsized))
    rw [hq]
    exact ⟨s, hs⟩

lemma of_flushText (hne : text ≠ []) (h : r.flushText text = .ok s) :
    s.sz = 0 ∧ s.log = r.log ++ handedOf (r.last ++ text) := by
  rw [flushText, if_neg hne] at h
  obtain ⟨q, hq, hs⟩ := bind_eq_ok.mp h
  obtain ⟨-, hlast, -, hlog⟩ := of_append hq
  obtain ⟨-, hzero, hout⟩ := of_flush hs
  exact ⟨hzero, by rw [hout, hlast, hlog]⟩

lemma endText_iff : (∃ s, r.endText text = .ok s) ↔ (r.last ++ text).length ≤ recvBufSz
    ∧ (rtspMsgComplete (r.last ++ text) → (r.last ++ text).length < recvBufSz ∧ Sized (r.last ++ text)) := by
  rw [endText, List.length_append, length_last]
  constructor
  · rintro ⟨s, hs⟩
    obtain ⟨q, hq, hs⟩ := bind_eq_ok.mp hs
    obtain ⟨hfit, hlast, hsz, -⟩ := of_append hq
    refine ⟨hfit, fun hcomplete => ?_⟩
    rw [hlast, if_pos hcomplete] at hs
    obtain ⟨⟨hroom, hsized⟩, -⟩ := of_flush hs
    exact ⟨hsz ▸ hroom, hlast ▸ hsized⟩
  · rintro ⟨hfit, hcomplete⟩
    obtain ⟨q, hq, hlast, hsz, -⟩ := append_ok r text hfit
    rw [hq, ok_bind, hlast]
    split_ifs with hdone
    · obtain ⟨hroom, hsized⟩ := hcomplete hdone
      obtain ⟨s, hs, -⟩ := flush_ok (r := q) (hsz ▸ hroom) (handle_sized (hlast ▸ hsized))
      exact ⟨s, hs⟩
    · exact ⟨_, rfl⟩

-- Of an incomplete text, twice its bytes are counted.
lemma of_endText (h : r.endText text = .ok s) : s.sz ≤ r.sz + text.length + text.length
    ∧ s.log = r.log ++ (if rtspMsgComplete (r.last ++ text) then handedOf (r.last ++ text) else []) := by
  obtain ⟨q, hq, hs⟩ := bind_eq_ok.mp h
  obtain ⟨-, hlast, hsz, hlog⟩ := of_append hq
  rw [hlast] at hs
  split_ifs at hs ⊢ with hdone
  · obtain ⟨-, hzero, hout⟩ := of_flush hs
    refine ⟨hzero ▸ Nat.zero_le _, ?_⟩
    rw [hout, hlast, hlog]
  · cases hs
    exact ⟨(Nat.add_le_add_right hsz.le _), by rw [hlog, List.append_nil]⟩

section Scanning

variable {c : UInt8} {rest : Bytes}

lemma front_behind (data : Bytes) : frontText data ++ behindText data = data := List.takeWhile_append_dropWhile

lemma dollar_not_mem_frontText (data : Bytes) : dollar ∉ frontText data := fun h => by
  have hne := List.mem_takeWhile_imp h
  simp at hne

lemma frontText_ne_nil (hc : c ≠ dollar) : frontText (c :: rest) ≠ [] := by
  rw [frontText, List.takeWhile_cons_of_pos (by simpa using hc)]
  exact List.cons_ne_nil _ _

lemma behindText_head {d : UInt8} {next : Bytes} (h : behindText data = d :: next) : d = dollar := by
  have hne : behindText data ≠ [] := h ▸ List.cons_ne_nil d next
  have hhead : decide ((behindText data).head hne ≠ dollar) = false := List.head_dropWhile_not _ hne
  simp only [h, List.head_cons] at hhead
  exact of_not_not (of_decide_eq_false hhead)

lemma scan_front (hc : c ≠ dollar) : r.scan [] (c :: rest) = if behindText (c :: rest) = [] then
      r.endText (frontText (c :: rest))
    else (do
      let s ← r.flushText (frontText (c :: rest))
      s.scan [] (behindText (c :: rest))) := by
  have hscan := @scan_text r (frontText (c :: rest)) [] (behindText (c :: rest)) (dollar_not_mem_frontText _)
    (frontText_ne_nil hc)
  rw [front_behind, List.nil_append] at hscan
  rw [hscan]
  split_ifs with hnil
  · rfl
  · obtain ⟨d, next, hnext⟩ := List.exists_cons_of_ne_nil hnil
    rw [hnext]
    exact scan_dollar d (behindText_head hnext)

lemma handle_block {block : Bytes} (r : Receiver) (h : Sized block) : ∃ s, r.handle block = .ok s
    ∧ s.buf = r.buf ∧ s.sz = r.sz ∧ s.log = r.log ++ handedOf block := by
  rw [handle, handle_sized h]
  exact ⟨_, rfl, rfl, rfl, rfl⟩

lemma last_congr (hbuf : s.buf = r.buf) (hsz : s.sz = r.sz) : s.last = r.last := by
  rw [last, last, hbuf, hsz]

lemma last_of_sz_zero (h : s.sz = 0) : s.last = [] := by
  rw [last, h, contents_zero]

lemma scan_iff (r : Receiver) (data : Bytes) : (∃ s, r.scan [] data = .ok s) ↔ TextsFit r.last data := by
  induction hn : data.length using Nat.strong_induction_on generalizing r data with
  | _ n ih =>
    rcases data with _ | ⟨c, rest⟩
    · rw [scan, TextsFit]
      exact iff_of_true ⟨r, rfl⟩ trivial
    rw [TextsFit]
    by_cases hc : c = dollar
    · have hhead : (c :: rest).head? = some dollar := congrArg some hc
      rw [if_pos hc, scan_head hhead]
      change (∃ s, (if Whole (c :: rest) then _ else _) = Except.ok s) ↔ _
      split_ifs with hwhole
      · obtain ⟨q, hq, hbuf, hsz, -⟩ := r.handle_block (sized_packet hwhole)
        rw [hq, ok_bind, ← last_congr hbuf hsz]
        refine ih _ ?_ q _ rfl
        rw [← hn, List.length_drop]
        exact Nat.sub_lt (Nat.succ_pos _) (by omega)
      · exact iff_of_true ⟨_, rfl⟩ trivial
    · rw [if_neg hc, scan_front hc]
      by_cases hnext : behindText (c :: rest) = []
      · rw [if_pos hnext, endText_iff, Handled, hnext, TextsFit, and_true,
          or_iff_right (not_not_intro rfl)]
      · have hne : frontText (c :: rest) ≠ [] := frontText_ne_nil hc
        have hlt := hn ▸ length_behindText hc rest
        rw [if_neg hnext, Handled, imp_iff_right (.inl hnext)]
        constructor
        · rintro ⟨s, hs⟩
          obtain ⟨q, hq, hs⟩ := bind_eq_ok.mp hs
          obtain ⟨hroom, hsized⟩ := (flushText_iff hne).mp ⟨q, hq⟩
          have hrest := (ih _ hlt q (behindText (c :: rest)) rfl).mp ⟨s, hs⟩
          rw [last_of_sz_zero (of_flushText hne hq).1] at hrest
          exact ⟨hroom.le, ⟨hroom, hsized⟩, hrest⟩
        · rintro ⟨-, hfit, hrest⟩
          obtain ⟨q, hq⟩ := (flushText_iff hne).mpr hfit
          rw [hq, ok_bind, ih _ hlt q (behindText (c :: rest)) rfl, last_of_sz_zero (of_flushText hne hq).1]
          exact hrest

lemma of_scan (hdata : data.length ≤ recvBufSz) (hsz : r.sz ≤ 2 * recvBufSz) (h : r.scan [] data = .ok s) :
    s.log = r.log ++ (blocks r.last data).flatMap handedOf ∧ s.sz ≤ 2 * recvBufSz := by
  induction hn : data.length using Nat.strong_induction_on generalizing r data with
  | _ n ih =>
    rcases data with _ | ⟨c, rest⟩
    · rw [scan] at h
      cases h
      rw [blocks]
      exact ⟨(List.append_nil _).symm, hsz⟩
    rw [blocks]
    by_cases hc : c = dollar
    · have hhead : (c :: rest).head? = some dollar := congrArg some hc
      rw [scan_head hhead] at h
      rw [if_pos hc]
      change (if Whole (c :: rest) then _ else _) = Except.ok s at h
      split_ifs at h ⊢ with hwhole
      · obtain ⟨q, hq, hqbuf, hqsz, hqlog⟩ := r.handle_block (sized_packet hwhole)
        rw [hq, ok_bind] at h
        have hlt : ((c :: rest).drop (4 + intlvdSz (c :: rest))).length < n := by
          rw [← hn, List.length_drop]
          exact Nat.sub_lt (Nat.succ_pos _) (by omega)
        obtain ⟨hlog, hsz'⟩ := ih _ hlt (hlt.le.trans (hn ▸ hdata)) (hqsz ▸ hsz) h rfl
        refine ⟨?_, hsz'⟩
        rw [hlog, hqlog, last_congr hqbuf hqsz, List.flatMap_cons, List.append_assoc]
      · cases h
        exact ⟨(List.append_nil _).symm, hdata.trans (Nat.le_mul_of_pos_left _ two_pos)⟩
    · rw [scan_front hc] at h
      rw [if_neg hc]
      have hlen := congrArg List.length (front_behind (c :: rest))
      rw [List.length_append] at hlen
      by_cases hnext : behindText (c :: rest) = []
      · rw [if_pos hnext] at h
        have hfit := (endText_iff.mp ⟨s, h⟩).1
        rw [List.length_append, length_last] at hfit
        obtain ⟨hsz', hlog⟩ := of_endText h
        refine ⟨?_, by omega⟩
        have hrest : blocks [] (behindText (c :: rest)) = [] := by rw [hnext, blocks]
        rw [hlog, hrest, List.append_nil]
        by_cases hdone : rtspMsgComplete (r.last ++ frontText (c :: rest))
        · rw [if_pos hdone, if_pos (.inr hdone), List.flatMap_singleton]
        · rw [if_neg hdone, if_neg fun h => h.elim (fun hne => hne hnext) hdone]
          rfl
      · have hne : frontText (c :: rest) ≠ [] := frontText_ne_nil hc
        rw [if_neg hnext] at h
        obtain ⟨q, hq, h⟩ := bind_eq_ok.mp h
        obtain ⟨hzero, hout⟩ := of_flushText hne hq
        obtain ⟨hlog, hsz'⟩ := ih _ (hn ▸ length_behindText hc rest) (by omega) (hzero ▸ Nat.zero_le _) h rfl
        refine ⟨?_, hsz'⟩
        rw [hlog, hout, last_of_sz_zero hzero, if_pos (.inl hnext), List.singleton_append, List.flatMap_cons,
          List.append_assoc]

end Scanning

section Receiving

def keptSize (r : Receiver) : ℕ := 4 + intlvdSz r.last

def PktKept (r : Receiver) : Prop := 4 ≤ r.sz ∧ r.buf 0 = dollar

instance (r : Receiver) : Decidable r.PktKept := inferInstanceAs (Decidable (_ ∧ _))

def Completes (r : Receiver) (data : Bytes) : Prop := r.sz ≤ r.keptSize ∧ r.keptSize ≤ r.sz + data.length

instance (r : Receiver) (data : Bytes) : Decidable (r.Completes data) := inferInstanceAs (Decidable (_ ∧ _))

def RecvFits (r : Receiver) (data : Bytes) : Prop :=
  if r.PktKept then
    if r.Completes data then TextsFit [] (data.drop (r.keptSize - r.sz))
    else r.sz + data.length ≤ recvBufSz
  else TextsFit r.last data

def recvBlocks (r : Receiver) (data : Bytes) : List Bytes :=
  if r.PktKept then
    if r.Completes data then
      (r.last ++ data.take (r.keptSize - r.sz)) :: blocks [] (data.drop (r.keptSize - r.sz))
    else []
  else blocks r.last data

lemma intlvdSz_lt (data : Bytes) : intlvdSz data < 2 ^ 16 := by
  have hhigh := (data.getD 2 0).toNat_lt
  have hlow := (data.getD 3 0).toNat_lt
  rw [intlvdSz]
  omega

lemma missing_le_iff (hsz : r.sz ≤ 2 * recvBufSz) (hdata : data.length ≤ recvBufSz) :
    (r.keptSize + 2 ^ 64 - r.sz) % 2 ^ 64 ≤ data.length ↔ r.Completes data := by
  have hlt := intlvdSz_lt r.last
  have hmax : recvBufSz = 102400 := rfl
  rw [Completes, keptSize]
  omega

lemma missing_eq (h : r.Completes data) : (r.keptSize + 2 ^ 64 - r.sz) % 2 ^ 64 = r.keptSize - r.sz := by
  have hlt := intlvdSz_lt r.last
  obtain ⟨hle, -⟩ := h
  rw [keptSize] at hle ⊢
  omega

lemma completes_ok (hkept : r.PktKept) (h : r.Completes data) : ∃ q s, r.append (data.take (r.keptSize - r.sz)) = .ok q
    ∧ q.handle (contents q.buf r.keptSize) = .ok s
    ∧ s.log = r.log ++ handedOf (r.last ++ data.take (r.keptSize - r.sz)) := by
  have hlt := intlvdSz_lt r.last
  have hmax : recvBufSz = 102400 := rfl
  have htake : (data.take (r.keptSize - r.sz)).length = r.keptSize - r.sz := by
    rw [List.length_take, Nat.min_eq_left (Nat.sub_le_iff_le_add'.mpr h.2)]
  have hsum : r.sz + (r.keptSize - r.sz) = r.keptSize := Nat.add_sub_cancel' h.1
  obtain ⟨q, hq, hlast, hsz, hlog⟩ := append_ok r (data.take (r.keptSize - r.sz)) (by
    rw [htake, hsum, keptSize]
    omega)
  have hblock : contents q.buf r.keptSize = r.last ++ data.take (r.keptSize - r.sz) := by
    rw [← hlast, last, hsz, htake, hsum]
  have hsized : Sized (r.last ++ data.take (r.keptSize - r.sz)) := by
    intro _ _
    rw [intlvdSz_append (by rw [length_last]; exact hkept.1), List.length_append, length_last, htake, hsum,
      keptSize, Nat.add_sub_cancel_left]
  obtain ⟨s, hs, -, -, hslog⟩ := q.handle_block hsized
  exact ⟨q, s, hq, hblock ▸ hs, by rw [hslog, hlog]⟩

lemma recv_kept (hsz : r.sz ≤ 2 * recvBufSz) (hdata : data.length ≤ recvBufSz) (hkept : r.PktKept) :
    r.recvFromRtspSd data = if r.Completes data then (do
        let q ← r.append (data.take (r.keptSize - r.sz))
        let q ← q.handle (contents q.buf r.keptSize)
        { q with sz := 0 }.scan [] (data.drop (r.keptSize - r.sz)))
      else r.append data := by
  have hmissing := missing_le_iff hsz hdata
  rw [recvFromRtspSd, if_pos (show 4 ≤ r.sz ∧ r.buf 0 = dollar from hkept)]
  change (if (r.keptSize + 2 ^ 64 - r.sz) % 2 ^ 64 ≤ data.length then (do
      let q ← r.append (data.take ((r.keptSize + 2 ^ 64 - r.sz) % 2 ^ 64))
      let q ← q.handle (contents q.buf r.keptSize)
      { q with sz := 0 }.scan [] (data.drop ((r.keptSize + 2 ^ 64 - r.sz) % 2 ^ 64)))
    else r.append data) = _
  by_cases hcompletes : r.Completes data
  · rw [if_pos hcompletes, if_pos (hmissing.mpr hcompletes), missing_eq hcompletes]
  · rw [if_neg hcompletes, if_neg (mt hmissing.mp hcompletes)]

lemma recv_text (hkept : ¬ r.PktKept) : r.recvFromRtspSd data = r.scan [] data := if_neg hkept

lemma recvFromRtspSd_iff (hsz : r.sz ≤ 2 * recvBufSz) (hdata : data.length ≤ recvBufSz) :
    (∃ s, r.recvFromRtspSd data = .ok s) ↔ r.RecvFits data := by
  rw [RecvFits]
  by_cases hkept : r.PktKept
  · rw [if_pos hkept, recv_kept hsz hdata hkept]
    split_ifs with hcompletes
    · obtain ⟨q, p, hq, hp, -⟩ := completes_ok hkept hcompletes
      rw [hq, ok_bind, hp, ok_bind, scan_iff, last_of_sz_zero rfl]
    · constructor
      · rintro ⟨s, hs⟩
        exact (of_append hs).1
      · intro hfit
        obtain ⟨s, hs, -⟩ := append_ok r data hfit
        exact ⟨s, hs⟩
  · rw [if_neg hkept, recv_text hkept]
    exact scan_iff r data

lemma of_recvFromRtspSd (hsz : r.sz ≤ 2 * recvBufSz) (hdata : data.length ≤ recvBufSz)
    (h : r.recvFromRtspSd data = .ok s) :
    s.log = r.log ++ (r.recvBlocks data).flatMap handedOf ∧ s.sz ≤ 2 * recvBufSz := by
  rw [recvBlocks]
  by_cases hkept : r.PktKept
  · rw [recv_kept hsz hdata hkept] at h
    rw [if_pos hkept]
    split_ifs at h ⊢ with hcompletes
    · obtain ⟨q, p, hq, hp, hlog⟩ := completes_ok hkept hcompletes
      rw [hq, ok_bind, hp, ok_bind] at h
      have hlen : (data.drop (r.keptSize - r.sz)).length ≤ recvBufSz := (List.drop_suffix _ data).length_le.trans hdata
      obtain ⟨hslog, hssz⟩ := of_scan hlen (Nat.zero_le _) h
      refine ⟨?_, hssz⟩
      rw [last_of_sz_zero rfl] at hslog
      rw [hslog, hlog, List.flatMap_cons, List.append_assoc]
    · obtain ⟨hfit, -, hssz, hlog⟩ := of_append h
      exact ⟨hlog.trans (List.append_nil _).symm, by omega⟩
  · rw [recv_text hkept] at h
    rw [if_neg hkept]
    exact of_scan hdata hsz h

end Receiving

end Receiver

section Packets

-- A step that would leave the packet or the frame buffer is impossible.
def readPkt (s : RtpSess) (packet : Bytes) : Option RtpSess := (s.readRtpPkt packet).toOption

def packetOf : Handed → Option Bytes
  | .rtpPkt _ data => some data
  | .rtcpPkt _ _ => none
  | .rtspResp _ => none

def PktsFit (s : RtpSess) (packets : List Bytes) : Prop := MeetsAlong readPkt RtpSess.PktFits s packets

lemma toOption_eq_some {ε α : Type} {x : Except ε α} {a : α} : x.toOption = some a ↔ x = .ok a := by
  cases x with
  | error e => exact iff_of_false nofun nofun
  | ok b => exact ⟨fun h => congrArg Except.ok (Option.some.inj h), fun h => congrArg some (Except.ok.inj h)⟩

lemma readPkt_iff (s : RtpSess) (packet : Bytes) : (∃ s', readPkt s packet = some s') ↔ s.PktFits packet := by
  rw [← RtpSess.readRtpPkt_iff]
  exact exists_congr fun s' => toOption_eq_some

lemma readPkts_iff (s : RtpSess) (packets : List Bytes) :
    (∃ s', run readPkt s packets = some s') ↔ PktsFit s packets :=
  runs_iff (fun s e _ _ => readPkt_iff s e) (fun _ _ _ _ _ _ => trivial) (I := fun _ => True) trivial
    (meetsAlong_true s packets)

end Packets

inductive Arrival
  | rtsp (data : Bytes)
  | rtp (packet : Bytes)

def Arrival.data : Arrival → Bytes
  | .rtsp data => data
  | .rtp packet => packet

-- At least one byte is received, and not more than the buffer holds.
def Arrival.Possible (e : Arrival) : Prop := 1 ≤ e.data.length ∧ e.data.length ≤ recvBufSz

structure Client where
  recv : Receiver
  sess : RtpSess

namespace Client

def start (frmHdrSz : ℕ) : Client := ⟨.start, ⟨frmHdrSz, [], []⟩⟩

def step (c : Client) : Arrival → Option Client
  | .rtsp data => do
    let r ← ({ c.recv with log := [] }.recvFromRtspSd data).toOption
    let s ← run readPkt c.sess (r.log.filterMap packetOf)
    some ⟨r, s⟩
  | .rtp packet => do
    let s ← readPkt c.sess packet
    some { c with sess := s }

def packets (c : Client) (data : Bytes) : List Bytes := ((c.recv.recvBlocks data).flatMap handedOf).filterMap packetOf

def Fits (c : Client) : Arrival → Prop
  | .rtsp data => c.recv.RecvFits data ∧ PktsFit c.sess (c.packets data)
  | .rtp packet => c.sess.PktFits packet

def Bounded (c : Client) : Prop := c.recv.sz ≤ 2 * recvBufSz

variable {c c' : Client} {e : Arrival}

lemma of_recv {data : Bytes} {r : Receiver} (hc : c.Bounded) (he : data.length ≤ recvBufSz)
    (h : ({ c.recv with log := [] }.recvFromRtspSd data).toOption = some r) :
    c.recv.RecvFits data ∧ r.log.filterMap packetOf = c.packets data ∧ r.sz ≤ 2 * recvBufSz := by
  have hr := toOption_eq_some.mp h
  obtain ⟨hlog, hsz⟩ := @Receiver.of_recvFromRtspSd { c.recv with log := [] } r data hc he hr
  refine ⟨(@Receiver.recvFromRtspSd_iff { c.recv with log := [] } data hc he).mp ⟨r, hr⟩, ?_, hsz⟩
  rw [hlog]
  rfl

lemma step_iff (hc : c.Bounded) (he : e.Possible) : (∃ c', c.step e = some c') ↔ c.Fits e := by
  cases e with
  | rtsp data =>
    rw [Fits, ← readPkts_iff]
    constructor
    · rintro ⟨c', h⟩
      obtain ⟨r, hr, h⟩ := Option.bind_eq_some_iff.mp h
      obtain ⟨s, hs, -⟩ := Option.bind_eq_some_iff.mp h
      obtain ⟨hfits, hpackets, -⟩ := of_recv hc he.2 hr
      exact ⟨hfits, s, hpackets ▸ hs⟩
    · rintro ⟨hfits, s, hs⟩
      obtain ⟨r, hr⟩ := (@Receiver.recvFromRtspSd_iff { c.recv with log := [] } data hc he.2).mpr hfits
      have hr' := toOption_eq_some.mpr hr
      obtain ⟨-, hpackets, -⟩ := of_recv hc he.2 hr'
      refine ⟨⟨r, s⟩, Option.bind_eq_some_iff.mpr ⟨r, hr', Option.bind_eq_some_iff.mpr ⟨s, ?_, rfl⟩⟩⟩
      rw [hpackets]
      exact hs
  | rtp packet =>
    rw [Fits, ← readPkt_iff]
    constructor
    · rintro ⟨c', h⟩
      obtain ⟨s, hs, -⟩ := Option.bind_eq_some_iff.mp h
      exact ⟨s, hs⟩
    · rintro ⟨s, hs⟩
      exact ⟨{ c with sess := s }, Option.bind_eq_some_iff.mpr ⟨s, hs, rfl⟩⟩

lemma bounded_step (hc : c.Bounded) (he : e.Possible) (h : c.step e = some c') : c'.Bounded := by
  cases e with
  | rtsp data =>
    obtain ⟨r, hr, h⟩ := Option.bind_eq_some_iff.mp h
    obtain ⟨s, -, h⟩ := Option.bind_eq_some_iff.mp h
    cases h
    exact (of_recv hc he.2 hr).2.2
  | rtp packet =>
    obtain ⟨s, -, h⟩ := Option.bind_eq_some_iff.mp h
    cases h
    exact hc

/-- Whatever is received, the client stays in its buffers as long as each receive `Fits`, and only so. -/
theorem receives_iff (frmHdrSz : ℕ) {es : List Arrival} (hes : ∀ e ∈ es, e.Possible) :
    (∃ c, run step (start frmHdrSz) es = some c) ↔ MeetsAlong step Fits (start frmHdrSz) es :=
  runs_iff (fun _ _ => step_iff) (fun _ _ _ => bounded_step) (Nat.zero_le _)
    (meetsAlong_of_forall (fun e he _ => hes e he) _)

def fragment : Bytes := [36, 0, 0, 16, 0x80, 0x60, 0, 1, 0, 0, 0, 0, 0, 0, 0, 0, 0x7c, 0x85, 7, 8]

def fragments : List Arrival :=
  [.rtsp (bytes "RTSP/1.0 200 OK" ++ [13, 10, 13, 10] ++ fragment.take 10), .rtsp (fragment.drop 10),
    .rtp [0x80, 0xe0, 0, 2, 0, 0, 0, 0, 0, 0, 0, 0, 0x7c, 0x45, 9]]

theorem receives_iff_fragments : MeetsAlong step Fits (start 0) fragments := by
  refine (receives_iff 0 fun e he => ?_).mp (Option.isSome_iff_exists.mp (by decide +kernel))
  simp only [fragments, List.mem_cons, List.not_mem_nil, or_false] at he
  rcases he with rfl | rfl | rfl <;> exact ⟨by decide, by decide⟩

-- A packet of one byte has no payload type.
theorem packet_of_one_byte : ¬ ∀ (frmHdrSz : ℕ) (es : List Arrival), (∀ e ∈ es, e.Possible) →
    ∃ c, run step (start frmHdrSz) es = some c := by
  intro hall
  have hpossible : (Arrival.rtp [0x80]).Possible := ⟨by decide, by decide⟩
  obtain ⟨c, hc⟩ := hall 0 [.rtp [0x80]] fun e he => List.mem_singleton.mp he ▸ hpossible
  obtain ⟨c', hstep, -⟩ := run_cons.mp hc
  have hfits : RtpSess.PktFits _ [0x80] := (step_iff (Nat.zero_le _) hpossible).mp ⟨c', hstep⟩
  exact absurd hfits.hdr (by decide)

end Client

end SimpleCode.LibRtspClient
