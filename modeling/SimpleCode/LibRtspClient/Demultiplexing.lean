import SimpleCode.LibRtspClient.SdHandler

set_option autoImplicit false

namespace SimpleCode.LibRtspClient

open Foundations Buffer

inductive Message
  | packet (chn : UInt8) (body : Bytes)
  | response (text : Bytes)
deriving DecidableEq

namespace Message

def encode : Message → Bytes
  | .packet chn body =>
    dollar :: chn :: UInt8.ofNat (body.length / 256) :: UInt8.ofNat (body.length % 256) :: body
  | .response text => text

def handed : Message → Handed
  | .packet chn body =>
    if chn = 0 then .rtpPkt .video body
    else if chn = 1 then .rtcpPkt .video body
    else if chn = 2 then .rtpPkt .audio body
    else .rtcpPkt .audio body
  | .response text => .rtspResp text

inductive WellFormed : Message → Prop
  | packet {chn : UInt8} {body : Bytes} : chn.toNat ≤ 3 → body ≠ [] → body.length < 2 ^ 16 →
      WellFormed (.packet chn body)
  | response {text : Bytes} : dollar ∉ text → [13, 10, 13, 10] <:+ text → WellFormed (.response text)

def isPacket : Message → Prop
  | .packet _ _ => True
  | .response _ => False

end Message

open Message

def encodeAll (ms : List Message) : Bytes := ms.flatMap encode

def CutAt (cs : List Bytes) (p : ℕ) : Prop := ∃ seen later, cs = seen ++ later ∧ seen.flatten.length = p

/-- The first one to three bytes of a packet have been received, up to `p`. They are not taken for the
beginning of a packet, but the rest is taken for the rest of a text that begins with them. -/
structure HeaderCut (cs : List Bytes) (before : List Message) (m : Message) (after : List Message)
    (p : ℕ) : Prop where
  no_dollar : dollar ∉ m.encode.drop (p - (encodeAll before).length)
  no_cut : ∀ q, CutAt cs q → p < q → q < (encodeAll (before ++ [m])).length → False
  ends : CutAt cs (encodeAll (before ++ [m])).length ∧ [13, 10] <:+ m.encode
    ∨ ¬ CutAt cs (encodeAll (before ++ [m])).length ∧ ∃ next, after.head? = some next ∧ next.isPacket

/-- A receive ends inside of no response, and inside of a packet only after its header or so that the
rest is found nevertheless; and where two responses meet one receive ends. -/
structure CutsKeepMessages (ms : List Message) (cs : List Bytes) : Prop where
  inside : ∀ before m after p, ms = before ++ m :: after → CutAt cs p →
    (encodeAll before).length < p → p < (encodeAll (before ++ [m])).length →
    m.isPacket ∧ ((encodeAll before).length + 4 ≤ p ∨ HeaderCut cs before m after p)
  between : ∀ before t t' after, ms = before ++ .response t :: .response t' :: after →
    CutAt cs (encodeAll (before ++ [.response t])).length

section Packets

variable {m : Message} {chn : UInt8} {body rest : Bytes}

lemma intlvdSz_append {data : Bytes} (h : 4 ≤ data.length) (rest : Bytes) :
    intlvdSz (data ++ rest) = intlvdSz data := by
  rw [intlvdSz, intlvdSz, List.getD_append _ _ _ _ (by omega), List.getD_append _ _ _ _ (by omega)]

lemma intlvdSz_encode (h : body.length < 2 ^ 16) :
    intlvdSz (Message.packet chn body).encode = body.length := by
  change (UInt8.ofNat (body.length / 256)).toNat * 256 + (UInt8.ofNat (body.length % 256)).toNat = _
  rw [UInt8.toNat_ofNat', UInt8.toNat_ofNat']
  omega

lemma length_encode (chn : UInt8) (body : Bytes) :
    (Message.packet chn body).encode.length = 4 + body.length := by
  simp only [encode, List.length_cons]
  omega

lemma handlePkt_eq (h : chn.toNat ≤ 3) : handlePkt chn body = [(Message.packet chn body).handed] := by
  have hall : chn = 0 ∨ chn = 1 ∨ chn = 2 ∨ chn = 3 := by
    have hof : chn = UInt8.ofNat chn.toNat := (UInt8.ofNat_toNat).symm
    rw [hof]
    generalize chn.toNat = k at h ⊢
    interval_cases k <;> decide
  rcases hall with rfl | rfl | rfl | rfl <;> rfl

lemma Message.WellFormed.length_pos (h : m.WellFormed) : 0 < m.encode.length := by
  cases h with
  | packet _ _ _ => exact Nat.succ_pos _
  | response _ hend => exact (by decide : 0 < 4).trans_le hend.length_le

lemma handle_encode (h : m.WellFormed) : handleIntlvdData m.encode = .ok [m.handed] := by
  cases h with
  | @packet chn body hchn hne hlen =>
    have hpos := List.length_pos_of_ne_nil hne
    have hsize := length_encode chn body
    have hhead : (Message.packet chn body).encode.head? = some dollar := rfl
    rw [handleIntlvdData, if_pos hhead, if_pos (by omega), intlvdSz_encode hlen, if_pos (by omega)]
    exact congrArg Except.ok (handlePkt_eq hchn)
  | @response text hdollar hend =>
    have hhead : text.head? ≠ some dollar := fun h => hdollar (List.mem_of_head? h)
    rw [encode, handleIntlvdData, if_neg hhead]
    rfl

lemma encodeAll_append (ms ms' : List Message) :
    encodeAll (ms ++ ms') = encodeAll ms ++ encodeAll ms' := List.flatMap_append

lemma encodeAll_cons (m : Message) (ms : List Message) :
    encodeAll (m :: ms) = m.encode ++ encodeAll ms := List.flatMap_cons

lemma length_encodeAll_concat (ms : List Message) (m : Message) :
    (encodeAll (ms ++ [m])).length = (encodeAll ms).length + m.encode.length := by
  rw [encodeAll_append, List.length_append, encodeAll_cons, List.length_append]
  rfl

end Packets

section Cuts

variable {cs seen later : List Bytes} {c : Bytes}

lemma cutAt_seen (h : cs = seen ++ later) : CutAt cs seen.flatten.length := ⟨seen, later, h, rfl⟩

lemma length_flatten_concat (seen : List Bytes) (c : Bytes) :
    (seen ++ [c]).flatten.length = seen.flatten.length + c.length := by
  rw [List.flatten_append, List.length_append, List.flatten_singleton]

lemma cutAt_cons (c : Bytes) (cs : List Bytes) (p : ℕ) :
    CutAt (c :: cs) p ↔ p = 0 ∨ ∃ q, CutAt cs q ∧ p = c.length + q := by
  constructor
  · rintro ⟨seen, later, hsplit, rfl⟩
    cases seen with
    | nil => exact .inl rfl
    | cons d seen =>
      obtain ⟨rfl, rfl⟩ := List.cons.inj hsplit
      exact .inr ⟨seen.flatten.length, ⟨seen, later, rfl, rfl⟩, by rw [List.flatten_cons, List.length_append]⟩
  · rintro (rfl | ⟨_, ⟨seen, later, rfl, rfl⟩, rfl⟩)
    · exact ⟨[], c :: cs, rfl, rfl⟩
    · exact ⟨c :: seen, later, rfl, by rw [List.flatten_cons, List.length_append]⟩

lemma cutAt_concat (h : cs = seen ++ c :: later) : CutAt cs (seen.flatten.length + c.length) := by
  rw [← length_flatten_concat]
  exact cutAt_seen (h.trans (List.append_cons seen c later))

lemma not_cutAt (h : cs = seen ++ c :: later) {p : ℕ} (hlt : seen.flatten.length < p)
    (hend : p < seen.flatten.length + c.length) : ¬ CutAt cs p := by
  rintro ⟨front, back, hsplit, rfl⟩
  rw [h] at hsplit
  rcases List.append_eq_append_iff.mp hsplit with ⟨more, hfront, hback⟩ | ⟨more, hseen, -⟩
  · cases more with
    | nil =>
      rw [hfront, List.append_nil] at hlt
      exact absurd hlt (lt_irrefl _)
    | cons d more =>
      obtain ⟨rfl, -⟩ := List.cons.inj hback
      rw [hfront, List.flatten_append, List.flatten_cons, List.length_append, List.length_append]
        at hend
      omega
  · rw [hseen, List.flatten_append, List.length_append] at hlt
    omega

end Cuts

section Texts

variable {r : Receiver} {t text rest : Bytes}

namespace Receiver

lemma append_ok (r : Receiver) (text : Bytes) (h : r.sz + text.length ≤ recvBufSz) :
    ∃ s, r.append text = .ok s ∧ s.last = r.last ++ text ∧ s.sz = r.sz + text.length
      ∧ s.log = r.log :=
  ⟨_, if_pos h, contents_put r.buf r.sz text, rfl, rfl⟩

lemma flush_ok {out : List Handed} (h : r.sz < recvBufSz) (hout : handleIntlvdData r.last = .ok out) :
    ∃ s, r.flush = .ok s ∧ s.sz = 0 ∧ s.log = r.log ++ out := by
  refine ⟨⟨put r.buf r.sz [0], 0, r.log ++ out⟩, ?_, rfl, rfl⟩
  rw [flush, if_pos h, handle, hout]
  rfl

lemma scan_text (ht : dollar ∉ t) (htne : t ≠ []) :
    r.scan text (t ++ rest)
      = if rest = [] then r.endText (text ++ t) else r.scan (text ++ t) rest := by
  induction t generalizing text with
  | nil => exact absurd rfl htne
  | cons c t ih =>
    have hc : c ≠ dollar := fun h => ht (h ▸ List.mem_cons_self)
    have htail : dollar ∉ t := fun h => ht (List.mem_cons_of_mem c h)
    rw [List.cons_append, scan, if_neg hc]
    by_cases hnil : t = []
    · subst hnil
      rw [List.nil_append]
    · have hne : t ++ rest ≠ [] := List.append_ne_nil_of_left_ne_nil hnil rest
      rw [if_neg hne, ih htail hnil, List.append_assoc, List.singleton_append]

lemma scan_dollar (c : UInt8) (hc : c = dollar) : r.scan text (c :: rest) = (do
    let s ← r.flushText text
    s.scan [] (c :: rest)) := by
  subst hc
  rw [scan, if_pos rfl]
  congr 1
  funext s
  rw [scan, if_pos rfl]
  rfl

lemma length_last (r : Receiver) : r.last.length = r.sz := length_contents r.buf r.sz

variable {m : Message}

lemma flushText_ok (hm : m.WellFormed) (h : r.last ++ t = m.encode) (htne : t ≠ [])
    (hlen : m.encode.length < recvBufSz) :
    ∃ s, r.flushText t = .ok s ∧ s.sz = 0 ∧ s.log = r.log ++ [m.handed] := by
  have hsize := congrArg List.length h
  rw [List.length_append, length_last] at hsize
  obtain ⟨q, hq, hlast, hsz, hlog⟩ := append_ok r t (by omega)
  obtain ⟨s, hs, hzero, hout⟩ := flush_ok (r := q) (by omega)
    ((congrArg handleIntlvdData (hlast.trans h)).trans (handle_encode hm))
  refine ⟨s, ?_, hzero, by rw [hout, hlog]⟩
  rw [flushText, if_neg htne, hq]
  exact hs

lemma endText_ok (hm : m.WellFormed) (h : r.last ++ t = m.encode) (hend : [13, 10] <:+ m.encode)
    (hfour : 4 ≤ m.encode.length) (hlen : m.encode.length < recvBufSz) :
    ∃ s, r.endText t = .ok s ∧ s.sz = 0 ∧ s.log = r.log ++ [m.handed] := by
  have hsize := congrArg List.length h
  rw [List.length_append, length_last] at hsize
  obtain ⟨q, hq, hlast, hsz, hlog⟩ := append_ok r t (by omega)
  obtain ⟨s, hs, hzero, hout⟩ := flush_ok (r := q) (by omega)
    ((congrArg handleIntlvdData (hlast.trans h)).trans (handle_encode hm))
  have hcomplete : rtspMsgComplete q.last = true := by
    rw [hlast, h, rtspMsgComplete, decide_eq_true hfour, Bool.true_and]
    exact List.isSuffixOf_iff_suffix.mpr hend
  refine ⟨s, ?_, hzero, by rw [hout, hlog]⟩
  rw [endText, hq]
  exact (if_pos hcomplete).trans hs

lemma scan_rest (rest : Bytes) (hm : m.WellFormed) (h : r.last ++ t = m.encode) (ht : dollar ∉ t) (htne : t ≠ [])
    (hfour : 4 ≤ m.encode.length) (hlen : m.encode.length < recvBufSz)
    (hend : rest = [] → [13, 10] <:+ m.encode) (hnext : rest ≠ [] → rest.head? = some dollar) :
    ∃ s : Receiver, r.scan [] (t ++ rest) = s.scan [] rest ∧ s.sz = 0 ∧ s.log = r.log ++ [m.handed] := by
  rw [scan_text ht htne, List.nil_append]
  by_cases hrest : rest = []
  · obtain ⟨s, hs, hzero, hlog⟩ := endText_ok hm h (hend hrest) hfour hlen
    refine ⟨s, ?_, hzero, hlog⟩
    rw [if_pos hrest, hs, hrest, scan]
  · obtain ⟨tail, rfl⟩ := List.head?_eq_some_iff.mp (hnext hrest)
    obtain ⟨s, hs, hzero, hlog⟩ := flushText_ok hm h htne hlen
    refine ⟨s, ?_, hzero, hlog⟩
    rw [if_neg hrest, scan_dollar _ rfl, hs]
    rfl

lemma scan_head {data : Bytes} (h : data.head? = some dollar) : r.scan [] data
    = if 4 ≤ data.length ∧ 4 + intlvdSz data ≤ data.length then do
        let s ← r.handle (data.take (4 + intlvdSz data))
        s.scan [] (data.drop (4 + intlvdSz data))
      else .ok { r with buf := put r.buf 0 data, sz := data.length } := by
  obtain ⟨tail, rfl⟩ := List.head?_eq_some_iff.mp h
  rw [scan, if_pos rfl]
  rfl

lemma scan_packet {chn : UInt8} {body : Bytes} (hm : (Message.packet chn body).WellFormed) :
    r.scan [] ((Message.packet chn body).encode ++ rest)
      = { r with log := r.log ++ [(Message.packet chn body).handed] }.scan [] rest := by
  have hsize := length_encode chn body
  have hlen : body.length < 2 ^ 16 := by
    cases hm
    assumption
  have hsz : intlvdSz ((Message.packet chn body).encode ++ rest) = body.length := by
    rw [intlvdSz_append (by omega), intlvdSz_encode hlen]
  rw [scan_head rfl, hsz, ← hsize, List.take_left, List.drop_left, List.length_append,
    if_pos ⟨by omega, by omega⟩, handle, handle_encode hm]
  rfl

lemma scan_header {chn : UInt8} {body data more : Bytes} (hm : (Message.packet chn body).WellFormed)
    (hdata : data ++ more = (Message.packet chn body).encode) (hne : data ≠ []) (hmore : more ≠ []) :
    r.scan [] data = .ok { r with buf := put r.buf 0 data, sz := data.length } := by
  have hlen : body.length < 2 ^ 16 := by
    cases hm
    assumption
  have hsize := congrArg List.length hdata
  have hpos := List.length_pos_of_ne_nil hmore
  rw [List.length_append, length_encode] at hsize
  have hhead : data.head? = some dollar := by
    rw [← List.head?_append_of_ne_nil data hne, hdata]
    rfl
  rw [scan_head hhead, if_neg]
  rintro ⟨hfour, hwhole⟩
  rw [← intlvdSz_append hfour more, hdata, intlvdSz_encode hlen] at hwhole
  omega

end Receiver

end Texts

section Runs

variable {ms : List Message} {cs seen later : List Bytes} {c : Bytes}

/-- The messages `done` have been handed over, and of a packet the first `r.sz` bytes are kept. -/
structure Received (ms : List Message) (seen : List Bytes) (r : Receiver) (done left : List Message) :
    Prop where
  split : ms = done ++ left
  length : seen.flatten.length = (encodeAll done).length + r.sz
  log : r.log = done.map handed
  kept : r.sz = 0 ∨ ∃ chn body rest, left = .packet chn body :: rest
    ∧ r.sz < (Message.packet chn body).encode.length
    ∧ r.last = (Message.packet chn body).encode.take r.sz

structure Receiving (ms : List Message) (cs seen : List Bytes) (c : Bytes) (later : List Bytes) :
    Prop where
  wellFormed : ∀ m ∈ ms, m.WellFormed
  keep : CutsKeepMessages ms cs
  stream : encodeAll ms = cs.flatten
  split : cs = seen ++ c :: later
  ne : c ≠ []
  lt : c.length < recvBufSz

lemma Receiving.left (h : Receiving ms cs seen c later) {done left : List Message}
    (hsplit : ms = done ++ left) {rest : Bytes}
    (hlen : (encodeAll done).length + rest.length = seen.flatten.length + c.length)
    (hrest : rest <:+ c) : encodeAll left = rest ++ later.flatten := by
  obtain ⟨front, hfront⟩ := hrest
  have hstream := h.stream
  rw [hsplit, encodeAll_append, h.split, List.flatten_append, List.flatten_cons, ← hfront,
    ← List.append_assoc, ← List.append_assoc, List.append_assoc (seen.flatten ++ front)] at hstream
  have hlength : (encodeAll done).length = (seen.flatten ++ front).length := by
    rw [List.length_append]
    have := congrArg List.length hfront
    rw [List.length_append] at this
    omega
  exact (List.append_inj hstream hlength).2

lemma exists_packet {m : Message} (h : m.isPacket) : ∃ chn body, m = .packet chn body := by
  cases m with
  | packet chn body => exact ⟨chn, body, rfl⟩
  | response text => exact h.elim

lemma head_of_packet {left : List Message} {rest more : Bytes} (hleft : encodeAll left = rest ++ more)
    (hne : rest ≠ []) (h : ∃ next, left.head? = some next ∧ next.isPacket) :
    rest.head? = some dollar := by
  obtain ⟨next, hnext, hpacket⟩ := h
  obtain ⟨chn, body, rfl⟩ := exists_packet hpacket
  obtain ⟨tail, rfl⟩ := List.head?_eq_some_iff.mp hnext
  rw [← List.head?_append_of_ne_nil rest hne, ← hleft, encodeAll_cons]
  rfl

lemma Receiving.next_of_response (h : Receiving ms cs seen c later) {done left : List Message}
    {text rest : Bytes} (hsplit : ms = done ++ .response text :: left)
    (hleft : encodeAll left = rest ++ later.flatten) (hne : rest ≠ [])
    (hpos : seen.flatten.length < (encodeAll (done ++ [.response text])).length)
    (hlen : (encodeAll (done ++ [.response text])).length + rest.length
      = seen.flatten.length + c.length) :
    ∃ next, left.head? = some next ∧ next.isPacket := by
  cases left with
  | nil => exact absurd (List.append_eq_nil_iff.mp hleft.symm).1 hne
  | cons next left =>
    refine ⟨next, rfl, ?_⟩
    cases next with
    | packet chn body => trivial
    | response text' =>
      have hrest := List.length_pos_of_ne_nil hne
      have hcut := h.keep.between done text text' left hsplit
      exact not_cutAt h.split hpos (by omega) hcut

lemma scan_received (h : Receiving ms cs seen c later) {left : List Message} :
    ∀ (done : List Message) (rest : Bytes) (r : Receiver), ms = done ++ left → rest <:+ c →
      (encodeAll done).length + rest.length = seen.flatten.length + c.length →
      r.sz = 0 → r.log = done.map handed →
      ∃ s done left, r.scan [] rest = .ok s ∧ Received ms (seen ++ [c]) s done left := by
  induction left with
  | nil =>
    intro done rest r hsplit hrest hlen hsz hlog
    have hnil := h.left hsplit hlen hrest
    obtain rfl : rest = [] := (List.append_eq_nil_iff.mp hnil.symm).1
    refine ⟨r, done, [], by rw [Receiver.scan], hsplit, ?_, hlog, .inl hsz⟩
    rw [length_flatten_concat, ← hlen, hsz, List.length_nil]
  | cons m left ih =>
    intro done rest r hsplit hrest hlen hsz hlog
    have hleft := h.left hsplit hlen hrest
    rw [encodeAll_cons] at hleft
    have hm : m.WellFormed := h.wellFormed m (by rw [hsplit]; simp)
    have hle : rest.length ≤ c.length := hrest.length_le
    have hlast : r.last = [] := by rw [Receiver.last, hsz, contents_zero]
    by_cases hnil : rest = []
    · refine ⟨r, done, m :: left, by rw [hnil, Receiver.scan], hsplit, ?_, hlog, .inl hsz⟩
      rw [length_flatten_concat, ← hlen, hsz, hnil, List.length_nil]
    by_cases hfit : m.encode.length ≤ rest.length
    · obtain ⟨rest', rfl⟩ : ∃ rest', rest = m.encode ++ rest' := by
        have hprefix : m.encode <+: rest :=
          List.prefix_of_prefix_length_le (hleft ▸ List.prefix_append _ _) (List.prefix_append _ _) hfit
        exact ⟨_, hprefix.choose_spec.symm⟩
      have hsplit' : ms = (done ++ [m]) ++ left := by rw [hsplit, List.append_assoc]; rfl
      have hrest' : rest' <:+ c := (List.suffix_append _ _).trans hrest
      have hlen' : (encodeAll (done ++ [m])).length + rest'.length
          = seen.flatten.length + c.length := by
        rw [length_encodeAll_concat, ← hlen, List.length_append, Nat.add_assoc]
      cases m with
      | packet chn body =>
        rw [Receiver.scan_packet hm]
        exact ih _ _ _ hsplit' hrest' hlen' hsz (by rw [List.map_append, ← hlog]; rfl)
      | response text =>
        obtain ⟨hdollar, hend⟩ : dollar ∉ text ∧ [13, 10, 13, 10] <:+ text := by
          cases hm with
          | response hdollar hend => exact ⟨hdollar, hend⟩
        have hfour : 4 ≤ text.length := hend.length_le
        have hsum : text.length + rest'.length ≤ c.length := by
          rw [← List.length_append]
          exact hle
        have htail : encodeAll left = rest' ++ later.flatten := by
          rw [List.append_assoc] at hleft
          exact List.append_cancel_left hleft
        have hnext : rest' ≠ [] → rest'.head? = some dollar := fun hne =>
          head_of_packet htail hne (h.next_of_response hsplit htail hne (by omega) hlen')
        obtain ⟨s, hs, hzero, hout⟩ := Receiver.scan_rest (r := r) rest' hm
          (by rw [hlast]; rfl) hdollar (List.ne_nil_of_length_pos (by omega)) hfour
          (hfit.trans_lt (hle.trans_lt h.lt))
          (fun _ => List.IsSuffix.trans ⟨[13, 10], rfl⟩ hend) hnext
        rw [encode, hs]
        exact ih _ _ _ hsplit' hrest' hlen' hzero (by rw [hout, List.map_append, ← hlog]; rfl)
    · obtain ⟨more, hmore⟩ : rest <+: m.encode :=
        List.prefix_of_prefix_length_le (List.prefix_append rest _) (hleft ▸ List.prefix_append _ _)
          (Nat.le_of_not_le hfit)
      have hrestpos := List.length_pos_of_ne_nil hnil
      obtain ⟨hpacket, -⟩ := h.keep.inside done m left (seen.flatten.length + c.length) hsplit
        (cutAt_concat h.split) (by omega) (by rw [length_encodeAll_concat]; omega)
      obtain ⟨chn, body, rfl⟩ := exists_packet hpacket
      have hmorene : more ≠ [] := by
        rintro rfl
        rw [← hmore, List.append_nil] at hfit
        exact hfit le_rfl
      refine ⟨_, done, _, Receiver.scan_header hm hmore hnil hmorene, hsplit, ?_, hlog, .inr
        ⟨chn, body, left, rfl, Nat.lt_of_not_le hfit, ?_⟩⟩
      · rw [length_flatten_concat, hlen]
      · rw [Receiver.last, contents_put_zero, ← hmore, List.take_left]

lemma contents_of_isPrefix {buf : ℕ → UInt8} {n : ℕ} {data : Bytes} (hn : 0 < n)
    (h : contents buf n = data.take n) : some (buf 0) = data.head? := by
  have hhead := congrArg (fun l => l[0]?) h
  simp only [getElem?_contents hn] at hhead
  rw [hhead, List.getElem?_take, if_pos hn, List.head?_eq_getElem?]

lemma Receiving.rest (h : Receiving ms cs seen c later) {done left : List Message} {m : Message}
    {r : Receiver} (hr : Received ms seen r done (m :: left)) (hsz : r.sz ≤ m.encode.length) :
    m.encode.drop r.sz ++ encodeAll left = c ++ later.flatten := by
  have hstream := congrArg (List.drop seen.flatten.length) h.stream
  rw [h.split, List.flatten_append, List.flatten_cons, List.drop_left, hr.split, encodeAll_append,
    encodeAll_cons, hr.length, ← List.drop_drop, List.drop_left, List.drop_append_of_le_length hsz]
    at hstream
  exact hstream

lemma Receiving.rest_prefix (h : Receiving ms cs seen c later) {done left : List Message} {m : Message}
    {r : Receiver} (hr : Received ms seen r done (m :: left)) (hsz : r.sz ≤ m.encode.length)
    (hle : (m.encode.drop r.sz).length ≤ c.length) :
    ∃ c', c = m.encode.drop r.sz ++ c' ∧ encodeAll left = c' ++ later.flatten
      ∧ (encodeAll (done ++ [m])).length + c'.length = seen.flatten.length + c.length := by
  have hrest := h.rest hr hsz
  obtain ⟨c', hc'⟩ : m.encode.drop r.sz <+: c :=
    List.prefix_of_prefix_length_le (hrest ▸ List.prefix_append _ _) (List.prefix_append c _) hle
  refine ⟨c', hc'.symm, ?_, ?_⟩
  · rw [← hc', List.append_assoc] at hrest
    exact List.append_cancel_left hrest
  · rw [length_encodeAll_concat, hr.length, ← hc', List.length_append, List.length_drop]
    omega

lemma Received.split_concat {seen : List Bytes} {r : Receiver} {done left : List Message} {m : Message}
    (hr : Received ms seen r done (m :: left)) : ms = (done ++ [m]) ++ left := by
  rw [hr.split, List.append_assoc]
  rfl

lemma recv_packet (h : Receiving ms cs seen c later) {done left : List Message} {chn : UInt8}
    {body : Bytes} {r : Receiver} (hr : Received ms seen r done (.packet chn body :: left))
    (hsz : 4 ≤ r.sz) (hlt : r.sz < (Message.packet chn body).encode.length)
    (hlast : r.last = (Message.packet chn body).encode.take r.sz) :
    ∃ s done left, r.recvFromRtspSd c = .ok s ∧ Received ms (seen ++ [c]) s done left := by
  have hm : (Message.packet chn body).WellFormed := h.wellFormed _ (by rw [hr.split]; simp)
  have hlen : body.length < 2 ^ 16 := by
    cases hm
    assumption
  have hsize := length_encode chn body
  have hcap : (Message.packet chn body).encode.length ≤ recvBufSz := by
    have : recvBufSz = 102400 := rfl
    omega
  have hdollar : r.buf 0 = dollar := Option.some.inj (contents_of_isPrefix (by omega) hlast)
  have hdata : (Message.packet chn body).encode
      = r.last ++ (Message.packet chn body).encode.drop r.sz := by
    rw [hlast, List.take_append_drop]
  have hbody : intlvdSz r.last = body.length := by
    rw [← intlvdSz_encode hlen, hdata, intlvdSz_append]
    rwa [Receiver.length_last]
  have hmissing : (4 + body.length + 2 ^ 64 - r.sz) % 2 ^ 64
      = ((Message.packet chn body).encode.drop r.sz).length := by
    rw [List.length_drop]
    omega
  rw [Receiver.recvFromRtspSd, if_pos ⟨hsz, hdollar⟩]
  simp only [hbody, hmissing]
  by_cases hle : ((Message.packet chn body).encode.drop r.sz).length ≤ c.length
  · obtain ⟨c', hc, hleft, hlength⟩ := h.rest_prefix hr hlt.le hle
    obtain ⟨q, hq, hqlast, hqsz, hqlog⟩ := Receiver.append_ok r
      ((Message.packet chn body).encode.drop r.sz) (by rw [List.length_drop]; omega)
    have hwhole : contents q.buf (4 + body.length) = (Message.packet chn body).encode := by
      have hqsize : q.sz = 4 + body.length := by
        rw [hqsz, List.length_drop]
        omega
      rw [hdata, ← hqlast, Receiver.last, hqsize]
    have hscan := scan_received h (done ++ [.packet chn body]) c' ⟨q.buf, 0, q.log
      ++ [(Message.packet chn body).handed]⟩ hr.split_concat ⟨_, hc.symm⟩ hlength rfl
      (by rw [hqlog, hr.log, List.map_append]; rfl)
    rw [if_pos hle]
    conv in List.take _ c => rw [hc, List.take_left]
    conv in List.drop _ c => rw [hc, List.drop_left]
    rw [hq]
    simp only [ok_bind, Receiver.handle, hwhole, handle_encode hm]
    exact hscan
  · have hlong := Nat.lt_of_not_le hle
    rw [List.length_drop] at hlong
    obtain ⟨q, hq, hqlast, hqsz, hqlog⟩ := Receiver.append_ok r c (by omega)
    obtain ⟨more, hmore⟩ : c <+: (Message.packet chn body).encode.drop r.sz :=
      List.prefix_of_prefix_length_le (List.prefix_append c _)
        (h.rest hr hlt.le ▸ List.prefix_append _ _) (Nat.le_of_not_le hle)
    refine ⟨q, done, .packet chn body :: left, (if_neg hle).trans hq, hr.split, ?_,
      hqlog.trans hr.log, .inr ⟨chn, body, left, rfl, by omega, ?_⟩⟩
    · rw [length_flatten_concat, hr.length, hqsz, Nat.add_assoc]
    · have hlength : (r.last ++ c).length = q.sz := by
        rw [List.length_append, Receiver.length_last, hqsz]
      rw [hqlast, hdata, ← hmore, ← List.append_assoc, ← hlength, List.take_left]

lemma recv_header (h : Receiving ms cs seen c later) {done left : List Message} {chn : UInt8}
    {body : Bytes} {r : Receiver} (hr : Received ms seen r done (.packet chn body :: left))
    (hpos : 0 < r.sz) (hsz : r.sz < 4) (hlt : r.sz < (Message.packet chn body).encode.length)
    (hlast : r.last = (Message.packet chn body).encode.take r.sz) :
    ∃ s done left, r.recvFromRtspSd c = .ok s ∧ Received ms (seen ++ [c]) s done left := by
  have hm : (Message.packet chn body).WellFormed := h.wellFormed _ (by rw [hr.split]; simp)
  have hlen : body.length < 2 ^ 16 := by
    cases hm
    assumption
  have hsize := length_encode chn body
  have hcap : recvBufSz = 102400 := rfl
  have hend := length_encodeAll_concat done (.packet chn body)
  have hlength := hr.length
  have hclen := List.length_pos_of_ne_nil h.ne
  -- The cut before `c` lies in the header.
  have hcut : HeaderCut cs done (.packet chn body) left seen.flatten.length := by
    have hinside := (h.keep.inside done _ left seen.flatten.length hr.split (cutAt_seen h.split)
      (by omega) (by omega)).2
    exact hinside.resolve_left (by omega)
  have hdollar := hcut.no_dollar
  rw [hlength, Nat.add_sub_cancel_left] at hdollar
  have hle : ((Message.packet chn body).encode.drop r.sz).length ≤ c.length := by
    by_contra hlong
    rw [List.length_drop] at hlong
    exact hcut.no_cut _ (cutAt_concat h.split) (by omega) (by omega)
  obtain ⟨c', hc, hleft, hlength'⟩ := h.rest_prefix hr hlt.le hle
  have hcrlf : c' = [] → [13, 10] <:+ (Message.packet chn body).encode := by
    rintro rfl
    rw [List.length_nil, Nat.add_zero] at hlength'
    rcases hcut.ends with ⟨-, hcrlf⟩ | ⟨hnot, -⟩
    · exact hcrlf
    · exact absurd (hlength' ▸ cutAt_concat h.split) hnot
  have hnext : c' ≠ [] → c'.head? = some dollar := by
    intro hne
    have hpos' := List.length_pos_of_ne_nil hne
    rcases hcut.ends with ⟨hat, -⟩ | ⟨-, hpacket⟩
    · exact absurd hat (not_cutAt h.split (by omega) (by omega))
    · exact head_of_packet hleft hne hpacket
  have hnotempty : (Message.packet chn body).encode.drop r.sz ≠ [] := by
    rw [Ne, List.drop_eq_nil_iff]
    omega
  obtain ⟨s, hs, hzero, hout⟩ := Receiver.scan_rest (r := r) c' hm
    (by rw [hlast, List.take_append_drop]) hdollar hnotempty (by omega) (by omega) hcrlf hnext
  rw [Receiver.recvFromRtspSd, if_neg fun hcond => absurd hcond.1 (by omega)]
  conv in r.scan _ c => rw [hc, hs]
  exact scan_received h (done ++ [.packet chn body]) c' s hr.split_concat ⟨_, hc.symm⟩ hlength' hzero
    (by rw [hout, hr.log, List.map_append]; rfl)

lemma recv_received (h : Receiving ms cs seen c later) {done left : List Message} {r : Receiver}
    (hr : Received ms seen r done left) :
    ∃ s done left, r.recvFromRtspSd c = .ok s ∧ Received ms (seen ++ [c]) s done left := by
  by_cases hzero : r.sz = 0
  · have hlen : (encodeAll done).length + c.length = seen.flatten.length + c.length := by
      rw [hr.length, hzero, Nat.add_zero]
    rw [Receiver.recvFromRtspSd, if_neg fun hcond => absurd hcond.1 (by omega)]
    exact scan_received h done c r hr.split List.suffix_rfl hlen hzero hr.log
  · obtain ⟨chn, body, rest, rfl, hlt, hlast⟩ := hr.kept.resolve_left hzero
    by_cases hfour : 4 ≤ r.sz
    · exact recv_packet h hr hfour hlt hlast
    · exact recv_header h hr (Nat.pos_of_ne_zero hzero) (Nat.lt_of_not_le hfour) hlt hlast

theorem demultiplexes {r : Receiver} (hms : ∀ m ∈ ms, m.WellFormed)
    (hcs : ∀ c ∈ cs, c ≠ [] ∧ c.length < recvBufSz) (hstream : encodeAll ms = cs.flatten)
    (hkeep : CutsKeepMessages ms cs) (hsz : r.sz = 0) (hlog : r.log = []) :
    ∃ s, cs.foldlM Receiver.recvFromRtspSd r = .ok s ∧ s.sz = 0 ∧ s.log = ms.map handed := by
  have hrun : ∀ later seen r, cs = seen ++ later → (∃ done left, Received ms seen r done left) →
      ∃ s done left, later.foldlM Receiver.recvFromRtspSd r = .ok s ∧ Received ms cs s done left := by
    intro later
    induction later with
    | nil =>
      rintro seen r hsplit ⟨done, left, hr⟩
      rw [List.append_nil] at hsplit
      exact ⟨r, done, left, rfl, hsplit ▸ hr⟩
    | cons c later ih =>
      rintro seen r hsplit ⟨done, left, hr⟩
      obtain ⟨hne, hlt⟩ := hcs c (by rw [hsplit]; simp)
      obtain ⟨s, done', left', hs, hr'⟩ := recv_received ⟨hms, hkeep, hstream, hsplit, hne, hlt⟩ hr
      rw [List.foldlM_cons, hs]
      exact ih (seen ++ [c]) s (hsplit.trans (List.append_cons seen c later)) ⟨done', left', hr'⟩
  obtain ⟨s, done, left, hs, hr⟩ := hrun cs [] r rfl ⟨[], ms, rfl, by rw [hsz]; rfl, hlog, .inl hsz⟩
  have hlength := hr.length
  rw [← hstream, hr.split, encodeAll_append, List.length_append] at hlength
  cases left with
  | nil =>
    refine ⟨s, hs, ?_, ?_⟩
    · have hnil : (encodeAll []).length = 0 := rfl
      omega
    · rw [hr.log, hr.split, List.append_nil]
  | cons m left =>
    rw [encodeAll_cons, List.length_append] at hlength
    have hm := (hms m (by rw [hr.split]; simp)).length_pos
    rcases hr.kept with hzero | ⟨chn, body, rest, heq, hlt, -⟩
    · omega
    · rw [(List.cons.inj heq).1] at hlength
      omega

def Receiver.start : Receiver := ⟨fun _ => 0, 0, []⟩

def cutMessages : List Message :=
  [.packet 0 [1, 2, 3, 4, 5, 6, 7], .response [82, 13, 10, 13, 10], .packet 0 [8, 9]]

def cutReceives : List Bytes :=
  [[36, 0, 0, 7, 1], [2, 3, 4, 5, 6, 7, 82, 13, 10, 13, 10, 36, 0, 0, 2, 8], [9]]

lemma cutAt_cutReceives {p : ℕ} (h : CutAt cutReceives p) : p = 0 ∨ p = 5 ∨ p = 21 ∨ p = 22 := by
  simp only [cutReceives, cutAt_cons, List.length_cons, List.length_nil] at h
  rcases h with rfl | ⟨_, rfl | ⟨_, rfl | ⟨q, ⟨seen, later, hnil, rfl⟩, rfl⟩, rfl⟩, rfl⟩
  · exact .inl rfl
  · exact .inr (.inl rfl)
  · exact .inr (.inr (.inl rfl))
  · rw [(List.append_eq_nil_iff.mp hnil.symm).1]
    exact .inr (.inr (.inr rfl))

theorem demultiplexes_cut_packets : ∃ s, cutReceives.foldlM Receiver.recvFromRtspSd .start = .ok s
    ∧ s.sz = 0 ∧ s.log = cutMessages.map handed := by
  refine demultiplexes ?_ (by decide) (by decide) ⟨?_, ?_⟩ rfl rfl
  · simp only [cutMessages, List.forall_mem_cons]
    refine ⟨.packet (by decide) (by decide) (by decide), .response (by decide) ⟨[82], rfl⟩,
      .packet (by decide) (by decide) (by decide), fun m hm => absurd hm List.not_mem_nil⟩
  · intro before m after p hsplit hcut hlt hend
    have hp := cutAt_cutReceives hcut
    rcases before with _ | ⟨b₁, _ | ⟨b₂, _ | ⟨b₃, before⟩⟩⟩
    · obtain ⟨rfl, -⟩ := List.cons.inj hsplit
      change 0 < p at hlt
      exact ⟨trivial, .inl (by change 0 + 4 ≤ p; omega)⟩
    · obtain ⟨rfl, hrest⟩ := List.cons.inj hsplit
      obtain ⟨rfl, -⟩ := List.cons.inj hrest
      change 11 < p at hlt
      change p < 16 at hend
      omega
    · obtain ⟨rfl, hrest⟩ := List.cons.inj hsplit
      obtain ⟨rfl, hlast⟩ := List.cons.inj hrest
      obtain ⟨rfl, -⟩ := List.cons.inj hlast
      change 16 < p at hlt
      exact ⟨trivial, .inl (by change 16 + 4 ≤ p; omega)⟩
    · have hlength := congrArg List.length hsplit
      simp only [cutMessages, List.length_append, List.length_cons, List.length_nil] at hlength
      omega
  · intro before t t' after hsplit
    rcases before with _ | ⟨b₁, _ | ⟨b₂, before⟩⟩
    · cases (List.cons.inj hsplit).1
    · cases (List.cons.inj (List.cons.inj (List.cons.inj hsplit).2).2).1
    · have hlength := congrArg List.length hsplit
      simp only [cutMessages, List.length_append, List.length_cons, List.length_nil] at hlength
      omega

def okMessage : Bytes := bytes "RTSP/1.0 200 OK\r\n\r\n"

theorem response_cut_in_two : (Message.response okMessage).WellFormed
    ∧ [okMessage.take 4, okMessage.drop 4].flatten = encodeAll [.response okMessage]
    ∧ ∃ s, [okMessage.take 4, okMessage.drop 4].foldlM Receiver.recvFromRtspSd .start = .ok s
      ∧ s.log ≠ [Message.response okMessage].map handed := by
  have hscan : ∀ (r : Receiver) (t : Bytes), dollar ∉ t → t ≠ [] → r.scan [] t = r.endText t :=
    fun r t ht htne => by
      conv_lhs => rw [← List.append_nil t, Receiver.scan_text ht htne, if_pos rfl]
      rfl
  have hfirst : Receiver.start.recvFromRtspSd (okMessage.take 4)
      = .ok ⟨put (fun _ => 0) 0 (okMessage.take 4), 8, []⟩ :=
    (hscan _ _ (by decide) (by decide)).trans rfl
  obtain ⟨s, hsecond, hlog⟩ : ∃ s, Receiver.recvFromRtspSd
        ⟨put (fun _ => 0) 0 (okMessage.take 4), 8, []⟩ (okMessage.drop 4) = .ok s
      ∧ s.log = [.rtspResp (okMessage.take 4 ++ [0, 0, 0, 0] ++ okMessage.drop 4)] :=
    ⟨_, (hscan _ _ (by decide) (by decide)).trans rfl, rfl⟩
  refine ⟨.response (by decide) (by decide), by decide, s, ?_, ?_⟩
  · rw [List.foldlM_cons, hfirst, ok_bind, List.foldlM_cons, hsecond]
    rfl
  · rw [hlog]
    decide

end Runs

end SimpleCode.LibRtspClient
