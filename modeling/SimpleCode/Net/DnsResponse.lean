import SimpleCode.Net.Dns

set_option autoImplicit false

namespace SimpleCode.Net.Dns

open Foundations Foundations.Comp

def nameSize : ℕ := 1024

inductive ResponseFault
  | decoding (fault : Fault)
  | outOfName
deriving DecidableEq, Repr

-- What is written by now is inside the name.
def decodeInto (packet : Bytes) (s : Decoder) : Comp ResponseFault Decoder := do
  let t ← (decodeSegment packet s).mapError .decoding
  if t.output.length ≤ nameSize then pure t else ofExcept (.error .outOfName)

def readFrom (packet : Bytes) (s : Decoder) : Comp ResponseFault (Bytes × ℕ) := do
  let t ← loop Decoder.more (decodeInto packet) s
  if t.output.length < nameSize then pure (t.output, t.rtn.getD (t.input + 1))
  else ofExcept (.error .outOfName)

def readName (packet : Bytes) (p : ℕ) : Comp ResponseFault (Bytes × ℕ) :=
  readFrom packet ⟨p, none, [], true⟩

def byteOf (packet : Bytes) (i : ℕ) : Comp ResponseFault ℕ :=
  ofExcept (match packet[i]? with
    | some c => .ok c.toNat
    | none => .error (.decoding .outOfPacket))

def wordOf (packet : Bytes) (i : ℕ) : Comp ResponseFault ℕ := do
  let high ← byteOf packet i
  let low ← byteOf packet (i + 1)
  pure (high <<< 8 ||| low)

def typeA : ℕ := 1

def readQuestions (packet : Bytes) : ℕ → ℕ → Comp ResponseFault ℕ
  | 0, p => pure p
  | cnt + 1, p => do
    let (_, p) ← readName packet p
    let _qType ← wordOf packet p
    let _qClass ← wordOf packet (p + 2)
    readQuestions packet cnt (p + 4)

-- The process of the answer section, up to the first address.
def readAnswers (packet : Bytes) : ℕ → ℕ → Comp ResponseFault (Option (List ℕ))
  | 0, _ => pure none
  | cnt + 1, p => do
    let (_, p) ← readName packet p
    let aType ← wordOf packet p
    let _aClass ← wordOf packet (p + 2)
    let _aTTLHigh ← wordOf packet (p + 4)
    let _aTTLLow ← wordOf packet (p + 6)
    let aLength ← wordOf packet (p + 8)
    if aType = typeA then do
      let a0 ← byteOf packet (p + 10)
      let a1 ← byteOf packet (p + 11)
      let a2 ← byteOf packet (p + 12)
      let a3 ← byteOf packet (p + 13)
      pure (some [a0, a1, a2, a3])
    else readAnswers packet cnt (p + 10 + aLength)

def headerSize : ℕ := 12

-- What `dns_getResponse` does with a packet before it comes to the authorities.
def readResponse (packet : Bytes) : Comp ResponseFault (Option (List ℕ)) :=
  if packet.length < headerSize then pure none
  else do
    let questionCount ← wordOf packet 4
    let answerCount ← wordOf packet 6
    let p ← readQuestions packet questionCount headerSize
    readAnswers packet answerCount p

/-- The packet spells a name at `pos`: the positions on the way through its labels and pointers, the
text, and where the reading goes on. -/
inductive Spells (packet : Bytes) : ℕ → List ℕ → Bytes → ℕ → Prop
  | last {pos : ℕ} (text : Bytes) : text.length < 128 →
      packet[pos]? = some (UInt8.ofNat text.length) →
      (packet.drop (pos + 1)).take text.length = text → packet[pos + 1 + text.length]? = some 0 →
      Spells packet pos [pos] text (pos + 1 + text.length + 1)
  | label {pos fin : ℕ} {way : List ℕ} {rest : Bytes} (text : Bytes) (c : UInt8) :
      text.length < 128 → packet[pos]? = some (UInt8.ofNat text.length) →
      (packet.drop (pos + 1)).take text.length = text →
      packet[pos + 1 + text.length]? = some c → c ≠ 0 →
      Spells packet (pos + 1 + text.length) way rest fin →
      Spells packet pos (pos :: way) (text ++ dot :: rest) fin
  | pointer {pos fin : ℕ} {way : List ℕ} {text : Bytes} (high low : UInt8) :
      packet[pos]? = some high → isPointer high → packet[pos + 1]? = some low →
      Spells packet (pointerOffset high low) way text fin →
      Spells packet pos (pos :: way) text (pos + 2)

-- A way that comes nowhere twice, and a text that leaves room for the terminating zero.
def NameFits (packet : Bytes) (pos : ℕ) (text : Bytes) (fin : ℕ) : Prop :=
  ∃ way, Spells packet pos way text fin ∧ way.Nodup ∧ text.length < nameSize

def wordAt (packet : Bytes) (i : ℕ) : ℕ := (packet.getD i 0).toNat <<< 8 ||| (packet.getD (i + 1) 0).toNat

def QuestionsFit (packet : Bytes) : ℕ → ℕ → ℕ → Prop
  | 0, p, fin => fin = p
  | cnt + 1, p, fin => ∃ text q, NameFits packet p text q ∧ q + 4 ≤ packet.length
    ∧ QuestionsFit packet cnt (q + 4) fin

def AnswersFit (packet : Bytes) : ℕ → ℕ → Prop
  | 0, _ => True
  | cnt + 1, p => ∃ text q, NameFits packet p text q ∧ q + 10 ≤ packet.length
    ∧ if wordAt packet q = typeA then q + 14 ≤ packet.length
      else AnswersFit packet cnt (q + 10 + wordAt packet (q + 8))

section Ways

variable {packet text text' : Bytes} {pos fin fin' : ℕ} {way way' : List ℕ}

lemma labelLength_injective {n m : ℕ} (hn : n < 128) (hm : m < 128)
    (h : UInt8.ofNat n = UInt8.ofNat m) : n = m := by
  have hnat := congrArg UInt8.toNat h
  rwa [UInt8.toNat_ofNat', UInt8.toNat_ofNat', Nat.mod_eq_of_lt (by omega),
    Nat.mod_eq_of_lt (by omega)] at hnat

lemma same_label {other : Bytes} (hlen : text.length < 128)
    (hpos : packet[pos]? = some (UInt8.ofNat text.length))
    (htext : (packet.drop (pos + 1)).take text.length = text) (hlen' : other.length < 128)
    (hpos' : packet[pos]? = some (UInt8.ofNat other.length))
    (htext' : (packet.drop (pos + 1)).take other.length = other) : text = other := by
  have hsame := labelLength_injective hlen hlen' (Option.some.inj (hpos.symm.trans hpos'))
  rw [← htext, hsame, htext']

lemma label_not_pointer {high : UInt8} (hlen : text.length < 128)
    (hpos : packet[pos]? = some (UInt8.ofNat text.length)) (hhigh : packet[pos]? = some high) :
    ¬ isPointer high := by
  rw [← Option.some.inj (hpos.symm.trans hhigh), isPointer_length hlen]
  exact Bool.false_ne_true

lemma Spells.unique (h : Spells packet pos way text fin) (h' : Spells packet pos way' text' fin') :
    way = way' ∧ text = text' ∧ fin = fin' := by
  induction h generalizing way' text' fin' with
  | last text hlen hpos htext hend =>
    cases h' with
    | last other hlen' hpos' htext' _ =>
      obtain rfl := same_label hlen hpos htext hlen' hpos' htext'
      exact ⟨rfl, rfl, rfl⟩
    | label other c hlen' hpos' htext' hc hne _ =>
      obtain rfl := same_label hlen hpos htext hlen' hpos' htext'
      exact absurd (Option.some.inj (hc.symm.trans hend)) hne
    | pointer high low hhigh hptr _ _ => exact absurd hptr (label_not_pointer hlen hpos hhigh)
  | label text c hlen hpos htext hc hne _ ih =>
    cases h' with
    | last other hlen' hpos' htext' hend =>
      obtain rfl := same_label hlen hpos htext hlen' hpos' htext'
      exact absurd (Option.some.inj (hc.symm.trans hend)) hne
    | label other c' hlen' hpos' htext' _ _ hrest =>
      obtain rfl := same_label hlen hpos htext hlen' hpos' htext'
      obtain ⟨rfl, rfl, rfl⟩ := ih hrest
      exact ⟨rfl, rfl, rfl⟩
    | pointer high low hhigh hptr _ _ => exact absurd hptr (label_not_pointer hlen hpos hhigh)
  | pointer high low hhigh hptr hlow _ ih =>
    cases h' with
    | last other hlen' hpos' _ _ => exact absurd hptr (label_not_pointer hlen' hpos' hhigh)
    | label other c hlen' hpos' _ _ _ _ => exact absurd hptr (label_not_pointer hlen' hpos' hhigh)
    | pointer high' low' hhigh' _ hlow' hrest =>
      obtain rfl := Option.some.inj (hhigh.symm.trans hhigh')
      obtain rfl := Option.some.inj (hlow.symm.trans hlow')
      obtain ⟨rfl, rfl, -⟩ := ih hrest
      exact ⟨rfl, rfl, rfl⟩

lemma Spells.from_way (h : Spells packet pos way text fin) :
    ∀ q ∈ way, ∃ rest text' fin', Spells packet q rest text' fin' ∧ rest <:+ way := by
  induction h with
  | last text hlen hpos htext hend =>
    intro q hq
    obtain rfl := List.mem_singleton.mp hq
    exact ⟨_, _, _, .last text hlen hpos htext hend, List.suffix_refl _⟩
  | label text c hlen hpos htext hc hne hrest ih =>
    refine List.forall_mem_cons.mpr ⟨⟨_, _, _, .label text c hlen hpos htext hc hne hrest,
      List.suffix_refl _⟩, fun q hq => ?_⟩
    obtain ⟨rest, text', fin', hq', hsuffix⟩ := ih q hq
    exact ⟨rest, text', fin', hq', hsuffix.trans (List.suffix_cons _ _)⟩
  | pointer high low hhigh hptr hlow hrest ih =>
    refine List.forall_mem_cons.mpr ⟨⟨_, _, _, .pointer high low hhigh hptr hlow hrest,
      List.suffix_refl _⟩, fun q hq => ?_⟩
    obtain ⟨rest, text', fin', hq', hsuffix⟩ := ih q hq
    exact ⟨rest, text', fin', hq', hsuffix.trans (List.suffix_cons _ _)⟩

lemma Spells.fresh {q : ℕ} (h : Spells packet pos (pos :: way) text fin)
    (hrest : Spells packet q way text' fin') : pos ∉ way := by
  intro hmem
  obtain ⟨rest, _, _, hagain, hsuffix⟩ := hrest.from_way pos hmem
  have hlength := hsuffix.length_le
  rw [← (h.unique hagain).1, List.length_cons] at hlength
  omega

lemma Spells.nodup (h : Spells packet pos way text fin) : way.Nodup := by
  induction h with
  | last text hlen hpos htext hend => exact List.nodup_singleton _
  | label text c hlen hpos htext hc hne hrest ih =>
    exact List.nodup_cons.mpr ⟨(Spells.label text c hlen hpos htext hc hne hrest).fresh hrest, ih⟩
  | pointer high low hhigh hptr hlow hrest ih =>
    exact List.nodup_cons.mpr ⟨(Spells.pointer high low hhigh hptr hlow hrest).fresh hrest, ih⟩

lemma nameFits_iff : NameFits packet pos text fin
    ↔ (∃ way, Spells packet pos way text fin) ∧ text.length < nameSize := by
  constructor
  · rintro ⟨way, h, -, hlen⟩
    exact ⟨⟨way, h⟩, hlen⟩
  · rintro ⟨⟨way, h⟩, hlen⟩
    exact ⟨way, h, h.nodup, hlen⟩

end Ways

section Names

variable {packet text out : Bytes} {pos fin : ℕ} {way : List ℕ} {rtn : Option ℕ} {r : Bytes × ℕ}

lemma returns_decodeInto {s t : Decoder} : (decodeInto packet s).Returns t
    ↔ (decodeSegment packet s).Returns t ∧ t.output.length ≤ nameSize := by
  rw [decodeInto, returns_bind]
  simp only [returns_mapError]
  constructor
  · rintro ⟨u, hu, ht⟩
    split at ht
    · next hle =>
      obtain rfl := Except.ok.inj (yields_pure.mp ht)
      exact ⟨hu, hle⟩
    · cases yields_ofExcept.mp ht
  · rintro ⟨ht, hle⟩
    refine ⟨t, ht, ?_⟩
    rw [if_pos hle]
    exact yields_pure.mpr rfl

lemma readFrom_stop {input : ℕ} : (readFrom packet ⟨input, rtn, out, false⟩).Returns r
    ↔ r = (out, rtn.getD (input + 1)) ∧ out.length < nameSize := by
  have hloop : ∀ t, (loop Decoder.more (decodeInto packet) ⟨input, rtn, out, false⟩).Returns t
      ↔ t = ⟨input, rtn, out, false⟩ := fun _ => returns_loop_done rfl
  rw [readFrom, returns_bind]
  simp only [hloop, exists_eq_left]
  split
  · next hlt =>
    rw [Returns, yields_pure, Except.ok.injEq]
    exact (and_iff_left hlt).symm
  · next hge => exact iff_of_false (by simp) fun h => hge h.2

lemma readFrom_more : (readFrom packet ⟨pos, rtn, out, true⟩).Returns r
    ↔ ∃ t, (decodeSegment packet ⟨pos, rtn, out, true⟩).Returns t ∧ t.output.length ≤ nameSize
      ∧ (readFrom packet t).Returns r := by
  have hloop : ∀ u, (loop Decoder.more (decodeInto packet) ⟨pos, rtn, out, true⟩).Returns u
      ↔ ∃ t, ((decodeSegment packet ⟨pos, rtn, out, true⟩).Returns t ∧ t.output.length ≤ nameSize)
        ∧ (loop Decoder.more (decodeInto packet) t).Returns u := by
    intro u
    rw [returns_loop_more rfl]
    simp only [returns_decodeInto]
  rw [readFrom, returns_bind]
  simp only [hloop, readFrom, returns_bind]
  constructor
  · rintro ⟨u, ⟨t, ⟨ht, hle⟩, hu⟩, hr⟩
    exact ⟨t, ht, hle, u, hu, hr⟩
  · rintro ⟨t, ht, hle, u, hu, hr⟩
    exact ⟨u, ⟨t, ⟨ht, hle⟩, hu⟩, hr⟩

lemma readFrom_pointer {high low : UInt8} (hhigh : packet[pos]? = some high)
    (hptr : isPointer high) (hlow : packet[pos + 1]? = some low) :
    (readFrom packet ⟨pos, rtn, out, true⟩).Returns r
      ↔ (readFrom packet ⟨pointerOffset high low, rtn.or (some (pos + 2)), out, true⟩).Returns r := by
  rw [readFrom_more, readFrom_more]
  simp only [decodeSegment, returns_bind, followPointers_pointer hhigh hptr hlow]

lemma Spells.readFrom (h : Spells packet pos way text fin) (rtn : Option ℕ) (out : Bytes)
    (hroom : (out ++ text).length < nameSize) :
    (readFrom packet ⟨pos, rtn, out, true⟩).Returns (out ++ text, rtn.getD fin) := by
  induction h generalizing rtn out with
  | @last pos text hlen hpos htext hend =>
    refine readFrom_more.mpr ⟨_, (decodeSegment_label hlen hpos htext).mpr ⟨0, hend, rfl⟩, ?_, ?_⟩
    · exact hroom.le
    · exact readFrom_stop.mpr ⟨rfl, hroom⟩
  | @label pos fin way rest text c hlen hpos htext hc hne _ ih =>
    have hjoin : out ++ (text ++ dot :: rest) = out ++ text ++ [dot] ++ rest := by
      simp only [List.append_assoc, List.singleton_append]
    rw [hjoin] at hroom ⊢
    refine readFrom_more.mpr ⟨_, (decodeSegment_label hlen hpos htext).mpr ⟨c, hc, rfl⟩, ?_, ?_⟩
    · rw [if_neg hne]
      rw [List.length_append] at hroom
      dsimp only
      omega
    · rw [if_neg hne]
      exact ih rtn _ hroom
  | @pointer pos fin way text high low hhigh hptr hlow _ ih =>
    have hback : rtn.getD (pos + 2) = (rtn.or (some (pos + 2))).getD fin := by
      cases rtn <;> rfl
    rw [readFrom_pointer hhigh hptr hlow, hback]
    exact ih _ out hroom

lemma followPointers_spells {t : Cursor} (h : (followPointers packet pos rtn).Returns t) :
    packet[t.input]? = some t.c ∧ isPointer t.c = false
      ∧ ∀ way text fin, Spells packet t.input way text fin →
        ∃ way' fin', Spells packet pos way' text fin' ∧ t.rtn.getD fin = rtn.getD fin' := by
  obtain ⟨c, hc, hloop⟩ := returns_bind.mp h
  have hc' := returns_byteAt.mp hc
  refine loop_unwinds (fun s : Cursor => packet[s.input]? = some s.c →
    packet[t.input]? = some t.c ∧ isPointer t.c = false
      ∧ ∀ way text fin, Spells packet t.input way text fin →
        ∃ way' fin', Spells packet s.input way' text fin' ∧ t.rtn.getD fin = s.rtn.getD fin')
    (fun hstop ht => ⟨ht, hstop, fun way _ fin hs => ⟨way, fin, hs, rfl⟩⟩) ?_ hloop hc'
  intro s s' hptr hs ih hin
  obtain ⟨c1, hc1, hrest⟩ := returns_bind.mp hs
  obtain ⟨c', hc', hs'⟩ := returns_bind.mp hrest
  obtain rfl := Except.ok.inj (yields_pure.mp hs')
  obtain ⟨ht, hstop, hspells⟩ := ih (returns_byteAt.mp hc')
  refine ⟨ht, hstop, fun way text fin hway => ?_⟩
  obtain ⟨way', fin', hs', hback⟩ := hspells way text fin hway
  refine ⟨s.input :: way', s.input + 2, .pointer s.c c1 hin hptr (returns_byteAt.mp hc1) hs', ?_⟩
  rw [hback]
  cases s.rtn <;> rfl

lemma copySegment_ok {input : ℕ} {c : UInt8} {segment : Bytes} (hsize : packet.length ≤ 1024)
    (h : copySegment packet input c = .ok segment) :
    segment.length < 128 ∧ c = UInt8.ofNat segment.length
      ∧ (packet.drop input).take segment.length = segment := by
  rw [copySegment] at h
  split at h
  · next hle =>
    have hcount : (c.toBitVec.signExtend 32).toNat ≤ 1024 := by omega
    have hlow : c.toNat < 128 ∧ (c.toBitVec.signExtend 32).toNat = c.toNat := by
      have hall : ∀ b : BitVec 8, (b.signExtend 32).toNat ≤ 1024 →
          b.toNat < 128 ∧ (b.signExtend 32).toNat = b.toNat := by decide
      exact hall c.toBitVec hcount
    have hlength := congrArg List.length (Except.ok.inj h)
    rw [List.length_take, List.length_drop, hlow.2, Nat.min_eq_left (by omega)] at hlength
    refine ⟨by omega, ?_, ?_⟩
    · rw [← hlength]
      exact (UInt8.ofNat_toNat).symm
    · rw [← hlength, ← hlow.2]
      exact Except.ok.inj h
  · cases h

lemma decodeSegment_spells {t : Decoder} (hsize : packet.length ≤ 1024)
    (h : (decodeSegment packet ⟨pos, rtn, out, true⟩).Returns t) :
    (t.more = false → ∃ way text fin, Spells packet pos way text fin
        ∧ t.output = out ++ text ∧ t.rtn.getD (t.input + 1) = rtn.getD fin)
      ∧ (t.more → ∀ way rest fin, Spells packet t.input way rest fin →
        ∃ way' text fin', Spells packet pos way' text fin' ∧ t.output ++ rest = out ++ text
          ∧ t.rtn.getD fin = rtn.getD fin') := by
  obtain ⟨u, hu, hrest⟩ := returns_bind.mp h
  obtain ⟨segment, hseg, hrest⟩ := returns_bind.mp hrest
  obtain ⟨c, hc, ht⟩ := returns_bind.mp hrest
  obtain ⟨hlen, huc, htext⟩ := copySegment_ok hsize (yields_ofExcept.mp hseg).symm
  obtain ⟨hin, -, hspells⟩ := followPointers_spells hu
  have hc := returns_byteAt.mp hc
  rw [huc] at hin
  obtain rfl := Except.ok.inj (yields_pure.mp ht)
  by_cases hzero : c = 0
  · rw [if_pos hzero]
    refine ⟨fun _ => ?_, nofun⟩
    obtain ⟨way', fin', hs, hback⟩ := hspells _ _ _ (.last segment hlen hin htext (hzero ▸ hc))
    exact ⟨way', segment, fin', hs, rfl, hback⟩
  · rw [if_neg hzero]
    refine ⟨nofun, fun _ way rest fin hway => ?_⟩
    obtain ⟨way', fin', hs, hback⟩ :=
      hspells _ _ _ (.label segment c hlen hin htext hc hzero hway)
    refine ⟨way', _, fin', hs, ?_, hback⟩
    simp only [List.append_assoc, List.singleton_append]

lemma spells_of_readName (hsize : packet.length ≤ 1024) (h : (readName packet pos).Returns r) :
    ∃ way, Spells packet pos way r.1 r.2 ∧ r.1.length < nameSize := by
  obtain ⟨t, hloop, hr⟩ := returns_bind.mp h
  split at hr
  case isFalse => cases yields_ofExcept.mp hr
  next hroom =>
  have hway := loop_unwinds (fun s : Decoder => if s.more then ∃ way text fin,
      Spells packet s.input way text fin ∧ t.output = s.output ++ text
        ∧ t.rtn.getD (t.input + 1) = s.rtn.getD fin else s = t)
    (fun hstop => by rw [hstop]; rfl) ?_ hloop
  · obtain ⟨way, text, fin, hs, hout, hback⟩ := hway
    rw [Except.ok.inj (yields_pure.mp hr)]
    rw [List.nil_append] at hout
    refine ⟨way, ?_, hroom⟩
    dsimp only
    rw [hback, hout]
    exact hs
  · rintro ⟨input, rtn, out, more⟩ s' hmore hs' ih
    obtain rfl : more = true := hmore
    obtain ⟨hstop, hgo⟩ := decodeSegment_spells hsize (returns_decodeInto.mp hs').1
    rw [if_pos rfl]
    cases hm : s'.more with
    | false =>
      rw [hm, if_neg Bool.false_ne_true] at ih
      subst ih
      exact hstop hm
    | true =>
      rw [hm, if_pos rfl] at ih
      obtain ⟨way, rest, fin, hway, hout, hback⟩ := ih
      obtain ⟨way', text, fin', hs, happend, hback'⟩ := hgo hm way rest fin hway
      exact ⟨way', text, fin', hs, hout.trans happend, hback.trans hback'⟩

theorem readName_iff (hsize : packet.length ≤ 1024) :
    (readName packet pos).Returns r ↔ NameFits packet pos r.1 r.2 := by
  rw [nameFits_iff]
  constructor
  · intro h
    obtain ⟨way, hs, hroom⟩ := spells_of_readName hsize h
    exact ⟨⟨way, hs⟩, hroom⟩
  · rintro ⟨⟨way, hs⟩, hroom⟩
    exact hs.readFrom none [] hroom

end Names

section Sections

variable {packet : Bytes} {p : ℕ}

lemma byteOf_iff {i n : ℕ} : (byteOf packet i).Returns n
    ↔ i < packet.length ∧ n = (packet.getD i 0).toNat := by
  rw [byteOf, Returns, yields_ofExcept, List.getD_eq_getElem?_getD]
  rcases hi : packet[i]? with _ | c
  · exact iff_of_false (by rintro ⟨⟩) fun h => absurd (List.getElem?_eq_none_iff.mp hi) (by omega)
  · have hlt := (List.getElem?_eq_some_iff.mp hi).1
    rw [Except.ok.injEq]
    exact (and_iff_right hlt).symm

lemma wordOf_iff {i n : ℕ} : (wordOf packet i).Returns n
    ↔ i + 1 < packet.length ∧ n = wordAt packet i := by
  simp only [wordOf, returns_bind, byteOf_iff]
  constructor
  · rintro ⟨high, ⟨-, rfl⟩, low, ⟨hlt, rfl⟩, hn⟩
    exact ⟨hlt, Except.ok.inj (yields_pure.mp hn)⟩
  · rintro ⟨hlt, rfl⟩
    exact ⟨_, ⟨by omega, rfl⟩, _, ⟨hlt, rfl⟩, yields_pure.mpr rfl⟩

lemma readQuestions_iff (hsize : packet.length ≤ 1024) {cnt fin : ℕ} :
    (readQuestions packet cnt p).Returns fin ↔ QuestionsFit packet cnt p fin := by
  induction cnt generalizing p with
  | zero => exact yields_pure.trans ⟨Except.ok.inj, congrArg Except.ok⟩
  | succ cnt ih =>
    simp only [readQuestions, QuestionsFit, returns_bind, readName_iff hsize, wordOf_iff, ih]
    constructor
    · rintro ⟨⟨text, q⟩, hname, _, ⟨-, -⟩, _, ⟨hq, -⟩, hrest⟩
      exact ⟨text, q, hname, by omega, hrest⟩
    · rintro ⟨text, q, hname, hq, hrest⟩
      exact ⟨⟨text, q⟩, hname, _, ⟨by dsimp only; omega, rfl⟩, _, ⟨by dsimp only; omega, rfl⟩, hrest⟩

lemma readAnswers_iff (hsize : packet.length ≤ 1024) {cnt : ℕ} :
    (∃ found, (readAnswers packet cnt p).Returns found) ↔ AnswersFit packet cnt p := by
  induction cnt generalizing p with
  | zero => exact iff_of_true ⟨none, yields_pure.mpr rfl⟩ trivial
  | succ cnt ih =>
    rw [AnswersFit]
    constructor
    · rintro ⟨found, h⟩
      simp only [readAnswers, returns_bind, readName_iff hsize, wordOf_iff] at h
      obtain ⟨⟨text, q⟩, hname, _, ⟨-, rfl⟩, _, ⟨-, -⟩, _, ⟨-, -⟩, _, ⟨-, -⟩, _, ⟨hq, rfl⟩, h⟩ := h
      refine ⟨text, q, hname, by dsimp only at hq; omega, ?_⟩
      split at h
      · next htype =>
        rw [if_pos htype]
        simp only [returns_bind, byteOf_iff] at h
        obtain ⟨_, -, _, -, _, -, _, ⟨hlast, -⟩, -⟩ := h
        exact hlast
      · next htype =>
        rw [if_neg htype]
        exact ih.mp ⟨found, h⟩
    · rintro ⟨text, q, hname, hq, hrest⟩
      by_cases htype : wordAt packet q = typeA
      · rw [if_pos htype] at hrest
        refine ⟨some ([10, 11, 12, 13].map fun i => (packet.getD (q + i) 0).toNat), ?_⟩
        simp only [readAnswers, returns_bind, readName_iff hsize, wordOf_iff]
        refine ⟨⟨text, q⟩, hname, _, ⟨by dsimp only; omega, rfl⟩, _, ⟨by dsimp only; omega, rfl⟩, _,
          ⟨by dsimp only; omega, rfl⟩, _, ⟨by dsimp only; omega, rfl⟩, _, ⟨by dsimp only; omega, rfl⟩, ?_⟩
        rw [if_pos htype]
        simp only [returns_bind, byteOf_iff]
        exact ⟨_, ⟨by omega, rfl⟩, _, ⟨by omega, rfl⟩, _, ⟨by omega, rfl⟩, _, ⟨by omega, rfl⟩,
          yields_pure.mpr rfl⟩
      · rw [if_neg htype] at hrest
        obtain ⟨found, hfound⟩ := ih.mpr hrest
        refine ⟨found, ?_⟩
        simp only [readAnswers, returns_bind, readName_iff hsize, wordOf_iff]
        refine ⟨⟨text, q⟩, hname, _, ⟨by dsimp only; omega, rfl⟩, _, ⟨by dsimp only; omega, rfl⟩, _,
          ⟨by dsimp only; omega, rfl⟩, _, ⟨by dsimp only; omega, rfl⟩, _, ⟨by dsimp only; omega, rfl⟩, ?_⟩
        rw [if_neg htype]
        exact hfound

end Sections

theorem readResponse_safe_iff {packet : Bytes} (hsize : packet.length ≤ 1024) :
    (∀ pos, (∃ r, (readName packet pos).Returns r) ↔ ∃ text fin, NameFits packet pos text fin)
      ∧ ((∃ found, (readResponse packet).Returns found)
        ↔ packet.length < headerSize
          ∨ ∃ p, QuestionsFit packet (wordAt packet 4) headerSize p
            ∧ AnswersFit packet (wordAt packet 6) p) := by
  refine ⟨fun pos => ?_, ?_⟩
  · simp only [readName_iff hsize, Prod.exists]
  · by_cases hshort : packet.length < headerSize
    · refine iff_of_true ⟨none, ?_⟩ (.inl hshort)
      rw [readResponse, if_pos hshort]
      exact yields_pure.mpr rfl
    · have hlong : 12 ≤ packet.length := Nat.le_of_not_lt hshort
      rw [readResponse, if_neg hshort, or_iff_right hshort]
      simp only [returns_bind, wordOf_iff, readQuestions_iff hsize]
      constructor
      · rintro ⟨found, _, ⟨-, rfl⟩, _, ⟨-, rfl⟩, p, hquestions, hanswers⟩
        exact ⟨p, hquestions, (readAnswers_iff hsize).mp ⟨found, hanswers⟩⟩
      · rintro ⟨p, hquestions, hanswers⟩
        obtain ⟨found, hfound⟩ := (readAnswers_iff hsize).mpr hanswers
        exact ⟨found, _, ⟨by omega, rfl⟩, _, ⟨by omega, rfl⟩, p, hquestions, hfound⟩

def answer : Bytes :=
  [0, 0, 0, 0, 0, 1, 0, 1, 0, 0, 0, 0, 1, 97, 0, 0, 1, 0, 1, 0xc0, 12, 0, 1, 0, 1, 0, 0, 0, 0, 0, 4,
    127, 0, 0, 1]

theorem readResponse_safe_iff_answer : ∃ found, (readResponse answer).Returns found := by
  have hname : Spells answer 12 [12] [97] 15 := .last [97] (by decide) rfl rfl rfl
  refine (readResponse_safe_iff (by decide)).2.mpr (.inr ⟨19, ?_, ?_⟩)
  · exact ⟨[97], 15, ⟨[12], hname, by decide, by decide⟩, by decide, rfl⟩
  · refine ⟨[97], 21, ⟨[19, 12], .pointer 0xc0 12 rfl rfl rfl hname, by decide, by decide⟩, by decide, ?_⟩
    rw [if_pos (by decide)]
    decide

-- The name of the only answer is a pointer to itself.
def selfPointer : Bytes := [0, 0, 0, 0, 0, 0, 0, 1, 0, 0, 0, 0, 0xc0, 12]

lemma readName_hangs (r : Except ResponseFault (Bytes × ℕ)) :
    ¬ (readName selfPointer 12).Yields r := by
  have hpointers (r : Except Fault Cursor) : ¬ (followPointers selfPointer 12 none).Yields r := by
    rw [followPointers, byteAt_eq (c := 0xc0) rfl, yields_bind_of_returns (yields_ofExcept.mpr rfl)]
    refine loop_diverges (fun s : Cursor => s.input = 12 ∧ s.c = 0xc0) ?_ ?_ _ ⟨rfl, rfl⟩ r
    · rintro s ⟨-, hc⟩
      rw [hc]
      decide
    · rintro ⟨input, rtn, c⟩ ⟨rfl, rfl⟩
      have htarget : pointerOffset 0xc0 12 = 12 := by decide
      refine ⟨⟨12, rtn.or (some 14), 0xc0⟩, returns_bind.mpr ⟨12, yields_ofExcept.mpr rfl, ?_⟩,
        rfl, rfl⟩
      rw [htarget]
      exact returns_bind.mpr ⟨0xc0, returns_byteAt.mpr rfl, yields_pure.mpr rfl⟩
  exact not_yields_bind (not_yields_loop rfl
    (not_yields_bind (not_yields_mapError _ (not_yields_bind hpointers _)) _)) _ r

theorem readResponse_hangs : ¬ ∃ r, (readResponse selfPointer).Yields r := by
  have hquestions : (wordOf selfPointer 4).Returns 0 := ⟨0, rfl⟩
  have hanswers : (wordOf selfPointer 6).Returns 1 := ⟨0, rfl⟩
  have hheader : (readQuestions selfPointer 0 headerSize).Returns 12 := ⟨0, rfl⟩
  rintro ⟨r, h⟩
  rw [readResponse, if_neg (by decide), yields_bind_of_returns hquestions,
    yields_bind_of_returns hanswers, yields_bind_of_returns hheader] at h
  exact not_yields_bind readName_hangs _ r h

end SimpleCode.Net.Dns
