import SimpleCode.Foundations.Bytes

set_option autoImplicit false

namespace SimpleCode.Net.Dns

open Foundations Foundations.Comp

def dot : UInt8 := 46

-- `*output++=l` and the characters up to the next dot, which is then passed over.
def encodeDotted (name : Bytes) : Bytes :=
  if _h : name = [] then [0]
  else
    let segment := name.takeWhile (· ≠ dot)
    UInt8.ofNat segment.length :: segment ++ encodeDotted (name.drop (segment.length + 1))
termination_by name.length
decreasing_by
  have := List.length_pos_of_ne_nil _h
  rw [List.length_drop]
  omega

inductive Fault
  | outOfPacket
deriving DecidableEq, Repr

def byteAt (packet : Bytes) (i : ℕ) : Except Fault UInt8 :=
  match packet[i]? with
  | some c => .ok c
  | none => .error .outOfPacket

-- Both bytes are promoted with their signs before the result is cut to an `unsigned short`.
def pointerOffset (c0 c1 : UInt8) : ℕ :=
  (((c0.toBitVec.signExtend 32 &&& ~~~0xc0#32) <<< 8 ||| c1.toBitVec.signExtend 32).setWidth 16).toNat

def isPointer (c : UInt8) : Bool := c &&& 0xc0 == 0xc0

structure Cursor where
  input : ℕ
  rtn : Option ℕ
  c : UInt8

def followPointer (packet : Bytes) (s : Cursor) : Comp Fault Cursor := do
  let c1 ← ofExcept (byteAt packet (s.input + 1))
  let target := pointerOffset s.c c1
  let c ← ofExcept (byteAt packet target)
  pure ⟨target, s.rtn.or (some (s.input + 2)), c⟩

def followPointers (packet : Bytes) (input : ℕ) (rtn : Option ℕ) : Comp Fault Cursor := do
  let c ← ofExcept (byteAt packet input)
  loop (fun s => isPointer s.c) (followPointer packet) ⟨input, rtn, c⟩

-- `while(segLen--)`, which for a negative `segLen` goes round until it has wrapped to 0.
def copySegment (packet : Bytes) (input : ℕ) (segLen : UInt8) : Except Fault Bytes :=
  let count := (segLen.toBitVec.signExtend 32).toNat
  if input + count ≤ packet.length then .ok ((packet.drop input).take count) else .error .outOfPacket

structure Decoder where
  input : ℕ
  rtn : Option ℕ
  output : Bytes
  more : Bool

def decodeSegment (packet : Bytes) (s : Decoder) : Comp Fault Decoder := do
  let t ← followPointers packet s.input s.rtn
  let segment ← ofExcept (copySegment packet (t.input + 1) t.c)
  let input := t.input + 1 + segment.length
  let c ← ofExcept (byteAt packet input)
  pure (if c = 0 then ⟨input, t.rtn, s.output ++ segment, false⟩
    else ⟨input, t.rtn, s.output ++ segment ++ [dot], true⟩)

def decodeFrom (packet : Bytes) (s : Decoder) : Comp Fault (Bytes × ℕ) := do
  let t ← loop Decoder.more (decodeSegment packet) s
  pure (t.output, t.rtn.getD (t.input + 1))

def decodeDotted (packet : Bytes) (input : ℕ) : Comp Fault (Bytes × ℕ) :=
  decodeFrom packet ⟨input, none, [], true⟩

/-- What is passed on the way through the encoding of a name: its labels, and the pointers with the
second byte of each. -/
inductive Element
  | label (text : Bytes)
  | pointer (low : UInt8)
deriving DecidableEq, Repr

def Element.label? : Element → Option Bytes
  | .label text => some text
  | .pointer _ => none

def labels (walk : List Element) : List Bytes := walk.filterMap Element.label?

def joinDots : List Bytes → Bytes
  | [] => []
  | [text] => text
  | text :: rest => text ++ dot :: joinDots rest

/-- A name is encoded at `pos`: the way through it ends at the zero byte at `last`, and its own
encoding before `fin`. -/
inductive Name (packet : Bytes) : ℕ → List Element → ℕ → ℕ → Prop
  | root {pos : ℕ} : packet[pos]? = some 0 → Name packet pos [] pos (pos + 1)
  | label {pos last fin : ℕ} {walk : List Element} (text : Bytes) : text ≠ [] → text.length ≤ 63 →
      packet[pos]? = some (UInt8.ofNat text.length) →
      (packet.drop (pos + 1)).take text.length = text →
      Name packet (pos + 1 + text.length) walk last fin →
      Name packet pos (.label text :: walk) last fin
  | pointer {pos last fin : ℕ} {walk : List Element} (high low : UInt8) :
      packet[pos]? = some high → isPointer high → packet[pos + 1]? = some low →
      high.toNat % 64 * 256 + low.toNat < pos →
      Name packet (high.toNat % 64 * 256 + low.toNat) walk last fin →
      Name packet pos (.pointer low :: walk) last (pos + 2)

structure WellFormed (packet : Bytes) (pos : ℕ) (walk : List Element) (last fin : ℕ) : Prop where
  name : Name packet pos walk last fin
  length_le : ((labels walk).map fun text => text.length + 1).sum + 1 ≤ 255

/-- No pointer on the way has a second byte that is negative as a `char`, and the zero byte either
comes in line after a label, or is reached through pointers alone and has a zero byte after it. -/
def Decodable (packet : Bytes) (walk : List Element) (last : ℕ) : Prop :=
  (∀ low, .pointer low ∈ walk → low.toNat < 128)
    ∧ ((∃ text, walk.getLast? = some (.label text))
      ∨ walk ≠ [] ∧ labels walk = [] ∧ packet[last + 1]? = some 0)

section Offsets

lemma signExtend_low {c : UInt8} (hc : c.toNat < 128) :
    (c.toBitVec.signExtend 32).setWidth 16 = c.toBitVec.setWidth 16 := by
  have hall : ∀ b : BitVec 8, b.toNat < 128 → (b.signExtend 32).setWidth 16 = b.setWidth 16 := by
    decide
  exact hall c.toBitVec hc

lemma signExtend_high {c : UInt8} (hc : 128 ≤ c.toNat) :
    0xff80 ≤ ((c.toBitVec.signExtend 32).setWidth 16).toNat := by
  have hall : ∀ b : BitVec 8, 128 ≤ b.toNat → 0xff80 ≤ ((b.signExtend 32).setWidth 16).toNat := by
    decide
  exact hall c.toBitVec hc

lemma shifted_toNat (c : UInt8) :
    (((c.toBitVec.signExtend 32 &&& ~~~0xc0#32) <<< 8).setWidth 16).toNat = (c.toNat % 64) <<< 8 := by
  have hall : ∀ b : BitVec 8,
      (((b.signExtend 32 &&& ~~~0xc0#32) <<< 8).setWidth 16).toNat = (b.toNat % 64) <<< 8 := by
    decide
  exact hall c.toBitVec

lemma pointerOffset_low (c0 : UInt8) {c1 : UInt8} (hc : c1.toNat < 128) :
    pointerOffset c0 c1 = c0.toNat % 64 * 256 + c1.toNat := by
  rw [pointerOffset, BitVec.setWidth_or, BitVec.toNat_or, shifted_toNat, signExtend_low hc,
    BitVec.toNat_setWidth_of_le (by decide), UInt8.toNat_toBitVec,
    ← Nat.shiftLeft_add_eq_or_of_lt (by omega), Nat.shiftLeft_eq]

lemma pointerOffset_high (c0 : UInt8) {c1 : UInt8} (hc : 128 ≤ c1.toNat) :
    0xff80 ≤ pointerOffset c0 c1 := by
  rw [pointerOffset, BitVec.setWidth_or, BitVec.toNat_or]
  exact (signExtend_high hc).trans Nat.right_le_or

end Offsets

section Segments

variable {packet out text : Bytes} {pos : ℕ} {rtn : Option ℕ} {r : Bytes × ℕ}

lemma byteAt_eq {i : ℕ} {c : UInt8} (h : packet[i]? = some c) : byteAt packet i = .ok c := by
  rw [byteAt, h]

lemma returns_byteAt {i : ℕ} {c : UInt8} :
    (Comp.ofExcept (byteAt packet i)).Returns c ↔ packet[i]? = some c := by
  rw [Returns, yields_ofExcept, byteAt]
  cases packet[i]? with
  | none => exact ⟨by rintro ⟨⟩, by rintro ⟨⟩⟩
  | some b => exact ⟨fun h => congrArg some (Except.ok.inj h).symm,
      fun h => congrArg Except.ok (Option.some.inj h).symm⟩

lemma returns_followPointers {c : UInt8} {t : Cursor} (hc : packet[pos]? = some c) :
    (followPointers packet pos rtn).Returns t
      ↔ (loop (fun s => isPointer s.c) (followPointer packet) ⟨pos, rtn, c⟩).Returns t := by
  rw [followPointers, byteAt_eq hc]
  exact Iff.rfl

lemma followPointers_stop {c : UInt8} {t : Cursor} (hc : packet[pos]? = some c)
    (hstop : isPointer c = false) :
    (followPointers packet pos rtn).Returns t ↔ t = ⟨pos, rtn, c⟩ := by
  rw [returns_followPointers hc]
  exact returns_loop_done hstop

lemma followPointers_pointer {high low : UInt8} {t : Cursor} (hhigh : packet[pos]? = some high)
    (hptr : isPointer high) (hlow : packet[pos + 1]? = some low) :
    (followPointers packet pos rtn).Returns t
      ↔ (followPointers packet (pointerOffset high low) (rtn.or (some (pos + 2)))).Returns t := by
  have hstep : ∀ s, (followPointer packet ⟨pos, rtn, high⟩).Returns s
      ↔ ∃ c, packet[pointerOffset high low]? = some c
        ∧ s = ⟨pointerOffset high low, rtn.or (some (pos + 2)), c⟩ := fun s => by
    rw [followPointer, byteAt_eq hlow, returns_bind]
    constructor
    · rintro ⟨c1, hc1, hrest⟩
      obtain rfl := Except.ok.inj (yields_ofExcept.mp hc1)
      obtain ⟨c, hc, hs⟩ := returns_bind.mp hrest
      exact ⟨c, returns_byteAt.mp hc, Except.ok.inj (yields_pure.mp hs)⟩
    · rintro ⟨c, hc, rfl⟩
      exact ⟨low, yields_ofExcept.mpr rfl, returns_bind.mpr ⟨c, returns_byteAt.mpr hc,
        yields_pure.mpr rfl⟩⟩
  rw [returns_followPointers hhigh]
  refine Iff.trans (returns_loop_more hptr) ?_
  constructor
  · rintro ⟨s, hs, ht⟩
    obtain ⟨c, hc, rfl⟩ := (hstep s).mp hs
    exact (returns_followPointers hc).mpr ht
  · intro h
    obtain ⟨c, hc, ht⟩ := returns_bind.mp h
    exact ⟨_, (hstep _).mpr ⟨c, returns_byteAt.mp hc, rfl⟩, ht⟩

lemma decodeFrom_stop {input : ℕ} :
    (decodeFrom packet ⟨input, rtn, out, false⟩).Returns r ↔ r = (out, rtn.getD (input + 1)) := by
  rw [decodeFrom, returns_bind]
  constructor
  · rintro ⟨t, ht, hr⟩
    obtain rfl := (returns_loop_done rfl).mp ht
    exact Except.ok.inj (yields_pure.mp hr)
  · rintro rfl
    exact ⟨⟨input, rtn, out, false⟩, loop_end rfl, yields_pure.mpr rfl⟩

lemma decodeFrom_more : (decodeFrom packet ⟨pos, rtn, out, true⟩).Returns r
    ↔ ∃ t, (decodeSegment packet ⟨pos, rtn, out, true⟩).Returns t
      ∧ (decodeFrom packet t).Returns r := by
  rw [decodeFrom, returns_bind]
  constructor
  · rintro ⟨u, hu, hr⟩
    obtain ⟨t, ht, hrest⟩ := (returns_loop_more rfl).mp hu
    exact ⟨t, ht, returns_bind.mpr ⟨u, hrest, hr⟩⟩
  · rintro ⟨t, ht, hrest⟩
    obtain ⟨u, hu, hr⟩ := returns_bind.mp hrest
    exact ⟨u, loop_step rfl ht hu, hr⟩

lemma decodeFrom_pointer {high low : UInt8} (hhigh : packet[pos]? = some high)
    (hptr : isPointer high) (hlow : packet[pos + 1]? = some low) :
    (decodeFrom packet ⟨pos, rtn, out, true⟩).Returns r
      ↔ (decodeFrom packet ⟨pointerOffset high low, rtn.or (some (pos + 2)), out, true⟩).Returns r := by
  rw [decodeFrom_more, decodeFrom_more]
  simp only [decodeSegment, returns_bind, followPointers_pointer hhigh hptr hlow]

lemma isPointer_length {n : ℕ} (hn : n < 128) : isPointer (UInt8.ofNat n) = false := by
  have hall : ∀ n < 128, isPointer (UInt8.ofNat n) = false := by decide
  exact hall n hn

lemma copySegment_eq {input : ℕ} (hlen : text.length < 128)
    (htext : (packet.drop input).take text.length = text) (hle : input ≤ packet.length) :
    copySegment packet input (UInt8.ofNat text.length) = .ok text := by
  have hcount : ((UInt8.ofNat text.length).toBitVec.signExtend 32).toNat = text.length := by
    have hall : ∀ n < 128, ((UInt8.ofNat n).toBitVec.signExtend 32).toNat = n := by decide
    exact hall _ hlen
  have hfits := congrArg List.length htext
  rw [List.length_take, List.length_drop] at hfits
  rw [copySegment, hcount, htext]
  exact if_pos (by omega)

lemma decodeSegment_label {t : Decoder} (hlen : text.length < 128)
    (hpos : packet[pos]? = some (UInt8.ofNat text.length))
    (htext : (packet.drop (pos + 1)).take text.length = text) :
    (decodeSegment packet ⟨pos, rtn, out, true⟩).Returns t
      ↔ ∃ c, packet[pos + 1 + text.length]? = some c
        ∧ t = if c = 0 then ⟨pos + 1 + text.length, rtn, out ++ text, false⟩
          else ⟨pos + 1 + text.length, rtn, out ++ text ++ [dot], true⟩ := by
  have hle : pos + 1 ≤ packet.length := (List.getElem?_eq_some_iff.mp hpos).1
  have hcopy := copySegment_eq hlen htext hle
  constructor
  · intro ht
    obtain ⟨u, hu, hrest⟩ := returns_bind.mp ht
    obtain rfl := (followPointers_stop hpos (isPointer_length hlen)).mp hu
    obtain ⟨segment, hseg, hrest⟩ := returns_bind.mp hrest
    obtain rfl := Except.ok.inj ((yields_ofExcept.mp hseg).trans hcopy)
    obtain ⟨c, hc, hs⟩ := returns_bind.mp hrest
    exact ⟨c, returns_byteAt.mp hc, Except.ok.inj (yields_pure.mp hs)⟩
  · rintro ⟨c, hc, rfl⟩
    exact returns_bind.mpr ⟨_, (followPointers_stop hpos (isPointer_length hlen)).mpr rfl,
      returns_bind.mpr ⟨text, yields_ofExcept.mpr hcopy.symm, returns_bind.mpr ⟨c,
        returns_byteAt.mpr hc, yields_pure.mpr rfl⟩⟩⟩

lemma decodeFrom_label (hlen : text.length < 128)
    (hpos : packet[pos]? = some (UInt8.ofNat text.length))
    (htext : (packet.drop (pos + 1)).take text.length = text) :
    (decodeFrom packet ⟨pos, rtn, out, true⟩).Returns r
      ↔ ∃ c, packet[pos + 1 + text.length]? = some c ∧ (decodeFrom packet
        (if c = 0 then ⟨pos + 1 + text.length, rtn, out ++ text, false⟩
          else ⟨pos + 1 + text.length, rtn, out ++ text ++ [dot], true⟩)).Returns r := by
  rw [decodeFrom_more]
  constructor
  · rintro ⟨t, ht, hr⟩
    obtain ⟨c, hc, rfl⟩ := (decodeSegment_label hlen hpos htext).mp ht
    exact ⟨c, hc, hr⟩
  · rintro ⟨c, hc, hr⟩
    exact ⟨_, (decodeSegment_label hlen hpos htext).mpr ⟨c, hc, rfl⟩, hr⟩

lemma prefix_of_returns {s : Decoder} (h : (decodeFrom packet s).Returns r) : s.output <+: r.1 := by
  obtain ⟨t, ht, hr⟩ := returns_bind.mp h
  rw [Except.ok.inj (yields_pure.mp hr)]
  refine loop_invariant (fun u => s.output <+: u.output) ?_ (List.prefix_refl _) ht
  intro u v hu _ hv
  obtain ⟨w, -, hrest⟩ := returns_bind.mp hv
  obtain ⟨segment, -, hrest⟩ := returns_bind.mp hrest
  obtain ⟨c, -, hs⟩ := returns_bind.mp hrest
  rw [Except.ok.inj (yields_pure.mp hs)]
  refine hu.trans ?_
  split
  · exact List.prefix_append _ _
  · exact (List.prefix_append _ _).trans (List.prefix_append _ _)

end Segments

section Names

variable {packet : Bytes} {pos last fin : ℕ} {walk : List Element}

def DecodableFrom (packet : Bytes) (walk : List Element) (last : ℕ) (rtn : Option ℕ) : Prop :=
  (∀ low, .pointer low ∈ walk → low.toNat < 128)
    ∧ ((∃ text, walk.getLast? = some (.label text))
      ∨ (walk ≠ [] ∨ rtn ≠ none) ∧ labels walk = [] ∧ packet[last + 1]? = some 0)

lemma decodableFrom_none : DecodableFrom packet walk last none ↔ Decodable packet walk last := by
  rw [DecodableFrom, Decodable, ne_self_iff_false, or_false]

lemma labels_ne_nil {text : Bytes} (h : walk.getLast? = some (.label text)) : labels walk ≠ [] := by
  intro hnil
  have hnone := List.filterMap_eq_nil_iff.mp hnil _ (List.mem_of_getLast? h)
  exact Option.some_ne_none _ hnone

lemma joinDots_cons (text : Bytes) {rest : List Bytes} (hrest : rest ≠ []) :
    joinDots (text :: rest) = text ++ dot :: joinDots rest := by
  cases rest with
  | nil => exact absurd rfl hrest
  | cons other rest => rfl

lemma Name.first (h : Name packet pos walk last fin) :
    ∃ c, packet[pos]? = some c ∧ (c = 0 ↔ walk = []) := by
  cases h with
  | root hc => exact ⟨0, hc, iff_of_true rfl rfl⟩
  | label text hne hlen hc _ _ =>
    refine ⟨_, hc, iff_of_false (fun hzero => hne ?_) (List.cons_ne_nil _ _)⟩
    have hnat := congrArg UInt8.toNat hzero
    rw [UInt8.toNat_ofNat', Nat.mod_eq_of_lt (by omega)] at hnat
    exact List.length_eq_zero_iff.mp hnat
  | pointer high low hc hptr _ _ _ =>
    refine ⟨_, hc, iff_of_false (fun hzero => ?_) (List.cons_ne_nil _ _)⟩
    rw [hzero] at hptr
    exact absurd hptr (by decide)

lemma not_prefix_of_longer {xs ys : Bytes} (h : ys.length < xs.length) : ¬ xs <+: ys := fun hp =>
  absurd hp.length_le (by omega)

lemma decodeFrom_root (hpos : packet[pos]? = some 0) (rtn : Option ℕ) (out : Bytes) :
    (decodeFrom packet ⟨pos, rtn, out, true⟩).Returns (out, rtn.getD (pos + 1))
      ↔ rtn ≠ none ∧ packet[pos + 1]? = some 0 := by
  have hlen : ([] : Bytes).length < 128 := by decide
  rw [decodeFrom_label hlen hpos rfl]
  constructor
  · rintro ⟨c, hc, hr⟩
    by_cases hzero : c = 0
    · rw [if_pos hzero, decodeFrom_stop] at hr
      refine ⟨fun hnone => ?_, by rw [← hzero, ← hc]; rfl⟩
      rw [hnone] at hr
      have := (Prod.mk.inj hr).2
      simp only [Option.getD_none, List.length_nil] at this
      omega
    · rw [if_neg hzero] at hr
      refine absurd (prefix_of_returns hr) (not_prefix_of_longer ?_)
      simp
  · rintro ⟨hsome, hc⟩
    obtain ⟨back, rfl⟩ := Option.ne_none_iff_exists'.mp hsome
    refine ⟨0, hc, ?_⟩
    rw [if_pos rfl, decodeFrom_stop, List.append_nil]
    rfl

theorem decodeFrom_iff (h : Name packet pos walk last fin)
    (hsize : packet.length ≤ 0xff80 ∨ ∀ low, .pointer low ∈ walk → low.toNat < 128)
    (rtn : Option ℕ) (out : Bytes) : (decodeFrom packet ⟨pos, rtn, out, true⟩).Returns
      (out ++ joinDots (labels walk), rtn.getD fin) ↔ DecodableFrom packet walk last rtn := by
  induction h generalizing rtn out with
  | @root pos hpos =>
    have hroot := decodeFrom_root hpos rtn out
    simp only [labels, List.filterMap_nil, joinDots, List.append_nil, DecodableFrom]
    rw [hroot]
    simp
  | @label pos last fin walk text hne hlen hpos htext hname ih =>
    obtain ⟨c, hc, hzero⟩ := hname.first
    have hlow : (∀ low, Element.pointer low ∈ Element.label text :: walk → low.toNat < 128)
        ↔ ∀ low, Element.pointer low ∈ walk → low.toNat < 128 :=
      forall_congr' fun low => imp_congr_left (by simp)
    have hcons : labels (.label text :: walk) = text :: labels walk := rfl
    rw [decodeFrom_label (by omega) hpos htext, hcons]
    simp only [hc, Option.some_inj, exists_eq_left']
    by_cases hwalk : walk = []
    · subst hwalk
      cases hname with
      | root _ =>
        rw [if_pos (hzero.mpr rfl), decodeFrom_stop]
        refine iff_of_true rfl ⟨fun low hlow => ?_, .inl ⟨text, rfl⟩⟩
        exact absurd hlow (by simp)
    · rw [if_neg fun hc => hwalk (hzero.mp hc)]
      have hlast : (Element.label text :: walk).getLast? = walk.getLast? := by
        rw [List.getLast?_cons, List.getLast?_eq_some_getLast hwalk]
        rfl
      by_cases hnil : labels walk = []
      · refine iff_of_false (fun hr => ?_) ?_
        · refine absurd (prefix_of_returns hr) (not_prefix_of_longer ?_)
          simp [hnil, joinDots]
        · rintro ⟨-, ⟨other, hother⟩ | ⟨-, hcontra, -⟩⟩
          · rw [hlast] at hother
            exact labels_ne_nil hother hnil
          · exact absurd hcontra (List.cons_ne_nil _ _)
      · have hjoin : out ++ joinDots (text :: labels walk)
            = out ++ text ++ [dot] ++ joinDots (labels walk) := by
          rw [joinDots_cons text hnil]
          simp only [List.append_assoc, List.singleton_append]
        rw [hjoin, ih (hsize.imp_right hlow.mp), DecodableFrom, DecodableFrom, hlast, hlow, hcons]
        simp only [hnil, List.cons_ne_nil, false_and, and_false]
  | @pointer pos last fin walk high low hhigh hptr hlow hlt hname ih =>
    rw [decodeFrom_pointer hhigh hptr hlow]
    by_cases hchar : low.toNat < 128
    · have hback : rtn.getD (pos + 2) = (rtn.or (some (pos + 2))).getD fin := by
        cases rtn <;> rfl
      have hcons : labels (.pointer low :: walk) = labels walk := rfl
      have hmem : (∀ l, Element.pointer l ∈ Element.pointer low :: walk → l.toNat < 128)
          ↔ ∀ l, Element.pointer l ∈ walk → l.toNat < 128 := by
        simp [hchar]
      have hlast : (∃ text, (Element.pointer low :: walk).getLast? = some (.label text))
          ↔ ∃ text, walk.getLast? = some (.label text) := by
        refine exists_congr fun text => ?_
        cases walk <;> simp
      rw [pointerOffset_low high hchar, hcons, hback, ih (hsize.imp_right hmem.mp), DecodableFrom,
        DecodableFrom, hmem, hlast, hcons]
      simp
    · have hlarge := pointerOffset_high high (Nat.le_of_not_lt hchar)
      refine iff_of_false (fun hr => ?_) fun h => hchar (h.1 low List.mem_cons_self)
      obtain ⟨t, ht, -⟩ := decodeFrom_more.mp hr
      obtain ⟨s, hs, -⟩ := returns_bind.mp ht
      obtain ⟨c, hc, -⟩ := returns_bind.mp hs
      have hin : pointerOffset high low < packet.length :=
        (List.getElem?_eq_some_iff.mp (returns_byteAt.mp hc)).1
      rcases hsize with hsize | hlow'
      · omega
      · exact hchar (hlow' low List.mem_cons_self)

end Names

section Encoding

def encodedLabel (text : Bytes) : Bytes := UInt8.ofNat text.length :: text

def encoded (ls : List Bytes) : Bytes := ls.flatMap encodedLabel ++ [0]

lemma encoded_cons (text : Bytes) (ls : List Bytes) :
    encoded (text :: ls) = encodedLabel text ++ encoded ls := by
  rw [encoded, List.flatMap_cons, List.append_assoc, ← encoded]

lemma takeWhile_label {text : Bytes} (hdot : dot ∉ text) (rest : Bytes) :
    (text ++ dot :: rest).takeWhile (· ≠ dot) = text := by
  have hall : ∀ c ∈ text, decide (c ≠ dot) = true := fun c hc =>
    decide_eq_true fun heq => hdot (by rwa [← heq])
  rw [List.takeWhile_append_of_pos hall, List.takeWhile_cons_of_neg (by simp), List.append_nil]

lemma takeWhile_label_nil {text : Bytes} (hdot : dot ∉ text) :
    text.takeWhile (· ≠ dot) = text :=
  List.takeWhile_eq_self_iff.mpr fun c hc => decide_eq_true fun heq => hdot (by rwa [← heq])

lemma encodeDotted_joinDots {ls : List Bytes} (hls : ∀ text ∈ ls, text ≠ [] ∧ dot ∉ text) :
    encodeDotted (joinDots ls) = encoded ls := by
  induction ls with
  | nil =>
    rw [joinDots, encodeDotted]
    exact dif_pos rfl
  | cons text ls ih =>
    obtain ⟨hne, hdot⟩ := hls text List.mem_cons_self
    have hrest := ih fun other hother => hls other (List.mem_cons_of_mem text hother)
    rw [encoded_cons, ← hrest]
    by_cases hnil : ls = []
    · subst hnil
      have hdrop : text.drop (text.length + 1) = [] := List.drop_eq_nil_of_le (Nat.le_succ _)
      conv_lhs => rw [joinDots, encodeDotted]
      simp only [dif_neg hne, takeWhile_label_nil hdot, hdrop]
      rfl
    · have hdrop : (text ++ dot :: joinDots ls).drop (text.length + 1) = joinDots ls := by
        rw [← List.drop_drop, List.drop_left]
        rfl
      have hcons : text ++ dot :: joinDots ls ≠ [] := by simp
      conv_lhs => rw [joinDots_cons text hnil, encodeDotted]
      simp only [dif_neg hcons, takeWhile_label hdot, hdrop]
      rfl

lemma name_encoded {ls : List Bytes} (hls : ∀ text ∈ ls, text ≠ [] ∧ text.length ≤ 63)
    (before rest : Bytes) : ∃ last, Name (before ++ (encoded ls ++ rest)) before.length
      (ls.map .label) last (before.length + (encoded ls).length) := by
  induction ls generalizing before with
  | nil => exact ⟨_, .root (by simp [encoded])⟩
  | cons text ls ih =>
    obtain ⟨hne, hlen⟩ := hls text List.mem_cons_self
    obtain ⟨last, hname⟩ := ih (fun other hother => hls other (List.mem_cons_of_mem text hother))
      (before ++ encodedLabel text)
    have hfin : (before ++ encodedLabel text).length + (encoded ls).length
        = before.length + (encoded (text :: ls)).length := by
      rw [encoded_cons, List.length_append, List.length_append, Nat.add_assoc]
    have hpos : (before ++ encodedLabel text).length = before.length + 1 + text.length := by
      rw [List.length_append, encodedLabel, List.length_cons]
      omega
    have hpacket : before ++ encodedLabel text ++ (encoded ls ++ rest)
        = before ++ (encoded (text :: ls) ++ rest) := by
      rw [encoded_cons]
      simp only [List.append_assoc]
    rw [hfin, hpos, hpacket] at hname
    refine ⟨last, .label text hne hlen ?_ ?_ hname⟩
    · rw [List.getElem?_append_right le_rfl, Nat.sub_self]
      rfl
    · rw [List.drop_append, List.drop_eq_nil_of_le (Nat.le_succ _), Nat.add_sub_cancel_left,
        encoded_cons, List.append_assoc]
      exact List.take_left

lemma decodes_encoded {ls : List Bytes} (hne : ls ≠ [])
    (hls : ∀ text ∈ ls, text ≠ [] ∧ text.length ≤ 63 ∧ dot ∉ text) (before rest : Bytes) :
    (decodeDotted (before ++ (encodeDotted (joinDots ls) ++ rest)) before.length).Returns
      (joinDots ls, before.length + (encodeDotted (joinDots ls)).length) := by
  obtain ⟨last, hname⟩ := name_encoded (fun text h => ⟨(hls text h).1, (hls text h).2.1⟩) before rest
  have hlabels : labels (ls.map .label) = ls := by
    rw [labels, List.filterMap_map]
    exact List.filterMap_some
  have hlow : ∀ low, Element.pointer low ∈ ls.map Element.label → low.toNat < 128 := by
    intro low hmem
    obtain ⟨text, -, heq⟩ := List.mem_map.mp hmem
    exact absurd heq nofun
  have hlast : ∃ text, (ls.map Element.label).getLast? = some (.label text) := by
    rw [List.getLast?_map, List.getLast?_eq_some_getLast hne]
    exact ⟨_, rfl⟩
  have hdecode := (decodeFrom_iff hname (.inr hlow) none []).mpr ⟨hlow, .inl hlast⟩
  rw [hlabels] at hdecode
  rw [encodeDotted_joinDots fun text h => ⟨(hls text h).1, (hls text h).2.2⟩]
  exact hdecode

end Encoding

-- More than the arrays that the packets are read into have.
def maxPacket : ℕ := 0xff80

theorem decodeDotted_iff_decodable (packet : Bytes) (pos : ℕ) (walk : List Element)
    (last fin : ℕ) :
    (WellFormed packet pos walk last fin → packet.length ≤ maxPacket →
      ((decodeDotted packet pos).Returns (joinDots (labels walk), fin)
        ↔ Decodable packet walk last))
    ∧ ∀ ls before rest, ls ≠ [] → (∀ text ∈ ls, text ≠ [] ∧ text.length ≤ 63 ∧ dot ∉ text) →
      (decodeDotted (before ++ (encodeDotted (joinDots ls) ++ rest)) before.length).Returns
        (joinDots ls, before.length + (encodeDotted (joinDots ls)).length) := by
  refine ⟨fun h hsize => ?_, fun ls before rest hne hls => decodes_encoded hne hls before rest⟩
  have hiff := decodeFrom_iff h.name (.inl hsize) none []
  rw [decodableFrom_none] at hiff
  exact hiff

theorem decodeDotted_iff_decodable_pointer :
    (decodeDotted [1, 97, 0, 1, 98, 0xc0, 0] 3).Returns ([98, 46, 97], 7) :=
  ((decodeDotted_iff_decodable [1, 97, 0, 1, 98, 0xc0, 0] 3
    [.label [98], .pointer 0, .label [97]] 2 7).1
    ⟨.label [98] (by decide) (by decide) rfl rfl (.pointer 0xc0 0 rfl rfl rfl (by decide)
      (.label [97] (by decide) (by decide) rfl rfl (.root rfl))), by decide⟩ (by decide)).mpr
    ⟨by simp, .inl ⟨[97], rfl⟩⟩

def highPointer : Bytes := List.replicate 128 0 ++ [1, 97, 0, 0xc0, 0x80]

-- The root before a type `NS`, and a pointer to `a` at the offset 128.
theorem decodeDotted_root_and_pointer :
    (WellFormed [0, 0, 2, 0, 1] 0 [] 0 1 ∧ ¬ (decodeDotted [0, 0, 2, 0, 1] 0).Returns ([], 1))
    ∧ WellFormed highPointer 131 [.pointer 0x80, .label [97]] 130 133
      ∧ ¬ (decodeDotted highPointer 131).Returns ([97], 133) := by
  have hroot : (decodeDotted [0, 0, 2, 0, 1] 0).Returns ([], 2) := ⟨2, rfl⟩
  have hpointer : (decodeDotted highPointer 131).Yields (.error .outOfPacket) := ⟨2, rfl⟩
  refine ⟨⟨⟨.root rfl, by decide⟩, fun h => ?_⟩, ⟨.pointer 0xc0 0x80 rfl rfl rfl (by decide)
    (.label [97] (by decide) (by decide) rfl rfl (.root rfl)), by decide⟩, fun h => ?_⟩
  · exact absurd (Returns.unique hroot h) (by decide)
  · exact nomatch Yields.unique hpointer h

end SimpleCode.Net.Dns
