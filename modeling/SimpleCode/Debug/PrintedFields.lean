import Mathlib.Data.Nat.Digits.Lemmas
import SimpleCode.Debug.GeneralPrintf

set_option autoImplicit false

namespace SimpleCode.Debug.GeneralPrintf

open Foundations Foundations.Comp

section Narrowing

lemma short_eq (n : ℤ) : short n = (n + 2 ^ 15) % 2 ^ 16 - 2 ^ 15 := by
  rw [short, Int.bmod_def]
  split <;> omega

lemma short_of_range {n : ℤ} (hle : -2 ^ 15 ≤ n) (hlt : n < 2 ^ 15) : short n = n := by
  rw [short_eq]
  omega

lemma digits_short (n : ℤ) (control : Bytes) : digits short (short n) control
    = (short (digits id n control).1, (digits id n control).2) := by
  induction control generalizing n with
  | nil => rfl
  | cons c control ih =>
    rw [digits, digits]
    split
    · have hstep : short (short n * 10 + c.toNat - 48) = short (n * 10 + c.toNat - 48) := by
        simp only [short_eq]
        omega
      rw [hstep]
      exact ih _
    · rfl

lemma number_short {control control' : Bytes} {arguments arguments' : List Argument} {n : ℤ}
    (h : number id control arguments = .ok (n, control', arguments')) :
    number short control arguments = .ok (short n, control', arguments') := by
  unfold number at h ⊢
  dsimp only at h ⊢
  split at h
  · next hstar =>
    rw [if_pos hstar]
    split at h
    · obtain ⟨rfl, hrest⟩ := Prod.mk.inj (Except.ok.inj h)
      exact congrArg Except.ok (Prod.ext rfl hrest)
    · cases h
  · next hstar =>
    obtain ⟨rfl, hrest⟩ := Prod.mk.inj (Except.ok.inj h)
    have hdigits := digits_short 0 (flag 42 control).2
    rw [short_of_range (by decide) (by decide)] at hdigits
    rw [if_neg hstar, hdigits]
    exact congrArg Except.ok (Prod.ext rfl hrest)

lemma precision_short {control control' : Bytes} {arguments arguments' : List Argument} {n : ℤ}
    (h : precision id control arguments = .ok (n, control', arguments')) :
    precision short control arguments = .ok (short n, control', arguments') := by
  unfold precision at h ⊢
  dsimp only at h ⊢
  split at h
  · next hdot =>
    rw [if_pos hdot]
    exact number_short h
  · next hdot =>
    obtain ⟨rfl, hrest⟩ := Prod.mk.inj (Except.ok.inj h)
    rw [if_neg hdot]
    exact congrArg Except.ok (Prod.ext rfl hrest)

def Directive.narrowed (d : Directive) : Directive :=
  { d with minimumFieldWidth := short d.minimumFieldWidth, precision := short d.precision }

lemma directive_short {control control' : Bytes} {arguments arguments' : List Argument} {d : Directive}
    (h : directive id control arguments = .ok (d, control', arguments')) :
    directive short control arguments = .ok (d.narrowed, control', arguments') := by
  obtain ⟨width, hwidth, hrest⟩ := bind_eq_ok.mp h
  obtain ⟨limit, hlimit, hread⟩ := bind_eq_ok.mp hrest
  obtain ⟨rfl, hend⟩ := Prod.mk.inj (Except.ok.inj hread)
  exact bind_eq_ok.mpr ⟨_, number_short hwidth, bind_eq_ok.mpr ⟨_, precision_short hlimit,
    congrArg Except.ok (Prod.ext rfl hend)⟩⟩

end Narrowing

section Emission

variable {σ : Type} (outputFunction : σ → UInt8 → σ × ℤ)

def after (outputPointer : σ) (emitted : Bytes) : σ :=
  emitted.foldl (fun pointer c => (outputFunction pointer c).1) outputPointer

def answer (outputPointer : σ) (before : Bytes) (c : UInt8) : ℤ :=
  (outputFunction (after outputFunction outputPointer before) c).2

-- The output function was called for the characters `emitted`. If it answered with an error code,
-- then to the last of them, and that code is the result.
structure Emits (outputPointer : σ) (emitted : Bytes) (outputPointer' : σ) (result : ℤ) : Prop where
  pointer : outputPointer' = after outputFunction outputPointer emitted
  stops : ∀ before c rest, emitted = before ++ c :: rest →
    answer outputFunction outputPointer before c < 0 →
    rest = [] ∧ result = answer outputFunction outputPointer before c

def Accepted (outputPointer : σ) (emitted : Bytes) : Prop :=
  ∀ before c rest, emitted = before ++ c :: rest → 0 ≤ answer outputFunction outputPointer before c

structure Reached (outputPointer : σ) (emitted : Bytes) (p : Parameters σ) : Prop where
  pointer : p.outputPointer = after outputFunction outputPointer emitted
  counted : 0 ≤ p.numberOfOutputChars → p.numberOfOutputChars = emitted.length
    ∧ Accepted outputFunction outputPointer emitted
  stopped : p.numberOfOutputChars < 0 → ∃ before c, emitted = before ++ [c]
    ∧ Accepted outputFunction outputPointer before
    ∧ p.numberOfOutputChars = answer outputFunction outputPointer before c

variable {outputFunction} {outputPointer : σ} {emitted : Bytes} {p q : Parameters σ}

lemma accepted_append {c : UInt8} (h : Accepted outputFunction outputPointer emitted)
    (hc : 0 ≤ answer outputFunction outputPointer emitted c) :
    Accepted outputFunction outputPointer (emitted ++ [c]) := by
  intro before d rest heq
  rcases List.eq_nil_or_concat rest with rfl | ⟨rest, e, rfl⟩
  · obtain ⟨rfl, hd⟩ := List.append_inj' heq rfl
    obtain rfl := List.singleton_inj.mp hd
    exact hc
  · rw [List.concat_eq_append, ← List.cons_append, ← List.append_assoc] at heq
    exact h before d rest (List.append_inj' heq rfl).1

lemma reached_start (outputPointer : σ) :
    Reached outputFunction outputPointer [] ⟨0, outputPointer⟩ where
  pointer := rfl
  counted _ := ⟨rfl, fun before c rest h => absurd h (by simp)⟩
  stopped h := absurd h (lt_irrefl 0)

lemma Reached.emits (h : Reached outputFunction outputPointer emitted p) :
    Emits outputFunction outputPointer emitted p.outputPointer p.numberOfOutputChars where
  pointer := h.pointer
  stops before c rest heq herror := by
    by_cases hcount : 0 ≤ p.numberOfOutputChars
    · exact absurd ((h.counted hcount).2 before c rest heq) herror.not_ge
    · obtain ⟨before', c', heq', haccepted, hresult⟩ := h.stopped (not_le.mp hcount)
      rcases List.eq_nil_or_concat rest with rfl | ⟨rest, e, rfl⟩
      · obtain ⟨rfl, hc⟩ := List.append_inj' (heq.symm.trans heq') rfl
        obtain rfl := List.singleton_inj.mp hc
        exact ⟨rfl, hresult⟩
      · rw [heq', List.concat_eq_append, ← List.cons_append, ← List.append_assoc] at heq
        exact absurd (haccepted before c rest (List.append_inj' heq rfl).1) herror.not_ge

lemma outputAndCount_stopped (h : p.numberOfOutputChars < 0) (c : UInt8) :
    outputAndCount outputFunction p c = .ok p := by
  rw [outputAndCount, if_neg h.not_ge]

lemma Reached.outputAndCount (h : Reached outputFunction outputPointer emitted p)
    (hcount : 0 ≤ p.numberOfOutputChars) {c : UInt8}
    (hq : outputAndCount outputFunction p c = .ok q) :
    Reached outputFunction outputPointer (emitted ++ [c]) q := by
  obtain ⟨hlength, haccepted⟩ := h.counted hcount
  have hafter : (outputFunction p.outputPointer c).1
      = after outputFunction outputPointer (emitted ++ [c]) := by
    rw [after, List.foldl_append, h.pointer]
    rfl
  have hanswer : (outputFunction p.outputPointer c).2
      = answer outputFunction outputPointer emitted c := by
    rw [answer, h.pointer]
  rw [GeneralPrintf.outputAndCount, if_pos hcount] at hq
  dsimp only at hq
  split at hq
  · next hn =>
    obtain ⟨count, hint, hq⟩ := bind_eq_ok.mp hq
    obtain rfl := Except.ok.inj hq
    rw [int] at hint
    split at hint
    · obtain rfl := Except.ok.inj hint
      refine ⟨hafter, fun _ => ⟨?_, accepted_append haccepted (hanswer ▸ hn)⟩, fun hneg => ?_⟩
      · rw [hlength, List.length_append, List.length_singleton]
        rfl
      · exact absurd hneg (by dsimp only; omega)
    · cases hint
  · next hn =>
    obtain rfl := Except.ok.inj hq
    exact ⟨hafter, fun hpos => absurd hpos hn, fun _ => ⟨emitted, c, rfl, haccepted, hanswer⟩⟩

lemma outputAll_stopped (h : p.numberOfOutputChars < 0) (text : Bytes) :
    outputAll outputFunction text p = .ok p := by
  induction text with
  | nil => rfl
  | cons c text ih =>
    rw [outputAll, List.foldlM_cons, outputAndCount_stopped h]
    exact ih

lemma Reached.outputAll (h : Reached outputFunction outputPointer emitted p) {text : Bytes}
    (hq : outputAll outputFunction text p = .ok q) : ∃ more, more <+: text
      ∧ Reached outputFunction outputPointer (emitted ++ more) q
      ∧ (0 ≤ q.numberOfOutputChars → more = text) := by
  induction text generalizing p emitted with
  | nil =>
    obtain rfl := Except.ok.inj hq
    exact ⟨[], List.nil_prefix, by rwa [List.append_nil], fun _ => rfl⟩
  | cons c text ih =>
    by_cases hcount : 0 ≤ p.numberOfOutputChars
    · obtain ⟨p', hp', hrest⟩ := bind_eq_ok.mp hq
      obtain ⟨more, hmore, hreached, hall⟩ := ih (h.outputAndCount hcount hp') hrest
      rw [List.append_assoc] at hreached
      exact ⟨c :: more, (List.prefix_cons_inj c).mpr hmore, hreached,
        fun hn => congrArg (c :: ·) (hall hn)⟩
    · have hneg := not_le.mp hcount
      obtain rfl : p = q := Except.ok.inj ((outputAll_stopped hneg (c :: text)).symm.trans hq)
      exact ⟨[], List.nil_prefix, by rwa [List.append_nil], fun hn => absurd hn hcount⟩

lemma Reached.outputAll_ok (h : Reached outputFunction outputPointer emitted p) {text : Bytes}
    (hroom : emitted.length + text.length < 2 ^ 31) :
    ∃ q, GeneralPrintf.outputAll outputFunction text p = .ok q := by
  induction text generalizing p emitted with
  | nil => exact ⟨p, rfl⟩
  | cons c text ih =>
    rw [List.length_cons] at hroom
    by_cases hcount : 0 ≤ p.numberOfOutputChars
    · obtain ⟨p', hp'⟩ : ∃ p', GeneralPrintf.outputAndCount outputFunction p c = .ok p' := by
        have hlength := (h.counted hcount).1
        rw [GeneralPrintf.outputAndCount, if_pos hcount]
        dsimp only
        split
        · rw [int, if_pos (by omega)]
          exact ⟨_, rfl⟩
        · exact ⟨_, rfl⟩
      obtain ⟨q, hq⟩ := ih (h.outputAndCount hcount hp') (by
        rw [List.length_append, List.length_singleton]
        omega)
      exact ⟨q, bind_eq_ok.mpr ⟨p', hp', hq⟩⟩
    · exact ⟨p, outputAll_stopped (not_le.mp hcount) (c :: text)⟩

end Emission

section Fields

variable {σ : Type} {outputFunction : σ → UInt8 → σ × ℤ}

lemma countdown_of_range {n : ℤ} (hle : -2 ^ 15 < n) (hlt : n < 2 ^ 15) :
    countdown n = (n.toNat, if 0 < n then -1 else n - 1) := by
  rw [countdown, short_of_range (by omega) (by omega)]
  split_ifs with hcount hpos
  · exact Prod.ext (by dsimp only; omega) rfl
  · omega
  · omega
  · exact Prod.ext (by dsimp only; omega) rfl

def justification (f : Field) : ℤ :=
  let n := short (f.minimumFieldWidth - f.leadingZeros - f.editedStringLength)
  if f.options.minusSign then short (n - 1) else n

def padding (f : Field) : ℕ × ℤ :=
  if f.options.rightJustify then countdown (justification f) else (0, justification f)

def fieldText (f : Field) (s : Bytes) : Bytes :=
  (if f.options.minusSign && f.options.zeroPad then [45] else [])
    ++ (List.replicate (padding f).1 (if f.options.zeroPad then 48 else 32)
    ++ ((if f.options.minusSign && !f.options.zeroPad then [45] else [])
    ++ (List.replicate (countdown f.leadingZeros).1 48
    ++ (s.take (countdown f.editedStringLength).1
    ++ List.replicate (countdown (padding f).2).1 32))))

lemma outputAll_append (s t : Bytes) : outputAll outputFunction (s ++ t)
    = fun p => outputAll outputFunction s p >>= outputAll outputFunction t :=
  funext fun _ => List.foldlM_append

lemma outputAll_singleton (c : UInt8) (p : Parameters σ) :
    outputAll outputFunction [c] p = outputAndCount outputFunction p c := by
  cases h : outputAndCount outputFunction p c with
  | ok q => exact bind_eq_ok.mpr ⟨q, h, rfl⟩
  | error e =>
    rw [outputAll, List.foldlM_cons, h]
    rfl

lemma outputField_eq (p : Parameters σ) (f : Field) (s : Bytes) :
    outputField outputFunction p f s = outputAll outputFunction (fieldText f s) p := by
  have hsign (b : Bool) (p : Parameters σ) :
      outputIf outputFunction b 45 p = outputAll outputFunction (if b then [45] else []) p := by
    cases b with
    | true => exact (outputAll_singleton 45 p).symm
    | false => rfl
  unfold outputField fieldText
  simp only [hsign, outputAll_append]
  rfl

end Fields

section Layout

def layout (options : Options) (width : ℤ) (sign : Bytes) (zeros : ℕ) (content : Bytes) : Bytes :=
  let pad := (width - (sign.length + zeros + content.length : ℕ)).toNat
  let body := List.replicate zeros 48 ++ content
  if options.rightJustify then
    if options.zeroPad then sign ++ (List.replicate pad 48 ++ body)
    else List.replicate pad 32 ++ (sign ++ body)
  else sign ++ (body ++ List.replicate pad 32)

lemma length_layout (options : Options) (width : ℤ) (sign : Bytes) (zeros : ℕ) (content : Bytes) :
    ((layout options width sign zeros content).length : ℤ)
      = max width (sign.length + zeros + content.length : ℕ) := by
  have hpad (pad : ℕ) (hpad : pad = (width - (sign.length + zeros + content.length : ℕ)).toNat) :
      ((sign.length + (zeros + content.length) + pad : ℕ) : ℤ)
        = max width (sign.length + zeros + content.length : ℕ) := by
    omega
  rw [← hpad _ rfl, layout]
  split_ifs
  · simp only [List.length_append, List.length_replicate]
    omega
  · simp only [List.length_append, List.length_replicate]
    omega
  · simp only [List.length_append, List.length_replicate]
    omega

def InShort (n : ℤ) : Prop := -2 ^ 15 ≤ n ∧ n < 2 ^ 15

-- How far the width may be exceeded: the loops that pad count further down than to zero.
def slack (options : Options) : ℤ := if options.rightJustify then 2 ^ 15 - 2 else 2 ^ 15 - 1

def signText (minusSign : Bool) : Bytes := if minusSign then [45] else []

lemma fieldText_layout {f : Field} {zeros : ℕ} {content s : Bytes} (hzeros : f.leadingZeros = zeros)
    (hcontent : f.editedStringLength = content.length) (hs : content <+: s)
    (hshort : zeros + content.length < 2 ^ 15) (hwidth : InShort f.minimumFieldWidth)
    (hslack : ((signText f.options.minusSign).length + zeros + content.length : ℕ)
      ≤ f.minimumFieldWidth + slack f.options) :
    fieldText f s = layout f.options f.minimumFieldWidth (signText f.options.minusSign) zeros content := by
  obtain ⟨hle, hlt⟩ := hwidth
  obtain ⟨rest, rfl⟩ := hs
  obtain ⟨width, ⟨minusSign, rightJustify, zeroPad, capitalHex⟩, n, leadingZeros⟩ := f
  dsimp only at *
  subst hzeros hcontent
  have hslack : ((signText minusSign).length + zeros + content.length : ℕ)
      ≤ width + if rightJustify then 2 ^ 15 - 2 else 2 ^ 15 - 1 := hslack
  let pad : ℤ := width - ((signText minusSign).length + zeros + content.length : ℕ)
  have hpad : pad = width - ((signText minusSign).length + zeros + content.length : ℕ) := rfl
  have hlow : -2 ^ 15 < pad ∧ (rightJustify = true → -2 ^ 15 < pad - 1) := by
    split_ifs at hslack with hright
    · exact ⟨by omega, fun _ => by omega⟩
    · exact ⟨by omega, fun h => absurd h hright⟩
  have hjustification : justification ⟨width, ⟨minusSign, rightJustify, zeroPad, capitalHex⟩,
      content.length, zeros⟩ = pad := by
    rw [justification]
    dsimp only
    cases minusSign with
    | true =>
      have hlength : (signText true).length = 1 := rfl
      rw [hlength] at hpad
      rw [if_pos rfl, short_of_range (n := width - zeros - content.length) (by omega) (by omega),
        short_of_range (by omega) (by omega)]
      omega
    | false =>
      have hlength : (signText false).length = 0 := rfl
      rw [hlength] at hpad
      rw [if_neg Bool.false_ne_true, short_of_range (by omega) (by omega)]
      omega
  have htake : (content ++ rest).take content.length = content := List.take_left
  have hzeros : (countdown zeros).1 = zeros := by
    rw [countdown_of_range (by omega) (by omega)]
    exact Int.toNat_natCast zeros
  have hcontent : (countdown content.length).1 = content.length := by
    rw [countdown_of_range (by omega) (by omega)]
    exact Int.toNat_natCast content.length
  rw [fieldText, padding, hjustification]
  dsimp only
  rw [hzeros, hcontent, htake, layout, ← hpad]
  have hcount := countdown_of_range hlow.1 (by omega)
  cases rightJustify with
  | true =>
    -- behind the padding, the count is below zero
    have hbehind : (countdown (if 0 < pad then -1 else pad - 1)).1 = 0 := by
      have := hlow.2 rfl
      rw [countdown_of_range (by split_ifs <;> omega) (by split_ifs <;> omega)]
      split_ifs <;> omega
    rw [if_pos rfl, if_pos rfl, hcount]
    dsimp only
    rw [hbehind]
    cases minusSign <;> cases zeroPad <;> simp [signText]
  | false =>
    rw [if_neg Bool.false_ne_true, if_neg Bool.false_ne_true, hcount]
    cases minusSign <;> cases zeroPad <;> simp [signText]

end Layout

section Numerals

def numerals (base n : ℕ) : List ℕ := if n = 0 then [0] else (Nat.digits base n).reverse

def digitOf (capital : Bool) (n : ℕ) : UInt8 :=
  (if capital then bytes "0123456789ABCDEF" else bytes "0123456789abcdef").getD n 0

lemma digitChar_eq (capital : Bool) {n : ℕ} (h : n < 16) : digitChar capital n = digitOf capital n := by
  revert capital
  interval_cases n <;> decide

variable {base n : ℕ}

lemma numerals_lt (hbase : 1 < base) : ∀ d ∈ numerals base n, d < base := by
  intro d hd
  rw [numerals] at hd
  split at hd
  · rw [List.mem_singleton.mp hd]
    exact Nat.zero_lt_of_lt hbase
  · exact Nat.digits_lt_base hbase (List.mem_reverse.mp hd)

lemma ofDigits_numerals (base n : ℕ) : Nat.ofDigits base (numerals base n).reverse = n := by
  rw [numerals]
  split
  · next hn =>
    rw [hn]
    rfl
  · rw [List.reverse_reverse]
    exact Nat.ofDigits_digits base n

lemma numerals_length_le (hbase : 1 < base) {k : ℕ} (hk : 0 < k) (hn : n < base ^ k) :
    (numerals base n).length ≤ k := by
  rw [numerals]
  split
  · exact hk
  · rw [List.length_reverse]
    exact (Nat.digits_length_le_iff hbase n).mpr hn

lemma numerals_of_lt (hn : n < base) : numerals base n = [n] := by
  rw [numerals]
  split
  · next hzero => rw [hzero]
  · next hpos =>
    rw [Nat.digits_of_lt base n hpos hn]
    rfl

lemma numerals_of_le (hbase : 1 < base) (hn : base ≤ n) :
    numerals base n = numerals base (n / base) ++ [n % base] := by
  have hpos : 0 < n / base := Nat.div_pos hn (Nat.zero_lt_of_lt hbase)
  rw [numerals, if_neg (by omega), Nat.digits_def' hbase (by omega), List.reverse_cons, numerals,
    if_neg hpos.ne']

lemma editNumber_ok (capital : Bool) (hbase : 1 < base) {room : ℕ} (hn : n < base ^ room)
    (hroom : 0 < room) (buffer : Bytes) :
    editNumber base capital room n buffer
      = .ok ((numerals base n).map (digitChar capital) ++ buffer) := by
  induction room generalizing n buffer with
  | zero => exact absurd hroom (lt_irrefl 0)
  | succ room ih =>
    rw [editNumber]
    by_cases hlt : n < base
    · rw [Nat.div_eq_of_lt hlt, if_neg (by simp), numerals_of_lt hlt, Nat.mod_eq_of_lt hlt]
      rfl
    · have hle := not_lt.mp hlt
      have hdiv : 0 < n / base := Nat.div_pos hle (Nat.zero_lt_of_lt hbase)
      have hpow : n / base < base ^ room := Nat.div_lt_of_lt_mul (by rwa [← Nat.pow_succ'])
      have hpos : 0 < room := by
        rcases Nat.eq_zero_or_pos room with rfl | hpos
        · rw [Nat.pow_zero] at hpow
          omega
        · exact hpos
      rw [if_pos hdiv.ne', ih hpow hpos, numerals_of_le hbase hle, List.map_append,
        List.append_assoc]
      rfl

end Numerals

section Pieces

inductive Piece
  | literal (c : UInt8)
  | number (d : Directive) (base : ℕ) (capital : Bool) (value : ℤ)
  | character (d : Directive) (c : UInt8)
  | string (d : Directive) (s : CString)

def Conversion.piece (d : Directive) (arguments : List Argument) :
    Conversion → Option (Piece × List Argument)
  | .number base signed capital =>
    match d.longArgument, arguments with
    | true, .long x :: arguments =>
      some (.number d base capital (if signed then x.toInt else x.toNat), arguments)
    | false, .int n :: arguments =>
      some (.number d base capital (if signed then n.toInt else n.toNat), arguments)
    | _, _ => none
  | .character =>
    match arguments with
    | .int n :: arguments => some (.character d (UInt8.ofNat n.toNat), arguments)
    | _ => none
  | .string =>
    match arguments with
    | .string s :: arguments => some (.string d s, arguments)
    | _ => none

inductive Pieces : Bytes → List Argument → List Piece → Prop
  | done (arguments) : Pieces [] arguments []
  | literal {c control arguments pieces} : c ≠ 37 → Pieces control arguments pieces →
    Pieces (c :: control) arguments (.literal c :: pieces)
  | cut {control arguments arguments' d} :
    directive id control arguments = .ok (d, [], arguments') → Pieces (37 :: control) arguments []
  | invalid {control control' arguments arguments' d c pieces} :
    directive id control arguments = .ok (d, c :: control', arguments') → conversion c = none →
    Pieces control' arguments' pieces → Pieces (37 :: control) arguments (.literal c :: pieces)
  | field {control control' arguments arguments' arguments'' d c conv piece pieces} :
    directive id control arguments = .ok (d, c :: control', arguments') →
    conversion c = some conv → conv.piece d arguments' = some (piece, arguments'') →
    Pieces control' arguments'' pieces → Pieces (37 :: control) arguments (piece :: pieces)

structure Shown (d : Directive) (sign : Bytes) (zeros : ℕ) (content text : Bytes) : Prop where
  width : (text.length : ℤ) = max d.minimumFieldWidth (sign.length + zeros + content.length : ℕ)
  text : text = layout d.options d.minimumFieldWidth sign zeros content

def content (d : Directive) (s : CString) : Bytes :=
  if 0 ≤ d.precision then s.chars.take d.precision.toNat else s.chars

def Piece.Shows : Piece → Bytes → Prop
  | .literal c, text => text = [c]
  | .number d base capital value, text =>
    let ds := numerals base value.natAbs
    (∀ n ∈ ds, n < base) ∧ Nat.ofDigits base ds.reverse = value.natAbs
      ∧ Shown d (signText (decide (value < 0))) (d.precision - ds.length).toNat
        (ds.map (digitOf capital)) text
  | .character d c, text => Shown { d with options.zeroPad := false } [] 0 [c] text
  | .string d s, text => Shown { d with options.zeroPad := false } [] 0 (content d s) text

def Piece.length : Piece → ℤ
  | .literal _ => 1
  | .number d base _ value => max d.minimumFieldWidth
    ((signText (decide (value < 0))).length + max d.precision (numerals base value.natAbs).length)
  | .character d _ => max d.minimumFieldWidth 1
  | .string d s => max d.minimumFieldWidth (content d s).length

lemma Piece.Shows.length {piece : Piece} {text : Bytes} (h : piece.Shows text) :
    (text.length : ℤ) = piece.length := by
  cases piece with
  | literal c => exact congrArg (fun text => (List.length text : ℤ)) h
  | number d base capital value =>
    refine h.2.2.width.trans (congrArg (max d.minimumFieldWidth) ?_)
    rw [List.length_map]
    omega
  | character d c => exact h.width
  | string d s =>
    refine h.width.trans (congrArg (max d.minimumFieldWidth) ?_)
    rw [List.length_nil, Nat.zero_add]

-- The lengths have type `short` all the way, and the most negative number has no absolute value.
def Piece.Fits : Piece → Prop
  | .literal _ => True
  | .number d base _ value => InShort d.minimumFieldWidth ∧ InShort d.precision ∧ value ≠ -2 ^ 63
    ∧ (signText (decide (value < 0))).length + max d.precision (numerals base value.natAbs).length
      ≤ d.minimumFieldWidth + slack d.options
  | .character d _ => InShort d.minimumFieldWidth ∧ 1 ≤ d.minimumFieldWidth + slack d.options
  | .string d s => InShort d.minimumFieldWidth ∧ InShort d.precision ∧ s.length < 2 ^ 15
    ∧ (content d s).length ≤ d.minimumFieldWidth + slack d.options

lemma conversion_base {c : UInt8} {base : ℕ} {signed capital : Bool}
    (h : conversion c = some (.number base signed capital)) : 1 < base ∧ base ≤ 16 := by
  unfold conversion at h
  split_ifs at h <;> simp at h <;> omega

variable {d : Directive} {arguments rest : List Argument} {piece : Piece}

lemma unsignedLong_of_piece {base : ℕ} {signed capital : Bool}
    (h : (Conversion.number base signed capital).piece d arguments = some (piece, rest)) :
    ∃ x : BitVec 64, unsignedLong d.longArgument signed arguments = .ok (x, rest)
      ∧ piece = .number d base capital (if signed then x.toInt else x.toNat) := by
  unfold Conversion.piece at h
  rcases arguments with _ | ⟨n | x | s, arguments⟩
  · cases hlong : d.longArgument <;> rw [hlong] at h <;> cases h
  · cases hlong : d.longArgument with
    | true =>
      rw [hlong] at h
      cases h
    | false =>
      rw [hlong] at h
      obtain ⟨rfl, rfl⟩ := Prod.mk.inj (Option.some.inj h)
      refine ⟨_, rfl, ?_⟩
      cases signed with
      | true =>
        have hsign : (n.signExtend 64).toInt = n.toInt := BitVec.toInt_signExtend_of_le (by decide)
        rw [if_pos rfl, if_pos rfl, if_pos rfl, hsign]
      | false =>
        have hzero : (n.setWidth 64).toNat = n.toNat := by
          rw [BitVec.toNat_setWidth]
          exact Nat.mod_eq_of_lt (n.isLt.trans (by decide))
        rw [if_neg Bool.false_ne_true, if_neg Bool.false_ne_true, if_neg Bool.false_ne_true, hzero]
  · cases hlong : d.longArgument with
    | true =>
      rw [hlong] at h
      obtain ⟨rfl, rfl⟩ := Prod.mk.inj (Option.some.inj h)
      exact ⟨x, rfl, rfl⟩
    | false =>
      rw [hlong] at h
      cases h
  · cases hlong : d.longArgument <;> rw [hlong] at h <;> cases h

lemma magnitude_ok {signed : Bool} {x : BitVec 64} {value : ℤ}
    (hvalue : value = if signed then x.toInt else x.toNat) (hne : value ≠ -2 ^ 63) :
    (signed && decide (x.toInt < 0)) = decide (value < 0)
      ∧ magnitude (decide (value < 0)) x = .ok (value.natAbs : ℤ) := by
  have hrange := x.isLt
  have htoInt := BitVec.toInt_eq_toNat_cond x
  cases signed with
  | true =>
    rw [if_pos rfl] at hvalue
    subst hvalue
    refine ⟨Bool.true_and _, ?_⟩
    by_cases hneg : x.toInt < 0
    · rw [decide_eq_true hneg, magnitude, if_pos rfl, long,
        if_pos (by split_ifs at htoInt <;> omega)]
      exact congrArg Except.ok (by omega)
    · rw [decide_eq_false hneg, magnitude, if_neg Bool.false_ne_true]
      exact congrArg Except.ok (by split_ifs at htoInt <;> omega)
  | false =>
    rw [if_neg Bool.false_ne_true] at hvalue
    subst hvalue
    have hneg : ¬ (x.toNat : ℤ) < 0 := by omega
    refine ⟨by rw [Bool.false_and, decide_eq_false hneg], ?_⟩
    rw [magnitude, decide_eq_false hneg]
    rfl

lemma stringLength_ok (n : ℕ) (s : Bytes) (h : n + s.length < 2 ^ 15) :
    stringLength n s = .ok (n + s.length : ℕ) := by
  induction s generalizing n with
  | nil => rfl
  | cons c s ih =>
    rw [List.length_cons] at h
    have hshort : short (n + 1) = (n + 1 : ℕ) := by
      rw [short_of_range (by omega) (by omega)]
      rfl
    have hpos : ¬ ((n + 1 : ℕ) : ℤ) < 0 := by omega
    have hrest := ih (n + 1) (by omega)
    rw [stringLength, hshort]
    refine (if_neg hpos).trans (hrest.trans ?_)
    rw [List.length_cons, Nat.add_assoc, Nat.add_comm 1]

lemma edit_number {base : ℕ} {signed capital : Bool} (hbase : 1 < base ∧ base ≤ 16)
    (h : (Conversion.number base signed capital).piece d arguments = some (piece, rest))
    (hfits : piece.Fits) : ∃ f text,
      (Conversion.number base signed capital).edit d.narrowed arguments = .ok (f, text, rest)
        ∧ piece.Shows (fieldText f text) := by
  obtain ⟨x, hx, rfl⟩ := unsignedLong_of_piece h
  obtain ⟨value, hvalue⟩ : ∃ value : ℤ, value = if signed then x.toInt else x.toNat := ⟨_, rfl⟩
  rw [← hvalue] at hfits ⊢
  obtain ⟨hwidth, hprecision, hne, hslack⟩ := hfits
  obtain ⟨hsign, hmagnitude⟩ := magnitude_ok hvalue hne
  have hnarrowed : d.narrowed = d := by
    rw [Directive.narrowed, short_of_range hwidth.1 hwidth.2, short_of_range hprecision.1 hprecision.2]
  have hlt : value.natAbs < 2 ^ 64 := by
    have htoInt := BitVec.toInt_eq_toNat_cond x
    have hrange := x.isLt
    rw [hvalue]
    cases signed with
    | true =>
      rw [if_pos rfl]
      split_ifs at htoInt <;> omega
    | false =>
      rw [if_neg Bool.false_ne_true]
      omega
  have hpow : 2 ^ 64 ≤ base ^ 64 := Nat.pow_le_pow_left hbase.1 64
  have hlength := numerals_length_le hbase.1 (by decide : 0 < 64) (hlt.trans_le hpow)
  have hroom : value.natAbs < base ^ (8 * 8 + 1) :=
    (hlt.trans_le hpow).trans_le (Nat.pow_le_pow_right (Nat.zero_lt_of_lt hbase.1) (by decide))
  have hbuffer := editNumber_ok capital hbase.1 hroom (by decide) []
  rw [List.append_nil] at hbuffer
  let buffer := (numerals base value.natAbs).map (digitChar capital)
  have hdigits : buffer = (numerals base value.natAbs).map (digitOf capital) :=
    List.map_congr_left fun n hn => digitChar_eq capital ((numerals_lt hbase.1 n hn).trans_le hbase.2)
  have hcount : buffer.length = (numerals base value.natAbs).length := List.length_map _
  let zeros := (d.precision - (numerals base value.natAbs).length).toNat
  have hzeros : (if 0 ≤ d.precision ∧ (buffer.length : ℤ) < d.precision
      then short (d.precision - buffer.length) else 0) = (zeros : ℤ) := by
    have hshort := hprecision.2
    rw [hcount]
    split_ifs with hmore
    · rw [short_of_range (by omega) (by omega)]
      omega
    · omega
  let f : Field := ⟨d.minimumFieldWidth,
    { d.options with minusSign := decide (value < 0), capitalHex := capital }, buffer.length, zeros⟩
  have htext : fieldText f buffer = layout d.options d.minimumFieldWidth
      (signText (decide (value < 0))) zeros buffer := by
    refine fieldText_layout rfl rfl List.prefix_rfl ?_ hwidth ?_
    · have hshort := hprecision.2
      omega
    · have hsum : (((signText (decide (value < 0))).length + zeros + buffer.length : ℕ) : ℤ)
          ≤ d.minimumFieldWidth + slack d.options := by
        omega
      exact hsum
  refine ⟨f, buffer, ?_, numerals_lt hbase.1, ofDigits_numerals base _, ?_⟩
  · rw [hnarrowed]
    refine bind_eq_ok.mpr ⟨(x, rest), hx, ?_⟩
    dsimp only
    rw [hsign]
    refine bind_eq_ok.mpr ⟨_, hmagnitude, bind_eq_ok.mpr ⟨buffer, hbuffer, ?_⟩⟩
    exact congrArg (fun zeros => Except.ok ({ f with leadingZeros := zeros }, buffer, rest)) hzeros
  · rw [htext, ← hdigits]
    exact ⟨length_layout _ _ _ _ _, rfl⟩

lemma edit_character (hminus : d.options.minusSign = false)
    (h : Conversion.character.piece d arguments = some (piece, rest)) (hfits : piece.Fits) :
    ∃ f text, Conversion.character.edit d.narrowed arguments = .ok (f, text, rest)
      ∧ piece.Shows (fieldText f text) := by
  rcases arguments with _ | ⟨n | x | s, arguments⟩
  · cases h
  · obtain ⟨rfl, rfl⟩ := Prod.mk.inj (Option.some.inj h)
    obtain ⟨hwidth, hslack⟩ := hfits
    have hchar : UInt8.ofBitVec (n.setWidth 8) = UInt8.ofNat n.toNat := by
      refine UInt8.toNat_inj.mp ?_
      rw [UInt8.toNat_ofBitVec, BitVec.toNat_setWidth, UInt8.toNat_ofNat']
    let f : Field := ⟨d.minimumFieldWidth, { d.options with zeroPad := false }, 1, 0⟩
    have hsign : signText f.options.minusSign = [] := by
      rw [hminus]
      rfl
    refine ⟨f, [UInt8.ofNat n.toNat], ?_, ?_⟩
    · rw [← hchar, Conversion.edit, Directive.narrowed, short_of_range hwidth.1 hwidth.2]
    · have htext : fieldText f [UInt8.ofNat n.toNat] = layout f.options f.minimumFieldWidth
          (signText f.options.minusSign) 0 [UInt8.ofNat n.toNat] :=
        fieldText_layout rfl rfl List.prefix_rfl (by rw [List.length_singleton]; norm_num) hwidth
          (by rw [hsign]; exact hslack)
      rw [htext, hsign]
      exact ⟨length_layout _ _ _ _ _, rfl⟩
  · cases h
  · cases h

lemma edit_string (hminus : d.options.minusSign = false)
    (h : Conversion.string.piece d arguments = some (piece, rest)) (hfits : piece.Fits) :
    ∃ f text, Conversion.string.edit d.narrowed arguments = .ok (f, text, rest)
      ∧ piece.Shows (fieldText f text) := by
  rcases arguments with _ | ⟨n | x | s, arguments⟩
  · cases h
  · cases h
  · cases h
  · obtain ⟨rfl, rfl⟩ := Prod.mk.inj (Option.some.inj h)
    obtain ⟨hwidth, hprecision, hshort, hslack⟩ := hfits
    have hnarrowed : d.narrowed = d := by
      rw [Directive.narrowed, short_of_range hwidth.1 hwidth.2,
        short_of_range hprecision.1 hprecision.2]
    have hlength := stringLength_ok 0 s.chars (by rwa [Nat.zero_add])
    rw [Nat.zero_add] at hlength
    have hcontent : (if 0 ≤ d.precision ∧ d.precision < (s.chars.length : ℤ) then d.precision
        else (s.chars.length : ℤ)) = (content d s).length := by
      rw [content]
      by_cases hpos : 0 ≤ d.precision
      · rw [if_pos hpos, List.length_take]
        split_ifs <;> omega
      · rw [if_neg hpos, if_neg fun hcut => hpos hcut.1]
    have hprefix : content d s <+: s.chars := by
      rw [content]
      split_ifs
      · exact List.take_prefix _ _
      · exact List.prefix_rfl
    let f : Field := ⟨d.minimumFieldWidth, { d.options with zeroPad := false }, (content d s).length, 0⟩
    have hsign : signText f.options.minusSign = [] := by
      rw [hminus]
      rfl
    refine ⟨f, s.chars, ?_, ?_⟩
    · rw [hnarrowed]
      refine bind_eq_ok.mpr ⟨_, hlength, ?_⟩
      exact congrArg (fun n => Except.ok ({ f with editedStringLength := n }, s.chars, arguments))
        hcontent
    · have htext : fieldText f s.chars = layout f.options f.minimumFieldWidth
          (signText f.options.minusSign) 0 (content d s) :=
        fieldText_layout rfl rfl hprefix
          (by rw [Nat.zero_add]; exact hprefix.length_le.trans_lt hshort) hwidth
          (by rw [hsign, List.length_nil, Nat.zero_add]; exact hslack)
      rw [htext, hsign]
      exact ⟨length_layout _ _ _ _ _, rfl⟩

lemma edit_shows {conv : Conversion} {c : UInt8} (hminus : d.options.minusSign = false)
    (hconv : conversion c = some conv) (h : conv.piece d arguments = some (piece, rest))
    (hfits : piece.Fits) : ∃ f text, conv.edit d.narrowed arguments = .ok (f, text, rest)
      ∧ piece.Shows (fieldText f text) := by
  cases conv with
  | number base signed capital => exact edit_number (conversion_base hconv) h hfits
  | character => exact edit_character hminus h hfits
  | string => exact edit_string hminus h hfits

lemma directive_minusSign {narrow : ℤ → ℤ} {control control' : Bytes}
    (h : directive narrow control arguments = .ok (d, control', rest)) :
    d.options.minusSign = false := by
  obtain ⟨width, -, hrest⟩ := bind_eq_ok.mp h
  obtain ⟨limit, -, hread⟩ := bind_eq_ok.mp hrest
  obtain ⟨rfl, -⟩ := Prod.mk.inj (Except.ok.inj hread)
  rfl

end Pieces

section Printing

variable {σ : Type} {outputFunction : σ → UInt8 → σ × ℤ}

lemma step_literal {c : UInt8} (hc : c ≠ 37) (control : Bytes) (arguments : List Argument)
    (p : Parameters σ) : Printing.step outputFunction ⟨c :: control, arguments, p⟩
      = (outputAll outputFunction [c] p).map fun p => ⟨control, arguments, p⟩ := by
  rw [outputAll_singleton, Printing.step]
  dsimp only
  rw [if_neg hc]
  cases outputAndCount outputFunction p c <;> rfl

lemma step_cut {control : Bytes} {arguments arguments' : List Argument} {d : Directive}
    (h : directive id control arguments = .ok (d, [], arguments')) (p : Parameters σ) :
    Printing.step outputFunction ⟨37 :: control, arguments, p⟩ = .ok ⟨[], arguments', p⟩ := by
  rw [Printing.step]
  dsimp only
  rw [if_pos rfl, directive_short h]
  rfl

lemma step_invalid {control control' : Bytes} {arguments arguments' : List Argument} {d : Directive}
    {c : UInt8} (h : directive id control arguments = .ok (d, c :: control', arguments'))
    (hc : conversion c = none) (p : Parameters σ) :
    Printing.step outputFunction ⟨37 :: control, arguments, p⟩
      = (outputAll outputFunction [c] p).map fun p => ⟨control', arguments', p⟩ := by
  rw [outputAll_singleton, Printing.step]
  dsimp only
  rw [if_pos rfl, directive_short h, ok_bind]
  dsimp only
  rw [hc]
  dsimp only
  cases outputAndCount outputFunction p c <;> rfl

lemma step_field {control control' : Bytes} {arguments arguments' rest : List Argument}
    {d : Directive} {c : UInt8} {conv : Conversion} {f : Field} {text : Bytes}
    (h : directive id control arguments = .ok (d, c :: control', arguments'))
    (hconv : conversion c = some conv)
    (hedit : conv.edit d.narrowed arguments' = .ok (f, text, rest)) (p : Parameters σ) :
    Printing.step outputFunction ⟨37 :: control, arguments, p⟩
      = (outputAll outputFunction (fieldText f text) p).map fun p => ⟨control', rest, p⟩ := by
  rw [← outputField_eq, Printing.step]
  dsimp only
  rw [if_pos rfl, directive_short h, ok_bind]
  dsimp only
  rw [hconv]
  dsimp only
  rw [hedit, ok_bind]
  dsimp only
  cases outputField outputFunction p f text <;> rfl

variable {outputPointer : σ} {emitted : Bytes}

lemma Printing.step_reached {s t : Printing σ} (h : Reached outputFunction outputPointer emitted s.p)
    (hstep : s.step outputFunction = .ok t) :
    ∃ emitted', Reached outputFunction outputPointer emitted' t.p := by
  have hall {text : Bytes} {q : Parameters σ} (hq : outputAll outputFunction text s.p = .ok q) :
      ∃ emitted', Reached outputFunction outputPointer emitted' q := by
    obtain ⟨more, -, hreached, -⟩ := h.outputAll hq
    exact ⟨emitted ++ more, hreached⟩
  obtain ⟨control, arguments, p⟩ := s
  cases control with
  | nil =>
    obtain rfl := Except.ok.inj hstep
    exact ⟨emitted, h⟩
  | cons c control =>
    rw [Printing.step] at hstep
    dsimp only at hstep
    by_cases hc : c = 37
    · rw [if_pos hc] at hstep
      obtain ⟨⟨d, control', arguments'⟩, -, hstep⟩ := bind_eq_ok.mp hstep
      cases control' with
      | nil =>
        obtain rfl := Except.ok.inj hstep
        exact ⟨emitted, h⟩
      | cons c control' =>
        dsimp only at hstep
        cases hconv : conversion c with
        | none =>
          rw [hconv] at hstep
          obtain ⟨q, hq, hend⟩ := bind_eq_ok.mp hstep
          obtain rfl := Except.ok.inj hend
          exact hall ((outputAll_singleton c p).trans hq)
        | some conv =>
          rw [hconv] at hstep
          obtain ⟨⟨f, text, rest⟩, -, hstep⟩ := bind_eq_ok.mp hstep
          obtain ⟨q, hq, hend⟩ := bind_eq_ok.mp hstep
          obtain rfl := Except.ok.inj hend
          exact hall ((outputField_eq p f text).symm.trans hq)
    · rw [if_neg hc] at hstep
      obtain ⟨q, hq, hend⟩ := bind_eq_ok.mp hstep
      obtain rfl := Except.ok.inj hend
      exact hall ((outputAll_singleton c p).trans hq)

lemma generalPrintf_emits {controlString : CString} {arguments : List Argument} {outputPointer' : σ}
    {result : ℤ}
    (h : (generalPrintf outputFunction outputPointer controlString arguments).Returns
      (outputPointer', result)) :
    ∃ emitted, Emits outputFunction outputPointer emitted outputPointer' result := by
  obtain ⟨s, hloop, hs⟩ := returns_bind.mp h
  obtain ⟨rfl, rfl⟩ := Prod.mk.inj (Except.ok.inj (yields_pure.mp hs))
  obtain ⟨emitted, hreached⟩ := loop_invariant
    (fun s : Printing σ => ∃ emitted, Reached outputFunction outputPointer emitted s.p)
    (fun s t hs _ ht => hs.elim fun _ hreached =>
      Printing.step_reached hreached (yields_ofExcept.mp ht).symm)
    ⟨[], reached_start outputPointer⟩ hloop
  exact ⟨emitted, hreached.emits⟩

lemma length_flatten {pieces : List Piece} {texts : List Bytes}
    (h : List.Forall₂ Piece.Shows pieces texts) :
    (texts.flatten.length : ℤ) = (pieces.map Piece.length).sum := by
  induction h with
  | nil => rfl
  | cons hshows _ ih =>
    rw [List.flatten_cons, List.length_append, Nat.cast_add, hshows.length, ih, List.map_cons,
      List.sum_cons]

theorem printing_returns {control : Bytes} {arguments : List Argument} {pieces : List Piece}
    (h : Pieces control arguments pieces) (hfits : ∀ piece ∈ pieces, piece.Fits) :
    ∃ texts, List.Forall₂ Piece.Shows pieces texts ∧ ∀ p q,
      outputAll outputFunction texts.flatten p = .ok q → ∃ arguments',
        (loop (fun s : Printing σ => !s.control.isEmpty) (fun s => ofExcept (s.step outputFunction))
          ⟨control, arguments, p⟩).Returns ⟨[], arguments', q⟩ := by
  -- the first text, and the loop from there on
  have hround {c : UInt8} {control control' : Bytes} {arguments arguments' : List Argument}
      {text : Bytes} {texts : List Bytes} {p q : Parameters σ}
      (hstep : ∀ p, Printing.step outputFunction ⟨c :: control, arguments, p⟩
        = (outputAll outputFunction text p).map fun p => ⟨control', arguments', p⟩)
      (hrest : ∀ p q, outputAll outputFunction texts.flatten p = .ok q → ∃ arguments'',
        (loop (fun s : Printing σ => !s.control.isEmpty) (fun s => ofExcept (s.step outputFunction))
          ⟨control', arguments', p⟩).Returns ⟨[], arguments'', q⟩)
      (hq : outputAll outputFunction (text :: texts).flatten p = .ok q) : ∃ arguments'',
        (loop (fun s : Printing σ => !s.control.isEmpty) (fun s => ofExcept (s.step outputFunction))
          ⟨c :: control, arguments, p⟩).Returns ⟨[], arguments'', q⟩ := by
    rw [List.flatten_cons, outputAll_append] at hq
    obtain ⟨p', hp', hq⟩ := bind_eq_ok.mp hq
    obtain ⟨arguments'', hloop⟩ := hrest p' q hq
    refine ⟨arguments'', loop_step rfl (yields_ofExcept.mpr ?_) hloop⟩
    rw [hstep, hp']
    rfl
  induction h with
  | done arguments =>
    refine ⟨[], .nil, fun p q hq => ⟨arguments, ?_⟩⟩
    obtain rfl := Except.ok.inj hq
    exact loop_end rfl
  | literal hc _ ih =>
    obtain ⟨texts, hshows, hrest⟩ := ih fun piece hp => hfits piece (List.mem_cons_of_mem _ hp)
    exact ⟨_, .cons rfl hshows, fun p q => hround (step_literal hc _ _) hrest⟩
  | @cut control arguments arguments' d hd =>
    refine ⟨[], .nil, fun p q hq => ⟨arguments', ?_⟩⟩
    obtain rfl := Except.ok.inj hq
    exact loop_step rfl (yields_ofExcept.mpr (step_cut hd p).symm) (loop_end rfl)
  | invalid hd hc _ ih =>
    obtain ⟨texts, hshows, hrest⟩ := ih fun piece hp => hfits piece (List.mem_cons_of_mem _ hp)
    exact ⟨_, .cons rfl hshows, fun p q => hround (step_invalid hd hc) hrest⟩
  | field hd hconv hpiece _ ih =>
    obtain ⟨texts, hshows, hrest⟩ := ih fun piece hp => hfits piece (List.mem_cons_of_mem _ hp)
    obtain ⟨f, text, hedit, htext⟩ :=
      edit_shows (directive_minusSign hd) hconv hpiece (hfits _ List.mem_cons_self)
    exact ⟨_, .cons htext hshows, fun p q => hround (step_field hd hconv hedit) hrest⟩

theorem generalPrintf_prints (outputFunction : σ → UInt8 → σ × ℤ) (outputPointer : σ)
    (controlString : CString) (arguments : List Argument) :
    (∀ outputPointer' result,
      (generalPrintf outputFunction outputPointer controlString arguments).Returns
        (outputPointer', result) →
      ∃ emitted, Emits outputFunction outputPointer emitted outputPointer' result)
    ∧ ∀ pieces, Pieces controlString.chars arguments pieces → (∀ piece ∈ pieces, piece.Fits) →
      (pieces.map Piece.length).sum < 2 ^ 31 → ∃ texts emitted outputPointer' result,
        List.Forall₂ Piece.Shows pieces texts
        ∧ (generalPrintf outputFunction outputPointer controlString arguments).Returns
          (outputPointer', result)
        ∧ emitted <+: texts.flatten
        ∧ Emits outputFunction outputPointer emitted outputPointer' result
        ∧ ((∀ pointer c, 0 ≤ (outputFunction pointer c).2) →
          emitted = texts.flatten ∧ result = emitted.length) := by
  refine ⟨fun _ _ => generalPrintf_emits, fun pieces hpieces hfits htotal => ?_⟩
  obtain ⟨texts, hshows, hruns⟩ := @printing_returns σ outputFunction _ _ _ hpieces hfits
  have hroom : texts.flatten.length < 2 ^ 31 := by
    have hlength := length_flatten hshows
    omega
  have hstart : Reached outputFunction outputPointer [] ⟨0, outputPointer⟩ :=
    reached_start outputPointer
  obtain ⟨q, hq⟩ : ∃ q, outputAll outputFunction texts.flatten ⟨0, outputPointer⟩ = .ok q :=
    hstart.outputAll_ok (by rwa [List.length_nil, Nat.zero_add])
  obtain ⟨more, hmore, hreached, hall⟩ := hstart.outputAll hq
  obtain ⟨arguments', hloop⟩ := hruns _ q hq
  rw [List.nil_append] at hreached
  refine ⟨texts, more, q.outputPointer, q.numberOfOutputChars, hshows,
    returns_bind.mpr ⟨_, hloop, yields_pure.mpr rfl⟩, hmore, hreached.emits, fun hnever => ?_⟩
  have hcount : 0 ≤ q.numberOfOutputChars := by
    by_contra hneg
    obtain ⟨before, c, -, -, hanswer⟩ := hreached.stopped (not_le.mp hneg)
    exact hneg (hanswer ▸ hnever _ c)
  exact ⟨hall hcount, (hreached.counted hcount).1⟩

end Printing

section Examples

def collect (s : Bytes) (c : UInt8) : Bytes × ℤ := (s ++ [c], 0)

def ofWidth (w : ℤ) : Directive := ⟨⟨false, true, false, false⟩, w, -1, false⟩

def someFields : CString := ⟨bytes "%5d: %-8s%06lX", by decide⟩

def someArguments : List Argument := [.int (-42), .string ⟨bytes "abc", by decide⟩, .long 48879]

def somePieces : List Piece :=
  [.number (ofWidth 5) 10 false (-42), .literal 58, .literal 32,
    .string ⟨⟨false, false, false, false⟩, 8, -1, false⟩ ⟨bytes "abc", by decide⟩,
    .number ⟨⟨false, true, true, false⟩, 6, -1, true⟩ 16 true 48879]

theorem generalPrintf_prints_fields : ∃ texts emitted outputPointer' result,
    List.Forall₂ Piece.Shows somePieces texts
    ∧ (generalPrintf collect [] someFields someArguments).Returns (outputPointer', result)
    ∧ emitted <+: texts.flatten ∧ Emits collect [] emitted outputPointer' result
    ∧ ((∀ pointer c, 0 ≤ (collect pointer c).2) →
      emitted = texts.flatten ∧ result = emitted.length) := by
  have hpieces : Pieces someFields.chars someArguments somePieces :=
    .field rfl rfl rfl (.literal (by decide) (.literal (by decide)
      (.field rfl rfl rfl (.field rfl rfl rfl (.done [])))))
  have htext : (bytes "abc").length = 3 := by decide
  refine (generalPrintf_prints collect [] someFields someArguments).2 somePieces hpieces ?_ ?_
  · simp [somePieces, Piece.Fits, InShort, ofWidth, slack, numerals, signText, content, CString.length, htext]
  · simp [somePieces, Piece.length, ofWidth, numerals, signText, content, htext]

theorem generalPrintf_narrows :
    Pieces (bytes "%40000d") [.int 42] [.number (ofWidth 40000) 10 false 42]
    ∧ (¬ ∃ texts outputPointer' result,
      List.Forall₂ Piece.Shows [.number (ofWidth 40000) 10 false 42] texts
      ∧ (generalPrintf collect [] ⟨bytes "%40000d", by decide⟩ [.int 42]).Returns
        (outputPointer', result)
      ∧ result = texts.flatten.length)
    ∧ (generalPrintf collect [] ⟨bytes "%ld", by decide⟩ [.long (BitVec.intMin 64)]).Yields
      (.error .overflow) := by
  refine ⟨.field rfl rfl rfl (.done []), ?_, ⟨5, by decide⟩⟩
  rintro ⟨texts, outputPointer', result, hshows, hreturns, hresult⟩
  have hruns : (generalPrintf collect [] ⟨bytes "%40000d", by decide⟩ [.int 42]).Returns
      (bytes "42", 2) := ⟨5, by decide⟩
  have hlength := length_flatten hshows
  obtain ⟨-, htwo⟩ := Prod.mk.inj (Returns.unique hreturns hruns)
  rw [← hresult, htwo] at hlength
  simp [Piece.length, ofWidth, numerals, signText] at hlength

end Examples

end SimpleCode.Debug.GeneralPrintf
