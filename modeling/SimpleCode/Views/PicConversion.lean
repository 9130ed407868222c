import SimpleCode.Foundations.Buffer
import SimpleCode.Foundations.CString
import SimpleCode.Foundations.Positional

set_option autoImplicit false

namespace SimpleCode.Views.PicConversion

open Foundations

inductive Fault
  | overflow
deriving DecidableEq, Repr

def int (x : ℕ) : Except Fault ℕ := if x < 2 ^ 31 then .ok x else .error .overflow

def hexDigit (v : UInt8) : UInt8 := if v < 10 then 48 + v else 97 + (v - 10)

def print02x (c : UInt8) : Bytes := [hexDigit (c / 16), hexDigit (c % 16)]

-- `sprintf` ends its two digits with a zero, which the next two digits overwrite.
def sprintByte (data : Bytes) (i : ℕ) (out : ℕ → UInt8) : Except Fault (ℕ → UInt8) := do
  let pos ← int (i * 2)
  .ok (Buffer.put out pos (print02x (data.getD i 0) ++ [0]))

def data2Hex (data : Bytes) (out : ℕ → UInt8) : Except Fault (ℕ × (ℕ → UInt8)) := do
  let out ← counted 0 (sprintByte data) data.length out
  let pos ← int (data.length * 2)
  .ok (pos, Function.update out pos 0)

-- A `char` is promoted with its sign.
def char2int (c : UInt8) : ℤ :=
  if 48 ≤ c ∧ c ≤ 57 then c.toBitVec.toInt - 48
  else if 97 ≤ c ∧ c ≤ 122 then c.toBitVec.toInt - 97 + 10
  else if 65 ≤ c ∧ c ≤ 90 then c.toBitVec.toInt - 65 + 10
  else c.toBitVec.toInt

def byteOf (c c' : UInt8) : UInt8 := UInt8.ofInt (char2int c * 16 + char2int c')

def fillData (hex : Bytes) (n : ℕ) (data : ℕ → UInt8) : ℕ → UInt8 :=
  (List.range n).foldl (fun data i =>
    Function.update data (0 + i) (byteOf (hex.getD (i * 2) 0) (hex.getD (i * 2 + 1) 0))) data

-- `int len = strlen(hex)`; the loop leaves `i` at the number of the bytes.
def hex2Data (hex : CString) (data : ℕ → UInt8) : ℤ × (ℕ → UInt8) :=
  let len := (hex.length : ℤ).bmod (2 ^ 32)
  if len.tmod 2 ≠ 0 then (-1, data)
  else ((len.tdiv 2).toNat, fillData hex.chars (len.tdiv 2).toNat data)

def isHexDigit (c : UInt8) : Prop := 48 ≤ c ∧ c ≤ 57 ∨ 97 ≤ c ∧ c ≤ 102 ∨ 65 ≤ c ∧ c ≤ 70

def toLower (c : UInt8) : UInt8 := if 65 ≤ c ∧ c ≤ 90 then c + 32 else c

def Holds (buf : ℕ → UInt8) (s : CString) : Prop :=
  Buffer.contents buf (s.length + 1) = s.chars ++ [0]

section Digits

lemma byteOf_print02x (c : UInt8) : byteOf (hexDigit (c / 16)) (hexDigit (c % 16)) = c := by
  have hall : ∀ b : BitVec 8, byteOf (hexDigit (⟨b⟩ / 16)) (hexDigit (⟨b⟩ % 16)) = ⟨b⟩ := by
    decide +kernel
  exact hall c.toBitVec

lemma print02x_ne_zero (c : UInt8) : (0 : UInt8) ∉ print02x c := by
  have hall : ∀ b : BitVec 8, (0 : UInt8) ∉ print02x ⟨b⟩ := by decide +kernel
  exact hall c.toBitVec

lemma char2int_of_isHexDigit {c : UInt8} (h : isHexDigit c) :
    ∃ v : ℕ, v < 16 ∧ char2int c = v ∧ hexDigit (UInt8.ofNat v) = toLower c := by
  have hall : ∀ b : BitVec 8, isHexDigit ⟨b⟩ → 0 ≤ char2int ⟨b⟩ ∧ (char2int ⟨b⟩).toNat < 16
      ∧ hexDigit (UInt8.ofNat (char2int ⟨b⟩).toNat) = toLower ⟨b⟩ := by
    unfold isHexDigit
    decide +kernel
  obtain ⟨hnonneg, hlt, hlower⟩ := hall c.toBitVec h
  exact ⟨_, hlt, (Int.toNat_of_nonneg hnonneg).symm, hlower⟩

lemma print02x_byteOf {c c' : UInt8} (h : isHexDigit c) (h' : isHexDigit c') :
    print02x (byteOf c c') = [toLower c, toLower c'] := by
  obtain ⟨v, hv, hchar, hlower⟩ := char2int_of_isHexDigit h
  obtain ⟨w, hw, hchar', hlower'⟩ := char2int_of_isHexDigit h'
  have hbyte : byteOf c c' = UInt8.ofNat (v * 16 + w) := by
    have hmod : ((v : ℤ) * 16 + w) % 2 ^ 8 = (v * 16 + w : ℕ) := by
      push_cast
      omega
    rw [byteOf, hchar, hchar', UInt8.ofInt, hmod, Int.toNat_natCast]
  have hhigh : UInt8.ofNat (v * 16 + w) / 16 = UInt8.ofNat v := by
    rw [← UInt8.toNat_inj, UInt8.toNat_div, UInt8.toNat_ofNat', UInt8.toNat_ofNat']
    change (v * 16 + w) % 256 / 16 = v % 256
    omega
  have hlow : UInt8.ofNat (v * 16 + w) % 16 = UInt8.ofNat w := by
    rw [← UInt8.toNat_inj, UInt8.toNat_mod, UInt8.toNat_ofNat', UInt8.toNat_ofNat']
    change (v * 16 + w) % 256 % 16 = w % 256
    omega
  rw [hbyte, print02x, hhigh, hlow, hlower, hlower']

end Digits

section RoundTrips

variable {data text : Bytes} {buf : ℕ → UInt8} {n : ℕ}

lemma contents_put_end (buf : ℕ → UInt8) (n : ℕ) (text : Bytes) :
    Buffer.contents (Buffer.put buf n (text ++ [0])) (n + text.length) = Buffer.contents buf n ++ text := by
  have hput := Buffer.contents_put buf n (text ++ [0])
  rw [List.length_append, List.length_singleton, ← Nat.add_assoc, Buffer.contents_succ, ← List.append_assoc]
    at hput
  exact (List.append_inj' hput rfl).1

lemma flatMap_print02x_length (data : Bytes) : (data.flatMap print02x).length = data.length * 2 := by
  induction data with
  | nil => rfl
  | cons c data ih =>
    rw [List.flatMap_cons, List.length_append, ih, List.length_cons]
    change 2 + _ = _
    omega

lemma data2Hex_ok (out : ℕ → UInt8) (h : data.length < 2 ^ 30) :
    ∃ buf, data2Hex data out = .ok (data.length * 2, buf)
      ∧ Buffer.contents buf (data.length * 2 + 1) = data.flatMap print02x ++ [0] := by
  have hloop : ∃ b, counted 0 (sprintByte data) data.length out = .ok b
      ∧ Buffer.contents b (data.length * 2) = (data.take data.length).flatMap print02x := by
    refine counted_ok (fun k b => Buffer.contents b (k * 2) = (data.take k).flatMap print02x)
      (fun k hk b hinv => ⟨Buffer.put b (k * 2) (print02x (data.getD k 0) ++ [0]), ?_, ?_⟩) rfl
    · rw [Nat.zero_add, sprintByte, int, if_pos (by omega), ok_bind]
    · have hput := contents_put_end b (k * 2) (print02x (data.getD k 0))
      have htake : data.take (k + 1) = data.take k ++ [data.getD k 0] := by
        rw [List.take_add_one, List.getElem?_eq_getElem hk, List.getD_eq_getElem _ _ hk]
        rfl
      rw [htake, List.flatMap_append, List.flatMap_singleton, ← hinv, ← hput, Nat.succ_mul]
      rfl
  obtain ⟨b, hb, hcontents⟩ := hloop
  rw [List.take_length] at hcontents
  refine ⟨Function.update b (data.length * 2) 0, ?_, ?_⟩
  · rw [data2Hex, hb, ok_bind, int, if_pos (by omega), ok_bind]
  · rw [Buffer.contents_succ, Function.update_self, ← hcontents]
    congr 1
    exact Buffer.contents_congr fun i hi => Function.update_of_ne hi.ne _ _

lemma data2Hex_overflow (out : ℕ → UInt8) (h : 2 ^ 30 ≤ data.length) :
    data2Hex data out = .error .overflow := by
  cases hresult : data2Hex data out with
  | error e =>
    cases e
    rfl
  | ok r =>
    obtain ⟨b, -, hend⟩ := bind_eq_ok.mp hresult
    rw [int, if_neg (by omega)] at hend
    cases hend

lemma hex2Data_ok {hex : CString} (buf : ℕ → UInt8) (hlen : hex.length = n * 2) (hlt : n < 2 ^ 30) :
    ∃ b, hex2Data hex buf = ((n : ℤ), b) ∧ Buffer.contents b n
      = (List.range n).map fun i => byteOf (hex.chars.getD (i * 2) 0) (hex.chars.getD (i * 2 + 1) 0) := by
  have hint : (hex.length : ℤ).bmod (2 ^ 32) = (n : ℤ) * 2 := by
    rw [hlen, Int.bmod_def]
    split <;> omega
  have heven : ((n : ℤ) * 2).tmod 2 = 0 := Int.mul_tmod_left _ _
  have hhalf : (((n : ℤ) * 2).tdiv 2).toNat = n := by
    rw [Int.mul_tdiv_cancel _ (by decide), Int.toNat_natCast]
  refine ⟨fillData hex.chars n buf, ?_, ?_⟩
  · unfold hex2Data
    dsimp only
    rw [hint, if_neg (not_not.mpr heven), hhalf]
  rw [fillData, Cells.foldl_update_eq_copy]
  refine List.map_congr_left fun i hi => ?_
  rw [List.mem_range] at hi
  rw [Cells.copy, if_pos (by omega), Nat.sub_zero]

lemma getD_flatMap_print02x {i : ℕ} (hi : i < data.length) :
    (data.flatMap print02x).getD (i * 2) 0 = hexDigit (data.getD i 0 / 16)
      ∧ (data.flatMap print02x).getD (i * 2 + 1) 0 = hexDigit (data.getD i 0 % 16) := by
  induction data generalizing i with
  | nil => exact absurd hi (Nat.not_lt_zero i)
  | cons c data ih =>
    cases i with
    | zero => exact ⟨rfl, rfl⟩
    | succ i =>
      rw [Nat.succ_mul]
      exact ih (Nat.lt_of_succ_lt_succ hi)

lemma flatMap_print02x_byteOf (htext : text.length = n * 2) (hdigits : ∀ c ∈ text, isHexDigit c) :
    ((List.range n).map fun i => byteOf (text.getD (i * 2) 0) (text.getD (i * 2 + 1) 0)).flatMap print02x
      = text.map toLower := by
  induction n generalizing text with
  | zero =>
    obtain rfl : text = [] := List.eq_nil_of_length_eq_zero htext
    rfl
  | succ n ih =>
    obtain ⟨c, c', rest, rfl⟩ : ∃ c c' rest, text = c :: c' :: rest := by
      match text, htext with
      | [_], htext => exact absurd htext (by rw [List.length_singleton]; omega)
      | c :: c' :: rest, _ => exact ⟨c, c', rest, rfl⟩
    rw [List.range_succ_eq_map, List.map_cons, List.map_map, List.flatMap_cons]
    have hlength : rest.length = n * 2 := by simpa [Nat.succ_mul] using htext
    have hrest := ih hlength fun c hc =>
      hdigits c (List.mem_cons_of_mem _ (List.mem_cons_of_mem _ hc))
    have hhead := print02x_byteOf (hdigits c List.mem_cons_self)
      (hdigits c' (List.mem_cons_of_mem _ List.mem_cons_self))
    rw [List.map_cons, List.map_cons, ← hrest]
    refine (congrArg (· ++ _) hhead).trans ?_
    refine congrArg (fun bytes : Bytes => toLower c :: toLower c' :: bytes.flatMap print02x) ?_
    refine List.map_congr_left fun i _ => ?_
    rw [Function.comp_apply, Nat.succ_mul]
    rfl

theorem hex_round_trips (out buf : ℕ → UInt8) :
    (∀ data : Bytes, data.length < 2 ^ 30 → ∃ b hex, data2Hex data out = .ok (data.length * 2, b)
        ∧ Holds b hex ∧ ∃ d, hex2Data hex buf = ((data.length : ℤ), d) ∧ Buffer.contents d data.length = data)
      ∧ ∀ hex : CString, hex.length % 2 = 0 → (∀ c ∈ hex.chars, isHexDigit c) → hex.length < 2 ^ 31 →
        ∃ d, hex2Data hex buf = (((hex.length / 2 : ℕ) : ℤ), d)
          ∧ ∃ b lower, data2Hex (Buffer.contents d (hex.length / 2)) out = .ok (hex.length, b)
            ∧ Holds b lower ∧ lower.chars = hex.chars.map toLower := by
  constructor
  · intro data hlt
    obtain ⟨b, hb, hcontents⟩ := data2Hex_ok out hlt
    have hlength := flatMap_print02x_length data
    obtain ⟨hex, hhex⟩ : ∃ hex : CString, hex.chars = data.flatMap print02x :=
      ⟨⟨data.flatMap print02x, fun h => by
        obtain ⟨c, -, hc⟩ := List.mem_flatMap.mp h
        exact print02x_ne_zero c hc⟩, rfl⟩
    have hlen : hex.length = data.length * 2 := by rw [CString.length, hhex, hlength]
    obtain ⟨d, hd, hbytes⟩ := hex2Data_ok buf hlen hlt
    refine ⟨b, hex, hb, ?_, d, hd, ?_⟩
    · rw [Holds, hlen, hcontents, hhex]
    · rw [hbytes, hhex]
      refine List.ext_getElem (by simp) fun i _ hi => ?_
      obtain ⟨hhigh, hlow⟩ := getD_flatMap_print02x hi
      rw [List.getElem_map, List.getElem_range, hhigh, hlow, byteOf_print02x, List.getD_eq_getElem _ _ hi]
  · intro hex heven hdigits hlt
    have hlen : hex.length = hex.length / 2 * 2 := by omega
    obtain ⟨d, hd, hbytes⟩ := hex2Data_ok buf hlen (by omega)
    have htext := flatMap_print02x_byteOf hlen hdigits
    rw [← hbytes] at htext
    have hsize := Buffer.length_contents d (hex.length / 2)
    have hroom : (Buffer.contents d (hex.length / 2)).length < 2 ^ 30 := by omega
    obtain ⟨b, hb, hcontents⟩ := data2Hex_ok out hroom
    rw [hsize, ← hlen] at hb hcontents
    rw [htext] at hcontents
    refine ⟨d, hd, b, ⟨hex.chars.map toLower, ?_⟩, hb, ?_, rfl⟩
    · rw [← htext]
      intro h
      obtain ⟨c, -, hc⟩ := List.mem_flatMap.mp h
      exact print02x_ne_zero c hc
    · rw [Holds, CString.length, List.length_map]
      exact hcontents

theorem hex_round_trips_ab :
    (∃ b hex, data2Hex [171, 7] (fun _ => 0) = .ok (4, b) ∧ Holds b hex
        ∧ ∃ d, hex2Data hex (fun _ => 0) = (2, d) ∧ Buffer.contents d 2 = [171, 7])
      ∧ ∃ d, hex2Data ⟨[97, 66], by decide⟩ (fun _ => 0) = (1, d)
        ∧ ∃ b lower, data2Hex (Buffer.contents d 1) (fun _ => 0) = .ok (2, b)
          ∧ Holds b lower ∧ lower.chars = [97, 98] :=
  ⟨(hex_round_trips _ _).1 [171, 7] (by decide),
    (hex_round_trips _ _).2 ⟨[97, 66], by decide⟩ rfl (by unfold isHexDigit; decide +kernel)
      (by change 2 < 2 ^ 31; omega)⟩

-- `out[length * 2]` has no index of type `int`.
theorem data2Hex_too_long : ¬ ∀ (data : Bytes) (out buf : ℕ → UInt8), ∃ b hex,
    data2Hex data out = .ok (data.length * 2, b) ∧ Holds b hex
      ∧ ∃ d, hex2Data hex buf = ((data.length : ℤ), d) ∧ Buffer.contents d data.length = data := by
  intro h
  obtain ⟨b, hex, hb, -⟩ := h (List.replicate (2 ^ 30) 0) (fun _ => 0) (fun _ => 0)
  rw [data2Hex_overflow _ (List.length_replicate).ge] at hb
  cases hb

end RoundTrips

end SimpleCode.Views.PicConversion
