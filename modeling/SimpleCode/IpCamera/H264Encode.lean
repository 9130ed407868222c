import SimpleCode.Foundations.Bytes
import SimpleCode.Foundations.Positional

set_option autoImplicit false

namespace SimpleCode.IpCamera.H264Encode

open Foundations

inductive Fault
  -- A product that is none of type `int`.
  | overflow
  | outsideFrame
  | outsidePlane
  | outsideOut
deriving DecidableEq, Repr

inductive FrameType
  | auto
  | idr
  | i
  | p
deriving DecidableEq, Repr

structure Planes where
  y : Bytes
  u : Bytes
  v : Bytes
deriving DecidableEq, Repr

structure Picture where
  planes : Planes
  iType : FrameType
  iPts : ℤ

structure Encoder (κ : Type) where
  handle : κ
  width : ℕ
  height : ℕ
  pic : Picture
  nal : List Bytes
  picPts : ℤ

def int (x : ℕ) : Except Fault ℕ := if x < 2 ^ 31 then .ok x else .error .overflow

def store (plane : Bytes) (index : ℕ) (c : UInt8) : Except Fault Bytes :=
  if index < plane.length then .ok (plane.set index c) else .error .outsidePlane

structure Split where
  planes : Planes
  isY : Bool
  isU : Bool
  yIndex : ℕ
  uIndex : ℕ
  vIndex : ℕ
deriving DecidableEq, Repr

def splitByte (s : Split) (c : UInt8) : Except Fault Split := do
  if s.isY then
    let y ← store s.planes.y s.yIndex c
    .ok { s with
      planes := { s.planes with y }
      yIndex := s.yIndex + 1
      isY := false }
  else if s.isU then
    let u ← store s.planes.u s.uIndex c
    .ok { s with
      planes := { s.planes with u }
      uIndex := s.uIndex + 1
      isU := false
      isY := true }
  else
    let v ← store s.planes.v s.vIndex c
    .ok { s with
      planes := { s.planes with v }
      vIndex := s.vIndex + 1
      isU := true
      isY := true }

def readByte (frame : Bytes) (i : ℕ) (s : Split) : Except Fault Split :=
  if h : i < frame.length then splitByte s frame[i] else .error .outsideFrame

def splitFrame (w h : ℕ) (planes : Planes) (frame : Bytes) : Except Fault Planes := do
  let twice ← int (2 * w)
  let yuv422Length ← int (twice * h)
  let s ← counted 0 (readByte frame) yuv422Length ⟨planes, true, true, 0, 0, 0⟩
  .ok s.planes

def frameType (type : ℤ) : FrameType :=
  if type = 0 then .p else if type = 1 then .idr else if type = 2 then .i else .auto

def copyNals (room : ℕ) : Bytes → List Bytes → Except Fault Bytes
  | out, [] => .ok out
  | out, nal :: nals => do
    if room < out.length + nal.length then .error .outsideOut
    else
      let _ ← int (out.length + nal.length)
      copyNals room (out ++ nal) nals

-- `encode` is the encoder of the library: what it keeps, its units and what it returns. The result of a
-- failure is `none`.
def encodeFrameYUV422 {κ : Type} (encode : κ → Picture → κ × List Bytes × ℤ) (room : ℕ) (e : Encoder κ)
    (type : ℤ) (frame : Bytes) : Except Fault (Encoder κ × Option Bytes) := do
  let planes ← splitFrame e.width e.height e.pic.planes frame
  let pic : Picture := ⟨planes, frameType type, e.picPts⟩
  let (handle, nal, result) := encode e.handle pic
  let e := { e with
    handle
    pic
    nal
    picPts := e.picPts + 1 }
  if result < 0 then .ok (e, none)
  else
    let out ← copyNals room [] nal
    .ok (e, some out)

-- The samples of a frame are every second byte, and of the other bytes every second one.
def evens : Bytes → Bytes
  | [] => []
  | [a] => [a]
  | a :: _ :: frame => a :: evens frame

def odds : Bytes → Bytes
  | [] | [_] => []
  | _ :: b :: frame => b :: odds frame

def luma (frame : Bytes) : Bytes := evens frame

def chromaU (frame : Bytes) : Bytes := evens (odds frame)

def chromaV (frame : Bytes) : Bytes := odds (odds frame)

section Samples

variable {frame : Bytes}

lemma length_evens (l : Bytes) : (evens l).length = (l.length + 1) / 2 := by
  fun_induction evens l with
  | case1 | case2 => simp
  | case3 a b l ih =>
    simp only [List.length_cons, ih]
    omega

lemma length_odds (l : Bytes) : (odds l).length = l.length / 2 := by
  fun_induction odds l with
  | case1 | case2 => simp
  | case3 a b l ih =>
    simp only [List.length_cons, ih]
    omega

lemma samples_append (l : Bytes) (c : UInt8) :
    evens (l ++ [c]) = (if l.length % 2 = 0 then evens l ++ [c] else evens l)
      ∧ odds (l ++ [c]) = if l.length % 2 = 0 then odds l else odds l ++ [c] := by
  fun_induction evens l with
  | case1 => exact ⟨rfl, rfl⟩
  | case2 a => exact ⟨rfl, rfl⟩
  | case3 a b l ih =>
    have hparity : (l.length + 1 + 1) % 2 = l.length % 2 := Nat.add_mod_right l.length 2
    simp only [List.cons_append, List.length_cons, hparity, evens, odds, ih.1, ih.2]
    split_ifs <;> exact ⟨rfl, rfl⟩

lemma evens_append_even {l : Bytes} (h : l.length % 2 = 0) (c : UInt8) : evens (l ++ [c]) = evens l ++ [c] := by
  rw [(samples_append l c).1, if_pos h]

lemma evens_append_odd {l : Bytes} (h : l.length % 2 ≠ 0) (c : UInt8) : evens (l ++ [c]) = evens l := by
  rw [(samples_append l c).1, if_neg h]

lemma odds_append_even {l : Bytes} (h : l.length % 2 = 0) (c : UInt8) : odds (l ++ [c]) = odds l := by
  rw [(samples_append l c).2, if_pos h]

lemma odds_append_odd {l : Bytes} (h : l.length % 2 ≠ 0) (c : UInt8) : odds (l ++ [c]) = odds l ++ [c] := by
  rw [(samples_append l c).2, if_neg h]

lemma length_luma (frame : Bytes) : (luma frame).length = (frame.length + 1) / 2 := length_evens frame

lemma length_chromaU (frame : Bytes) : (chromaU frame).length = (frame.length + 2) / 4 := by
  rw [chromaU, length_evens, length_odds]
  omega

lemma length_chromaV (frame : Bytes) : (chromaV frame).length = frame.length / 4 := by
  rw [chromaV, length_odds, length_odds]
  omega

end Samples

section Loop

variable {planes : Planes} {frame l : Bytes} {c : UInt8} {w h n : ℕ}

def overwrite (plane l : Bytes) : Bytes := l ++ plane.drop l.length

lemma overwrite_full {plane : Bytes} (h : l.length = plane.length) : overwrite plane l = l := by
  rw [overwrite, h, List.drop_length, List.append_nil]

lemma length_overwrite {plane : Bytes} (h : l.length ≤ plane.length) : (overwrite plane l).length = plane.length := by
  rw [overwrite, List.length_append, List.length_drop, Nat.add_sub_cancel' h]

lemma store_overwrite {plane : Bytes} (h : l.length ≤ plane.length) : store (overwrite plane l) l.length c
    = if (l ++ [c]).length ≤ plane.length then .ok (overwrite plane (l ++ [c])) else .error .outsidePlane := by
  rw [store, length_overwrite h, List.length_append, List.length_singleton]
  by_cases hlt : l.length < plane.length
  · rw [if_pos hlt, if_pos (Nat.succ_le_of_lt hlt), overwrite, overwrite, List.set_append_right _ _ le_rfl,
      Nat.sub_self, List.drop_eq_getElem_cons hlt, List.set_cons_zero, List.length_append,
      List.length_singleton, List.append_assoc]
    rfl
  · rw [if_neg hlt, if_neg (fun hle => hlt (Nat.lt_of_succ_le hle))]

def Fits (planes : Planes) (l : Bytes) : Prop := (luma l).length ≤ planes.y.length
  ∧ (chromaU l).length ≤ planes.u.length ∧ (chromaV l).length ≤ planes.v.length

instance (planes : Planes) (l : Bytes) : Decidable (Fits planes l) := inferInstanceAs (Decidable (_ ∧ _))

def filled (planes : Planes) (l : Bytes) : Split where
  planes := ⟨overwrite planes.y (luma l), overwrite planes.u (chromaU l), overwrite planes.v (chromaV l)⟩
  isY := l.length % 2 = 0
  isU := (odds l).length % 2 = 0
  yIndex := (luma l).length
  uIndex := (chromaU l).length
  vIndex := (chromaV l).length

lemma filled_nil (planes : Planes) : filled planes [] = ⟨planes, true, true, 0, 0, 0⟩ := rfl

lemma splitByte_filled (h : Fits planes l) (c : UInt8) : splitByte (filled planes l) c
    = if Fits planes (l ++ [c]) then .ok (filled planes (l ++ [c])) else .error .outsidePlane := by
  obtain ⟨hy, hu, hv⟩ := h
  have hparity : (l ++ [c]).length % 2 = (l.length + 1) % 2 := by rw [List.length_append, List.length_singleton]
  by_cases hl : l.length % 2 = 0
  · have hluma : luma (l ++ [c]) = luma l ++ [c] := evens_append_even hl c
    have hodds : odds (l ++ [c]) = odds l := odds_append_even hl c
    have hfits : Fits planes (l ++ [c]) ↔ (luma l ++ [c]).length ≤ planes.y.length := by
      rw [Fits, hluma, chromaU, chromaV, hodds]
      exact and_iff_left ⟨hu, hv⟩
    have hnext : (l.length + 1) % 2 ≠ 0 := by omega
    simp only [splitByte, filled, hl, hparity, hnext, hluma, hodds, hfits, chromaU, chromaV, decide_true,
      decide_false, ite_true, store_overwrite hy]
    split_ifs
    · simp [ok_bind]
    · rfl
  · have hluma : luma (l ++ [c]) = luma l := evens_append_odd hl c
    have hodds : odds (l ++ [c]) = odds l ++ [c] := odds_append_odd hl c
    have hnext : (l.length + 1) % 2 = 0 := by omega
    have hparity' : (odds l ++ [c]).length % 2 = ((odds l).length + 1) % 2 := by
      rw [List.length_append, List.length_singleton]
    by_cases hodd : (odds l).length % 2 = 0
    · have hchromaU : chromaU (l ++ [c]) = chromaU l ++ [c] := by
        rw [chromaU, hodds, evens_append_even hodd, chromaU]
      have hchromaV : chromaV (l ++ [c]) = chromaV l := by
        rw [chromaV, hodds, odds_append_even hodd, chromaV]
      have hfits : Fits planes (l ++ [c]) ↔ (chromaU l ++ [c]).length ≤ planes.u.length := by
        rw [Fits, hluma, hchromaU, hchromaV]
        exact ⟨fun h => h.2.1, fun h => ⟨hy, h, hv⟩⟩
      have hnext' : ((odds l).length + 1) % 2 ≠ 0 := by omega
      simp only [splitByte, filled, hl, hparity, hparity', hnext, hnext', hluma, hodds, hodd, hchromaU, hchromaV,
        hfits, decide_true, decide_false, ite_true, Bool.false_eq_true, if_false, store_overwrite hu]
      split_ifs
      · simp [ok_bind]
      · rfl
    · have hchromaU : chromaU (l ++ [c]) = chromaU l := by
        rw [chromaU, hodds, evens_append_odd hodd, chromaU]
      have hchromaV : chromaV (l ++ [c]) = chromaV l ++ [c] := by
        rw [chromaV, hodds, odds_append_odd hodd, chromaV]
      have hfits : Fits planes (l ++ [c]) ↔ (chromaV l ++ [c]).length ≤ planes.v.length := by
        rw [Fits, hluma, hchromaU, hchromaV]
        exact ⟨fun h => h.2.2, fun h => ⟨hy, hu, h⟩⟩
      have hnext' : ((odds l).length + 1) % 2 = 0 := by omega
      simp only [splitByte, filled, hl, hparity, hparity', hnext, hnext', hluma, hodds, hodd, hchromaU, hchromaV,
        hfits, decide_false, Bool.false_eq_true, if_false, store_overwrite hv]
      split_ifs
      · simp [ok_bind]
      · rfl

lemma Fits.prefix (h : Fits planes frame) (n : ℕ) : Fits planes (frame.take n) := by
  have hlen := List.length_take_le' n frame
  rw [Fits, length_luma, length_chromaU, length_chromaV] at h ⊢
  omega

theorem counted_readByte (hn : n ≤ frame.length) :
    counted 0 (readByte frame) n ⟨planes, true, true, 0, 0, 0⟩
      = if Fits planes (frame.take n) then .ok (filled planes (frame.take n)) else .error .outsidePlane := by
  induction n with
  | zero =>
    rw [List.take_zero, if_pos (by simp [Fits, luma, chromaU, chromaV, evens, odds]), filled_nil, counted]
  | succ n ih =>
    have hlt : n < frame.length := hn
    have htake : frame.take (n + 1) = frame.take n ++ [frame[n]] := List.take_succ_eq_append_getElem hlt
    rw [counted, ih (Nat.le_of_succ_le hn)]
    by_cases hfits : Fits planes (frame.take n)
    · rw [if_pos hfits, ok_bind, Nat.zero_add, readByte, dif_pos hlt, splitByte_filled hfits, ← htake]
    · have hnot : ¬ Fits planes (frame.take (n + 1)) := fun h => hfits (by
        have hprefix := h.prefix n
        rwa [List.take_take, Nat.min_eq_left (Nat.le_succ n)] at hprefix)
      rw [if_neg hfits, if_neg hnot]
      rfl

-- The product is an `int`, and so is the one before it.
def Measured (w h : ℕ) : Prop := 2 * w < 2 ^ 31 ∧ 2 * w * h < 2 ^ 31

instance (w h : ℕ) : Decidable (Measured w h) := inferInstanceAs (Decidable (_ ∧ _))

theorem splitFrame_eq (hframe : frame.length = 2 * w * h) : splitFrame w h planes frame
    = if Measured w h then
        if Fits planes frame then .ok (filled planes frame).planes else .error .outsidePlane
      else .error .overflow := by
  rw [splitFrame, int]
  by_cases htwice : 2 * w < 2 ^ 31
  · rw [if_pos htwice, ok_bind, int]
    by_cases hlen : 2 * w * h < 2 ^ 31
    · have hmeasured : Measured w h := ⟨htwice, hlen⟩
      rw [if_pos hlen, ok_bind, counted_readByte hframe.ge, ← hframe, List.take_length, if_pos hmeasured]
      split_ifs <;> rfl
    · rw [if_neg hlen, if_neg (fun h => hlen h.2)]
      rfl
  · rw [if_neg htwice, if_neg (fun h => htwice h.1)]
    rfl

theorem splitFrame_yuv422 (hframe : frame.length = 2 * w * h) (hmeasured : Measured w h)
    (hy : planes.y.length = w * h) (hu : 2 * planes.u.length = w * h) (hv : 2 * planes.v.length = w * h) :
    splitFrame w h planes frame = .ok ⟨luma frame, chromaU frame, chromaV frame⟩ := by
  have hlen : frame.length = 2 * (w * h) := by rw [hframe, Nat.mul_assoc]
  have hluma : (luma frame).length = planes.y.length := by
    rw [length_luma]
    omega
  have hchromaU : (chromaU frame).length = planes.u.length := by
    rw [length_chromaU]
    omega
  have hchromaV : (chromaV frame).length = planes.v.length := by
    rw [length_chromaV]
    omega
  rw [splitFrame_eq hframe, if_pos hmeasured, if_pos ⟨hluma.le, hchromaU.le, hchromaV.le⟩, filled,
    overwrite_full hluma, overwrite_full hchromaU, overwrite_full hchromaV]

/-- Every write is inside its plane, the luma samples are in order, and so are as many chroma samples as the
planes have room for. -/
def SplitsFrame (w h : ℕ) (planes : Planes) (frame : Bytes) : Prop :=
  ∃ split, splitFrame w h planes frame = .ok split ∧ split.y = luma frame
    ∧ (split.u.length = w * h / 4 ∧ split.u.Sublist (chromaU frame))
    ∧ split.v.length = w * h / 4 ∧ split.v.Sublist (chromaV frame)

-- Of 4:2:0 only an empty frame fits.
theorem splitsFrame_iff (hw : Even w) (hh : Even h) (hy : planes.y.length = w * h)
    (hu : planes.u.length = w * h / 4) (hv : planes.v.length = w * h / 4) (hframe : frame.length = 2 * w * h) :
    SplitsFrame w h planes frame ↔ (w = 0 ∨ h = 0) ∧ 2 * w < 2 ^ 31 := by
  obtain ⟨i, rfl⟩ := hw
  obtain ⟨j, rfl⟩ := hh
  have hprod : (i + i) * (j + j) = 4 * (i * j) := by ring
  have hlen : frame.length = 8 * (i * j) := by
    rw [hframe]
    ring
  constructor
  · rintro ⟨split, hsplit, -⟩
    rw [splitFrame_eq hframe] at hsplit
    split_ifs at hsplit with hmeasured hfits
    have hzero : i * j = 0 := by
      have hroom := hfits.2.1
      rw [length_chromaU, hu, hlen, hprod] at hroom
      omega
    refine ⟨?_, hmeasured.1⟩
    rcases Nat.mul_eq_zero.mp hzero with rfl | rfl
    · exact .inl rfl
    · exact .inr rfl
  · rintro ⟨hempty, htwice⟩
    have hzero : (i + i) * (j + j) = 0 := Nat.mul_eq_zero.mpr hempty
    have hmeasured : Measured (i + i) (j + j) := by
      refine ⟨htwice, ?_⟩
      rw [Nat.mul_assoc, hzero]
      decide
    have hnil : frame = [] := by
      apply List.eq_nil_of_length_eq_zero
      rw [hframe, Nat.mul_assoc, hzero]
    refine ⟨_, splitFrame_yuv422 hframe hmeasured hy (by rw [hu, hzero]) (by rw [hv, hzero]), ?_⟩
    rw [hnil, hzero]
    exact ⟨rfl, ⟨rfl, List.nil_sublist _⟩, rfl, List.nil_sublist _⟩

theorem splitsFrame_iff_two : SplitsFrame 2 2 ⟨[0, 0, 0, 0], [0], [0]⟩ [1, 2, 3, 4, 5, 6, 7, 8]
    ↔ (2 = 0 ∨ 2 = 0) ∧ 2 * 2 < 2 ^ 31 :=
  splitsFrame_iff (by decide) (by decide) rfl rfl rfl rfl

-- The sixth byte is the second one for the plane of a single byte.
theorem split_two_by_two : ¬ SplitsFrame 2 2 ⟨[0, 0, 0, 0], [0], [0]⟩ [1, 2, 3, 4, 5, 6, 7, 8]
    ∧ splitFrame 2 2 ⟨[0, 0, 0, 0], [0], [0]⟩ [1, 2, 3, 4, 5, 6, 7, 8] = .error .outsidePlane := by
  have hrun : splitFrame 2 2 ⟨[0, 0, 0, 0], [0], [0]⟩ [1, 2, 3, 4, 5, 6, 7, 8] = .error .outsidePlane := by
    decide +kernel
  refine ⟨?_, hrun⟩
  rintro ⟨split, hsplit, -⟩
  rw [hrun] at hsplit
  cases hsplit

theorem encodeFrameYUV422_splits {κ : Type} {encode : κ → Picture → κ × List Bytes × ℤ} {room : ℕ}
    {e e' : Encoder κ} {type : ℤ} {out : Option Bytes}
    (hrun : encodeFrameYUV422 encode room e type frame = .ok (e', out)) :
    splitFrame e.width e.height e.pic.planes frame = .ok e'.pic.planes ∧ e'.pic.iType = frameType type
      ∧ e'.pic.iPts = e.picPts ∧ e'.picPts = e.picPts + 1
      ∧ (encode e.handle e'.pic).1 = e'.handle ∧ (encode e.handle e'.pic).2.1 = e'.nal := by
  rw [encodeFrameYUV422] at hrun
  obtain ⟨split, hsplit, hrun⟩ := bind_eq_ok.mp hrun
  rw [hsplit]
  dsimp only at hrun
  split_ifs at hrun
  · cases hrun
    exact ⟨rfl, rfl, rfl, rfl, rfl, rfl⟩
  · obtain ⟨copied, -, hrun⟩ := bind_eq_ok.mp hrun
    cases hrun
    exact ⟨rfl, rfl, rfl, rfl, rfl, rfl⟩

end Loop

end SimpleCode.IpCamera.H264Encode
