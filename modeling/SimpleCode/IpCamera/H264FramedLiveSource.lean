import SimpleCode.Foundations.Buffer
import SimpleCode.Foundations.Computation

set_option autoImplicit false

namespace SimpleCode.IpCamera

open Foundations

inductive Fault
  -- A byte is read in front of the frame or behind it.
  | outsideFrame
  -- More is written than the sink has asked for.
  | outsideTo
deriving DecidableEq, Repr

structure H264FramedLiveSource where
  dosent : Bool
  bufsizel : ℤ
  readbufsize : ℤ
  fFrameSize : ℕ

structure Call where
  fMaxSize : ℕ
  fTo : ℕ → UInt8

def memcpy (frame : Bytes) (call : Call) (pos : ℤ) (n : ℕ) : Except Fault (ℕ → UInt8) :=
  if call.fMaxSize < n then .error .outsideTo
  else if n = 0 ∨ 0 ≤ pos ∧ pos + n ≤ frame.length then
    .ok (Buffer.put call.fTo 0 ((frame.drop pos.toNat).take n))
  else .error .outsideFrame

namespace H264FramedLiveSource

-- The sum of an `int` and an `unsigned`, assigned to the `int`.
def advance (s : H264FramedLiveSource) : H264FramedLiveSource :=
  { s with readbufsize := (s.readbufsize + s.fFrameSize).bmod (2 ^ 32) }

-- What is left of the frame is compared as an `unsigned`, and copied as a `size_t`.
def doGetNextFrame (frame : Bytes) (s : H264FramedLiveSource) (call : Call) :
    Except Fault (H264FramedLiveSource × (ℕ → UInt8)) := do
  if s.dosent then
    let s : H264FramedLiveSource := ⟨false, frame.length, 0, call.fMaxSize⟩
    let fTo ← memcpy frame call s.readbufsize s.fFrameSize
    .ok (s.advance, fTo)
  else if call.fMaxSize < (s.bufsizel - s.readbufsize) % 2 ^ 32 then
    let s := { s with fFrameSize := call.fMaxSize }
    let fTo ← memcpy frame call s.readbufsize s.fFrameSize
    .ok (s.advance, fTo)
  else
    let fTo ← memcpy frame call s.readbufsize ((s.bufsizel - s.readbufsize) % 2 ^ 64).toNat
    .ok ({ s with dosent := true }, fTo)

def deliver (frame : Bytes) : H264FramedLiveSource → List Call →
    Except Fault (H264FramedLiveSource × List Bytes)
  | s, [] => .ok (s, [])
  | s, call :: calls => do
    let (s, fTo) ← s.doGetNextFrame frame call
    let chunk := Buffer.contents fTo s.fFrameSize
    if s.dosent then .ok (s, [chunk])
    else do
      let (s, chunks) ← deliver frame s calls
      .ok (s, chunk :: chunks)

/-- Of what is left, each limit but the last takes less than all, and what is left for the last one is
as much as the limit before it. -/
def Fits : ℕ → ℕ → List ℕ → Prop
  | _, _, [] => True
  | left, last, limit :: limits => if limit < left then Fits (left - limit) limit limits else left = last

section Chunks

variable {frame : Bytes} {s : H264FramedLiveSource} {call : Call} {calls : List Call} {pos last : ℕ}

def Reading (frame : Bytes) (pos last : ℕ) : H264FramedLiveSource := ⟨false, frame.length, pos, last⟩

/-- The calls stay inside the frame and inside the buffers of the sink, and once the flag is set again
the chunks are what was to be delivered. -/
def Delivers (frame : Bytes) (s : H264FramedLiveSource) (calls : List Call) (data : Bytes) : Prop :=
  ∃ s' chunks, deliver frame s calls = .ok (s', chunks) ∧ (s'.dosent → chunks.flatten = data)

lemma memcpy_ok {n : ℕ} (hn : n ≤ call.fMaxSize) (h : pos + n ≤ frame.length) :
    memcpy frame call pos n = .ok (Buffer.put call.fTo 0 ((frame.drop pos).take n)) := by
  rw [memcpy, if_neg hn.not_gt, if_pos (.inr ⟨Int.natCast_nonneg pos, by exact_mod_cast h⟩),
    Int.toNat_natCast]

lemma advance_reading (hframe : frame.length < 2 ^ 31) (h : pos + last ≤ frame.length) :
    (Reading frame pos last).advance = Reading frame (pos + last) last := by
  have hbmod : ((pos : ℤ) + last).bmod (2 ^ 32) = (pos + last : ℕ) := by
    rw [Int.bmod_def]
    split <;> omega
  unfold advance Reading
  rw [hbmod]

lemma contents_chunk {buf : ℕ → UInt8} {n : ℕ} (h : pos + n ≤ frame.length) :
    Buffer.contents (Buffer.put buf 0 ((frame.drop pos).take n)) n = (frame.drop pos).take n := by
  have hlength : ((frame.drop pos).take n).length = n := by
    rw [List.length_take, List.length_drop]
    omega
  have hcontents := Buffer.contents_put_zero buf ((frame.drop pos).take n)
  rwa [hlength] at hcontents

lemma doGetNextFrame_first (hframe : frame.length < 2 ^ 31) (hsent : s.dosent = true)
    (h : call.fMaxSize ≤ frame.length) : s.doGetNextFrame frame call
      = .ok (Reading frame call.fMaxSize call.fMaxSize,
        Buffer.put call.fTo 0 ((frame.drop 0).take call.fMaxSize)) := by
  have hadvance : (Reading frame 0 call.fMaxSize).advance = Reading frame (0 + call.fMaxSize) call.fMaxSize :=
    advance_reading hframe (by omega)
  have hcopy : memcpy frame call (0 : ℕ) call.fMaxSize
      = .ok (Buffer.put call.fTo 0 ((frame.drop 0).take call.fMaxSize)) :=
    memcpy_ok le_rfl (by omega)
  rw [Nat.zero_add] at hadvance
  rw [doGetNextFrame, if_pos hsent, ← hadvance]
  exact congrArg (fun fTo => fTo >>= _) hcopy

lemma doGetNextFrame_middle (hframe : frame.length < 2 ^ 31) (hpos : pos ≤ frame.length)
    (h : call.fMaxSize < frame.length - pos) :
    (Reading frame pos last).doGetNextFrame frame call
      = .ok (Reading frame (pos + call.fMaxSize) call.fMaxSize,
        Buffer.put call.fTo 0 ((frame.drop pos).take call.fMaxSize)) := by
  have hflag : ¬ (Reading frame pos last).dosent = true := Bool.false_ne_true
  have hless : (call.fMaxSize : ℤ)
      < ((Reading frame pos last).bufsizel - (Reading frame pos last).readbufsize) % 2 ^ 32 := by
    change _ < ((frame.length : ℤ) - pos) % 2 ^ 32
    omega
  have hadvance : (Reading frame pos call.fMaxSize).advance
      = Reading frame (pos + call.fMaxSize) call.fMaxSize :=
    advance_reading hframe (by omega)
  have hcopy : memcpy frame call pos call.fMaxSize
      = .ok (Buffer.put call.fTo 0 ((frame.drop pos).take call.fMaxSize)) :=
    memcpy_ok le_rfl (by omega)
  rw [doGetNextFrame, if_neg hflag, if_pos hless, ← hadvance]
  exact congrArg (fun fTo => fTo >>= _) hcopy

lemma doGetNextFrame_last (hframe : frame.length < 2 ^ 31) (hpos : pos ≤ frame.length)
    (h : frame.length - pos ≤ call.fMaxSize) :
    (Reading frame pos last).doGetNextFrame frame call
      = .ok ({ Reading frame pos last with dosent := true }, Buffer.put call.fTo 0 (frame.drop pos)) := by
  have hflag : ¬ (Reading frame pos last).dosent = true := Bool.false_ne_true
  have hless : ¬ (call.fMaxSize : ℤ)
      < ((Reading frame pos last).bufsizel - (Reading frame pos last).readbufsize) % 2 ^ 32 := by
    change ¬ _ < ((frame.length : ℤ) - pos) % 2 ^ 32
    omega
  have hsize : (((Reading frame pos last).bufsizel - (Reading frame pos last).readbufsize) % 2 ^ 64).toNat
      = frame.length - pos := by
    change (((frame.length : ℤ) - pos) % 2 ^ 64).toNat = _
    omega
  have htake : (frame.drop pos).take (frame.length - pos) = frame.drop pos :=
    List.take_of_length_le (by rw [List.length_drop])
  have hcopy : memcpy frame call pos (frame.length - pos)
      = .ok (Buffer.put call.fTo 0 ((frame.drop pos).take (frame.length - pos))) :=
    memcpy_ok h (by omega)
  rw [htake] at hcopy
  rw [doGetNextFrame, if_neg hflag, if_neg hless, hsize]
  exact congrArg (fun fTo => fTo >>= _) hcopy

lemma delivers_cons {s' : H264FramedLiveSource} {fTo : ℕ → UInt8} {chunk rest : Bytes}
    (hcall : s.doGetNextFrame frame call = .ok (s', fTo)) (hflag : s'.dosent = false)
    (hchunk : Buffer.contents fTo s'.fFrameSize = chunk) :
    Delivers frame s (call :: calls) (chunk ++ rest) ↔ Delivers frame s' calls rest := by
  have hdeliver : deliver frame s (call :: calls) = (do
      let (s, chunks) ← deliver frame s' calls
      .ok (s, chunk :: chunks)) := by
    rw [deliver, hcall, ok_bind]
    dsimp only
    rw [hflag, if_neg Bool.false_ne_true, hchunk]
  rw [Delivers, Delivers, hdeliver]
  cases deliver frame s' calls with
  | error e => exact iff_of_false (fun ⟨_, _, h, _⟩ => nomatch h) fun ⟨_, _, h, _⟩ => nomatch h
  | ok r =>
    constructor
    · rintro ⟨t, chunks, hok, hflatten⟩
      cases hok
      refine ⟨r.1, r.2, rfl, fun h => List.append_cancel_left (hflatten h)⟩
    · rintro ⟨t, chunks, hok, hflatten⟩
      cases hok
      exact ⟨t, chunk :: chunks, rfl, fun h => congrArg (chunk ++ ·) (hflatten h)⟩

lemma delivers_last {s' : H264FramedLiveSource} {fTo : ℕ → UInt8} {data : Bytes}
    (hcall : s.doGetNextFrame frame call = .ok (s', fTo)) (hflag : s'.dosent = true) :
    Delivers frame s (call :: calls) data ↔ Buffer.contents fTo s'.fFrameSize = data := by
  have hdeliver : deliver frame s (call :: calls) = .ok (s', [Buffer.contents fTo s'.fFrameSize]) := by
    rw [deliver, hcall, ok_bind]
    dsimp only
    rw [hflag, if_pos rfl]
  rw [Delivers, hdeliver]
  constructor
  · rintro ⟨t, chunks, hok, hflatten⟩
    cases hok
    rw [← hflatten hflag, List.flatten_singleton]
  · rintro rfl
    exact ⟨s', _, rfl, fun _ => List.flatten_singleton⟩

theorem delivers_iff_fits (hframe : frame.length < 2 ^ 31) (hpos : pos ≤ frame.length) :
    Delivers frame (Reading frame pos last) calls (frame.drop pos)
      ↔ Fits (frame.length - pos) last (calls.map Call.fMaxSize) := by
  induction calls generalizing pos last with
  | nil => exact iff_of_true ⟨_, [], rfl, nofun⟩ trivial
  | cons call calls ih =>
    rw [List.map_cons, Fits]
    by_cases hmiddle : call.fMaxSize < frame.length - pos
    · have hsplit : frame.drop pos
          = (frame.drop pos).take call.fMaxSize ++ frame.drop (pos + call.fMaxSize) := by
        rw [← List.drop_drop, List.take_append_drop]
      have hroom : pos + call.fMaxSize ≤ frame.length := by omega
      rw [if_pos hmiddle, Nat.sub_sub, ← ih (by omega), hsplit]
      exact delivers_cons (doGetNextFrame_middle hframe hpos hmiddle) rfl (contents_chunk hroom)
    · have hlength : (frame.drop pos).length = frame.length - pos := List.length_drop
      rw [if_neg hmiddle, delivers_last (doGetNextFrame_last hframe hpos (not_lt.mp hmiddle)) rfl]
      constructor
      · intro h
        rw [← hlength, ← h, Buffer.length_contents]
        rfl
      · intro h
        have hcontents := Buffer.contents_put_zero call.fTo (frame.drop pos)
        rw [hlength, h] at hcontents
        exact hcontents

lemma deliver_ends {s' : H264FramedLiveSource} {chunks : List Bytes} (hframe : frame.length < 2 ^ 31)
    (hpos : pos ≤ frame.length) (hlimits : ∀ call ∈ calls, 1 ≤ call.fMaxSize)
    (hlong : frame.length - pos < calls.length)
    (h : deliver frame (Reading frame pos last) calls = .ok (s', chunks)) : s'.dosent := by
  induction calls generalizing pos last s' chunks with
  | nil => exact absurd hlong (Nat.not_lt_zero _)
  | cons call calls ih =>
    obtain ⟨hpositive, hlimits⟩ := List.forall_mem_cons.mp hlimits
    rw [List.length_cons] at hlong
    by_cases hmiddle : call.fMaxSize < frame.length - pos
    · rw [deliver, doGetNextFrame_middle hframe hpos hmiddle, ok_bind] at h
      obtain ⟨r, hr, hs⟩ := bind_eq_ok.mp h
      cases hs
      exact ih (by omega) hlimits (by omega) hr
    · rw [deliver, doGetNextFrame_last hframe hpos (not_lt.mp hmiddle), ok_bind] at h
      cases h
      rfl

theorem doGetNextFrame_delivers_iff (hframe : frame.length < 2 ^ 31) (hsent : s.dosent = true)
    (hpositive : 1 ≤ call.fMaxSize) (hlimits : ∀ call ∈ calls, 1 ≤ call.fMaxSize) :
    (∃ s' chunks, deliver frame s (call :: calls) = .ok (s', chunks)
        ∧ (s'.dosent → chunks.flatten = frame) ∧ (frame.length ≤ calls.length → s'.dosent))
      ↔ call.fMaxSize ≤ frame.length
        ∧ Fits (frame.length - call.fMaxSize) call.fMaxSize (calls.map Call.fMaxSize) := by
  by_cases hle : call.fMaxSize ≤ frame.length
  · have hfirst := doGetNextFrame_first hframe hsent hle
    have hroom : 0 + call.fMaxSize ≤ frame.length := by omega
    have hdelivers : Delivers frame s (call :: calls) frame
        ↔ Fits (frame.length - call.fMaxSize) call.fMaxSize (calls.map Call.fMaxSize) := by
      rw [← delivers_iff_fits hframe hle]
      have hsplit : Delivers frame s (call :: calls)
            ((frame.drop 0).take call.fMaxSize ++ frame.drop call.fMaxSize)
          ↔ Delivers frame (Reading frame call.fMaxSize call.fMaxSize) calls
            (frame.drop call.fMaxSize) :=
        delivers_cons hfirst rfl (contents_chunk hroom)
      rwa [List.drop_zero, List.take_append_drop] at hsplit
    rw [← hdelivers, and_iff_right hle]
    constructor
    · rintro ⟨s', chunks, hok, hflatten, -⟩
      exact ⟨s', chunks, hok, hflatten⟩
    · rintro ⟨s', chunks, hok, hflatten⟩
      refine ⟨s', chunks, hok, hflatten, fun hlong => ?_⟩
      rw [deliver, hfirst, ok_bind] at hok
      obtain ⟨r, hr, hs⟩ := bind_eq_ok.mp hok
      cases hs
      exact deliver_ends hframe hle hlimits (by omega) hr
  · have hcopy : memcpy frame call 0 call.fMaxSize = .error .outsideFrame := by
      rw [memcpy, if_neg (lt_irrefl _), if_neg (by omega)]
    have hfails : s.doGetNextFrame frame call = .error .outsideFrame := by
      rw [doGetNextFrame, if_pos hsent]
      exact congrArg (fun fTo => fTo >>= _) hcopy
    refine iff_of_false (fun ⟨_, _, h, _⟩ => ?_) fun h => hle h.1
    rw [deliver, hfails] at h
    cases h

theorem doGetNextFrame_delivers_iff_six :
    (∃ s' chunks, deliver [1, 2, 3, 4, 5, 6] ⟨true, 0, 0, 0⟩
        (⟨2, fun _ => 0⟩ :: [⟨2, fun _ => 0⟩, ⟨9, fun _ => 0⟩]) = .ok (s', chunks)
        ∧ (s'.dosent → chunks.flatten = [1, 2, 3, 4, 5, 6])
        ∧ (([1, 2, 3, 4, 5, 6] : Bytes).length ≤ [(⟨2, fun _ => 0⟩ : Call), ⟨9, fun _ => 0⟩].length →
          s'.dosent))
      ↔ 2 ≤ ([1, 2, 3, 4, 5, 6] : Bytes).length
        ∧ Fits (([1, 2, 3, 4, 5, 6] : Bytes).length - 2) 2 [2, 9] :=
  doGetNextFrame_delivers_iff (by decide) rfl (by decide) (by simp)

-- The last chunk is delivered with the size of the chunk before it.
theorem doGetNextFrame_stale : ¬ ∀ (frame : Bytes) (s : H264FramedLiveSource) (call : Call)
    (calls : List Call), frame.length < 2 ^ 31 → s.dosent = true → 1 ≤ call.fMaxSize →
    (∀ call ∈ calls, 1 ≤ call.fMaxSize) → ∃ s' chunks,
      deliver frame s (call :: calls) = .ok (s', chunks) ∧ (s'.dosent → chunks.flatten = frame) := by
  intro h
  obtain ⟨s', chunks, hok, hflatten⟩ := h [1, 2, 3] ⟨true, 0, 0, 0⟩ ⟨2, fun _ => 0⟩ [⟨2, fun _ => 0⟩]
    (by decide) rfl (by decide) (by simp)
  obtain ⟨rfl, rfl⟩ := Prod.mk.inj (Except.ok.inj hok)
  exact absurd (hflatten rfl) (by decide)

end Chunks

end H264FramedLiveSource

end SimpleCode.IpCamera
