import SimpleCode.HttpFetcher.HttpFetcher

set_option autoImplicit false

namespace SimpleCode.HttpFetcher

open Foundations Foundations.Bytes

variable (socket : Socket) (headerBuf : ℕ → UInt8)

/-- The byte that the loop finds at a place: what the server sent, or what was there before. -/
def received (i : ℕ) : UInt8 :=
  match socket i with
  | .byte b => b
  | _ => headerBuf i

/-- The line feeds in a row behind `n` bytes, where carriage returns do not count. -/
def newlines : ℕ → ℕ
  | 0 => 0
  | n + 1 =>
    if received socket headerBuf n = 13 then newlines n
    else if received socket headerBuf n = 10 then newlines n + 1
    else 0

/-- The number of bytes up to the empty line, or the size of the buffer. -/
def headerLength : ℕ :=
  ((List.range headerBufSize).find? fun n => newlines socket headerBuf n = 2).getD headerBufSize

def receivedText : Bytes :=
  ((List.range (headerLength socket headerBuf - 3)).map (received socket headerBuf)).takeWhile (· ≠ 0)

variable {socket headerBuf}

lemma headerLength_le : headerLength socket headerBuf ≤ headerBufSize := by
  unfold headerLength
  cases hf : (List.range headerBufSize).find? fun n => newlines socket headerBuf n = 2 with
  | none => exact le_rfl
  | some n => exact (List.mem_range.mp (List.mem_of_find?_eq_some hf)).le

lemma newlines_headerLength (h : headerLength socket headerBuf < headerBufSize) :
    newlines socket headerBuf (headerLength socket headerBuf) = 2 := by
  unfold headerLength at h ⊢
  cases hf : (List.range headerBufSize).find? fun n => newlines socket headerBuf n = 2 with
  | none =>
    rw [hf] at h
    exact absurd h (lt_irrefl _)
  | some n => simpa using List.find?_some hf

lemma newlines_ne_two {k : ℕ} (h : k < headerLength socket headerBuf) :
    newlines socket headerBuf k ≠ 2 := by
  intro htwo
  have hk := List.mem_range.mpr (h.trans_le headerLength_le)
  unfold headerLength at h
  cases hf : (List.range headerBufSize).find? fun n => newlines socket headerBuf n = 2 with
  | none => exact absurd (decide_eq_true htwo) (List.find?_eq_none.mp hf k hk)
  | some n =>
    rw [hf, Option.getD_some] at h
    have hfirst := (List.find?_range_eq_some.mp hf).2.2 k h
    simp [htwo] at hfirst

lemma newlines_le (n : ℕ) : newlines socket headerBuf n ≤ n := by
  induction n with
  | zero => exact le_rfl
  | succ n ih =>
    rw [newlines]
    split_ifs <;> omega

lemma two_le_headerLength : 2 ≤ headerLength socket headerBuf := by
  by_cases h : headerLength socket headerBuf < headerBufSize
  · have hle := @newlines_le socket headerBuf (headerLength socket headerBuf)
    rwa [newlines_headerLength h] at hle
  · exact le_trans (by decide) (not_lt.mp h)

variable (socket headerBuf)

def headerAt (k : ℕ) : Header where
  headerBuf := fun i => if i < k then received socket headerBuf i else headerBuf i
  headerPtr := k
  bytesRead := k
  newlines := newlines socket headerBuf k

variable {socket headerBuf}

lemma read_headerAt {k : ℕ} (hk : k < headerBufSize) (hs : socket k ≠ .failed) :
    read (socket k) (headerAt socket headerBuf k) =
      .ok (headerAt socket headerBuf (k + 1)).headerBuf := by
  have hext {buf : ℕ → UInt8} (hat : buf k = received socket headerBuf k)
      (hrest : ∀ i ≠ k, buf i = (headerAt socket headerBuf k).headerBuf i) :
      buf = (headerAt socket headerBuf (k + 1)).headerBuf := by
    funext i
    by_cases hi : i = k
    · rw [hi, hat]
      exact (if_pos (Nat.lt_succ_self k)).symm
    · have hlt : i < k + 1 ↔ i < k := by omega
      rw [hrest i hi]
      simp only [headerAt, hlt]
  cases hsk : socket k with
  | failed => exact absurd hsk hs
  | byte b =>
    have hin : 0 ≤ (k : ℤ) ∧ (k : ℤ) < headerBufSize := ⟨Int.natCast_nonneg k, Int.ofNat_lt.mpr hk⟩
    have hptr : (headerAt socket headerBuf k).headerPtr = k := rfl
    rw [read, store, hptr, if_pos hin, Int.toNat_natCast]
    congr 1
    apply hext
    · simp [received, hsk]
    · intro i hi
      rw [Function.update_of_ne hi]
  | closed =>
    change Except.ok _ = Except.ok _
    congr 1
    apply hext
    · simp [headerAt, received, hsk]
    · intro i _
      rfl

lemma readByte_headerAt {k : ℕ} (hk : k < headerBufSize) (hs : socket k ≠ .failed) :
    readByte (socket k) (headerAt socket headerBuf k) =
      .ok (some (headerAt socket headerBuf (k + 1))) := by
  have hat : (headerAt socket headerBuf (k + 1)).headerBuf k = received socket headerBuf k :=
    if_pos (Nat.lt_succ_self k)
  have hnew : newlines socket headerBuf (k + 1) =
      if received socket headerBuf k = 13 then newlines socket headerBuf k
      else if received socket headerBuf k = 10 then newlines socket headerBuf k + 1
      else 0 := rfl
  rw [readByte, if_neg hs, read_headerAt hk hs, ok_bind]
  change Except.ok (some (Header.mk _ (k + 1 : ℤ) (k + 1)
    (if (headerAt socket headerBuf (k + 1)).headerBuf k = 13 then newlines socket headerBuf k
      else if (headerAt socket headerBuf (k + 1)).headerBuf k = 10 then
        newlines socket headerBuf k + 1 else 0))) = _
  rw [hat, ← hnew]
  rfl

section Loop

variable {left k : ℕ} (hleft : left + k = headerBufSize) (hk : k ≤ headerLength socket headerBuf)

include hleft hk

lemma readLoop_completes
    (hall : ∀ i, k ≤ i → i < headerLength socket headerBuf → socket i ≠ .failed) :
    readLoop socket left (headerAt socket headerBuf k) =
      .ok (some (headerAt socket headerBuf (headerLength socket headerBuf))) := by
  have hle := @headerLength_le socket headerBuf
  induction left generalizing k with
  | zero =>
    have heq : k = headerLength socket headerBuf := by omega
    rw [readLoop, heq]
  | succ left ih =>
    rw [readLoop]
    change (if newlines socket headerBuf k = 2 then _
      else readByte (socket k) (headerAt socket headerBuf k) >>= _) = _
    obtain hlt | heq := hk.lt_or_eq
    · rw [if_neg (newlines_ne_two hlt)]
      rw [readByte_headerAt (hlt.trans_le hle) (hall k le_rfl hlt), ok_bind]
      exact ih (by omega) hlt fun i hi => hall i (by omega)
    · rw [if_pos (heq ▸ newlines_headerLength (by omega)), heq]

lemma readLoop_fails
    (h : ∃ i, k ≤ i ∧ i < headerLength socket headerBuf ∧ socket i = .failed) :
    readLoop socket left (headerAt socket headerBuf k) = .ok none := by
  have hle := @headerLength_le socket headerBuf
  obtain ⟨i, hki, hi, hs⟩ := h
  induction left generalizing k with
  | zero => omega
  | succ left ih =>
    rw [readLoop]
    change (if newlines socket headerBuf k = 2 then _
      else readByte (socket k) (headerAt socket headerBuf k) >>= _) = _
    rw [if_neg (newlines_ne_two (hki.trans_lt hi))]
    by_cases hsk : socket k = .failed
    · rw [hsk]
      rfl
    · have hne : k ≠ i := fun h => hsk (h ▸ hs)
      rw [readByte_headerAt (by omega) hsk, ok_bind]
      exact ih (by omega) (by omega) (by omega)

end Loop

lemma takeWhile_terminated (text rest : Bytes) :
    (text ++ 0 :: rest).takeWhile (· ≠ 0) = text.takeWhile (· ≠ 0) := by
  induction text with
  | nil => simp
  | cons c text ih =>
    rw [List.cons_append, List.takeWhile_cons, List.takeWhile_cons, ih]

lemma contents_terminated {buf : ℕ → UInt8} {n size : ℕ} (hn : n < size) (hbuf : buf n = 0) :
    ∃ rest, Buffer.contents buf size = Buffer.contents buf n ++ 0 :: rest := by
  obtain ⟨k, rfl⟩ : ∃ k, size = n + (k + 1) := ⟨size - n - 1, by omega⟩
  refine ⟨(List.range k).map fun i => buf (n + (i + 1)), ?_⟩
  rw [Buffer.contents, List.range_add, List.map_append, List.range_succ_eq_map]
  simp [Buffer.contents, hbuf, Function.comp_def]

lemma headerAt_zero : headerAt socket headerBuf 0 = ⟨headerBuf, 0, 0, 0⟩ := rfl

lemma httpReadHeader_fails (h : ∃ i < headerLength socket headerBuf, socket i = .failed) :
    httpReadHeader socket headerBuf = .ok none := by
  obtain ⟨i, hi, hs⟩ := h
  rw [httpReadHeader, ← headerAt_zero,
    readLoop_fails (Nat.add_zero _) (Nat.zero_le _) ⟨i, Nat.zero_le i, hi, hs⟩]
  rfl

section Complete

variable (hall : ∀ i < headerLength socket headerBuf, socket i ≠ .failed)

include hall

/-- A response that starts with an empty line is terminated in front of the buffer. -/
lemma httpReadHeader_outside (h : headerLength socket headerBuf = 2) :
    httpReadHeader socket headerBuf = .error .outsideHeaderBuf := by
  rw [httpReadHeader, ← headerAt_zero,
    readLoop_completes (Nat.add_zero _) (Nat.zero_le _) fun i _ => hall i, h]
  rfl

lemma httpReadHeader_returns (h : headerLength socket headerBuf ≠ 2) :
    ∃ buf, httpReadHeader socket headerBuf = .ok (some (headerLength socket headerBuf, buf)) ∧
      headerText buf = receivedText socket headerBuf := by
  have htwo := @two_le_headerLength socket headerBuf
  have hle := @headerLength_le socket headerBuf
  obtain ⟨n, hn⟩ : ∃ n, headerLength socket headerBuf = n + 3 :=
    ⟨headerLength socket headerBuf - 3, by omega⟩
  have hptr : ((n + 3 : ℕ) : ℤ) - 3 = n := by omega
  have hin : 0 ≤ (n : ℤ) ∧ (n : ℤ) < headerBufSize := ⟨Int.natCast_nonneg n, by omega⟩
  refine ⟨Function.update (headerAt socket headerBuf (n + 3)).headerBuf n 0, ?_, ?_⟩
  · rw [httpReadHeader, ← headerAt_zero,
      readLoop_completes (Nat.add_zero _) (Nat.zero_le _) fun i _ => hall i, hn, ok_bind]
    change (store (headerAt socket headerBuf (n + 3)).headerBuf (((n + 3 : ℕ) : ℤ) - 3) 0 >>= _) = _
    rw [hptr, store, if_pos hin, Int.toNat_natCast]
    rfl
  · have hbefore : Buffer.contents (Function.update (headerAt socket headerBuf (n + 3)).headerBuf n 0)
        n = (List.range n).map (received socket headerBuf) := by
      apply List.map_congr_left
      intro i hi
      have hlt := List.mem_range.mp hi
      rw [Function.update_of_ne hlt.ne]
      exact if_pos (by omega)
    obtain ⟨rest, hrest⟩ := contents_terminated (show n < headerBufSize by omega)
      (Function.update_self n 0 (headerAt socket headerBuf (n + 3)).headerBuf)
    rw [headerText, receivedText, hn, Nat.add_sub_cancel, ← hbefore, hrest, takeWhile_terminated]

end Complete

lemma skipToBlank_ok (text : Bytes) : (∃ rest, skipToBlank text = .ok rest) ↔ 32 ∈ text := by
  induction text with
  | nil => simp [skipToBlank]
  | cons c text ih =>
    rw [skipToBlank]
    by_cases hc : c = 32
    · simp [hc]
    · rw [if_neg hc, ih]
      simp [Ne.symm hc]

/-- The stream brings a header with something in front of its empty line, and behind the first
`HTTP/` of its text there is a blank. -/
structure WellFormed (socket : Socket) (headerBuf : ℕ → UInt8) : Prop where
  notEmpty : headerLength socket headerBuf ≠ 2
  blank : ∀ pos, find (bytes "HTTP/") (receivedText socket headerBuf) = some pos →
    32 ∈ (receivedText socket headerBuf).drop pos

theorem fetchStatus_iff : (∃ status, fetchStatus socket headerBuf = .ok status) ↔
    (∃ i < headerLength socket headerBuf, socket i = .failed) ∨ WellFormed socket headerBuf := by
  by_cases hfailed : ∃ i < headerLength socket headerBuf, socket i = .failed
  · simp only [hfailed, true_or, iff_true]
    refine ⟨.headerError, ?_⟩
    rw [fetchStatus, httpReadHeader_fails hfailed]
    rfl
  · have hall : ∀ i < headerLength socket headerBuf, socket i ≠ .failed := by
      intro i hi hs
      exact hfailed ⟨i, hi, hs⟩
    simp only [hfailed, false_or]
    by_cases hempty : headerLength socket headerBuf = 2
    · have hnot : ¬ WellFormed socket headerBuf := fun h => h.notEmpty hempty
      simp only [hnot, iff_false]
      rintro ⟨status, h⟩
      rw [fetchStatus, httpReadHeader_outside hall hempty] at h
      cases h
    · obtain ⟨buf, hread, htext⟩ := httpReadHeader_returns hall hempty
      rw [fetchStatus, hread, ok_bind]
      simp only [htext]
      cases hfind : find (bytes "HTTP/") (receivedText socket headerBuf) with
      | none =>
        constructor
        · intro _
          exact ⟨hempty, fun pos h => absurd (hfind.symm.trans h) (by simp)⟩
        · exact fun _ => ⟨.returnCodeMissing, rfl⟩
      | some pos =>
        have hblank := skipToBlank_ok ((receivedText socket headerBuf).drop pos)
        cases hskip : skipToBlank ((receivedText socket headerBuf).drop pos) with
        | error e =>
          rw [hskip] at hblank
          constructor
          · rintro ⟨status, h⟩
            simp only [hskip] at h
            cases h
          · intro h
            obtain ⟨rest, hrest⟩ := hblank.mpr (h.blank pos hfind)
            cases hrest
        | ok rest =>
          rw [hskip] at hblank
          constructor
          · intro _
            refine ⟨hempty, fun p hp => ?_⟩
            obtain rfl := Option.some.inj (hfind.symm.trans hp)
            exact hblank.mp ⟨rest, rfl⟩
          · intro _
            simp only [hskip, ok_bind]
            cases sscanfInt (rest.drop 1) with
            | none => exact ⟨_, rfl⟩
            | some i => exact ⟨_, rfl⟩

theorem fetchStatus_empty :
    ¬ ∀ (socket : Socket) (headerBuf : ℕ → UInt8),
      ∃ status, fetchStatus socket headerBuf = .ok status := by
  intro h
  obtain ⟨status, hstatus⟩ := h (fun _ => .byte 10) fun _ => 0
  have hfault : fetchStatus (fun _ => .byte 10) (fun _ => 0) = .error .outsideHeaderBuf := rfl
  rw [hfault] at hstatus
  cases hstatus

end SimpleCode.HttpFetcher
