import SimpleCode.Foundations.Bytes

set_option autoImplicit false

/-! C strings and the character arrays that hold them. Reading an array that lacks a terminator, and
writing behind the end of an array, are faults. -/

namespace SimpleCode.Foundations

structure CString where
  chars : Bytes
  noNul : (0 : UInt8) ∉ chars

namespace CString

inductive Fault
  | unterminated
  | overflow
deriving DecidableEq

def length (s : CString) : ℕ := s.chars.length

def strncpy (s : CString) (n : ℕ) : Bytes :=
  s.chars.take n ++ List.replicate (n - s.length) 0

def read (field : Bytes) : Except Fault Bytes :=
  if 0 ∈ field then .ok (field.takeWhile (· ≠ 0)) else .error .unterminated

-- `sprintf(buf + pos, text)` into `buf[size]`, which holds the string `old`
def sprintf (size : ℕ) (old : Bytes) (pos : ℕ) (text : Bytes) : Except Fault Bytes :=
  if pos + text.length < size then .ok (old.take pos ++ text) else .error .overflow

def printInt (i : ℤ) : Bytes := bytes (toString i)

def printPadded (width n : ℕ) : Bytes :=
  List.replicate (width - (printInt n).length) 48 ++ printInt n

lemma read_strncpy (s : CString) (n : ℕ) :
    read (s.strncpy n) = if s.length < n then .ok s.chars else .error .unterminated := by
  have hnone {m : ℕ} : (0 : UInt8) ∉ s.chars.take m := fun h => s.noNul (List.mem_of_mem_take h)
  by_cases hlt : s.length < n
  · obtain ⟨k, hk⟩ : ∃ k, n - s.length = k + 1 := ⟨n - s.length - 1, by omega⟩
    have htake : s.chars.take n = s.chars := List.take_of_length_le (by unfold length at hlt; omega)
    rw [strncpy, hk, htake, List.replicate_succ, read, if_pos (by simp), if_pos hlt,
      List.takeWhile_append_of_pos]
    · simp
    · intro c hc
      simpa using fun h : c = 0 => s.noNul (h ▸ hc)
  · have hzero : n - s.length = 0 := by omega
    rw [strncpy, hzero, List.replicate_zero, List.append_nil, read, if_neg hnone, if_neg hlt]

lemma sprintf_end {size : ℕ} {old text : Bytes} :
    sprintf size old old.length text =
      if old.length + text.length < size then .ok (old ++ text) else .error .overflow := by
  rw [sprintf, List.take_length]

lemma sprintf_start {size : ℕ} {old text : Bytes} :
    sprintf size old 0 text =
      if text.length < size then .ok text else .error .overflow := by
  rw [sprintf, Nat.zero_add, List.take_zero, List.nil_append]

def sprintfAll (size : ℕ) : Bytes → List Bytes → Except Fault Bytes :=
  List.foldlM fun buf text => sprintf size buf buf.length text

lemma sprintfAll_ok {size : ℕ} {old : Bytes} {texts : List Bytes}
    (h : old.length + texts.flatten.length < size) :
    sprintfAll size old texts = .ok (old ++ texts.flatten) := by
  induction texts generalizing old with
  | nil => simp [sprintfAll, pure, Except.pure]
  | cons text texts ih =>
    rw [List.flatten_cons, List.length_append] at h
    have hrest : (old ++ text).length + texts.flatten.length < size := by
      rw [List.length_append]
      omega
    rw [sprintfAll, List.foldlM_cons, sprintf_end, if_pos (by omega), List.flatten_cons,
      ← List.append_assoc]
    exact ih hrest

lemma sprintfAll_overflow {size : ℕ} {old : Bytes} {texts : List Bytes} (hne : texts ≠ [])
    (h : size ≤ old.length + texts.flatten.length) :
    sprintfAll size old texts = .error .overflow := by
  induction texts generalizing old with
  | nil => exact absurd rfl hne
  | cons text texts ih =>
    rw [List.flatten_cons, List.length_append] at h
    rw [sprintfAll, List.foldlM_cons, sprintf_end]
    split_ifs with hlt
    · cases texts with
      | nil =>
        rw [List.flatten_nil, List.length_nil] at h
        omega
      | cons next texts =>
        apply ih (List.cons_ne_nil next texts)
        rw [List.length_append]
        omega
    · rfl

end CString

end SimpleCode.Foundations
