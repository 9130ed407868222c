import SimpleCode.Foundations.Bytes
import SimpleCode.Foundations.Cells

set_option autoImplicit false

namespace SimpleCode.Foundations.Buffer

variable {buf : ℕ → UInt8} {data : Bytes} {n p : ℕ}

-- `memcpy(buf + p, data, n)`
def put (buf : ℕ → UInt8) (p : ℕ) (data : Bytes) : ℕ → UInt8 :=
  Cells.copy buf p (fun i => data.getD i 0) data.length

-- What is read at `i` of `data`, where `beyond` follows it in memory.
def peek (beyond : ℕ → UInt8) (data : Bytes) (i : ℕ) : UInt8 := data.getD i (beyond (i - data.length))

def contents (buf : ℕ → UInt8) (n : ℕ) : Bytes := (List.range n).map buf

@[simp] lemma length_contents (buf : ℕ → UInt8) (n : ℕ) : (contents buf n).length = n := by
  rw [contents, List.length_map, List.length_range]

@[simp] lemma contents_zero (buf : ℕ → UInt8) : contents buf 0 = [] := rfl

lemma contents_succ (buf : ℕ → UInt8) (n : ℕ) : contents buf (n + 1) = contents buf n ++ [buf n] := by
  rw [contents, List.range_succ, List.map_append]
  rfl

lemma contents_congr {other : ℕ → UInt8} (h : ∀ i < n, buf i = other i) :
    contents buf n = contents other n :=
  List.map_congr_left fun i hi => h i (List.mem_range.mp hi)

lemma getElem?_contents {i : ℕ} (hi : i < n) : (contents buf n)[i]? = some (buf i) := by
  rw [contents, List.getElem?_map, List.getElem?_range hi]
  rfl

lemma put_of_lt {i : ℕ} (h : i < p) : put buf p data i = buf i :=
  if_neg fun hcell => absurd hcell.1 (Nat.not_le_of_lt h)

theorem contents_put (buf : ℕ → UInt8) (n : ℕ) (data : Bytes) :
    contents (put buf n data) (n + data.length) = contents buf n ++ data := by
  rw [contents, List.range_add, List.map_append, List.map_map]
  congr 1
  · exact contents_congr fun i hi => put_of_lt hi
  · apply List.ext_getElem
    · simp
    · intro i hi hdata
      have hcell : n ≤ n + i ∧ n + i < n + data.length := by omega
      simp [put, Cells.copy, hcell, hdata]

lemma contents_put_zero (buf : ℕ → UInt8) (data : Bytes) :
    contents (put buf 0 data) data.length = data := by
  have h := contents_put buf 0 data
  rwa [Nat.zero_add, contents_zero, List.nil_append] at h

end SimpleCode.Foundations.Buffer
