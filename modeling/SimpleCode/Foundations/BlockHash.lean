import SimpleCode.Foundations.Buffer

set_option autoImplicit false

namespace SimpleCode.Foundations

variable {α σ τ : Type*} {n : ℕ} {f : σ → List α → σ} {s : σ} {xs ys b : List α}

def absorb (n : ℕ) (f : σ → List α → σ) (s : σ) (xs : List α) : σ × List α :=
  if _h : 0 < n ∧ n ≤ xs.length then absorb n f (f s (xs.take n)) (xs.drop n) else (s, xs)
termination_by xs.length
decreasing_by
  rw [List.length_drop]
  omega

lemma absorb_of_lt (h : xs.length < n) : absorb n f s xs = (s, xs) := by
  rw [absorb, dif_neg fun hle => absurd hle.2 (Nat.not_le_of_lt h)]

lemma absorb_append_of_length (hn : 0 < n) (hb : b.length = n) :
    absorb n f s (b ++ xs) = absorb n f (f s b) xs := by
  subst hb
  rw [absorb, dif_pos ⟨hn, (List.prefix_append b xs).length_le⟩, List.take_left, List.drop_left]

lemma absorb_induction {P : List α → Prop} (hn : 0 < n) (hshort : ∀ xs, xs.length < n → P xs)
    (hblock : ∀ b xs, b.length = n → P xs → P (b ++ xs)) (xs : List α) : P xs := by
  induction hlen : xs.length using Nat.strong_induction_on generalizing xs with
  | _ k ih =>
    subst hlen
    by_cases hlt : xs.length < n
    · exact hshort xs hlt
    · rw [← List.take_append_drop n xs]
      refine hblock _ _ (List.length_take_of_le (Nat.le_of_not_lt hlt)) (ih _ ?_ _ rfl)
      rw [List.length_drop]
      omega

theorem absorb_append (hn : 0 < n) (f : σ → List α → σ) (s : σ) (xs ys : List α) :
    absorb n f s (xs ++ ys) = absorb n f (absorb n f s xs).1 ((absorb n f s xs).2 ++ ys) := by
  induction xs using absorb_induction hn generalizing s with
  | hshort xs hlt => rw [absorb_of_lt hlt]
  | hblock b xs hb ih => rw [List.append_assoc, absorb_append_of_length hn hb, ih,
      absorb_append_of_length hn hb]

lemma length_absorb (hn : 0 < n) (f : σ → List α → σ) (s : σ) (xs : List α) :
    (absorb n f s xs).2.length = xs.length % n := by
  induction xs using absorb_induction hn generalizing s with
  | hshort xs hlt => rw [absorb_of_lt hlt, Nat.mod_eq_of_lt hlt]
  | hblock b xs hb ih =>
    rw [absorb_append_of_length hn hb, ih, List.length_append, hb, Nat.add_mod_left]

theorem absorb_related {R : σ → τ → Prop} {g : τ → List α → τ} (hn : 0 < n)
    (h : ∀ s t b, R s t → b.length = n → R (f s b) (g t b)) {s : σ} {t : τ} (hst : R s t) (xs : List α) :
    R (absorb n f s xs).1 (absorb n g t xs).1 ∧ (absorb n f s xs).2 = (absorb n g t xs).2 := by
  induction xs using absorb_induction hn generalizing s t with
  | hshort xs hlt =>
    rw [absorb_of_lt hlt, absorb_of_lt hlt]
    exact ⟨hst, rfl⟩
  | hblock b xs hb ih =>
    rw [absorb_append_of_length hn hb, absorb_append_of_length hn hb]
    exact ih (h s t b hst hb)

section Padding

/-- One byte `0x80`, zeros up to eight bytes before the end of a block, and there the length. -/
def padding (lengthField : ℕ → Bytes) (len : ℕ) : Bytes :=
  0x80 :: (List.replicate ((119 - len % 64) % 64) 0 ++ lengthField len)

def blockHash (compress : σ → Bytes → σ) (init : σ) (lengthField : ℕ → Bytes) (msg : Bytes) : σ :=
  (absorb 64 compress init (msg ++ padding lengthField msg.length)).1

end Padding

section Buffered

open Buffer

variable {compress : σ → Bytes → σ} {buf : ℕ → UInt8} {k : ℕ} {data : Bytes}

lemma absorb_put_of_lt (h : k + data.length < n) : absorb n compress s (contents buf k ++ data)
    = (s, contents (put buf k data) (k + data.length)) := by
  rw [contents_put, absorb_of_lt]
  rwa [List.length_append, length_contents]

lemma absorb_put_of_le (hn : 0 < n) (hk : k ≤ n) (h : n ≤ k + data.length) :
    absorb n compress s (contents buf k ++ data) = absorb n compress
      (compress s (contents (put buf k (data.take (n - k))) n)) (data.drop (n - k)) := by
  have hlen : (data.take (n - k)).length = n - k := List.length_take_of_le (by omega)
  have hblock : contents (put buf k (data.take (n - k))) n = contents buf k ++ data.take (n - k) := by
    rw [← contents_put, hlen, Nat.add_sub_cancel' hk]
  have hsplit : contents buf k ++ data
      = contents (put buf k (data.take (n - k))) n ++ data.drop (n - k) := by
    rw [hblock, List.append_assoc, List.take_append_drop]
  rw [hsplit, absorb_append_of_length hn (length_contents _ n)]

end Buffered

end SimpleCode.Foundations
