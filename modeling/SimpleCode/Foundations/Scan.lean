import SimpleCode.Foundations.Bytes

set_option autoImplicit false

namespace SimpleCode.Foundations.Scan

def isSpace (c : UInt8) : Bool := c = 32 || (9 ≤ c && c ≤ 13)

def isDigit (c : UInt8) : Bool := 48 ≤ c && c ≤ 57

def digit (d : ℕ) : UInt8 := UInt8.ofNat (48 + d)

def dec (n : ℕ) : Bytes := if n = 0 then [48] else ((Nat.digits 10 n).map digit).reverse

def decInt (v : ℤ) : Bytes := if v < 0 then 45 :: dec v.natAbs else dec v.natAbs

def value (ds : Bytes) : ℕ := ds.foldl (fun v c => v * 10 + (c.toNat - 48)) 0

section Numbers

-- What `strtol` and `strtoul` make of a number, and what of it is assigned.
def long (v : ℤ) : ℤ := max (-2 ^ 63) (min v (2 ^ 63 - 1))

def ulong (v : ℤ) : ℕ := if 2 ^ 64 ≤ v.natAbs then 2 ^ 64 - 1 else (v % 2 ^ 64).toNat

def int (v : ℤ) : ℤ := (long v).bmod (2 ^ 32)

def uint (v : ℤ) : ℕ := (long v % 2 ^ 32).toNat

def char (v : ℤ) : ℤ := (long v).bmod (2 ^ 8)

def ushort (v : ℤ) : ℕ := ulong v % 2 ^ 16

lemma int_natCast {n : ℕ} (h : n < 2 ^ 31) : int n = n := by
  have hlong : long n = n := by
    rw [long]
    omega
  rw [int, hlong, Int.bmod_def]
  split <;> omega

lemma uint_natCast {n : ℕ} (h : n < 2 ^ 32) : uint n = n := by
  have hlong : long n = n := by
    rw [long]
    omega
  rw [uint, hlong]
  omega

lemma ulong_natCast {n : ℕ} (h : n < 2 ^ 64) : ulong n = n := by
  rw [ulong, if_neg (by omega)]
  omega

lemma ushort_natCast {n : ℕ} (h : n < 2 ^ 16) : ushort n = n := by
  rw [ushort, ulong_natCast (by omega), Nat.mod_eq_of_lt h]

lemma char_of_lt {v : ℤ} (hlt : -2 ^ 7 ≤ v) (h : v < 2 ^ 7) : char v = v := by
  have hlong : long v = v := by
    rw [long]
    omega
  rw [char, hlong, Int.bmod_def]
  split <;> omega

end Numbers

section Digits

lemma toNat_digit {d : ℕ} (h : d < 10) : (digit d).toNat = 48 + d := by
  rw [digit, UInt8.toNat_ofNat', Nat.mod_eq_of_lt (by omega)]

lemma isDigit_digit {d : ℕ} (h : d < 10) : isDigit (digit d) := by
  rw [isDigit, Bool.and_eq_true, decide_eq_true_eq, decide_eq_true_eq, UInt8.le_iff_toNat_le,
    UInt8.le_iff_toNat_le, toNat_digit h]
  exact ⟨Nat.le_add_right 48 d, by change 48 + d ≤ 57; omega⟩

lemma isDigit_of_mem_dec {n : ℕ} {c : UInt8} (h : c ∈ dec n) : isDigit c := by
  rw [dec] at h
  split at h
  · rw [List.mem_singleton.mp h]
    rfl
  · obtain ⟨d, hd, rfl⟩ := List.mem_map.mp (List.mem_reverse.mp h)
    exact isDigit_digit (Nat.digits_lt_base (by decide) hd)

lemma dec_ne_nil (n : ℕ) : dec n ≠ [] := by
  rw [dec]
  split
  · exact List.cons_ne_nil _ _
  · next hn =>
    rw [Ne, List.reverse_eq_nil_iff, List.map_eq_nil_iff]
    exact Nat.digits_ne_nil_iff_ne_zero.mpr hn

lemma value_dec (n : ℕ) : value (dec n) = n := by
  rw [dec]
  split
  · next hn => rw [hn]; rfl
  · have hfold : ∀ ds : List ℕ, (∀ d ∈ ds, d < 10) →
        (ds.map digit).foldr (fun c v => v * 10 + (c.toNat - 48)) 0 = Nat.ofDigits 10 ds := by
      intro ds hds
      induction ds with
      | nil => rfl
      | cons d ds ih =>
        rw [List.map_cons, List.foldr_cons, ih fun e he => hds e (List.mem_cons_of_mem d he),
          Nat.ofDigits_cons, toNat_digit (hds d List.mem_cons_self)]
        omega
    rw [value, List.foldl_reverse, hfold _ fun d hd => Nat.digits_lt_base (by decide) hd,
      Nat.ofDigits_digits]

end Digits

inductive Dir
  | lit (c : UInt8)
  | space
  | int
  | word
  | skipWord
  | noneOf (set : Bytes)
  | skipNoneOf (set : Bytes)

inductive Val
  | num (v : ℤ)
  | text (s : Bytes)
deriving DecidableEq, Repr

def lits (s : Bytes) : List Dir := s.map .lit

def number (s : Bytes) : Option (ℤ × Bytes) :=
  let neg := s.head? = some 45
  let ds := if neg ∨ s.head? = some 43 then s.tail else s
  if ds.takeWhile isDigit = [] then none
  else some (if neg then -value (ds.takeWhile isDigit) else value (ds.takeWhile isDigit),
    ds.dropWhile isDigit)

/-- The values that are assigned, and whether the input has ended before a directive was matched. -/
def scan : List Dir → Bytes → List Val × Bool
  | [], _ => ([], false)
  | .lit _ :: _, [] => ([], true)
  | .lit c :: f, x :: s => if x = c then scan f s else ([], false)
  | .space :: f, s => scan f (s.dropWhile isSpace)
  | .int :: f, s =>
    let s := s.dropWhile isSpace
    match number s with
    | none => ([], s = [])
    | some (v, s) => (scan f s).map (.num v :: ·) id
  | .word :: f, s =>
    let s := s.dropWhile isSpace
    if s = [] then ([], true)
    else (scan f (s.dropWhile (!isSpace ·))).map (.text (s.takeWhile (!isSpace ·)) :: ·) id
  | .skipWord :: f, s =>
    let s := s.dropWhile isSpace
    if s = [] then ([], true) else scan f (s.dropWhile (!isSpace ·))
  | .noneOf set :: f, s =>
    let w := s.takeWhile (· ∉ set)
    if w = [] then ([], s = []) else (scan f (s.drop w.length)).map (.text w :: ·) id
  | .skipNoneOf set :: f, s =>
    let w := s.takeWhile (· ∉ set)
    if w = [] then ([], s = []) else scan f (s.drop w.length)

def sscanf (f : List Dir) (s : Bytes) : List Val := (scan f s).1

-- The result of the call; -1 is `EOF`.
def assigned (f : List Dir) (s : Bytes) : ℤ :=
  if sscanf f s = [] ∧ (scan f s).2 then -1 else (sscanf f s).length

example : sscanf [.lit 97, .int] [97, 32, 49, 50] = [.num 12] ∧ assigned [.lit 97, .int] [97] = -1 := by
  simp only [assigned, sscanf, scan]
  decide

section Scanning

variable {f : List Dir} {s t : Bytes}

lemma sscanf_lits (f : List Dir) (t s : Bytes) : sscanf (lits t ++ f) (t ++ s) = sscanf f s := by
  induction t with
  | nil => rfl
  | cons c t ih =>
    change (scan (.lit c :: (lits t ++ f)) (c :: (t ++ s))).1 = _
    rw [scan, if_pos rfl]
    exact ih

lemma sscanf_lits_ne (f : List Dir) (h : ¬ t <+: s) : sscanf (lits t ++ f) s = [] := by
  induction t generalizing s with
  | nil => exact absurd List.nil_prefix h
  | cons c t ih =>
    cases s with
    | nil => rfl
    | cons x s =>
      change (scan (.lit c :: (lits t ++ f)) (x :: s)).1 = _
      rw [scan]
      split
      · next hx =>
        subst hx
        exact ih fun hp => h ((List.prefix_cons_inj x).mpr hp)
      · rfl

lemma dropWhile_append_of_head {p : UInt8 → Bool} (hs : ∀ c ∈ s.head?, p c = false)
    (ht : ∀ c ∈ t, p c) : (t ++ s).dropWhile p = s ∧ (t ++ s).takeWhile p = t := by
  have hnil : s.dropWhile p = s ∧ s.takeWhile p = [] := by
    cases s with
    | nil => exact ⟨rfl, rfl⟩
    | cons c s =>
      have hc := hs c rfl
      exact ⟨List.dropWhile_cons_of_neg (by rw [hc]; exact Bool.false_ne_true),
        List.takeWhile_cons_of_neg (by rw [hc]; exact Bool.false_ne_true)⟩
  rw [List.dropWhile_append_of_pos ht, List.takeWhile_append_of_pos ht, hnil.1, hnil.2, List.append_nil]
  exact ⟨rfl, rfl⟩

lemma sscanf_space (f : List Dir) (ht : ∀ c ∈ t, isSpace c) (hs : ∀ c ∈ s.head?, isSpace c = false) :
    sscanf (.space :: f) (t ++ s) = sscanf f s := by
  rw [sscanf, scan, (dropWhile_append_of_head hs ht).1, sscanf]

lemma not_isSpace_of_isDigit {c : UInt8} (h : isDigit c) : isSpace c = false := by
  rw [isDigit, Bool.and_eq_true, decide_eq_true_eq, decide_eq_true_eq, UInt8.le_iff_toNat_le] at h
  rw [Bool.eq_false_iff, isSpace, Ne, Bool.or_eq_true, decide_eq_true_eq, Bool.and_eq_true,
    decide_eq_true_eq, decide_eq_true_eq, UInt8.le_iff_toNat_le, UInt8.le_iff_toNat_le, ← UInt8.toNat_inj]
  have h48 : (48 : UInt8).toNat = 48 := rfl
  have h32 : (32 : UInt8).toNat = 32 := rfl
  have h13 : (13 : UInt8).toNat = 13 := rfl
  omega

lemma exists_dec (n : ℕ) : ∃ c ds, dec n = c :: ds ∧ isDigit c := by
  obtain ⟨c, ds, hdec⟩ := List.exists_cons_of_ne_nil (dec_ne_nil n)
  exact ⟨c, ds, hdec, isDigit_of_mem_dec (hdec ▸ List.mem_cons_self)⟩

lemma dropWhile_isSpace_dec (n : ℕ) (s : Bytes) : (dec n ++ s).dropWhile isSpace = dec n ++ s := by
  obtain ⟨c, ds, hdec, hc⟩ := exists_dec n
  rw [hdec, List.cons_append]
  exact List.dropWhile_cons_of_neg (by rw [not_isSpace_of_isDigit hc]; exact Bool.false_ne_true)

lemma number_dec (n : ℕ) (hs : ∀ c ∈ s.head?, isDigit c = false) :
    number (dec n ++ s) = some ((n : ℤ), s) := by
  obtain ⟨c, ds, hdec, hc⟩ := exists_dec n
  have hhead : (dec n ++ s).head? = some c := by rw [hdec]; rfl
  have hminus : ¬ (dec n ++ s).head? = some 45 := by
    rw [hhead]
    rintro h
    exact absurd (Option.some.inj h ▸ hc) (by decide)
  have hplus : ¬ (dec n ++ s).head? = some 43 := by
    rw [hhead]
    rintro h
    exact absurd (Option.some.inj h ▸ hc) (by decide)
  obtain ⟨hdrop, htake⟩ := dropWhile_append_of_head hs fun c hc => isDigit_of_mem_dec (n := n) hc
  simp only [number, hminus, hplus, or_self, if_false, hdrop, htake, dec_ne_nil, value_dec]

lemma sscanf_int (f : List Dir) (n : ℕ) (hs : ∀ c ∈ s.head?, isDigit c = false) :
    sscanf (.int :: f) (dec n ++ s) = .num n :: sscanf f s := by
  rw [sscanf, scan]
  simp only [dropWhile_isSpace_dec, number_dec n hs]
  rfl

lemma sscanf_noneOf {set : Bytes} (f : List Dir) (ht : ∀ c ∈ t, c ∉ set) (hne : t ≠ [])
    (hs : ∀ c ∈ s.head?, c ∈ set) :
    sscanf (.noneOf set :: f) (t ++ s) = .text t :: sscanf f s := by
  have htake : (t ++ s).takeWhile (· ∉ set) = t :=
    (dropWhile_append_of_head (fun c hc => by simpa using hs c hc) fun c hc => by simpa using ht c hc).2
  rw [sscanf, scan]
  simp only [htake, if_neg hne, List.drop_left]
  rfl

lemma sscanf_skipNoneOf {set : Bytes} (f : List Dir) (ht : ∀ c ∈ t, c ∉ set) (hne : t ≠ [])
    (hs : ∀ c ∈ s.head?, c ∈ set) : sscanf (.skipNoneOf set :: f) (t ++ s) = sscanf f s := by
  have htake : (t ++ s).takeWhile (· ∉ set) = t :=
    (dropWhile_append_of_head (fun c hc => by simpa using hs c hc) fun c hc => by simpa using ht c hc).2
  rw [sscanf, scan]
  simp only [htake, if_neg hne, List.drop_left]
  rfl

lemma sscanf_word (f : List Dir) (ht : ∀ c ∈ t, isSpace c = false) (hne : t ≠ [])
    (hs : ∀ c ∈ s.head?, isSpace c) : sscanf (.word :: f) (t ++ s) = .text t :: sscanf f s := by
  have hdrop : (t ++ s).dropWhile isSpace = t ++ s := by
    obtain ⟨c, u, rfl⟩ := List.exists_cons_of_ne_nil hne
    exact List.dropWhile_cons_of_neg (by rw [ht c List.mem_cons_self]; exact Bool.false_ne_true)
  obtain ⟨hrest, htake⟩ := dropWhile_append_of_head (p := (!isSpace ·))
    (fun c hc => by rw [hs c hc]; rfl) fun c hc => by rw [ht c hc]; rfl
  rw [sscanf, scan]
  simp only [hdrop, hrest, htake, if_neg (List.append_ne_nil_of_left_ne_nil hne s)]
  rfl

end Scanning

section Kinds

def Val.isText : Val → Bool
  | .num _ => false
  | .text _ => true

def kinds : List Dir → List Bool
  | [] => []
  | .int :: f => false :: kinds f
  | .word :: f => true :: kinds f
  | .noneOf _ :: f => true :: kinds f
  | .lit _ :: f => kinds f
  | .space :: f => kinds f
  | .skipWord :: f => kinds f
  | .skipNoneOf _ :: f => kinds f

lemma sscanf_kinds (f : List Dir) (s : Bytes) : (sscanf f s).map Val.isText <+: kinds f := by
  rw [sscanf]
  induction f generalizing s with
  | nil => exact List.prefix_rfl
  | cons d f ih =>
    cases d with
    | lit c =>
      cases s with
      | nil => exact List.nil_prefix
      | cons x s =>
        rw [scan]
        split
        · exact ih s
        · exact List.nil_prefix
    | space => exact ih _
    | int =>
      rw [scan]
      split
      · exact List.nil_prefix
      · exact (List.prefix_cons_inj _).mpr (ih _)
    | word =>
      rw [scan]
      split
      · exact List.nil_prefix
      · exact (List.prefix_cons_inj _).mpr (ih _)
    | skipWord =>
      rw [scan]
      split
      · exact List.nil_prefix
      · exact ih _
    | noneOf set =>
      rw [scan]
      split
      · exact List.nil_prefix
      · exact (List.prefix_cons_inj _).mpr (ih _)
    | skipNoneOf set =>
      rw [scan]
      split
      · exact List.nil_prefix
      · exact ih _

variable {bs : List Bool} {vals : List Val}

lemma kinds_nil (h : vals.map Val.isText <+: []) : vals = [] :=
  List.map_eq_nil_iff.mp (List.prefix_nil.mp h)

lemma kinds_num (h : vals.map Val.isText <+: false :: bs) :
    vals = [] ∨ ∃ n vals', vals = .num n :: vals' ∧ vals'.map Val.isText <+: bs := by
  cases vals with
  | nil => exact .inl rfl
  | cons v vals =>
    obtain ⟨hv, hvals⟩ := List.cons_prefix_cons.mp h
    cases v with
    | num n => exact .inr ⟨n, vals, rfl, hvals⟩
    | text s => cases hv

lemma kinds_text (h : vals.map Val.isText <+: true :: bs) :
    vals = [] ∨ ∃ s vals', vals = .text s :: vals' ∧ vals'.map Val.isText <+: bs := by
  cases vals with
  | nil => exact .inl rfl
  | cons v vals =>
    obtain ⟨hv, hvals⟩ := List.cons_prefix_cons.mp h
    cases v with
    | num n => cases hv
    | text s => exact .inr ⟨s, vals, rfl, hvals⟩

end Kinds

end SimpleCode.Foundations.Scan
