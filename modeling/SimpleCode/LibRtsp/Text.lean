import SimpleCode.Foundations.Scan

set_option autoImplicit false

/-! The lines and words of RTSP messages, as the client and the server both find them. A text is what
stands in front of the terminating 0. -/

namespace SimpleCode.LibRtsp

open Foundations

-- `RTSP_VER` of the client, `RTSP_VERSION` of the server.
def rtspVersion : Bytes := bytes "RTSP/1.0"

def crlf : Bytes := [13, 10]

def joined (ls : List Bytes) (rest : Bytes) : Bytes := ls.flatMap (· ++ crlf) ++ rest

inductive Method
  | options
  | describe
  | setup
  | play
  | pause
  | getParameter
  | setParameter
  | teardown
deriving DecidableEq, Repr

namespace Method

def all : List Method :=
  [.options, .describe, .setup, .play, .pause, .getParameter, .setParameter, .teardown]

-- `rtsp_method_tkn` of the client, `rtsp_method_token` of the server.
def token : Method → Bytes
  | .options => bytes "OPTIONS"
  | .describe => bytes "DESCRIBE"
  | .setup => bytes "SETUP"
  | .play => bytes "PLAY"
  | .pause => bytes "PAUSE"
  | .getParameter => bytes "GET_PARAMETER"
  | .setParameter => bytes "SET_PARAMETER"
  | .teardown => bytes "TEARDOWN"

lemma mem_all (m : Method) : m ∈ all := by
  cases m <;> decide

end Method

inductive Fault
  | nullPointer
  | overflow
  | overread
deriving DecidableEq, Repr

def hasPrefix (tag str : Bytes) : Bool := tag.isPrefixOf str

def toLower (c : UInt8) : UInt8 := if 65 ≤ c ∧ c ≤ 90 then c + 32 else c

def hasPrefixCase (tag str : Bytes) : Bool := (tag.map toLower).isPrefixOf (str.map toLower)

def strpbrk (set : Bytes) : Bytes → Option Bytes
  | [] => none
  | c :: str => if c ∈ set then some (c :: str) else strpbrk set str

def lineEnd : Bytes → Option (UInt8 × Bytes)
  | [] => none
  | c :: str =>
    if hasPrefix [13, 10, 13, 10] (c :: str) ∨ hasPrefix [13, 13] (c :: str)
      ∨ hasPrefix [10, 10] (c :: str) then none
    else if hasPrefix crlf (c :: str) then some (10, str.drop 1)
    else if c = 13 ∨ c = 10 then some (c, str)
    else lineEnd str

def getNextLine (str : Bytes) : Option Bytes := (lineEnd str).map Prod.snd

-- In a transport header: where the next field is, unless the line has ended; `none` is a `NULL`.
def nextField (ptr : Bytes) : Option (Option Bytes) :=
  (strpbrk [59, 13, 10] ptr).map fun ptr =>
    let ptr := ptr.dropWhile (· = 59)
    if ptr = [] ∨ ptr.head? = some 13 ∨ ptr.head? = some 10 then none else some ptr

def isLine (l : Bytes) : Prop := ∀ c ∈ l, c ≠ 13 ∧ c ≠ 10

instance (l : Bytes) : Decidable (isLine l) := inferInstanceAs (Decidable (∀ c ∈ l, c ≠ 13 ∧ c ≠ 10))

structure Tm where
  wday : Fin 7
  mon : Fin 12
  mday : Fin 32
  year : Fin (2 ^ 32)
  hour : Fin 24
  min : Fin 60
  sec : Fin 61
deriving DecidableEq, Repr

namespace Tm

def wdays : List Bytes := [bytes "Sun", bytes "Mon", bytes "Tue", bytes "Wed", bytes "Thu", bytes "Fri",
  bytes "Sat"]

def months : List Bytes := [bytes "Jan", bytes "Feb", bytes "Mar", bytes "Apr", bytes "May", bytes "Jun",
  bytes "Jul", bytes "Aug", bytes "Sep", bytes "Oct", bytes "Nov", bytes "Dec"]

def two (n : ℕ) : Bytes := [Scan.digit (n / 10), Scan.digit (n % 10)]

-- `strftime` with `"%a, %b %d %Y %H:%M:%S GMT"`
def gmt (tm : Tm) : Bytes :=
  wdays.getD tm.wday [] ++ bytes ", " ++ months.getD tm.mon [] ++ bytes " " ++ two tm.mday ++ bytes " "
    ++ Scan.dec tm.year ++ bytes " " ++ two tm.hour ++ bytes ":" ++ two tm.min ++ bytes ":" ++ two tm.sec
    ++ bytes " GMT"

end Tm

section Prefixes

variable {tag l : Bytes}

lemma hasPrefix_iff {str : Bytes} : hasPrefix tag str ↔ tag <+: str := List.isPrefixOf_iff_prefix

lemma hasPrefix_append (tag rest : Bytes) : hasPrefix tag (tag ++ rest) :=
  hasPrefix_iff.mpr (List.prefix_append tag rest)

lemma not_prefix_append (h : ¬ tag <+: l) (h' : ¬ l <+: tag) (rest : Bytes) : ¬ tag <+: l ++ rest :=
  fun hp => (List.prefix_or_prefix_of_prefix hp (List.prefix_append l rest)).elim h h'

lemma hasPrefix_ne (h : ¬ tag <+: l ∧ ¬ l <+: tag) (rest : Bytes) : hasPrefix tag (l ++ rest) = false :=
  Bool.eq_false_iff.mpr fun hp => not_prefix_append h.1 h.2 rest (hasPrefix_iff.mp hp)

lemma hasPrefixCase_append (h : tag.map toLower <+: l.map toLower) (rest : Bytes) :
    hasPrefixCase tag (l ++ rest) := by
  rw [hasPrefixCase, List.map_append, List.isPrefixOf_iff_prefix]
  exact h.trans (List.prefix_append _ _)

lemma hasPrefixCase_ne (h : ¬ tag.map toLower <+: l.map toLower ∧ ¬ l.map toLower <+: tag.map toLower)
    (rest : Bytes) : hasPrefixCase tag (l ++ rest) = false := by
  rw [hasPrefixCase, List.map_append, Bool.eq_false_iff, Ne, List.isPrefixOf_iff_prefix]
  exact not_prefix_append h.1 h.2 _

end Prefixes

section Shorter

variable {str rest set : Bytes}

lemma length_lineEnd {c : UInt8} (h : lineEnd str = some (c, rest)) : rest.length < str.length := by
  induction str with
  | nil => exact nomatch h
  | cons d str ih =>
    rw [lineEnd] at h
    split at h
    · exact nomatch h
    · split at h
      · obtain ⟨-, rfl⟩ := Prod.mk.inj (Option.some.inj h)
        rw [List.length_drop, List.length_cons]
        omega
      · split at h
        · obtain ⟨-, rfl⟩ := Prod.mk.inj (Option.some.inj h)
          exact Nat.lt_succ_self _
        · exact (ih h).trans (Nat.lt_succ_self _)

lemma length_getNextLine (h : getNextLine str = some rest) : rest.length < str.length := by
  obtain ⟨⟨c, line⟩, hend, rfl⟩ := Option.map_eq_some_iff.mp h
  exact length_lineEnd hend

lemma strpbrk_spec (h : strpbrk set str = some rest) :
    rest.length ≤ str.length ∧ ∃ c tail, rest = c :: tail ∧ c ∈ set := by
  induction str with
  | nil => exact nomatch h
  | cons c str ih =>
    rw [strpbrk] at h
    split at h
    · next hc =>
      obtain rfl := Option.some.inj h
      exact ⟨le_rfl, c, str, rfl, hc⟩
    · obtain ⟨hle, hcons⟩ := ih h
      exact ⟨hle.trans (Nat.le_succ _), hcons⟩

lemma length_nextField (h : nextField str = some (some rest)) : rest.length < str.length := by
  obtain ⟨ptr, hptr, hrest⟩ := Option.map_eq_some_iff.mp h
  obtain ⟨hle, c, tail, rfl, hc⟩ := strpbrk_spec hptr
  dsimp only at hrest
  split at hrest
  · exact nomatch hrest
  · next hgo =>
    obtain rfl := Option.some.inj hrest
    by_cases hsemi : c = 59
    · rw [List.dropWhile_cons_of_pos (by simpa using hsemi)]
      have htail := (List.dropWhile_suffix (l := tail) fun c => decide (c = 59)).length_le
      exact Nat.lt_of_le_of_lt htail hle
    · rw [List.dropWhile_cons_of_neg (by simpa using hsemi)] at hgo
      simp only [List.mem_cons, List.not_mem_nil, or_false] at hc
      rcases hc.resolve_left hsemi with rfl | rfl
      · exact absurd (.inr (.inl rfl)) hgo
      · exact absurd (.inr (.inr rfl)) hgo

/-- The loop over the fields of a transport header; a field is handled by `field`, which says whether it
could be parsed. -/
def fields {σ : Type} (field : σ → Bytes → σ × Bool) (s : σ) (ptr : Bytes) : Except Fault (σ × Bool) :=
  if ptr = [] then .ok (s, true)
  else
    let r := field s ptr
    if r.2 then
      match _h : nextField ptr with
      | none => .error .nullPointer
      | some none => .ok r
      | some (some ptr) => fields field r.1 ptr
    else .ok r
termination_by ptr.length
decreasing_by exact length_nextField ‹_›

end Shorter

section Lines

variable {l rest : Bytes}

lemma isLine.append {l l' : Bytes} (h : isLine l) (h' : isLine l') : isLine (l ++ l') := by
  intro c hc
  exact (List.mem_append.mp hc).elim (h c) (h' c)

lemma lineEnd_append (h : isLine l) (rest : Bytes) : lineEnd (l ++ rest) = lineEnd rest := by
  induction l with
  | nil => rfl
  | cons c l ih =>
    obtain ⟨hcr, hlf⟩ := h c List.mem_cons_self
    have hno : ∀ (d : UInt8) (tag : Bytes), c ≠ d → hasPrefix (d :: tag) (c :: (l ++ rest)) = false :=
      fun d tag hd => Bool.eq_false_iff.mpr fun hp =>
        hd ((List.cons_prefix_cons.mp (hasPrefix_iff.mp hp)).1.symm)
    rw [List.cons_append, lineEnd, crlf, hno 13 _ hcr, hno 13 _ hcr, hno 10 _ hlf, hno 13 _ hcr]
    simp only [Bool.false_eq_true, or_self, if_false, hcr, hlf]
    exact ih fun d hd => h d (List.mem_cons_of_mem c hd)

lemma getNextLine_line (h : isLine l) (hrest : ¬ crlf <+: rest) :
    getNextLine (l ++ (crlf ++ rest)) = some rest := by
  have hblank : hasPrefix [13, 10, 13, 10] (13 :: 10 :: rest) = false :=
    Bool.eq_false_iff.mpr fun hp => hrest (by
      have hp := hasPrefix_iff.mp hp
      rw [List.cons_prefix_cons, List.cons_prefix_cons] at hp
      exact hp.2.2)
  rw [getNextLine, lineEnd_append h, crlf, List.cons_append, List.cons_append, List.nil_append, lineEnd, hblank]
  rfl

lemma getNextLine_last (h : isLine l) (rest : Bytes) :
    getNextLine (l ++ (crlf ++ (crlf ++ rest))) = none := by
  rw [getNextLine, lineEnd_append h]
  rfl

lemma joined_cons (l : Bytes) (ls : List Bytes) (rest : Bytes) :
    joined (l :: ls) rest = l ++ (crlf ++ joined ls rest) := by
  rw [joined, List.flatMap_cons, joined, List.append_assoc, List.append_assoc]

lemma not_blank_line {l : Bytes} (h : isLine l) (hne : l ≠ []) (rest : Bytes) : ¬ crlf <+: l ++ rest := by
  obtain ⟨c, l, rfl⟩ := List.exists_cons_of_ne_nil hne
  intro hp
  exact (h c List.mem_cons_self).1 (List.cons_prefix_cons.mp hp).1.symm

lemma getNextLine_joined {l l' : Bytes} (h : isLine l) (h' : isLine l') (hne : l' ≠ []) (ls : List Bytes)
    (rest : Bytes) :
    getNextLine (joined (l :: l' :: ls) rest) = some (joined (l' :: ls) rest) := by
  rw [joined_cons, getNextLine_line h]
  rw [joined_cons]
  exact not_blank_line h' hne _

end Lines

section Words

variable {w rest : Bytes}

lemma strpbrk_append {set : Bytes} (h : ∀ c ∈ w, c ∉ set) (rest : Bytes) :
    strpbrk set (w ++ rest) = strpbrk set rest := by
  induction w with
  | nil => rfl
  | cons c w ih =>
    rw [List.cons_append, strpbrk, if_neg (h c List.mem_cons_self)]
    exact ih fun d hd => h d (List.mem_cons_of_mem c hd)

def isField (w : Bytes) : Prop := ∀ c ∈ w, c ∉ ([59, 13, 10] : Bytes)

instance (w : Bytes) : Decidable (isField w) :=
  inferInstanceAs (Decidable (∀ c ∈ w, c ∉ ([59, 13, 10] : Bytes)))

lemma nextField_semicolon (h : isField w) {q : Bytes} (hq : isField q) (hne : q ≠ []) (rest : Bytes) :
    nextField (w ++ 59 :: (q ++ rest)) = some (some (q ++ rest)) := by
  obtain ⟨c, q, rfl⟩ := List.exists_cons_of_ne_nil hne
  have hc := hq c List.mem_cons_self
  simp only [List.mem_cons, List.not_mem_nil, or_false, not_or] at hc
  have hdrop : (59 :: (c :: q ++ rest)).dropWhile (fun c => decide (c = 59)) = c :: q ++ rest := by
    rw [List.dropWhile_cons_of_pos (by decide), List.cons_append,
      List.dropWhile_cons_of_neg (by simpa using hc.1)]
  rw [nextField, strpbrk_append h, strpbrk, if_pos (by decide), Option.map_some, hdrop]
  exact congrArg some (if_neg (by simpa using hc.2))

lemma nextField_last (h : isField w) (rest : Bytes) : nextField (w ++ (crlf ++ rest)) = some none := by
  rw [nextField, strpbrk_append h]
  rfl

variable {σ : Type} {field : σ → Bytes → σ × Bool} {s s' : σ}

lemma fields_semicolon {q : Bytes} (hw : isField w) (hwne : w ≠ []) (hq : isField q) (hne : q ≠ [])
    (hfield : field s (w ++ 59 :: (q ++ rest)) = (s', true)) :
    fields field s (w ++ 59 :: (q ++ rest)) = fields field s' (q ++ rest) := by
  rw [fields, if_neg (List.append_ne_nil_of_left_ne_nil hwne _), hfield]
  simp only [if_true]
  split
  · next hnone => exact nomatch hnone.symm.trans (nextField_semicolon hw hq hne rest)
  · next hnone => exact nomatch Option.some.inj (hnone.symm.trans (nextField_semicolon hw hq hne rest))
  · next ptr hsome =>
    obtain rfl := Option.some.inj (Option.some.inj (hsome.symm.trans (nextField_semicolon hw hq hne rest)))
    rfl

lemma fields_last (hw : isField w) (hwne : w ≠ []) (hfield : field s (w ++ (crlf ++ rest)) = (s', true)) :
    fields field s (w ++ (crlf ++ rest)) = .ok (s', true) := by
  rw [fields, if_neg (List.append_ne_nil_of_left_ne_nil hwne _), hfield]
  simp only [if_true]
  split
  · next hnone => exact nomatch hnone.symm.trans (nextField_last hw rest)
  · rfl
  · next ptr hsome => exact nomatch Option.some.inj (hsome.symm.trans (nextField_last hw rest))

end Words

section Fields

variable {σ : Type} {field : σ → Bytes → σ × Bool}

lemma fields_step (s : σ) {ptr : Bytes} (hne : ptr ≠ []) :
    fields field s ptr = if (field s ptr).2 then
        match nextField ptr with
        | none => .error .nullPointer
        | some none => .ok (field s ptr)
        | some (some next) => fields field (field s ptr).1 next
      else .ok (field s ptr) := by
  rw [fields, if_neg hne]
  dsimp only
  split_ifs
  · split <;> next hnext => rw [hnext]
  · rfl

lemma fields_snd (hf : ∀ s s' ptr, (field s ptr).2 = (field s' ptr).2) (s s' : σ) (ptr : Bytes) :
    (fields field s ptr).map Prod.snd = (fields field s' ptr).map Prod.snd := by
  induction hn : ptr.length using Nat.strong_induction_on generalizing ptr s s' with
  | _ n ih =>
    by_cases hnil : ptr = []
    · rw [fields, fields, if_pos hnil, if_pos hnil]
      rfl
    have hlast : (Except.ok (field s ptr)).map Prod.snd
        = (Except.ok (field s' ptr) : Except Fault (σ × Bool)).map Prod.snd := congrArg Except.ok (hf s s' ptr)
    rw [fields_step s hnil, fields_step s' hnil, ← hf s s' ptr]
    split_ifs
    · cases hnext : nextField ptr with
      | none => rfl
      | some next =>
        cases next with
        | none => exact hlast
        | some next => exact ih _ (hn ▸ length_nextField hnext) _ _ _ rfl
    · exact hlast

lemma fields_rel {R : σ → σ → Prop} (hrefl : ∀ s, R s s) (htrans : ∀ {s t u}, R s t → R t u → R s u)
    (hf : ∀ s ptr, R s (field s ptr).1) {s : σ} {ptr : Bytes} {r : σ × Bool}
    (h : fields field s ptr = .ok r) : R s r.1 := by
  induction hn : ptr.length using Nat.strong_induction_on generalizing ptr s with
  | _ n ih =>
    by_cases hnil : ptr = []
    · rw [fields, if_pos hnil] at h
      cases h
      exact hrefl s
    rw [fields_step s hnil] at h
    split_ifs at h
    · cases hnext : nextField ptr with
      | none => cases hnext ▸ h
      | some next =>
        rw [hnext] at h
        cases next with
        | none =>
          cases h
          exact hf s ptr
        | some next => exact htrans (hf s ptr) (ih _ (hn ▸ length_nextField hnext) h rfl)
    · cases h
      exact hf s ptr

end Fields

end SimpleCode.LibRtsp
