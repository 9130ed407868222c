import SimpleCode.KeepingSettingModify.DateTimeOrder
import SimpleCode.KeepingSettingModify.Histories

set_option autoImplicit false

namespace SimpleCode.KeepingSettingModify

open Foundations Foundations.Bytes SettingModifyRecordKeeping

-- `npos` stands for the rest of the string in `substr(0, pos)`, and `npos + 1` is `0`
def cutAtTag (s tag : Bytes) : Except OutOfRange (Bytes × Bytes) := do
  let pos := find tag s
  let before ← substr s 0 (pos.getD s.length)
  let after ← substr s ((pos.map (· + 1)).getD 0) s.length
  return (before, after)

def cutDateTime (dateTime : Bytes) : Except OutOfRange DateTimeKey := do
  let (date, time) ← cutAtTag dateTime (bytes " ")
  let (year, subDate) ← cutAtTag date (bytes "-")
  let (month, day) ← cutAtTag subDate (bytes "-")
  return { year, month := gMonthStr.idxOf month, day, time }

def dateTimeCompareThrowing (strBaseDTime strNowDTime : Bytes) : Except OutOfRange ℤ :=
  if strBaseDTime = [] ∨ strNowDTime = [] then .ok (-1)
  else do
    let base ← cutDateTime strBaseDTime
    let now ← cutDateTime strNowDTime
    if base.year = now.year then
      if base.month = now.month then
        if base.day = now.day then
          if base.time = now.time then return 0
          else if base.time > now.time then return 1
          else return -1
        else if base.day > now.day then return 1
        else return -1
      else if base.month > now.month then return 1
      else return -1
    else if base.year > now.year then return 1
    else return -1

lemma cutAtTag_eq (s : Bytes) {tag : Bytes} (ht : tag ≠ []) :
    cutAtTag s tag = .ok (beforeTag s tag, afterTag s tag) := by
  unfold cutAtTag beforeTag afterTag
  cases hf : find tag s with
  | none =>
    simp only [Option.getD_none, Option.map_none, substr_of_le _ (Nat.zero_le s.length),
      List.drop_zero, List.take_length]
    rfl
  | some pos =>
    have hle := find_le hf
    have hlen := List.length_pos_iff.mpr ht
    simp only [Option.getD_some, Option.map_some, substr_of_le _ (Nat.zero_le s.length),
      List.drop_zero, substr_rest (show pos + 1 ≤ s.length by omega) le_rfl]
    rfl

lemma cutDateTime_eq (dateTime : Bytes) : cutDateTime dateTime = .ok (dateTimeKey dateTime) := by
  simp only [cutDateTime, cutAtTag_eq _ (show bytes " " ≠ [] by decide),
    cutAtTag_eq _ (show bytes "-" ≠ [] by decide)]
  rfl

lemma dateTimeCompareThrowing_eq (a b : Bytes) :
    dateTimeCompareThrowing a b = .ok (dateTimeCompare a b) := by
  unfold dateTimeCompareThrowing dateTimeCompare
  simp only [cutDateTime_eq, ok_bind]
  split_ifs <;> rfl

lemma dateTimeCompare_opposite {a b : Bytes} (ha : a ≠ []) (hb : b ≠ []) :
    dateTimeCompare b a = - dateTimeCompare a b := by
  rw [dateTimeCompare_eq ha hb, dateTimeCompare_eq hb ha]
  obtain hlt | heq | hgt := lt_trichotomy (rank a) (rank b)
  · simp [hlt, hlt.ne, hlt.ne', hlt.not_gt]
  · simp [heq]
  · simp [hgt, hgt.ne, hgt.ne', hgt.not_gt]

lemma dateTimeCompare_trans {a b c : Bytes} (ha : a ≠ []) (hb : b ≠ []) (hc : c ≠ [])
    (hab : dateTimeCompare a b ≤ 0) (hbc : dateTimeCompare b c ≤ 0) : dateTimeCompare a c ≤ 0 := by
  rw [dateTimeCompare_nonpos ha hc]
  exact ((dateTimeCompare_nonpos ha hb).mp hab).trans ((dateTimeCompare_nonpos hb hc).mp hbc)

lemma dateTimeCompare_values (a b : Bytes) :
    dateTimeCompare a b = -1 ∨ dateTimeCompare a b = 0 ∨ dateTimeCompare a b = 1 := by
  simp only [dateTimeCompare]
  split_ifs <;> simp

lemma append_lt_append {a b c d : Bytes} (h : a.length = b.length) :
    a ++ c < b ++ d ↔ a < b ∨ a = b ∧ c < d := by
  induction a generalizing b with
  | nil =>
    obtain rfl := List.length_eq_zero_iff.mp h.symm
    simp
  | cons x a ih =>
    cases b with
    | nil => cases h
    | cons y b =>
      rw [List.cons_append, List.cons_append, List.cons_lt_cons_iff, List.cons_lt_cons_iff,
        ih (Nat.succ.inj h), List.cons.injEq]
      tauto

lemma digitChar_toNat {n : ℕ} (h : n < 10) : UInt8.ofNat n.digitChar.toNat = UInt8.ofNat (48 + n) := by
  interval_cases n <;> rfl

lemma decimal_append {w : ℕ} (hw : 0 < w) (n : ℕ) :
    decimal (w + 1) n = decimal w (n / 10) ++ [UInt8.ofNat (48 + n % 10)] := by
  unfold decimal
  rw [Nat.toDigits_eq_if (by decide : 1 < 10) (n := n)]
  split_ifs with h
  · obtain ⟨w, rfl⟩ : ∃ k, w = k + 1 := ⟨w - 1, by omega⟩
    rw [Nat.div_eq_of_lt h, Nat.mod_eq_of_lt h]
    simp [List.replicate_succ', digitChar_toNat h]
  · simp [digitChar_toNat (Nat.mod_lt n (by decide : 0 < 10))]

lemma decimal_one {n : ℕ} (h : n < 10) : decimal 1 n = [UInt8.ofNat (48 + n)] := by
  rw [decimal, Nat.toDigits_of_lt_base h]
  simp [digitChar_toNat h]

section Decimal

variable {w n k : ℕ}

lemma length_decimal (hw : 0 < w) (hn : n < 10 ^ w) : (decimal w n).length = w := by
  induction w, hw using Nat.le_induction generalizing n with
  | base => rw [decimal_one (by simpa using hn), List.length_singleton]
  | succ w hw ih =>
    rw [decimal_append hw, List.length_append, ih (by rw [pow_succ] at hn; omega),
      List.length_singleton]

lemma digit_lt_digit {a b : ℕ} (ha : a < 10) (hb : b < 10) :
    UInt8.ofNat (48 + a) < UInt8.ofNat (48 + b) ↔ a < b := by
  rw [UInt8.lt_iff_toNat_lt, UInt8.toNat_ofNat', UInt8.toNat_ofNat']
  omega

lemma decimal_lt_of_lt (hw : 0 < w) (hk : k < 10 ^ w) (h : n < k) : decimal w n < decimal w k := by
  induction w, hw using Nat.le_induction generalizing n k with
  | base =>
    rw [pow_one] at hk
    rw [decimal_one (h.trans hk), decimal_one hk, List.cons_lt_cons_iff]
    exact .inl ((digit_lt_digit (h.trans hk) hk).mpr h)
  | succ w hw ih =>
    rw [pow_succ] at hk
    have hlen : (decimal w (n / 10)).length = (decimal w (k / 10)).length := by
      rw [length_decimal hw (by omega), length_decimal hw (by omega)]
    rw [decimal_append hw, decimal_append hw, append_lt_append hlen]
    obtain hlt | heq : n / 10 < k / 10 ∨ n / 10 = k / 10 := by omega
    · exact .inl (ih (by omega) hlt)
    · have hdigit := (digit_lt_digit (Nat.mod_lt n (by decide)) (Nat.mod_lt k (by decide))).mpr
        (show n % 10 < k % 10 by omega)
      exact .inr ⟨by rw [heq], List.cons_lt_cons_iff.mpr (.inl hdigit)⟩

lemma decimal_lt_decimal (hw : 0 < w) (hn : n < 10 ^ w) (hk : k < 10 ^ w) :
    decimal w n < decimal w k ↔ n < k := by
  constructor
  · intro h
    obtain hlt | rfl | hgt := lt_trichotomy n k
    · exact hlt
    · exact absurd h (lt_irrefl _)
    · exact absurd (h.trans (decimal_lt_of_lt hw hn hgt)) (lt_irrefl _)
  · exact decimal_lt_of_lt hw hk

lemma decimal_inj (hw : 0 < w) (hn : n < 10 ^ w) (hk : k < 10 ^ w) :
    decimal w n = decimal w k ↔ n = k := by
  constructor
  · intro h
    obtain hlt | heq | hgt := lt_trichotomy n k
    · exact absurd h (decimal_lt_of_lt hw hk hlt).ne
    · exact heq
    · exact absurd h (decimal_lt_of_lt hw hn hgt).ne'
  · exact congrArg (decimal w)

lemma not_mem_decimal {c : UInt8} (hc : c < 48 ∨ 57 < c) : c ∉ decimal w n := by
  rw [UInt8.lt_iff_toNat_lt, UInt8.lt_iff_toNat_lt] at hc
  unfold decimal
  simp only [List.mem_append, List.mem_replicate, List.mem_map, not_or, not_and, not_exists]
  refine ⟨fun _ h => ?_, fun ch hch h => ?_⟩
  · subst h
    exact absurd hc (by decide)
  · have hdigit := Nat.isDigit_of_mem_toDigits (by decide) (by decide) hch
    rw [Char.isDigit, Bool.and_eq_true, decide_eq_true_eq, decide_eq_true_eq] at hdigit
    have hlow : 48 ≤ ch.toNat := hdigit.1
    have hhigh : ch.toNat ≤ 57 := hdigit.2
    rw [← h, UInt8.toNat_ofNat'] at hc
    simp at hc
    omega

end Decimal

/-- The numbers that `getDateTimeStamp` can answer for a date, a leap second included. -/
structure Clock.Valid (clock : Clock) : Prop where
  year : clock.dateTime.year.toNat ≤ 9999
  month : 1 ≤ clock.dateTime.month.toNat
  day : 1 ≤ clock.dateTime.day.toNat ∧ clock.dateTime.day.toNat ≤ 31
  hour : clock.dateTime.hour.toNat < 24
  minute : clock.dateTime.minute.toNat < 60
  second : clock.dateTime.second.toNat ≤ 60
  nsec : clock.nsec < 1000000000

abbrev Moment := ℕ ×ₗ ℕ ×ₗ ℕ ×ₗ ℕ ×ₗ ℕ ×ₗ ℕ ×ₗ ℕ

def Clock.moment (clock : Clock) : Moment :=
  let dt := clock.dateTime
  toLex (dt.year.toNat, toLex (dt.month.toNat, toLex (dt.day.toNat, toLex (dt.hour.toNat,
    toLex (dt.minute.toNat, toLex (dt.second.toNat, clock.nsec / 1000000))))))

def timeText (clock : Clock) : Bytes :=
  let dt := clock.dateTime
  decimal 2 dt.hour.toNat ++ (bytes ":" ++ (decimal 2 dt.minute.toNat ++ (bytes ":" ++
    (decimal 2 dt.second.toNat ++ (bytes "." ++ decimal 3 (clock.nsec / 1000000))))))

def monthText (clock : Clock) : Bytes :=
  gMonthStr.get ⟨clock.dateTime.month.toNat, clock.dateTime.month_lt⟩

lemma find_byte_append {c : UInt8} {a : Bytes} (b : Bytes) (h : c ∉ a) :
    find [c] (a ++ ([c] ++ b)) = some a.length := by
  rw [← List.append_assoc, find_append]
  · rw [overlaps_iff]
    simp [borders]
  · rintro ⟨u, v, rfl⟩
    simp at h

lemma beforeTag_append {c : UInt8} {a : Bytes} (b : Bytes) (h : c ∉ a) :
    beforeTag (a ++ ([c] ++ b)) [c] = a := by
  rw [beforeTag, find_byte_append b h]
  exact List.take_left

lemma afterTag_append {c : UInt8} {a : Bytes} (b : Bytes) (h : c ∉ a) :
    afterTag (a ++ ([c] ++ b)) [c] = b := by
  rw [afterTag, find_byte_append b h]
  simp [List.drop_append]

lemma idxOf_month (i : Fin gMonthStr.length) : gMonthStr.idxOf (gMonthStr.get i) = i := by
  revert i
  decide

lemma not_mem_month : ∀ name ∈ gMonthStr, (45 : UInt8) ∉ name ∧ (32 : UInt8) ∉ name := by
  decide

section Stamp

variable {clock other : Clock}

lemma length_month : ∀ name ∈ gMonthStr, name.length ≤ 9 := by
  decide

lemma modifyTimeStamp_eq (hv : clock.Valid) :
    modifyTimeStamp clock = (decimal 4 clock.dateTime.year.toNat ++ ([45] ++ (monthText clock ++
      ([45] ++ decimal 2 clock.dateTime.day.toNat)))) ++ ([32] ++ timeText clock) := by
  have hy := hv.year
  have hd := hv.day.2
  have hh := hv.hour
  have hm := hv.minute
  have hs := hv.second
  have hn := hv.nsec
  have hmonth := length_month (monthText clock) (List.get_mem _ _)
  have hyear := length_decimal (w := 4) (by decide) (show clock.dateTime.year.toNat < 10 ^ 4 by omega)
  have hday := length_decimal (w := 2) (by decide) (show clock.dateTime.day.toNat < 10 ^ 2 by omega)
  have hhour := length_decimal (w := 2) (by decide) (show clock.dateTime.hour.toNat < 10 ^ 2 by omega)
  have hmin := length_decimal (w := 2) (by decide)
    (show clock.dateTime.minute.toNat < 10 ^ 2 by omega)
  have hsec := length_decimal (w := 2) (by decide)
    (show clock.dateTime.second.toNat < 10 ^ 2 by omega)
  have hmsec := length_decimal (w := 3) (by decide)
    (show clock.nsec / 1000000 < 10 ^ 3 by omega)
  unfold modifyTimeStamp
  rw [List.take_of_length_le]
  · simp only [timeText, monthText, List.append_assoc]
    rfl
  · simp only [List.length_append, hyear, hday, hhour, hmin, hsec, hmsec]
    change 4 + 1 + (monthText clock).length + 1 + 2 + 1 + 2 + 1 + 2 + 1 + 2 + 1 + 3 ≤ 62
    omega

lemma dateTimeKey_modifyTimeStamp (hv : clock.Valid) :
    dateTimeKey (modifyTimeStamp clock) =
      ⟨decimal 4 clock.dateTime.year.toNat, clock.dateTime.month.toNat,
        decimal 2 clock.dateTime.day.toNat, timeText clock⟩ := by
  have hmonth := not_mem_month (monthText clock) (List.get_mem _ _)
  have hdate : (32 : UInt8) ∉ decimal 4 clock.dateTime.year.toNat ++ ([45] ++ (monthText clock ++
      ([45] ++ decimal 2 clock.dateTime.day.toNat))) := by
    simp only [List.mem_append, List.mem_singleton, not_or]
    exact ⟨not_mem_decimal (by decide), by decide, hmonth.2, by decide, not_mem_decimal (by decide)⟩
  have hyear : (45 : UInt8) ∉ decimal 4 clock.dateTime.year.toNat := not_mem_decimal (by decide)
  rw [modifyTimeStamp_eq hv]
  unfold dateTimeKey
  rw [show bytes " " = [32] from rfl, show bytes "-" = [45] from rfl, beforeTag_append _ hdate,
    afterTag_append _ hdate]
  simp only [beforeTag_append _ hyear, afterTag_append _ hyear, beforeTag_append _ hmonth.1,
    afterTag_append _ hmonth.1]
  rw [show gMonthStr.idxOf (monthText clock) = clock.dateTime.month.toNat from idxOf_month _]

variable (hv : clock.Valid) (ho : other.Valid)

include hv ho

lemma timeText_lt : timeText clock < timeText other ↔
    clock.dateTime.hour.toNat < other.dateTime.hour.toNat ∨
      clock.dateTime.hour.toNat = other.dateTime.hour.toNat ∧
        (clock.dateTime.minute.toNat < other.dateTime.minute.toNat ∨
          clock.dateTime.minute.toNat = other.dateTime.minute.toNat ∧
            (clock.dateTime.second.toNat < other.dateTime.second.toNat ∨
              clock.dateTime.second.toNat = other.dateTime.second.toNat ∧
                clock.nsec / 1000000 < other.nsec / 1000000)) := by
  have hh := hv.hour
  have hm := hv.minute
  have hs := hv.second
  have hn := hv.nsec
  have hh' := ho.hour
  have hm' := ho.minute
  have hs' := ho.second
  have hn' := ho.nsec
  have htwo : 0 < 2 := by decide
  have hlen {n k : ℕ} (hn : n < 10 ^ 2) (hk : k < 10 ^ 2) :
      (decimal 2 n).length = (decimal 2 k).length := by
    rw [length_decimal htwo hn, length_decimal htwo hk]
  have htag {a b tag : Bytes} : tag ++ a < tag ++ b ↔ a < b := by
    rw [append_lt_append rfl]
    simp
  unfold timeText
  rw [append_lt_append (hlen (by omega) (by omega)), htag,
    append_lt_append (hlen (by omega) (by omega)), htag,
    append_lt_append (hlen (by omega) (by omega)), htag,
    decimal_lt_decimal htwo (by omega) (by omega), decimal_inj htwo (by omega) (by omega),
    decimal_lt_decimal htwo (by omega) (by omega), decimal_inj htwo (by omega) (by omega),
    decimal_lt_decimal htwo (by omega) (by omega), decimal_inj htwo (by omega) (by omega),
    decimal_lt_decimal (by decide) (by omega) (by omega)]

lemma rank_lt_iff_moment :
    rank (modifyTimeStamp clock) < rank (modifyTimeStamp other) ↔ clock.moment < other.moment := by
  have hy := hv.year
  have hy' := ho.year
  have hd := hv.day.2
  have hd' := ho.day.2
  rw [rank_lt, dateTimeKey_modifyTimeStamp hv, dateTimeKey_modifyTimeStamp ho]
  simp only [timeText_lt hv ho]
  rw [decimal_lt_decimal (by decide) (by omega) (by omega),
    decimal_inj (by decide) (by omega) (by omega),
    decimal_lt_decimal (by decide) (by omega) (by omega),
    decimal_inj (by decide) (by omega) (by omega)]
  simp only [Clock.moment, Prod.Lex.toLex_lt_toLex]

end Stamp

def Clock.compare (base now : Clock) : ℤ :=
  if base.moment < now.moment then -1 else if now.moment < base.moment then 1 else 0

lemma dateTimeCompare_chronological {base now : Clock} (hb : base.Valid) (hn : now.Valid) :
    dateTimeCompare (modifyTimeStamp base) (modifyTimeStamp now) = base.compare now := by
  rw [dateTimeCompare_eq (modifyTimeStamp_ne_nil base) (modifyTimeStamp_ne_nil now)]
  simp only [Clock.compare, ← rank_lt_iff_moment hb hn, ← rank_lt_iff_moment hn hb]
  obtain hlt | heq | hgt := lt_trichotomy (rank (modifyTimeStamp base)) (rank (modifyTimeStamp now))
  · simp [hlt, hlt.ne, hlt.not_gt]
  · simp [heq]
  · simp [hgt, hgt.ne', hgt.not_gt]

/-- `c` compares as a total preorder does, with the signs -1, 0 and 1. -/
structure TotalPreorderComparison (c : Bytes → Bytes → Except OutOfRange ℤ) : Prop where
  total : ∀ a b, a ≠ [] → b ≠ [] → ∃ i, c a b = .ok i ∧ (i = -1 ∨ i = 0 ∨ i = 1)
  refl : ∀ a, a ≠ [] → c a a = .ok 0
  opposite : ∀ a b i, a ≠ [] → b ≠ [] → c a b = .ok i → c b a = .ok (-i)
  trans : ∀ x y z i j, x ≠ [] → y ≠ [] → z ≠ [] → c x y = .ok i → i ≤ 0 → c y z = .ok j →
    j ≤ 0 → ∃ k, c x z = .ok k ∧ k ≤ 0

theorem dateTimeCompare_orders :
    TotalPreorderComparison dateTimeCompareThrowing ∧
      ∀ base now : Clock, base.Valid → now.Valid →
        dateTimeCompareThrowing (modifyTimeStamp base) (modifyTimeStamp now) =
          .ok (base.compare now) := by
  refine ⟨⟨?_, ?_, ?_, ?_⟩, ?_⟩
  · intro a b _ _
    exact ⟨_, dateTimeCompareThrowing_eq a b, dateTimeCompare_values a b⟩
  · intro a ha
    rw [dateTimeCompareThrowing_eq, (dateTimeCompare_eq_zero ha ha).mpr rfl]
  · intro a b i ha hb hi
    rw [dateTimeCompareThrowing_eq] at hi ⊢
    rw [dateTimeCompare_opposite ha hb, Except.ok.inj hi]
  · intro x y z i j hx hy hz hi hile hj hjle
    rw [dateTimeCompareThrowing_eq] at hi hj
    have hxy := Except.ok.inj hi ▸ hile
    have hyz := Except.ok.inj hj ▸ hjle
    exact ⟨_, dateTimeCompareThrowing_eq x z, dateTimeCompare_trans hx hy hz hxy hyz⟩
  · intro base now hb hn
    rw [dateTimeCompareThrowing_eq, dateTimeCompare_chronological hb hn]

theorem dateTimeCompare_orders_clocks :
    dateTimeCompareThrowing (modifyTimeStamp Process.someClock) (modifyTimeStamp Process.someClock) = .ok 0 ∧
      dateTimeCompareThrowing (modifyTimeStamp Process.someClock)
        (modifyTimeStamp { Process.someClock with nsec := 999999999 }) = .ok (-1) := by
  have hv : Process.someClock.Valid :=
    ⟨by decide, by decide, by decide, by decide, by decide, by decide, by decide⟩
  have hlater : Clock.Valid { Process.someClock with nsec := 999999999 } :=
    ⟨by decide, by decide, by decide, by decide, by decide, by decide, by decide⟩
  refine ⟨dateTimeCompare_orders.1.refl _ (modifyTimeStamp_ne_nil Process.someClock), ?_⟩
  rw [dateTimeCompare_orders.2 Process.someClock _ hv hlater]
  decide

end SimpleCode.KeepingSettingModify
