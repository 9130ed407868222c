import SimpleCode.KeepingSettingModify.Utilitys

set_option autoImplicit false

namespace SimpleCode.KeepingSettingModify

open Foundations Foundations.Bytes

abbrev Rank := Bytes ×ₗ ℕ ×ₗ Bytes ×ₗ Bytes

def rank (dateTime : Bytes) : Rank :=
  let key := dateTimeKey dateTime
  toLex (key.year, toLex (key.month, toLex (key.day, key.time)))

lemma rank_lt {a b : Bytes} :
    rank a < rank b ↔ (dateTimeKey a).year < (dateTimeKey b).year ∨
      (dateTimeKey a).year = (dateTimeKey b).year ∧ ((dateTimeKey a).month < (dateTimeKey b).month ∨
        (dateTimeKey a).month = (dateTimeKey b).month ∧ ((dateTimeKey a).day < (dateTimeKey b).day ∨
          (dateTimeKey a).day = (dateTimeKey b).day ∧
            (dateTimeKey a).time < (dateTimeKey b).time)) := by
  simp [rank, Prod.Lex.toLex_lt_toLex]

lemma rank_eq {a b : Bytes} :
    rank a = rank b ↔ (dateTimeKey a).year = (dateTimeKey b).year ∧
      (dateTimeKey a).month = (dateTimeKey b).month ∧
        (dateTimeKey a).day = (dateTimeKey b).day ∧
          (dateTimeKey a).time = (dateTimeKey b).time := by
  simp [rank]

lemma dateTimeCompare_eq {a b : Bytes} (ha : a ≠ []) (hb : b ≠ []) :
    dateTimeCompare a b = if rank a = rank b then 0 else if rank b < rank a then 1 else -1 := by
  simp only [dateTimeCompare, ha, hb, or_self, if_false, rank_eq, rank_lt, gt_iff_lt]
  by_cases hy : (dateTimeKey a).year = (dateTimeKey b).year
  · by_cases hm : (dateTimeKey a).month = (dateTimeKey b).month
    · by_cases hd : (dateTimeKey a).day = (dateTimeKey b).day
      · simp [hy, hm, hd]
      · simp [hy, hm, hd, Ne.symm hd]
    · simp [hy, hm, Ne.symm hm]
  · simp [hy, Ne.symm hy]

lemma dateTimeCompare_eq_zero {a b : Bytes} (ha : a ≠ []) (hb : b ≠ []) :
    dateTimeCompare a b = 0 ↔ rank a = rank b := by
  rw [dateTimeCompare_eq ha hb]
  split_ifs <;> simp_all

lemma dateTimeCompare_pos {a b : Bytes} (ha : a ≠ []) (hb : b ≠ []) :
    dateTimeCompare a b > 0 ↔ rank b < rank a := by
  rw [dateTimeCompare_eq ha hb]
  split_ifs with h h' <;> simp_all

lemma dateTimeCompare_nonpos {a b : Bytes} (ha : a ≠ []) (hb : b ≠ []) :
    dateTimeCompare a b ≤ 0 ↔ rank a ≤ rank b := by
  rw [← not_lt, ← not_lt, not_iff_not]
  exact dateTimeCompare_pos ha hb

end SimpleCode.KeepingSettingModify
