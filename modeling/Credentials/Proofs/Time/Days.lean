import Credentials.Proofs.Time.Calendar
import Mathlib.Order.Monotone.Basic
import Mathlib.Tactic.IntervalCases

/-!
# Days one after the other

Days are counted one by one from the first of January 1970, back and forth. Every valid date has one
number in this count, the one that the conversions work out, and later dates have greater numbers.
-/

namespace Credentials.Date

/-- The day after a date. -/
def next (d : Date) : Date :=
  if d.day < daysInMonth d.year d.month then ⟨d.year, d.month, d.day + 1⟩
  else if d.month < 12 then ⟨d.year, d.month + 1, 1⟩
  else ⟨d.year + 1, 1, 1⟩

/-- The number of a day, counted from the first of January 1970. -/
inductive HasNumber : Date → Int → Prop where
  | epoch : HasNumber ⟨1970, 1, 1⟩ 0
  | next {d : Date} {n : Int} : HasNumber d n → HasNumber d.next (n + 1)
  | back {d : Date} {n : Int} : d.Valid → HasNumber d.next n → HasNumber d (n - 1)

/-- The date comes before another one: by year, then by month, then by day. -/
def Before (d e : Date) : Prop :=
  d.year < e.year ∨ d.year = e.year ∧
    (d.month < e.month ∨ d.month = e.month ∧ d.day < e.day)

variable {d e : Date} {n : Int}

/-! The months of a year in their order. -/

theorem isLeapYear_iff {y : Int} :
    isLeapYear y = true ↔ y % 4 = 0 ∧ (y % 100 ≠ 0 ∨ y % 400 = 0) := by
  simp only [isLeapYear, Bool.and_eq_true, Bool.or_eq_true, decide_eq_true_eq]

/-- The number of the first of January. -/
def newYear (y : Int) : Int := daysBeforeMarchYear (y - 1) + 306 - epochOffset

/-- The days of a year before the first of a month. -/
def daysToMonth (y : Int) : Nat → Nat
  | 0 => 0
  | 1 => 0
  | m + 2 => daysToMonth y (m + 1) + daysInMonth y (m + 1)

theorem daysToMonth_succ (y : Int) {m : Nat} (hm : 1 ≤ m) :
    daysToMonth y (m + 1) = daysToMonth y m + daysInMonth y m := by
  obtain ⟨k, rfl⟩ := Nat.exists_eq_add_of_le' hm
  rfl

theorem daysToMonth_mono (y : Int) : Monotone (daysToMonth y) := by
  refine monotone_nat_of_le_succ fun m => ?_
  cases m with
  | zero => exact Nat.le_refl 0
  | succ m => exact Nat.le_add_right _ _

theorem newYear_succ (y : Int) : newYear (y + 1) = newYear y + daysToMonth y 13 := by
  unfold newYear daysBeforeMarchYear
  by_cases hleap : isLeapYear y = true
  · have hdays : daysToMonth y 13 = 366 := by simp [daysToMonth, daysInMonth, hleap]
    rw [isLeapYear_iff] at hleap
    omega
  · have hdays : daysToMonth y 13 = 365 := by simp [daysToMonth, daysInMonth, hleap]
    rw [isLeapYear_iff] at hleap
    omega

/-- A date by its year, the days of the months before its own, and its day. -/
theorem toDays_eq (hmonth : 1 ≤ d.month) (hmonth' : d.month ≤ 12) :
    d.toDays = newYear d.year + daysToMonth d.year d.month + d.day - 1 := by
  have hyear := newYear_succ d.year
  obtain ⟨y, m, day⟩ := d
  dsimp only at hmonth hmonth' hyear ⊢
  unfold newYear at hyear ⊢
  rw [Int.add_sub_cancel] at hyear
  unfold toDays
  -- the length of February is the same number on both sides
  interval_cases m <;>
    simp only [daysToMonth, daysInMonth, daysBeforeMonth, reduceIte, Nat.reduceLeDiff,
      Nat.reduceEqDiff, or_false, or_true, Nat.zero_add] at hyear ⊢ <;> omega

/-! The day after. -/

theorem daysInMonth_pos (y : Int) (m : Nat) : 1 ≤ daysInMonth y m := by
  unfold daysInMonth
  split
  · split <;> decide
  · split <;> decide

theorem Valid.next (h : d.Valid) : d.next.Valid := by
  obtain ⟨hmonth, hmonth', hday, -⟩ := h
  unfold Date.next
  split
  · next hlt => exact ⟨hmonth, hmonth', Nat.le_succ_of_le hday, hlt⟩
  · split
    · next hlt => exact ⟨Nat.le_add_left 1 _, hlt, Nat.le_refl 1, daysInMonth_pos _ _⟩
    · exact ⟨Nat.le_refl 1, Nat.le_add_left 1 11, Nat.le_refl 1, daysInMonth_pos _ _⟩

theorem Valid.toDays_next (h : d.Valid) : d.next.toDays = d.toDays + 1 := by
  have hdate := toDays_eq h.1 h.2.1
  have hnext := toDays_eq h.next.1 h.next.2.1
  rw [hnext, hdate]
  obtain ⟨hmonth, hmonth', hday, hday'⟩ := h
  unfold Date.next
  split
  · dsimp only
    omega
  · split
    · next hlast hlt =>
      dsimp only
      rw [daysToMonth_succ _ hmonth]
      omega
    · next hlast hlt =>
      have hdecember : d.month = 12 := by omega
      have hyear := newYear_succ d.year
      rw [daysToMonth_succ _ (by decide), ← hdecember] at hyear
      dsimp only
      rw [hyear, daysToMonth]
      omega

/-! The order of dates. -/

theorem Valid.toDays_lt (hd : d.Valid) (he : e.Valid) (h : d.Before e) : d.toDays < e.toDays := by
  rcases h with hyear | ⟨hyear, hmonth⟩
  · have hmono := daysBeforeMarchYear_mono (y := d.year) (z := e.year - 1) (by omega)
    have hlt := hd.lt_newYear
    have hle := he.newYear_le
    omega
  rw [toDays_eq hd.1 hd.2.1, toDays_eq he.1 he.2.1, hyear]
  obtain ⟨hfirst, -, -, hday⟩ := hd
  obtain ⟨-, -, hday', -⟩ := he
  rcases hmonth with hmonth | ⟨hmonth, hlt⟩
  · have hmonths := daysToMonth_mono e.year (Nat.succ_le_of_lt hmonth)
    rw [Nat.succ_eq_add_one, daysToMonth_succ _ hfirst] at hmonths
    rw [hyear] at hday
    omega
  · rw [hmonth]
    omega

theorem before_or_eq (d e : Date) : d.Before e ∨ d = e ∨ e.Before d := by
  rw [Date.ext_iff]
  unfold Before
  omega

theorem Valid.toDays_lt_iff (hd : d.Valid) (he : e.Valid) :
    d.toDays < e.toDays ↔ d.Before e := by
  refine ⟨fun h => ?_, hd.toDays_lt he⟩
  rcases before_or_eq d e with hbefore | rfl | hafter
  · exact hbefore
  · exact absurd h (Int.lt_irrefl _)
  · exact absurd (he.toDays_lt hd hafter) (Int.not_lt.mpr (Int.le_of_lt h))

theorem Valid.eq_of_toDays_eq (hd : d.Valid) (he : e.Valid) (h : d.toDays = e.toDays) :
    d = e := by
  rcases before_or_eq d e with hbefore | heq | hafter
  · exact absurd h (Int.ne_of_lt (hd.toDays_lt he hbefore))
  · exact heq
  · exact absurd h.symm (Int.ne_of_lt (he.toDays_lt hd hafter))

/-! Numbers. -/

theorem Valid.ofDays_toDays (h : d.Valid) : ofDays d.toDays = d :=
  (valid_ofDays _).eq_of_toDays_eq h (toDays_ofDays _)

theorem next_ofDays (n : Int) : (ofDays n).next = ofDays (n + 1) := by
  have hvalid := valid_ofDays n
  apply hvalid.next.eq_of_toDays_eq (valid_ofDays _)
  rw [hvalid.toDays_next, toDays_ofDays, toDays_ofDays]

theorem hasNumber_ofDays (n : Int) : HasNumber (ofDays n) n := by
  induction n using Int.induction_on with
  | zero => exact HasNumber.epoch
  | succ n ih =>
    rw [← next_ofDays]
    exact ih.next
  | pred n ih =>
    refine .back (valid_ofDays _) ?_
    rwa [next_ofDays, Int.sub_add_cancel]

/-- The days with a number are the valid ones, and their number is the one that is worked out. -/
theorem hasNumber_iff : HasNumber d n ↔ d.Valid ∧ d.toDays = n := by
  constructor
  · intro h
    induction h with
    | epoch => decide
    | next h ih =>
      obtain ⟨hvalid, hdays⟩ := ih
      exact ⟨hvalid.next, by rw [hvalid.toDays_next, hdays]⟩
    | back hvalid h ih =>
      refine ⟨hvalid, ?_⟩
      rw [← ih.2, hvalid.toDays_next, Int.add_sub_cancel]
  · rintro ⟨hvalid, rfl⟩
    have hnumber := hasNumber_ofDays d.toDays
    rwa [hvalid.ofDays_toDays] at hnumber

end Credentials.Date
