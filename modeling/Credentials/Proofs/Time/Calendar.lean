import Credentials.Time.Instant

/-!
# Days and dates

The date of a day is a real one, and it is the date of no other day. Dates follow each other like
the days, so the year of a day never falls.
-/

namespace Credentials.Date

attribute [ext] Date

/-! The place of a day. -/

/-- A day of a cycle of 400 years by century, four years, year and day of the year, each from zero.
The last year of four has a leap day, save at the end of a century that does not end the cycle. -/
structure Placed (d k q s t : Nat) : Prop where
  century : k ≤ 3
  quadrennium : q ≤ 24
  year : s ≤ 3
  day : t ≤ 365
  leap : t = 365 → s = 3 ∧ (q < 24 ∨ k = 3)
  eq : d = 36524 * k + 1461 * q + 365 * s + t

theorem exists_placed {d : Nat} (h : d < 146097) : ∃ k q s t, Placed d k q s t := by
  -- the last day of a cycle belongs to its fourth century, and so with the shorter periods
  let k := min 3 (d / 36524)
  let r := d - 36524 * k
  let q := min 24 (r / 1461)
  let r' := r - 1461 * q
  let s := min 3 (r' / 365)
  refine ⟨k, q, s, r' - 365 * s, ?_, ?_, ?_, ?_, ?_, ?_⟩ <;> omega

theorem Placed.yearOfCycle {d k q s t : Nat} (h : Placed d k q s t) :
    (d - d / 1460 + d / 36524 - d / 146096) / 365 = 100 * k + 4 * q + s := by
  obtain ⟨hk, hq, hs, ht, hleap, hd⟩ := h
  have hcentury : d / 36524 - d / 146096 = k ∧ d / 146096 ≤ d / 36524 := by
    rcases Nat.lt_or_ge d 146096 with hlt | hge
    · have hrest : 1461 * q + 365 * s + t < 36524 := by omega
      omega
    · have hlast : d = 146096 := by omega
      have hthree : k = 3 := by omega
      omega
  have hfour : d / 1460 = 25 * k + q + (24 * k + q + 365 * s + t) / 1460 := by omega
  generalize hu : (24 * k + q + 365 * s + t) / 1460 = u at hfour
  -- the quotients of the other periods would be split again here
  have hle : u ≤ t := by
    clear hcentury hfour hd
    omega
  have hlt : t < 365 + u := by
    clear hcentury hfour hd
    omega
  have hyear : d - d / 1460 + d / 36524 - d / 146096
      = 365 * (100 * k + 4 * q + s) + (t - u) := by omega
  rw [hyear]
  omega

/-- The date of a day of a year, both counted from March. -/
def ofMarch (y : Int) (t : Nat) : Date :=
  let m := (5 * t + 2) / 153
  let month := if m < 10 then m + 3 else m - 9
  ⟨if month ≤ 2 then y + 1 else y, month, t - daysBeforeMonth m + 1⟩

theorem Placed.dayOfYear {d k q s t : Nat} (h : Placed d k q s t) :
    d - (365 * (100 * k + 4 * q + s) + (100 * k + 4 * q + s) / 4 - (100 * k + 4 * q + s) / 100)
      = t := by
  obtain ⟨-, hq, hs, -, -, hd⟩ := h
  have hfour : (100 * k + 4 * q + s) / 4 = 25 * k + q := by omega
  have hcentury : (100 * k + 4 * q + s) / 100 = k := by omega
  rw [hfour, hcentury]
  omega

theorem Placed.daysBeforeMarchYear {d k q s t : Nat} (h : Placed d k q s t) (c : Int) :
    daysBeforeMarchYear ((100 * k + 4 * q + s : Nat) + 400 * c) + t = 146097 * c + d := by
  obtain ⟨hk, hq, hs, -, -, hd⟩ := h
  unfold Date.daysBeforeMarchYear
  omega

theorem ofDays_eq_ofMarch {n c : Int} {d k q s t : Nat}
    (hn : n + epochOffset = 146097 * c + d) (hd : d < 146097) (h : Placed d k q s t) :
    ofDays n = ofMarch ((100 * k + 4 * q + s : Nat) + 400 * c) t := by
  have hcycle : (n + epochOffset) / (cycleDays : Int) = c := by
    rw [hn, cycleDays]
    omega
  have hday : ((n + epochOffset) % (cycleDays : Int)).toNat = d := by
    rw [hn, cycleDays]
    omega
  unfold ofDays ofMarch
  dsimp only
  rw [hcycle, hday, h.yearOfCycle, h.dayOfYear]

theorem valid_ofMarch {y : Int} {t : Nat} (ht : t ≤ 365)
    (hleap : t = 365 → isLeapYear (y + 1) = true) : (ofMarch y t).Valid := by
  obtain ⟨m, hm⟩ : ∃ m, m = (5 * t + 2) / 153 := ⟨_, rfl⟩
  have hmonth : m ≤ 11 := by omega
  unfold ofMarch Valid daysInMonth daysBeforeMonth
  rw [← hm]
  by_cases hlast : m = 11
  · subst hlast
    by_cases hday : t = 365
    · simp [hday, hleap hday]
    · dsimp only
      simp
      split <;> omega
  · by_cases hjan : m = 10
    · subst hjan
      simp
      omega
    · have hlt : m < 10 := by omega
      simp only [if_pos hlt, show ¬ m + 3 ≤ 2 by omega, if_false]
      refine ⟨by omega, by omega, by omega, ?_⟩
      rw [if_neg (by omega)]
      split <;> omega

theorem toDays_ofMarch {y : Int} {t : Nat} (ht : t ≤ 365) :
    (ofMarch y t).toDays = daysBeforeMarchYear y + t - epochOffset := by
  obtain ⟨m, hm⟩ : ∃ m, m = (5 * t + 2) / 153 := ⟨_, rfl⟩
  have hmonth : m ≤ 11 := by omega
  have hstart : (153 * m + 2) / 5 ≤ t := by omega
  unfold ofMarch toDays
  rw [← hm]
  by_cases hlt : m < 10
  · have hlate : ¬ m + 3 ≤ 2 := by omega
    simp only [if_pos hlt, if_neg hlate, Nat.add_sub_cancel]
    unfold daysBeforeMonth
    omega
  · have hearly : m - 9 ≤ 2 := by omega
    have hback : m - 9 + 9 = m := by omega
    simp only [if_neg hlt, if_pos hearly, hback, Int.add_sub_cancel]
    unfold daysBeforeMonth
    omega

/-! Days and dates, back and forth. -/

theorem exists_ofDays (n : Int) : ∃ (y : Int) (t : Nat), ofDays n = ofMarch y t ∧ t ≤ 365 ∧
    (t = 365 → isLeapYear (y + 1) = true) ∧ n + epochOffset = Date.daysBeforeMarchYear y + t := by
  obtain ⟨c, d, hn, hd⟩ : ∃ (c : Int) (d : Nat), n + epochOffset = 146097 * c + d ∧ d < 146097 :=
    ⟨(n + epochOffset) / 146097, ((n + epochOffset) % 146097).toNat, by omega, by omega⟩
  obtain ⟨k, q, s, t, h⟩ := exists_placed hd
  refine ⟨_, t, ofDays_eq_ofMarch hn hd h, h.day, fun ht => ?_, ?_⟩
  · obtain ⟨hs, hcentury⟩ := h.leap ht
    have hk := h.century
    have hq := h.quadrennium
    rw [isLeapYear, Bool.and_eq_true, Bool.or_eq_true]
    simp only [decide_eq_true_eq]
    omega
  · rw [h.daysBeforeMarchYear c, hn]

theorem valid_ofDays (n : Int) : (ofDays n).Valid := by
  obtain ⟨y, t, hdate, ht, hleap, -⟩ := exists_ofDays n
  rw [hdate]
  exact valid_ofMarch ht hleap

theorem toDays_ofDays (n : Int) : (ofDays n).toDays = n := by
  obtain ⟨y, t, hdate, ht, -, hn⟩ := exists_ofDays n
  rw [hdate, toDays_ofMarch ht]
  omega

/-! Years. -/

theorem daysBeforeMarchYear_mono {y z : Int} (h : y ≤ z) :
    daysBeforeMarchYear y ≤ daysBeforeMarchYear z := by
  unfold daysBeforeMarchYear
  omega

theorem Valid.day_le {d : Date} (h : d.Valid) : d.day ≤ 31 := by
  obtain ⟨-, -, -, hday⟩ := h
  refine Nat.le_trans hday ?_
  unfold daysInMonth
  split
  · split <;> omega
  · split <;> omega

theorem Valid.newYear_le {d : Date} (h : d.Valid) :
    daysBeforeMarchYear (d.year - 1) + 306 ≤ d.toDays + epochOffset := by
  obtain ⟨hmonth, hmonth', hday, -⟩ := h
  unfold toDays daysBeforeMonth
  by_cases hearly : d.month ≤ 2
  · simp only [if_pos hearly]
    omega
  · simp only [if_neg hearly]
    unfold daysBeforeMarchYear
    omega

theorem Valid.lt_newYear {d : Date} (h : d.Valid) :
    d.toDays + epochOffset < daysBeforeMarchYear d.year + 306 := by
  have hday' := h.day_le
  obtain ⟨hmonth, hmonth', hday, -⟩ := h
  unfold toDays daysBeforeMonth
  by_cases hearly : d.month ≤ 2
  · simp only [if_pos hearly]
    unfold daysBeforeMarchYear
    omega
  · simp only [if_neg hearly]
    omega

theorem year_mono {m n : Int} (h : m ≤ n) : (ofDays m).year ≤ (ofDays n).year := by
  -- a day of a later year would lie beyond a new year that the other day lies before
  refine Int.not_lt.mp fun hlt => ?_
  have hle : (ofDays n).year ≤ (ofDays m).year - 1 := by omega
  have hn := (valid_ofDays n).lt_newYear
  have hm := (valid_ofDays m).newYear_le
  have hmono := daysBeforeMarchYear_mono hle
  rw [toDays_ofDays] at hn hm
  omega

end Credentials.Date

namespace Credentials.Instant

theorem year_mono {s t : Instant} (h : s ≤ t) : s.date.year ≤ t.date.year := by
  have hepoch : s.epoch ≤ t.epoch := h
  exact Date.year_mono (by omega)

end Credentials.Instant
