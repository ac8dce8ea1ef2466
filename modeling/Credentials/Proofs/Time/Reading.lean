import Credentials.Proofs.Json.Number
import Credentials.Proofs.Time.Days
import Credentials.Proofs.Time.Text
import Mathlib.Algebra.Ring.Nat

/-!
# What the text of an instant says

A text is read exactly if it spells a real date and a real time of day, and then it names the second
that the calendar gives for these, whatever fraction of it is written.
-/

namespace Credentials

namespace Decimal

/-! Numerals of a fixed width, as they are read. -/

theorem value_lt {ds : Bytes} (h : ∀ d ∈ ds, isDigit d = true) : value ds < 10 ^ ds.length := by
  induction ds using List.reverseRecOn with
  | nil => decide
  | append_singleton init d ih =>
    have hinit := ih fun b hb => h b (List.mem_append_left _ hb)
    have hd := (Json.digit_of_isDigit (h d (by simp)) 0).1
    rw [value_append_singleton, List.length_append, List.length_singleton, Nat.pow_succ]
    omega

/-- Digits are the numeral of their value at their width. -/
theorem padded_value {ds : Bytes} (hne : ds ≠ []) (h : ∀ d ∈ ds, isDigit d = true) :
    padded ds.length (value ds) = ds := by
  induction ds using List.reverseRecOn with
  | nil => exact absurd rfl hne
  | append_singleton init d ih =>
    obtain ⟨hlt, hdigit⟩ := Json.digit_of_isDigit (h d (by simp)) (value init)
    rw [value_append_singleton, List.length_append, List.length_singleton]
    cases init with
    | nil =>
      rw [show value [] = 0 from rfl] at hdigit ⊢
      rw [List.length_nil, padded_of_lt (by omega), hdigit]
      rfl
    | cons b r =>
      have hinit := ih (List.cons_ne_nil b r) fun b hb => h b (List.mem_append_left _ hb)
      rw [List.length_cons] at hinit ⊢
      rw [padded_succ, hdigit, show (10 * value (b :: r) + digitValue d) / 10 = value (b :: r)
        by omega, hinit]

theorem isDigit_lt {d : UInt8} (h : isDigit d = true) : d < 0x80 := by
  rw [isDigit, Bool.and_eq_true, decide_eq_true_eq, decide_eq_true_eq] at h
  exact UInt8.lt_of_le_of_lt h.2 (by decide)

theorem eq_padded_of_nat? {ds : Bytes} {n : Nat} (h : nat? ds = some n) :
    ds = padded ds.length n ∧ n < 10 ^ ds.length := by
  unfold nat? at h
  split at h
  · next hds =>
    obtain rfl := Option.some.inj h
    have hdigits := List.all_eq_true.mp hds.2
    exact ⟨(padded_value hds.1 hdigits).symm, value_lt hdigits⟩
  · cases h

end Decimal

namespace Instant

open Decimal

variable {t : Instant}

/-! The grammar of texts. -/

/-- A date and a time of day as they are written, real or not. -/
structure Stamp where
  year : Nat
  month : Nat
  day : Nat
  hour : Nat
  minute : Nat
  second : Nat

namespace Stamp

def date (f : Stamp) : Date := ⟨f.year, f.month, f.day⟩

/-- A day of the calendar in a year of four digits, and a time of day with 60 seconds in a minute or
61 of them. -/
structure Real (f : Stamp) : Prop where
  year_lt : f.year < 10000
  date : f.date.Valid
  hour_lt : f.hour < 24
  minute_lt : f.minute < 60
  second_le : f.second ≤ 60

/-- The text of date and time of day, with a mark between them and perhaps a fraction. -/
def bytes (f : Stamp) (mark : UInt8) (fraction : Bytes) : Bytes :=
  padded 4 f.year ++ 0x2d :: padded 2 f.month ++ 0x2d :: padded 2 f.day
    ++ mark :: padded 2 f.hour ++ 0x3a :: padded 2 f.minute ++ 0x3a :: padded 2 f.second
    ++ fraction ++ [0x5a]

/-- A text that says a date and a time of day. -/
def SpelledBy (f : Stamp) (s : String) : Prop :=
  ∃ mark fraction, isDateTimeMark mark = true ∧ Json.IsFraction fraction ∧
    s = Bytes.asciiText (f.bytes mark fraction)

/-- The second of the day; a second 60 counts as the one before. -/
def secondOfDay (f : Stamp) : Nat := f.hour * 3600 + f.minute * 60 + min f.second 59

/-- The instant whose day is the number of the date. -/
def Names (f : Stamp) (t : Instant) : Prop :=
  ∃ n, f.date.HasNumber n ∧ t.epoch = n * 86400 + f.secondOfDay

end Stamp

theorem skipFraction_digits {ds : Bytes} (h : Json.Digits ds) :
    skipFraction (0x2e :: (ds ++ [0x5a])) = some [0x5a] := by
  have hend : ∀ b ∈ ([0x5a] : Bytes).head?, Decimal.isDigit b = false := by
    intro b hb
    cases hb
    rfl
  have hspan := Json.span_digits h.2 hend
  obtain ⟨d, t, rfl, -⟩ := Json.head_isDigit h
  rw [skipFraction, hspan]

/-- What may stand between the second and the suffix is nothing or a fraction. -/
theorem skipFraction_eq_some_iff {r : Bytes} :
    skipFraction r = some [0x5a] ↔
      ∃ fraction, Json.IsFraction fraction ∧ r = fraction ++ [0x5a] := by
  constructor
  · intro h
    unfold skipFraction at h
    split at h
    · next r =>
      split at h
      · cases h
      · next ds r' hne hspan =>
        obtain rfl := Option.some.inj h
        obtain ⟨rfl, hdigits⟩ := Json.eq_append_of_span hspan
        refine ⟨0x2e :: ds, Or.inr ⟨ds, ⟨?_, hdigits⟩, rfl⟩, rfl⟩
        rintro rfl
        exact hne rfl
    · obtain rfl := Option.some.inj h
      exact ⟨[], Or.inl rfl, rfl⟩
  · rintro ⟨fraction, rfl | ⟨ds, hds, rfl⟩, rfl⟩
    · rfl
    · exact skipFraction_digits hds

theorem secondsOf?_eq_some_iff {h m s n : Nat} :
    secondsOf? h m s = some n ↔
      (h < 24 ∧ m < 60 ∧ s ≤ 60) ∧ h * 3600 + m * 60 + min s 59 = n := by
  unfold secondsOf?
  rw [Option.ite_none_right_eq_some, Option.some.injEq]

theorem Stamp.exists_of_epochOf? {b : Bytes} {n : Int} (h : epochOf? b = some n) :
    ∃ (f : Stamp) (mark : UInt8) (fraction : Bytes), f.Real ∧ isDateTimeMark mark = true ∧
      Json.IsFraction fraction ∧ b = f.bytes mark fraction ∧
      f.date.toDays * 86400 + f.secondOfDay = n := by
  unfold epochOf? at h
  split at h
  · next y1 y2 y3 y4 o1 o2 d1 d2 mark h1 h2 m1 m2 s1 s2 r =>
    simp only [Option.bind_eq_bind, Option.bind_eq_some_iff, Option.guard_eq_some',
      secondsOf?_eq_some_iff] at h
    obtain ⟨-, hmark, y, hy, o, ho, d, hd, hh, hhour, m, hm, s, hs, rest, hrest, -, rfl, -, hdate,
      k, ⟨⟨hhlt, hmlt, hsle⟩, rfl⟩, hn⟩ := h
    have hn := Option.some.inj hn
    obtain ⟨fraction, hfraction, rfl⟩ := skipFraction_eq_some_iff.mp hrest
    have hyear := eq_padded_of_nat? hy
    have hmonth := (eq_padded_of_nat? ho).1
    have hday := (eq_padded_of_nat? hd).1
    have hhours := (eq_padded_of_nat? hhour).1
    have hminutes := (eq_padded_of_nat? hm).1
    have hseconds := (eq_padded_of_nat? hs).1
    simp only [List.length_cons, List.length_nil, Nat.zero_add, Nat.reduceAdd, Nat.reducePow]
      at hyear hmonth hday hhours hminutes hseconds
    refine ⟨⟨y, o, d, hh, m, s⟩, mark, fraction, ⟨hyear.2, hdate, hhlt, hmlt, hsle⟩, hmark,
      hfraction, ?_, hn⟩
    unfold Stamp.bytes
    dsimp only
    rw [← hyear.1, ← hmonth, ← hday, ← hhours, ← hminutes, ← hseconds]
    rfl
  · cases h

theorem Stamp.epochOf?_bytes {f : Stamp} (h : f.Real) {mark : UInt8} {fraction : Bytes}
    (hmark : isDateTimeMark mark = true) (hfraction : Json.IsFraction fraction) :
    epochOf? (f.bytes mark fraction) = some (f.date.toDays * 86400 + f.secondOfDay) := by
  obtain ⟨hyear, hdate, hhour, hminute, hsecond⟩ := h
  have hmonth : f.month ≤ 12 := hdate.2.1
  have hday : f.day ≤ 31 := hdate.day_le
  have hrest := skipFraction_eq_some_iff.mpr ⟨fraction, hfraction, rfl⟩
  unfold Stamp.bytes
  rw [padded_four hyear, padded_two (by omega), padded_two (by omega), padded_two (by omega),
    padded_two (by omega), padded_two (by omega)]
  simp only [List.cons_append, List.nil_append]
  rw [epochOf?]
  simp only [Option.bind_eq_bind, Option.bind_eq_some_iff, Option.guard_eq_some',
    secondsOf?_eq_some_iff]
  exact ⟨(), hmark, _, nat?_four hyear, _, nat?_two (by omega), _, nat?_two (by omega),
    _, nat?_two (by omega), _, nat?_two (by omega), _, nat?_two (by omega), _, hrest, (), rfl,
    (), hdate, _, ⟨⟨hhour, hminute, hsecond⟩, rfl⟩, rfl⟩

namespace Stamp

theorem secondOfDay_lt {f : Stamp} (h : f.Real) : f.secondOfDay < 86400 := by
  obtain ⟨-, -, hhour, hminute, -⟩ := h
  unfold secondOfDay
  omega

theorem bytes_lt (f : Stamp) {mark : UInt8} {fraction : Bytes}
    (hmark : isDateTimeMark mark = true) (hfraction : Json.IsFraction fraction) :
    ∀ b ∈ f.bytes mark fraction, b < 0x80 := by
  have hmark' : mark < 0x80 := by
    simp only [isDateTimeMark, Bool.or_eq_true, beq_iff_eq] at hmark
    rcases hmark with (rfl | rfl) | rfl <;> decide
  have hfraction' : ∀ b ∈ fraction, b < 0x80 := by
    rcases hfraction with rfl | ⟨ds, ⟨-, hds⟩, rfl⟩
    · exact nofun
    · exact List.forall_mem_cons.mpr ⟨by decide, fun d hd => isDigit_lt (hds d hd)⟩
  unfold bytes
  simp only [List.forall_mem_append, List.forall_mem_cons, List.not_mem_nil, false_imp_iff,
    implies_true, and_true]
  exact ⟨⟨⟨⟨⟨⟨⟨padded_lt _ _, by decide, padded_lt _ _⟩, by decide, padded_lt _ _⟩, hmark',
    padded_lt _ _⟩, by decide, padded_lt _ _⟩, by decide, padded_lt _ _⟩, hfraction'⟩, by decide⟩

theorem Names.epoch_eq {f : Stamp} (h : f.Names t) :
    t.epoch = f.date.toDays * 86400 + f.secondOfDay := by
  obtain ⟨n, hnumber, hepoch⟩ := h
  rw [(Date.hasNumber_iff.mp hnumber).2, hepoch]

theorem names_iff {f : Stamp} (h : f.Real) :
    f.Names t ↔ t.epoch = f.date.toDays * 86400 + f.secondOfDay :=
  ⟨Names.epoch_eq, fun hepoch => ⟨_, Date.hasNumber_iff.mpr ⟨h.date, rfl⟩, hepoch⟩⟩

theorem SpelledBy.endsWith {f : Stamp} {s : String} (h : f.SpelledBy s) : ∃ r, s = r ++ "Z" := by
  obtain ⟨mark, fraction, -, -, rfl⟩ := h
  exact ⟨_, Bytes.asciiText_append _ [0x5a]⟩

/-- The date of the instant is the one that is written. -/
theorem Names.date_eq {f : Stamp} (hreal : f.Real) (h : f.Names t) : t.date = f.date := by
  have hsecond := secondOfDay_lt hreal
  have hday : t.epoch / 86400 = f.date.toDays := by
    rw [h.epoch_eq]
    omega
  rw [Instant.date, hday, hreal.date.ofDays_toDays]

theorem Names.hasPlainYear {f : Stamp} (hreal : f.Real) (h : f.Names t) : t.HasPlainYear := by
  have hyear : (f.year : Int) ≤ 9999 := Int.ofNat_le.mpr (Nat.le_of_lt_succ hreal.year_lt)
  unfold HasPlainYear
  rw [h.date_eq hreal]
  exact ⟨Int.natCast_nonneg f.year, hyear⟩

end Stamp

/-- A text is read exactly if it spells a real date and time of day, as the instant these name. -/
theorem parse_eq_ok_iff {s : String} :
    parse s = .ok t ↔ ∃ f : Stamp, f.Real ∧ f.SpelledBy s ∧ f.Names t := by
  constructor
  · intro h
    unfold parse at h
    dsimp only at h
    split at h
    · cases h
    split at h
    · next t' hread =>
      obtain rfl := Except.ok.inj h
      obtain ⟨n, hn, ht⟩ := Option.bind_eq_some_iff.mp hread
      obtain ⟨f, mark, fraction, hreal, hmark, hfraction, hb, rfl⟩ := Stamp.exists_of_epochOf? hn
      refine ⟨f, hreal, ⟨mark, fraction, hmark, hfraction, ?_⟩,
        (Stamp.names_iff hreal).mpr (ofEpoch?_eq_some_iff.mp ht)⟩
      apply Bytes.ofText_inj
      rw [hb, Bytes.ofText_asciiText (f.bytes_lt hmark hfraction)]
    · cases h
  · rintro ⟨f, hreal, ⟨mark, fraction, hmark, hfraction, rfl⟩, hnames⟩
    have hread := Stamp.epochOf?_bytes hreal hmark hfraction
    rw [← hnames.epoch_eq] at hread
    have hlast : (f.bytes mark fraction).getLast? = some 0x5a := List.getLast?_concat
    unfold parse
    dsimp only
    rw [Bytes.ofText_asciiText (f.bytes_lt hmark hfraction), hread, Option.bind_some,
      ofEpoch?_epoch, if_neg (not_not_intro hlast)]

end Instant
end Credentials
