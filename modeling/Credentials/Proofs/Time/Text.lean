import Credentials.Proofs.Text
import Credentials.Proofs.Time.Calendar
import Credentials.Wire
import Mathlib.Data.Option.Basic

/-!
# Instants as text

The text of an instant of the years 0 to 9999 has fixed places for its fields, and reading it gives
the instant back.
-/

namespace Credentials

namespace Decimal

/-! Numerals of a fixed width. -/

theorem digit_zero : digit 0 = 0x30 := rfl

theorem padded_of_lt {n : Nat} (h : n < 10) : padded 1 n = [digit n] := by
  rw [padded, ofNat, if_pos h]
  rfl

theorem padded_succ (k n : Nat) : padded (k + 2) n = padded (k + 1) (n / 10) ++ [digit n] := by
  unfold padded
  by_cases h : n < 10
  · have hzero : n / 10 = 0 := by omega
    rw [hzero, ofNat, if_pos h, ofNat, if_pos (by decide), digit_zero, List.length_singleton,
      List.length_singleton, Nat.add_sub_cancel, ← List.replicate_succ']
    rfl
  · rw [ofNat, if_neg h, List.length_append, List.length_singleton, ← List.append_assoc]
    congr 3
    omega

theorem padded_two {n : Nat} (h : n < 100) : padded 2 n = [digit (n / 10), digit n] := by
  rw [padded_succ, padded_of_lt (by omega)]
  rfl

theorem padded_four {n : Nat} (h : n < 10000) :
    padded 4 n = [digit (n / 1000), digit (n / 100), digit (n / 10), digit n] := by
  rw [padded_succ, padded_succ, Nat.div_div_eq_div_mul, padded_two (by omega),
    Nat.div_div_eq_div_mul]
  rfl

theorem value_replicate (k : Nat) (ds : Bytes) :
    value (List.replicate k 0x30 ++ ds) = value ds := by
  induction k with
  | zero => rfl
  | succ k ih => exact ih

theorem all_isDigit_padded (width n : Nat) : (padded width n).all isDigit = true := by
  rw [padded, List.all_append, all_isDigit_ofNat, Bool.and_true, List.all_replicate]
  split <;> rfl

theorem nat?_padded (width n : Nat) : nat? (padded width n) = some n := by
  have hne : padded width n ≠ [] := by
    unfold padded
    simp [ofNat_ne_nil]
  rw [nat?, if_pos ⟨hne, all_isDigit_padded width n⟩, padded, value_replicate, value_ofNat]

theorem padded_injective {width m n : Nat} (h : padded width m = padded width n) : m = n := by
  have hm := nat?_padded width m
  rw [h, nat?_padded] at hm
  exact (Option.some.inj hm).symm

theorem padded_lt (width n : Nat) : ∀ b ∈ padded width n, b < 0x80 := by
  intro b hb
  have hdigit : isDigit b = true := List.all_eq_true.mp (all_isDigit_padded width n) b hb
  rw [isDigit, Bool.and_eq_true, decide_eq_true_eq, decide_eq_true_eq] at hdigit
  exact UInt8.lt_of_le_of_lt hdigit.2 (by decide)

theorem nat?_two {n : Nat} (h : n < 100) : nat? [digit (n / 10), digit n] = some n := by
  rw [← padded_two h, nat?_padded]

theorem nat?_four {n : Nat} (h : n < 10000) :
    nat? [digit (n / 1000), digit (n / 100), digit (n / 10), digit n] = some n := by
  rw [← padded_four h, nat?_padded]

end Decimal

namespace Instant

open Decimal

variable {t : Instant}

/-- An instant whose year has four digits and no sign. -/
def HasPlainYear (t : Instant) : Prop := 0 ≤ t.date.year ∧ t.date.year ≤ 9999

instance (t : Instant) : Decidable t.HasPlainYear := inferInstanceAs (Decidable (_ ∧ _))

theorem secondOfDay_lt (t : Instant) : t.secondOfDay < 86400 := by
  unfold secondOfDay
  omega

theorem valid_date (t : Instant) : t.date.Valid := Date.valid_ofDays _

theorem toDays_date (t : Instant) : t.date.toDays = t.epoch / 86400 := Date.toDays_ofDays _

/-- What follows the year, with the places of the fields. -/
def afterYear (t : Instant) : Bytes :=
  [0x2d, digit (t.date.month / 10), digit t.date.month, 0x2d,
    digit (t.date.day / 10), digit t.date.day, 0x54,
    digit (t.secondOfDay / 3600 / 10), digit (t.secondOfDay / 3600), 0x3a,
    digit (t.secondOfDay / 60 % 60 / 10), digit (t.secondOfDay / 60 % 60), 0x3a,
    digit (t.secondOfDay % 60 / 10), digit (t.secondOfDay % 60), 0x5a]

theorem bytes_eq_afterYear (t : Instant) : t.bytes = yearText t.date.year ++ t.afterYear := by
  obtain ⟨-, hmonth, -, -⟩ := t.valid_date
  have hday := t.valid_date.day_le
  have hsecond := t.secondOfDay_lt
  unfold bytes
  dsimp only
  rw [padded_two (by omega), padded_two (by omega), padded_two (by omega), padded_two (by omega),
    padded_two (by omega), List.append_assoc, List.append_assoc, List.append_assoc,
    List.append_assoc, List.append_assoc]
  rfl

/-- The places of the fields of an instant with a plain year. -/
theorem bytes_eq (h : t.HasPlainYear) : t.bytes =
    digit (t.date.year.toNat / 1000) :: digit (t.date.year.toNat / 100) ::
      digit (t.date.year.toNat / 10) :: digit t.date.year.toNat :: t.afterYear := by
  obtain ⟨hleast, hgreatest⟩ := h
  rw [bytes_eq_afterYear, yearText, if_pos ⟨hleast, hgreatest⟩, padded_four (by omega)]
  rfl

theorem secondsOf?_eq {s : Nat} (h : s < 86400) :
    secondsOf? (s / 3600) (s / 60 % 60) (s % 60) = some s := by
  rw [secondsOf?, if_pos (by omega)]
  congr 1
  omega

theorem epochOf?_bytes (h : t.HasPlainYear) : epochOf? t.bytes = some t.epoch := by
  obtain ⟨-, hmonth, -, -⟩ := t.valid_date
  have hday := t.valid_date.day_le
  have hsecond := t.secondOfDay_lt
  obtain ⟨hleast, hgreatest⟩ := h
  have hdate : (⟨t.date.year.toNat, t.date.month, t.date.day⟩ : Date) = t.date := by
    rw [Int.toNat_of_nonneg hleast]
  have hepoch : t.date.toDays * 86400 + (t.secondOfDay : Int) = t.epoch := by
    rw [toDays_date, secondOfDay]
    omega
  rw [bytes_eq ⟨hleast, hgreatest⟩, afterYear, epochOf?, nat?_four (by omega), nat?_two (by omega),
    nat?_two (by omega), nat?_two (by omega), nat?_two (by omega), nat?_two (by omega)]
  -- the mark and the suffix stand in their places: what is left is the date and the second
  change (do
    guard (Date.Valid ⟨t.date.year.toNat, t.date.month, t.date.day⟩)
    let seconds ← secondsOf? (t.secondOfDay / 3600) (t.secondOfDay / 60 % 60) (t.secondOfDay % 60)
    return Date.toDays ⟨t.date.year.toNat, t.date.month, t.date.day⟩ * 86400 + (seconds : Int)) = _
  rw [hdate, (Option.guard_eq_some' ()).mpr t.valid_date, secondsOf?_eq hsecond]
  exact congrArg some hepoch

theorem epoch_inj {s : Instant} : s.epoch = t.epoch ↔ s = t := by
  cases s
  cases t
  rw [mk.injEq]

theorem ofEpoch?_epoch (t : Instant) : ofEpoch? t.epoch = some t :=
  dif_pos ⟨t.least_le, t.le_greatest⟩

theorem ofEpoch?_eq_some_iff {n : Int} {t : Instant} : ofEpoch? n = some t ↔ t.epoch = n := by
  constructor
  · intro h
    unfold ofEpoch? at h
    split at h
    · cases h
      rfl
    · cases h
  · rintro rfl
    exact ofEpoch?_epoch t

/-- Every two instants are less than the longest span apart. -/
theorem add?_eq_some_iff {t s : Instant} {secs : Int} :
    t.add? secs = some s ↔ s.epoch = t.epoch + secs := by
  unfold add? span?
  split
  · exact ofEpoch?_eq_some_iff
  · next hlong =>
    have hs := s.le_greatest
    have hs' := s.least_le
    have ht := t.le_greatest
    have ht' := t.least_le
    simp only [Option.bind_none, reduceCtorEq, false_iff]
    omega

theorem yearText_lt (y : Int) : ∀ b ∈ yearText y, b < 0x80 := by
  unfold yearText
  split
  · exact padded_lt _ _
  · refine List.forall_mem_cons.mpr ⟨?_, padded_lt _ _⟩
    split <;> decide

theorem ofText_text (t : Instant) : Bytes.ofText t.text = t.bytes := by
  refine Bytes.ofText_asciiText ?_
  unfold bytes
  simp only [List.forall_mem_append, List.forall_mem_cons, List.not_mem_nil, false_imp_iff,
    implies_true, and_true]
  exact ⟨⟨⟨⟨⟨⟨yearText_lt _, by decide, padded_lt _ _⟩, by decide, padded_lt _ _⟩, by decide,
    padded_lt _ _⟩, by decide, padded_lt _ _⟩, by decide, padded_lt _ _⟩, by decide⟩

/-! One text for one instant, in every year. -/

/-- A numeral does not begin with a sign. -/
theorem padded_ne_signed (width m n : Nat) (y : Int) :
    padded width m ≠ (if y < 0 then 0x2d else 0x2b) :: padded width n := by
  intro h
  have hdigits := all_isDigit_padded width m
  rw [h, List.all_cons, Bool.and_eq_true] at hdigits
  have hsign := hdigits.1
  split at hsign <;> cases hsign

theorem sign_eq_iff {y z : Int} :
    (if y < 0 then 0x2d else 0x2b : UInt8) = (if z < 0 then 0x2d else 0x2b) ↔ (y < 0 ↔ z < 0) := by
  by_cases hy : y < 0 <;> by_cases hz : z < 0 <;> simp [hy, hz]

theorem yearText_injective {y z : Int} (h : yearText y = yearText z) : y = z := by
  unfold yearText at h
  by_cases hy : 0 ≤ y ∧ y ≤ 9999
  · by_cases hz : 0 ≤ z ∧ z ≤ 9999
    · rw [if_pos hy, if_pos hz] at h
      have hnat := padded_injective h
      omega
    · rw [if_pos hy, if_neg hz] at h
      exact absurd h (padded_ne_signed _ _ _ _)
  · by_cases hz : 0 ≤ z ∧ z ≤ 9999
    · rw [if_neg hy, if_pos hz] at h
      exact absurd h.symm (padded_ne_signed _ _ _ _)
    · rw [if_neg hy, if_neg hz, List.cons.injEq, sign_eq_iff] at h
      have hnat := padded_injective h.2
      omega

theorem bytes_injective {s : Instant} (h : s.bytes = t.bytes) : s = t := by
  rw [bytes_eq_afterYear, bytes_eq_afterYear] at h
  obtain ⟨hyears, hfields⟩ := List.append_inj' h rfl
  have htwo : ∀ {m n : Nat}, m < 100 → n < 100 → digit (m / 10) = digit (n / 10) →
      digit m = digit n → m = n := by
    intro m n hm hn hten hone
    have hread := nat?_two hm
    rw [hten, hone, nat?_two hn] at hread
    exact (Option.some.inj hread).symm
  obtain ⟨-, hmonth, -, -⟩ := s.valid_date
  obtain ⟨-, hmonth', -, -⟩ := t.valid_date
  have hday := s.valid_date.day_le
  have hday' := t.valid_date.day_le
  have hsecond := s.secondOfDay_lt
  have hsecond' := t.secondOfDay_lt
  simp only [afterYear, List.cons.injEq, true_and, and_true] at hfields
  obtain ⟨ho, ho', hd, hd', hh, hh', hm, hm', hs, hs'⟩ := hfields
  have hmonths := htwo (by omega) (by omega) ho ho'
  have hdays := htwo (by omega) (by omega) hd hd'
  have hhours := htwo (by omega) (by omega) hh hh'
  have hminutes := htwo (by omega) (by omega) hm hm'
  have hseconds := htwo (by omega) (by omega) hs hs'
  have hdate := Date.ext (yearText_injective hyears) hmonths hdays
  have hepoch : s.epoch / 86400 = t.epoch / 86400 := by
    rw [← toDays_date, ← toDays_date, hdate]
  have hsame : s.secondOfDay = t.secondOfDay := by omega
  unfold secondOfDay at hsame
  cases s
  cases t
  rw [mk.injEq]
  dsimp only at hepoch hsame
  omega

theorem text_injective {s : Instant} (h : s.text = t.text) : s = t := by
  apply bytes_injective
  rw [← ofText_text, ← ofText_text, h]

/-! Reading. -/

/-- Whatever the year, a text is made of ASCII characters and ends with the suffix. -/
theorem parse_text_eq (t : Instant) : parse t.text =
    match (epochOf? t.bytes).bind ofEpoch? with
    | some s => .ok s
    | none => .error (.malformed t.text) := by
  have hlast : t.bytes.getLast? = some 0x5a := List.getLast?_concat
  unfold parse
  dsimp only
  rw [ofText_text]
  exact if_neg (by simp [hlast])

theorem parse_text (h : t.HasPlainYear) : parse t.text = .ok t := by
  rw [parse_text_eq, epochOf?_bytes h, Option.bind_some, ofEpoch?_epoch]

theorem epochOf?_of_not_digit {b : UInt8} (h : isDigit b = false) (r : Bytes) :
    epochOf? (b :: r) = none := by
  unfold epochOf?
  split
  · next heq =>
    cases heq
    simp [nat?, h]
  · rfl

/-- A year with a sign is written, but it is not read. -/
theorem parse_text_of_signed (h : ¬ t.HasPlainYear) :
    parse t.text = .error (.malformed t.text) := by
  have hnone : epochOf? t.bytes = none := by
    have hyear : ¬ (0 ≤ t.date.year ∧ t.date.year ≤ 9999) := h
    unfold bytes yearText
    dsimp only
    rw [if_neg hyear]
    refine epochOf?_of_not_digit ?_ _
    split <;> rfl
  rw [parse_text_eq, hnone]
  rfl

end Instant
end Credentials
