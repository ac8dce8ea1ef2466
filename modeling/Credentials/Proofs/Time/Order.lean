import Credentials.Proofs.Time.Reading

/-!
# The order of instants and of their texts

Numerals of one width stand in the order of their numbers, and the fields of an instant stand in its
text from the year down to the second. So in the years 0 to 9999 the earlier of two instants has the
smaller text.
-/

namespace Credentials

namespace Decimal

theorem digit_lt_iff {m n : Nat} : digit m < digit n ↔ m % 10 < n % 10 := by
  rw [UInt8.lt_iff_toNat_lt, digit, digit, UInt8.toNat_ofNat', UInt8.toNat_ofNat']
  omega

theorem digit_eq_iff {m n : Nat} : digit m = digit n ↔ m % 10 = n % 10 := by
  rw [← UInt8.toNat_inj, digit, digit, UInt8.toNat_ofNat', UInt8.toNat_ofNat']
  omega

/-- Of two texts that begin with numerals of one width, the numbers decide first. -/
theorem padded_append_lt_iff {width m n : Nat} (hm : m < 10 ^ (width + 1))
    (hn : n < 10 ^ (width + 1)) {r s : Bytes} :
    padded (width + 1) m ++ r < padded (width + 1) n ++ s ↔ m < n ∨ m = n ∧ r < s := by
  induction width generalizing m n r s with
  | zero =>
    rw [Nat.zero_add, Nat.pow_one] at hm hn
    rw [padded_of_lt hm, padded_of_lt hn, List.singleton_append, List.singleton_append,
      List.cons_lt_cons_iff, digit_lt_iff, digit_eq_iff, Nat.mod_eq_of_lt hm, Nat.mod_eq_of_lt hn]
  | succ width ih =>
    rw [Nat.pow_succ] at hm hn
    rw [padded_succ, padded_succ, List.append_assoc, List.append_assoc, ih (by omega) (by omega),
      List.singleton_append, List.singleton_append, List.cons_lt_cons_iff, digit_lt_iff,
      digit_eq_iff]
    by_cases hrest : r < s
    · simp only [hrest, and_true]
      omega
    · simp only [hrest, and_false, or_false]
      omega

end Decimal

namespace Instant

open Decimal

variable {t u : Instant}

/-- The earlier date decides, and on one day the earlier time. -/
theorem lt_iff : t < u ↔
    t.date.Before u.date ∨ t.date = u.date ∧ t.secondOfDay < u.secondOfDay := by
  have ht := t.toDays_date
  have hu := u.toDays_date
  have hepoch : t < u ↔ t.date.toDays < u.date.toDays ∨
      t.date.toDays = u.date.toDays ∧ t.secondOfDay < u.secondOfDay := by
    change t.epoch < u.epoch ↔ _
    unfold secondOfDay
    omega
  rw [hepoch, t.valid_date.toDays_lt_iff u.valid_date]
  exact or_congr_right (and_congr_left' ⟨t.valid_date.eq_of_toDays_eq u.valid_date, congrArg _⟩)

theorem secondOfDay_lt_iff {r s : Nat} : r < s ↔ r / 3600 < s / 3600 ∨ r / 3600 = s / 3600 ∧
    (r / 60 % 60 < s / 60 % 60 ∨ r / 60 % 60 = s / 60 % 60 ∧ r % 60 < s % 60) := by
  omega

theorem text_lt_iff (ht : t.HasPlainYear) (hu : u.HasPlainYear) : t.text < u.text ↔ t < u := by
  obtain ⟨-, hmonth, -, -⟩ := t.valid_date
  obtain ⟨-, hmonth', -, -⟩ := u.valid_date
  have hday := t.valid_date.day_le
  have hday' := u.valid_date.day_le
  have hsecond := t.secondOfDay_lt
  have hsecond' := u.secondOfDay_lt
  unfold HasPlainYear at ht hu
  have hyear : t.date.year.toNat < u.date.year.toNat ↔ t.date.year < u.date.year := by omega
  have hyear' : t.date.year.toNat = u.date.year.toNat ↔ t.date.year = u.date.year := by omega
  unfold text bytes yearText
  dsimp only
  rw [Bytes.asciiText_lt_iff, if_pos ht, if_pos hu]
  simp only [List.append_assoc, List.cons_append]
  rw [padded_append_lt_iff (by omega) (by omega), List.cons_lt_cons_self,
    padded_append_lt_iff (by omega) (by omega), List.cons_lt_cons_self,
    padded_append_lt_iff (by omega) (by omega), List.cons_lt_cons_self,
    padded_append_lt_iff (by omega) (by omega), List.cons_lt_cons_self,
    padded_append_lt_iff (by omega) (by omega), List.cons_lt_cons_self,
    padded_append_lt_iff (by omega) (by omega), List.cons_lt_cons_self]
  simp only [List.lt_irrefl, and_false, or_false]
  rw [lt_iff, secondOfDay_lt_iff (r := t.secondOfDay), Date.Before, Date.ext_iff, hyear, hyear']
  simp only [and_or_left, or_assoc, and_assoc]

/-- A text is read exactly if it spells a real date and time of day, and then it ends with `Z` and
names the second of these; what is read from it is read again from its own text. So are exactly the
instants of the years 0 to 9999, whose texts stand in the order of time. Seconds name every
instant. -/
theorem text_faithful (s : String) (t u : Instant) :
    (parse s = .ok t ↔ ∃ f : Stamp, f.Real ∧ f.SpelledBy s ∧ f.Names t) ∧
    (parse s = .ok t → (∃ r, s = r ++ "Z") ∧ parse t.text = .ok t) ∧
    t.date.HasNumber (t.epoch / 86400) ∧
    (parse t.text = .ok t ↔ t.HasPlainYear) ∧
    (t.HasPlainYear → u.HasPlainYear → (t < u ↔ t.text < u.text)) ∧
    ofEpoch t.epoch = .ok t := by
  refine ⟨parse_eq_ok_iff, fun h => ?_, Date.hasNumber_ofDays _, ⟨fun h => ?_, parse_text⟩,
    fun ht hu => (text_lt_iff ht hu).symm, ?_⟩
  · obtain ⟨f, hreal, hspelled, hnames⟩ := parse_eq_ok_iff.mp h
    exact ⟨hspelled.endsWith, parse_text (hnames.hasPlainYear hreal)⟩
  · refine by_contra fun hsigned => ?_
    rw [parse_text_of_signed hsigned] at h
    cases h
  · rw [ofEpoch, ofEpoch?_epoch]

/-- The last second of 2016, which was one of 61. -/
theorem text_faithful_leap_second :
    parse "2016-12-31T23:59:60.5Z" = .ok ⟨1483228799, by decide, by decide⟩ := by
  refine (text_faithful _ _ ⟨1483228799, by decide, by decide⟩).1.mpr ?_
  refine ⟨⟨2016, 12, 31, 23, 59, 60⟩, ⟨by decide, by decide, by decide, by decide, by decide⟩,
    ⟨0x54, [0x2e, 0x35], rfl, Or.inr ⟨[0x35], ?_, rfl⟩, ?_⟩, ?_⟩
  · exact ⟨List.cons_ne_nil _ _, List.forall_mem_singleton.mpr rfl⟩
  · unfold Stamp.bytes
    dsimp only
    rw [padded_four (by decide), padded_two (by decide), padded_two (by decide),
      padded_two (by decide), padded_two (by decide), padded_two (by decide)]
    rfl
  · exact ⟨17166, Date.hasNumber_iff.mpr ⟨by decide, by decide⟩, by decide⟩

end Instant
end Credentials
