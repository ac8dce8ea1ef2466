import Credentials.Proofs.Time.Text
import Credentials.Time.Clock
import Credentials.Time.Seconds
import Mathlib.Algebra.Ring.Int.Defs

/-!
# Moving instants and clocks

An instant is moved by seconds exactly or not at all, and the seconds between two instants fit in a
word. A clock is compared with a count in unbounded numbers that is moved in the same way: its
reading is the word of the count, whatever the sums in between. So it shows every count that is an
instant, and the greatest instant for the counts beyond that fit in a word. It does not show the
least instant for the counts before: these, too, are shown as the greatest one. Counts that fit in
no word come round.
-/

namespace Credentials

namespace Seconds

variable {t s : Instant}

theorem toInt_since (t s : Instant) : (since t s).toInt = t.since s := by
  have ht := t.le_greatest
  have ht' := t.least_le
  have hs := s.le_greatest
  have hs' := s.least_le
  unfold since Instant.since
  apply Int64.toInt_ofIntClamp
  · rw [Int64.toInt_minValue]
    omega
  · rw [Int64.toInt_maxValue]
    omega

theorem since_eq_iff {secs : Int64} : since t s = secs ↔ t.epoch = s.epoch + secs.toInt := by
  rw [← Int64.toInt_inj, toInt_since, Instant.since]
  omega

end Seconds

namespace Instant

variable {t : Instant} {n : Int}

def least : Instant := ⟨-8334601228800, Int.le_refl _, greatest.least_le⟩

/-- There is an instant at this number of seconds. -/
def InRange (n : Int) : Prop := least.epoch ≤ n ∧ n ≤ greatest.epoch

instance (n : Int) : Decidable (InRange n) := inferInstanceAs (Decidable (_ ∧ _))

theorem inRange_iff : InRange n ↔ -8334601228800 ≤ n ∧ n ≤ 8210266876799 := Iff.rfl

/-- The instant nearest to a number of seconds. -/
def nearest (n : Int) : Instant :=
  ⟨max least.epoch (min n greatest.epoch), Int.le_max_left _ _,
    Int.max_le.mpr ⟨least.le_greatest, Int.min_le_right _ _⟩⟩

theorem inRange_epoch (t : Instant) : InRange t.epoch := ⟨t.least_le, t.le_greatest⟩

theorem isSome_ofEpoch?_iff : (ofEpoch? n).isSome = true ↔ InRange n := by
  rw [Option.isSome_iff_exists]
  constructor
  · rintro ⟨t, ht⟩
    rw [← ofEpoch?_eq_some_iff.mp ht]
    exact t.inRange_epoch
  · intro h
    exact ⟨⟨n, h.1, h.2⟩, ofEpoch?_eq_some_iff.mpr rfl⟩

theorem isSome_add?_iff {secs : Int} : (t.add? secs).isSome = true ↔ InRange (t.epoch + secs) := by
  rw [← isSome_ofEpoch?_iff, Option.isSome_iff_exists, Option.isSome_iff_exists]
  simp only [add?_eq_some_iff, ofEpoch?_eq_some_iff]

theorem eq_greatest_iff : t = greatest ↔ greatest.epoch ≤ t.epoch := by
  have ht : t.epoch ≤ greatest.epoch := t.le_greatest
  rw [← epoch_inj]
  omega

theorem epoch_nearest (n : Int) :
    (nearest n).epoch = max least.epoch (min n greatest.epoch) := rfl

theorem least_lt_greatest : least.epoch < greatest.epoch := by decide

theorem nearest_of_inRange (h : InRange n) : (nearest n).epoch = n := by
  obtain ⟨hleast, hgreatest⟩ := h
  rw [epoch_nearest]
  omega

theorem nearest_of_greatest_le (h : greatest.epoch ≤ n) : nearest n = greatest := by
  have hends := least_lt_greatest
  rw [← epoch_inj, epoch_nearest]
  omega

theorem nearest_of_le_least (h : n ≤ least.epoch) : nearest n = least := by
  have hends := least_lt_greatest
  rw [← epoch_inj, epoch_nearest]
  omega

end Instant

namespace Clock

open Instant

variable {c : Clock} {n : Int} {secs : Int64}

/-! Moves. -/

/-- What is done with a clock that is set by hand. -/
inductive Move where
  | set (t : Instant)
  | advance (secs : Int64)

def Move.apply : Move → Clock → Clock
  | .set t, _ => .set t
  | .advance secs, c => c.advance secs

/-- The same move of a count in unbounded numbers. -/
def Move.count : Move → Int → Int
  | .set t, _ => t.epoch
  | .advance secs, n => n + secs.toInt

def run (moves : List Move) (c : Clock) : Clock := moves.foldl (fun c m => m.apply c) c

def count (moves : List Move) (n : Int) : Int := moves.foldl (fun n m => m.count n) n

theorem count_advances (later : List Int64) (n : Int) :
    count (later.map .advance) n = n + (later.map Int64.toInt).sum := by
  induction later generalizing n with
  | nil => exact (Int.add_zero n).symm
  | cons secs later ih =>
    rw [List.map_cons, List.map_cons, List.sum_cons, ← Int.add_assoc]
    exact ih (n + secs.toInt)

/-- What counts is the last instant that was set and the seconds since. -/
theorem count_set_advances (before : List Move) (t : Instant) (later : List Int64) (n : Int) :
    count (before ++ .set t :: later.map .advance) n = t.epoch + (later.map Int64.toInt).sum := by
  rw [count, List.foldl_append, List.foldl_cons]
  exact count_advances later t.epoch

/-- The clock that reads the word of a count. -/
def ofCount (n : Int) : Clock := ⟨.ofInt n⟩

theorem apply_ofCount (m : Move) (n : Int) : m.apply (ofCount n) = ofCount (m.count n) := by
  cases m with
  | set t => rfl
  | advance secs =>
    change (⟨.ofInt n + secs⟩ : Clock) = ⟨.ofInt (n + secs.toInt)⟩
    rw [Int64.ofInt_add, Int64.ofInt_toInt]

theorem run_ofCount (moves : List Move) (n : Int) :
    run moves (ofCount n) = ofCount (count moves n) := by
  induction moves generalizing n with
  | nil => rfl
  | cons m moves ih =>
    change run moves (m.apply (ofCount n)) = ofCount (count moves (m.count n))
    rw [apply_ofCount, ih]

/-! What a clock shows. -/

theorem now_of_inRange (h : InRange c.reading.toInt) : c.now.epoch = c.reading.toInt := by
  obtain ⟨t, ht⟩ := Option.isSome_iff_exists.mp (isSome_ofEpoch?_iff.mpr h)
  rw [now, ht, Option.getD_some, ofEpoch?_eq_some_iff.mp ht]

theorem now_of_not_inRange (h : ¬ InRange c.reading.toInt) : c.now = greatest := by
  have hnone : ofEpoch? c.reading.toInt = none :=
    Option.not_isSome_iff_eq_none.mp fun hsome => h (isSome_ofEpoch?_iff.mp hsome)
  rw [now, hnone, Option.getD_none]

/-- A reading beyond the last instant shows the nearest one, a reading before the first does not. -/
theorem now_eq (c : Clock) : c.now =
    if c.reading.toInt < least.epoch then greatest else nearest c.reading.toInt := by
  by_cases h : InRange c.reading.toInt
  · rw [if_neg (Int.not_lt.mpr h.1), ← epoch_inj, now_of_inRange h, nearest_of_inRange h]
  · rw [now_of_not_inRange h]
    split
    · rfl
    · next hle =>
      have hgt : ¬ c.reading.toInt ≤ greatest.epoch := fun hgt => h ⟨Int.not_lt.mp hle, hgt⟩
      rw [nearest_of_greatest_le (by omega)]

theorem now_eq_least_iff : c.now = least ↔ c.reading.toInt = least.epoch := by
  by_cases h : InRange c.reading.toInt
  · rw [← epoch_inj, now_of_inRange h]
  · rw [now_of_not_inRange h]
    have hends : greatest ≠ least := by decide
    have hout : c.reading.toInt ≠ least.epoch := fun heq => h (heq ▸ least.inRange_epoch)
    exact iff_of_false hends hout

theorem now_eq_greatest_iff : c.now = greatest ↔
    (InRange c.reading.toInt → c.reading.toInt = greatest.epoch) := by
  by_cases h : InRange c.reading.toInt
  · rw [← epoch_inj, now_of_inRange h]
    exact ⟨fun heq _ => heq, fun heq => heq h⟩
  · exact iff_of_true (now_of_not_inRange h) fun hin => absurd hin h

/-! Counts and their words. -/

/-- The reading of a count differs from it by whole turns of the words. -/
theorem exists_reading_ofCount (n : Int) :
    ∃ k, (ofCount n).reading.toInt = n + 18446744073709551616 * k := by
  refine ⟨-n.bdiv Int64.size, ?_⟩
  have hturns := Int.bmod_add_bdiv n Int64.size
  have hsize : (Int64.size : Int) = 18446744073709551616 := rfl
  rw [ofCount, Int64.toInt_ofInt]
  rw [hsize] at hturns
  omega

theorem reading_ofCount (h : InRange n) : (ofCount n).reading.toInt = n := by
  rw [inRange_iff] at h
  apply Int64.toInt_ofInt_of_le <;> omega

theorem now_ofCount_of_inRange (h : InRange n) : (ofCount n).now.epoch = n := by
  have hreading := reading_ofCount h
  rw [now_of_inRange (hreading.symm ▸ h), hreading]

theorem now_set (t : Instant) : (Clock.set t).now = t :=
  epoch_inj.mp (now_ofCount_of_inRange t.inRange_epoch)

theorem now_ofCount_eq_nearest_iff : (ofCount n).now = nearest n ↔
    (n < least.epoch → (ofCount n).reading.toInt = least.epoch) ∧
    (greatest.epoch < n → InRange (ofCount n).reading.toInt →
      (ofCount n).reading.toInt = greatest.epoch) := by
  have hends := least_lt_greatest
  rcases Int.lt_or_le n least.epoch with hlow | hlow
  · have hle : ¬ greatest.epoch < n := by omega
    rw [nearest_of_le_least (by omega), now_eq_least_iff]
    simp only [hlow, hle, forall_const, false_imp_iff, and_true]
  · rcases Int.lt_or_le greatest.epoch n with hhigh | hhigh
    · have hle : ¬ n < least.epoch := by omega
      rw [nearest_of_greatest_le (by omega), now_eq_greatest_iff]
      simp only [hhigh, hle, forall_const, false_imp_iff, true_and]
    · have hin : InRange n := ⟨hlow, hhigh⟩
      rw [← epoch_inj, now_ofCount_of_inRange hin, nearest_of_inRange hin]
      exact iff_of_true rfl ⟨fun h => absurd h (by omega), fun h => absurd h (by omega)⟩

/-! Directions. -/

theorem advance_eq_ofCount (c : Clock) (secs : Int64) :
    c.advance secs = ofCount (c.reading.toInt + secs.toInt) := by
  rw [ofCount, Int64.ofInt_add, Int64.ofInt_toInt, Int64.ofInt_toInt, advance]

/-- One move is too short to come round from an instant to an instant. -/
theorem reading_advance (hin : InRange c.reading.toInt)
    (hthere : InRange (c.advance secs).reading.toInt) :
    (c.advance secs).reading.toInt = c.reading.toInt + secs.toInt := by
  obtain ⟨k, hk⟩ := exists_reading_ofCount (c.reading.toInt + secs.toInt)
  have hleast := secs.le_toInt
  have hgreatest := secs.toInt_lt
  rw [inRange_iff] at hin hthere
  rw [advance_eq_ofCount] at hthere ⊢
  omega

/-- Moved back, a clock shows a later time exactly if it is moved to before the first instant. -/
theorem now_advance_le_iff (h : secs < 0) : (c.advance secs).now ≤ c.now ↔
    c.now = greatest ∨ least.epoch ≤ c.now.epoch + secs.toInt := by
  have hback : secs.toInt < 0 := Int64.lt_iff_toInt_lt.mp h
  by_cases hin : InRange c.reading.toInt
  · have hnow := now_of_inRange hin
    by_cases hstays : least.epoch ≤ c.now.epoch + secs.toInt
    · refine iff_of_true ?_ (Or.inr hstays)
      have hle : c.now.epoch + secs.toInt ≤ c.now.epoch := by omega
      rw [hnow] at hstays hle
      have hthere := now_ofCount_of_inRange ⟨hstays, Int.le_trans hle hin.2⟩
      change (c.advance secs).now.epoch ≤ c.now.epoch
      rwa [advance_eq_ofCount, hthere, hnow]
    · have hleaves : ¬ InRange (c.advance secs).reading.toInt := by
        intro hthere
        -- the move has not come round, so it would have stayed among the instants
        rw [hnow, ← reading_advance hin hthere] at hstays
        exact hstays hthere.1
      rw [now_of_not_inRange hleaves, or_iff_left hstays, eq_greatest_iff]
      exact Iff.rfl
  · have hnow := now_of_not_inRange hin
    refine iff_of_true ?_ (Or.inl hnow)
    rw [hnow]
    exact (c.advance secs).now.le_greatest

/-- Moved forward, a clock shows an earlier time exactly if it comes back among the instants. -/
theorem now_le_advance_iff (h : 0 < secs) : c.now ≤ (c.advance secs).now ↔
    InRange c.reading.toInt ∨ (c.advance secs).now = greatest := by
  have hforward : 0 < secs.toInt := Int64.lt_iff_toInt_lt.mp h
  by_cases hin : InRange c.reading.toInt
  · refine iff_of_true ?_ (Or.inl hin)
    by_cases hthere : InRange (c.advance secs).reading.toInt
    · change c.now.epoch ≤ (c.advance secs).now.epoch
      rw [now_of_inRange hin, now_of_inRange hthere, reading_advance hin hthere]
      omega
    · rw [now_of_not_inRange hthere]
      exact c.now.le_greatest
  · rw [now_of_not_inRange hin, or_iff_right hin, eq_greatest_iff]
    exact Iff.rfl

/-- Instants are moved exactly. A clock reads the word of its count, which is the last instant that
was set and the seconds since, and shows the count if that is an instant. For other counts it shows
the nearest end of the range, unless they lie before the least instant or come round to an instant;
and a move in one direction shows in the other just when it leaves the range at the least instant or
comes back into it. -/
theorem clock_arithmetic (t : Instant) (secs : Int64) (moves : List Move) (c : Clock) :
    (((t.add? secs.toInt).isSome = true ↔ InRange (t.epoch + secs.toInt)) ∧
      ∀ u, t.add? secs.toInt = some u →
        u.epoch = t.epoch + secs.toInt ∧ Seconds.since u t = secs) ∧
    ((∀ later : List Int64, moves = later.map .advance →
        count moves t.epoch = t.epoch + (later.map Int64.toInt).sum) ∧
      ∀ before u (later : List Int64), moves = before ++ .set u :: later.map .advance →
        count moves t.epoch = u.epoch + (later.map Int64.toInt).sum) ∧
    ((run moves (.set t)).reading = .ofInt (count moves t.epoch) ∧
      (InRange (count moves t.epoch) → (run moves (.set t)).now.epoch = count moves t.epoch) ∧
      ((run moves (.set t)).now = nearest (count moves t.epoch) ↔
        (count moves t.epoch < least.epoch →
          (run moves (.set t)).reading.toInt = least.epoch) ∧
        (greatest.epoch < count moves t.epoch → InRange (run moves (.set t)).reading.toInt →
          (run moves (.set t)).reading.toInt = greatest.epoch))) ∧
    (c.now = if c.reading.toInt < least.epoch then greatest else nearest c.reading.toInt) ∧
    (secs < 0 → ((c.advance secs).now ≤ c.now ↔
      c.now = greatest ∨ least.epoch ≤ c.now.epoch + secs.toInt)) ∧
    (0 < secs → (c.now ≤ (c.advance secs).now ↔
      InRange c.reading.toInt ∨ (c.advance secs).now = greatest)) := by
  have hrun : run moves (.set t) = ofCount (count moves t.epoch) := run_ofCount moves t.epoch
  rw [hrun]
  refine ⟨⟨isSome_add?_iff, fun u hu => ?_⟩, ⟨?_, ?_⟩,
    ⟨rfl, now_ofCount_of_inRange, now_ofCount_eq_nearest_iff⟩,
    now_eq c, now_advance_le_iff, now_le_advance_iff⟩
  · have hepoch := add?_eq_some_iff.mp hu
    exact ⟨hepoch, Seconds.since_eq_iff.mpr hepoch⟩
  · rintro later rfl
    exact count_advances later t.epoch
  · rintro before u later rfl
    exact count_set_advances before u later t.epoch

def newYear2026 : Instant := ⟨1767225600, by decide, by decide⟩

theorem clock_arithmetic_sample :
    (InRange (newYear2026.epoch + 90) ∧
      (run [.advance 90] (.set newYear2026)).now.epoch = newYear2026.epoch + 90) ∧
    ((0 : Int64) < 90 ∧ (Clock.set newYear2026).now ≤ ((Clock.set newYear2026).advance 90).now) ∧
    ((-60 : Int64) < 0 ∧
      ((Clock.set newYear2026).advance (-60)).now ≤ (Clock.set newYear2026).now) := by
  have hin : InRange (newYear2026.epoch + 90) := by decide
  have hstart : InRange (Clock.set newYear2026).reading.toInt := by decide
  have hstays : least.epoch ≤ (Clock.set newYear2026).now.epoch + (-60 : Int64).toInt := by decide
  obtain ⟨-, -, ⟨-, hshown, -⟩, -, -, hforward⟩ :=
    clock_arithmetic newYear2026 90 [.advance 90] (.set newYear2026)
  obtain ⟨-, -, -, -, hback, -⟩ := clock_arithmetic newYear2026 (-60) [] (.set newYear2026)
  exact ⟨⟨hin, hshown hin⟩, ⟨by decide, (hforward (by decide)).mpr (Or.inl hstart)⟩,
    ⟨by decide, (hback (by decide)).mpr (Or.inr hstays)⟩⟩

/-- One second before the least instant a clock shows the greatest one: it is moved back and shows
a later time, and is moved forward again and shows an earlier one. A count that fits in no word comes
round to an instant. -/
theorem least_turns_over :
    (run [.advance (-1)] (.set least)).now ≠ nearest (count [.advance (-1)] least.epoch) ∧
    (Clock.set least).now < ((Clock.set least).advance (-1)).now ∧
    (((Clock.set least).advance (-1)).advance 1).now < ((Clock.set least).advance (-1)).now ∧
    (run [.advance Int64.maxValue, .advance Int64.maxValue, .advance 2] (.set newYear2026)).now ≠
      nearest (count [.advance Int64.maxValue, .advance Int64.maxValue, .advance 2]
        newYear2026.epoch) := by
  decide

end Clock
end Credentials
