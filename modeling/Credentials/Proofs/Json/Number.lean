import Credentials.Json.Lexeme
import Mathlib.Data.Bool.AllAny
import Mathlib.Data.List.Induction
import Mathlib.Data.List.TakeDrop

/-!
# Number literals

The grammar of number literals, apart from the scanner that recognises them. The scanner takes a
literal off the front of a text exactly when the text after it cannot lengthen the literal, so what
is printed as a number is read back as the same spelling.
-/

namespace Credentials.Json

/-- A nonempty run of digits. -/
def Digits (ds : Bytes) : Prop := ds ≠ [] ∧ ∀ d ∈ ds, Decimal.isDigit d = true

/-- Digits of which the first is zero only if it is the only one. -/
def IsInteger (ds : Bytes) : Prop := Digits ds ∧ (ds.head? = some 0x30 → ds = [0x30])

def IsFraction (fs : Bytes) : Prop := fs = [] ∨ ∃ ds, Digits ds ∧ fs = 0x2e :: ds

def IsExponent (es : Bytes) : Prop :=
  es = [] ∨ ∃ e sign ds, (e = 0x65 ∨ e = 0x45) ∧ (sign = [] ∨ sign = [0x2b] ∨ sign = [0x2d])
    ∧ Digits ds ∧ es = e :: (sign ++ ds)

def IsMagnitude (l : Bytes) : Prop :=
  ∃ ds fs es, IsInteger ds ∧ IsFraction fs ∧ IsExponent es ∧ l = ds ++ fs ++ es

/-- A number literal: a magnitude, with or without a minus sign. -/
def IsNumber (l : Bytes) : Prop := IsMagnitude l ∨ ∃ m, IsMagnitude m ∧ l = 0x2d :: m

/-- A byte that may stand in a number literal after its first byte. -/
def extendsNumber (b : UInt8) : Bool :=
  Decimal.isDigit b || b == 0x2e || b == 0x65 || b == 0x45

/-- A text that does not lengthen a number literal in front of it. -/
def EndsNumber (r : Bytes) : Prop := ∀ b ∈ r.head?, extendsNumber b = false

theorem extendsNumber_eq_false_iff {b : UInt8} : extendsNumber b = false ↔
    Decimal.isDigit b = false ∧ b ≠ 0x2e ∧ b ≠ 0x65 ∧ b ≠ 0x45 := by
  simp [extendsNumber, and_assoc]

theorem endsNumber_nil : EndsNumber [] := by simp [EndsNumber]

theorem endsNumber_cons {b : UInt8} (r : Bytes) (h : extendsNumber b = false) :
    EndsNumber (b :: r) := by
  simpa [EndsNumber] using h

theorem head_isDigit {ds : Bytes} (h : Digits ds) :
    ∃ d t, ds = d :: t ∧ Decimal.isDigit d = true := by
  cases ds with
  | nil => exact absurd rfl h.1
  | cons d t => exact ⟨d, t, rfl, h.2 d List.mem_cons_self⟩

/-! Taking a run of digits off a text. -/

theorem span_digits {ds r : Bytes} (hd : ∀ d ∈ ds, Decimal.isDigit d = true)
    (hr : ∀ b ∈ r.head?, Decimal.isDigit b = false) :
    (ds ++ r).span Decimal.isDigit = (ds, r) := by
  rw [List.span_eq_takeWhile_dropWhile, List.takeWhile_append_of_pos hd,
    List.dropWhile_append_of_pos hd]
  cases r with
  | nil => simp
  | cons b r => simp [hr b rfl]

theorem eq_append_of_span {s ds r : Bytes} (h : s.span Decimal.isDigit = (ds, r)) :
    s = ds ++ r ∧ ∀ d ∈ ds, Decimal.isDigit d = true := by
  rw [List.span_eq_takeWhile_dropWhile] at h
  obtain ⟨rfl, rfl⟩ := Prod.mk.inj h
  exact ⟨List.takeWhile_append_dropWhile.symm, fun d hd => by
    simpa using List.all_eq_true.mp List.all_takeWhile d hd⟩

/-! The scanner takes exactly the literals. -/

theorem endsNumber_exponent {es r : Bytes} (he : IsExponent es) (hr : EndsNumber r) :
    ∀ b ∈ (es ++ r).head?, Decimal.isDigit b = false ∧ b ≠ 0x2e := by
  rcases he with rfl | ⟨e, sign, ds, he, _, _, rfl⟩
  · intro b hb
    obtain ⟨hdigit, hpoint, _⟩ := extendsNumber_eq_false_iff.mp (hr b hb)
    exact ⟨hdigit, hpoint⟩
  · intro b hb
    obtain rfl : e = b := by simpa using hb
    rcases he with rfl | rfl <;> decide

theorem fraction_append {fs r : Bytes} (hf : IsFraction fs)
    (hr : ∀ b ∈ r.head?, Decimal.isDigit b = false ∧ b ≠ 0x2e) :
    fraction (fs ++ r) = some (fs, r) := by
  rcases hf with rfl | ⟨ds, hd, rfl⟩
  · cases r with
    | nil => rfl
    | cons b r =>
      have hb : b ≠ 0x2e := (hr b rfl).2
      rw [List.nil_append, fraction]
      intro r' h
      exact hb (List.cons.inj h).1
  · obtain ⟨d, t, rfl, -⟩ := head_isDigit hd
    rw [List.cons_append, fraction, span_digits hd.2 fun b hb => (hr b hb).1]

theorem exponentSign_append {sign ds : Bytes} (hs : sign = [] ∨ sign = [0x2b] ∨ sign = [0x2d])
    (hd : Digits ds) (r : Bytes) : exponentSign (sign ++ (ds ++ r)) = (sign, ds ++ r) := by
  rcases hs with rfl | rfl | rfl
  · obtain ⟨d, t, rfl, hdigit⟩ := head_isDigit hd
    simp only [List.nil_append, List.cons_append]
    unfold exponentSign
    split
    · next h => cases h; exact absurd hdigit (by decide)
    · next h => cases h; exact absurd hdigit (by decide)
    · rfl
  · rfl
  · rfl

theorem exponent_append {es r : Bytes} (he : IsExponent es) (hr : EndsNumber r) :
    exponent (es ++ r) = some (es, r) := by
  rcases he with rfl | ⟨e, sign, ds, he, hs, hd, rfl⟩
  · cases r with
    | nil => rfl
    | cons b r =>
      obtain ⟨_, _, hsmall, hlarge⟩ := extendsNumber_eq_false_iff.mp (hr b rfl)
      simp [exponent, hsmall, hlarge]
  · have hspan : (ds ++ r).span Decimal.isDigit = (ds, r) :=
      span_digits hd.2 fun b hb => (extendsNumber_eq_false_iff.mp (hr b hb)).1
    obtain ⟨d, t, rfl, -⟩ := head_isDigit hd
    simp only [List.cons_append, List.append_assoc, exponent, if_pos he]
    rw [← List.cons_append, exponentSign_append hs hd, hspan]

theorem magnitude_append {l r : Bytes} (hl : IsMagnitude l) (hr : EndsNumber r) :
    magnitude (l ++ r) = some (l, r) := by
  obtain ⟨ds, fs, es, ⟨hd, hz⟩, hf, he, rfl⟩ := hl
  have htail := endsNumber_exponent he hr
  have hhead : ∀ b ∈ (fs ++ (es ++ r)).head?, Decimal.isDigit b = false := by
    rcases hf with rfl | ⟨_, _, rfl⟩
    · exact fun b hb => (htail b hb).1
    · intro b hb
      obtain rfl : 0x2e = b := by simpa using hb
      decide
  obtain ⟨d, t, rfl, -⟩ := head_isDigit hd
  rw [List.append_assoc, List.append_assoc, magnitude, span_digits hd.2 hhead]
  split
  · next h => cases h
  · next h =>
    obtain ⟨h, -⟩ := Prod.mk.inj h
    simp [h] at hz
  · next h =>
    cases h
    simp only [fraction_append hf htail, exponent_append he hr, List.append_assoc]

theorem head_magnitude {l : Bytes} (hl : IsMagnitude l) :
    ∃ d t, l = d :: t ∧ Decimal.isDigit d = true := by
  obtain ⟨ds, fs, es, ⟨hd, _⟩, _, _, rfl⟩ := hl
  obtain ⟨d, t, rfl, hdigit⟩ := head_isDigit hd
  exact ⟨d, t ++ fs ++ es, rfl, hdigit⟩

theorem head_isNumber {l : Bytes} (h : IsNumber l) :
    ∃ b t, l = b :: t ∧ (Decimal.isDigit b = true ∨ b = 0x2d) := by
  rcases h with h | ⟨m, _, rfl⟩
  · obtain ⟨b, t, rfl, hb⟩ := head_magnitude h
    exact ⟨b, t, rfl, Or.inl hb⟩
  · exact ⟨0x2d, m, rfl, Or.inr rfl⟩

theorem scanNumber_append {l r : Bytes} (hl : IsNumber l) (hr : EndsNumber r) :
    scanNumber (l ++ r) = some (l, r) := by
  rcases hl with hl | ⟨m, hm, rfl⟩
  · obtain ⟨d, t, rfl, hdigit⟩ := head_magnitude hl
    have h := magnitude_append hl hr
    rw [List.cons_append] at h ⊢
    rw [scanNumber, h]
    rintro r' hr'
    cases hr'
    exact absurd hdigit (by decide)
  · rw [List.cons_append, scanNumber, magnitude_append hm hr]
    rfl

/-! What the scanner takes is a literal. -/

theorem fraction_sound {s fs r : Bytes} (h : fraction s = some (fs, r)) :
    IsFraction fs ∧ s = fs ++ r := by
  unfold fraction at h
  split at h
  · split at h
    · cases h
    · next ds r' hne hspan =>
      obtain ⟨rfl, hd⟩ := eq_append_of_span hspan
      cases h
      exact ⟨Or.inr ⟨ds, ⟨fun h => hne h, hd⟩, rfl⟩, rfl⟩
  · cases h
    exact ⟨Or.inl rfl, rfl⟩

theorem exponentSign_sound {s sign r : Bytes} (h : exponentSign s = (sign, r)) :
    (sign = [] ∨ sign = [0x2b] ∨ sign = [0x2d]) ∧ s = sign ++ r := by
  unfold exponentSign at h
  split at h <;> cases h <;> simp

theorem exponent_sound {s es r : Bytes} (h : exponent s = some (es, r)) :
    IsExponent es ∧ s = es ++ r := by
  unfold exponent at h
  split at h
  · cases h
    exact ⟨Or.inl rfl, rfl⟩
  · next e t =>
    split at h
    · next he =>
      obtain ⟨sign, t', hsign⟩ : ∃ sign t', exponentSign t = (sign, t') := ⟨_, _, rfl⟩
      obtain ⟨hs, rfl⟩ := exponentSign_sound hsign
      simp only [hsign] at h
      split at h
      · cases h
      · next ds r' hne hspan =>
        obtain ⟨rfl, hd⟩ := eq_append_of_span hspan
        cases h
        refine ⟨Or.inr ⟨e, sign, ds, he, hs, ⟨fun h => hne h, hd⟩, rfl⟩, ?_⟩
        simp
    · cases h
      exact ⟨Or.inl rfl, rfl⟩

theorem magnitude_sound {s l r : Bytes} (h : magnitude s = some (l, r)) :
    IsMagnitude l ∧ s = l ++ r := by
  unfold magnitude at h
  split at h
  · cases h
  · cases h
  · next ds t hne hz hspan =>
    obtain ⟨rfl, hd⟩ := eq_append_of_span hspan
    split at h
    · cases h
    · next fs t' hf =>
      obtain ⟨hfs, rfl⟩ := fraction_sound hf
      split at h
      · cases h
      · next es r' he =>
        obtain ⟨hes, rfl⟩ := exponent_sound he
        cases h
        have hzero : ds.head? = some 0x30 → ds = [0x30] := by
          match ds, hz with
          | [], _ => simp
          | [d], _ => simp
          | d :: d' :: ds, hz =>
            intro hd'
            obtain rfl : d = 0x30 := by simpa using hd'
            exact absurd rfl (hz d' ds)
        exact ⟨⟨ds, fs, es, ⟨⟨fun h => hne h, hd⟩, hzero⟩, hfs, hes, rfl⟩, by simp⟩

/-- What is scanned is a number literal at the front of the text. -/
theorem scanNumber_sound {s l r : Bytes} (h : scanNumber s = some (l, r)) :
    IsNumber l ∧ s = l ++ r := by
  unfold scanNumber at h
  split at h
  · next t =>
    obtain ⟨⟨m, r'⟩, hm, heq⟩ := Option.map_eq_some_iff.mp h
    obtain ⟨hmag, rfl⟩ := magnitude_sound hm
    cases heq
    exact ⟨Or.inr ⟨m, hmag, rfl⟩, rfl⟩
  · obtain ⟨hmag, rfl⟩ := magnitude_sound h
    exact ⟨Or.inl hmag, rfl⟩

theorem isLiteral_iff {l : Bytes} : isLiteral l = true ↔ IsNumber l := by
  constructor
  · intro h
    unfold isLiteral at h
    split at h
    · next l' hs =>
      obtain ⟨hl, rfl⟩ := scanNumber_sound hs
      rwa [List.append_nil]
    · cases h
  · intro h
    have hs := scanNumber_append h endsNumber_nil
    rw [List.append_nil] at hs
    rw [isLiteral, hs]

/-! The bytes of literals. -/

/-- A byte that may stand in a number literal. -/
def numberByte (b : UInt8) : Bool :=
  Decimal.isDigit b || b == 0x2b || b == 0x2d || b == 0x2e || b == 0x45 || b == 0x65

theorem numberByte_digits {ds : Bytes} (h : ∀ d ∈ ds, Decimal.isDigit d = true) :
    ∀ d ∈ ds, numberByte d = true := by
  intro d hd
  simp [numberByte, h d hd]

theorem numberByte_isMagnitude {l : Bytes} (h : IsMagnitude l) : ∀ b ∈ l, numberByte b = true := by
  obtain ⟨ds, fs, es, hd, hf, he, rfl⟩ := h
  refine List.forall_mem_append.mpr ⟨List.forall_mem_append.mpr ⟨numberByte_digits hd.1.2, ?_⟩, ?_⟩
  · rcases hf with rfl | ⟨ds, hd, rfl⟩
    · exact nofun
    · exact List.forall_mem_cons.mpr ⟨rfl, numberByte_digits hd.2⟩
  · rcases he with rfl | ⟨e, sign, ds, he, hs, hd, rfl⟩
    · exact nofun
    · refine List.forall_mem_cons.mpr
        ⟨?_, List.forall_mem_append.mpr ⟨?_, numberByte_digits hd.2⟩⟩
      · rcases he with rfl | rfl <;> rfl
      · rcases hs with rfl | rfl | rfl <;> exact List.all_eq_true.mp rfl

theorem numberByte_isNumber {l : Bytes} (h : IsNumber l) : ∀ b ∈ l, numberByte b = true := by
  rcases h with h | ⟨m, hm, rfl⟩
  · exact numberByte_isMagnitude h
  · exact List.forall_mem_cons.mpr ⟨rfl, numberByte_isMagnitude hm⟩

/-- Such a byte is ASCII, and neither a blank nor a quote. -/
theorem numberByte_spec {b : UInt8} (h : numberByte b = true) :
    b < 0x80 ∧ b ≠ 0x22 ∧ isBlank b = false := by
  have hall : ∀ n < 0x80, numberByte (UInt8.ofNat n) = true →
      UInt8.ofNat n ≠ 0x22 ∧ isBlank (UInt8.ofNat n) = false := by
    decide
  have hlt : b < 0x80 := by
    simp only [numberByte, Decimal.isDigit, Bool.or_eq_true, Bool.and_eq_true, decide_eq_true_eq,
      beq_iff_eq] at h
    rcases h with ((((h | rfl) | rfl) | rfl) | rfl) | rfl
    · exact UInt8.lt_of_le_of_lt h.2 (by decide)
    all_goals decide
  have hspec := hall b.toNat hlt
  rw [UInt8.ofNat_toNat] at hspec
  exact ⟨hlt, hspec h⟩

theorem ascii_isNumber {l : Bytes} (h : IsNumber l) : ∀ b ∈ l, b < 0x80 :=
  fun b hb => (numberByte_spec (numberByte_isNumber h b hb)).1

/-! Numerals of integers. -/

theorem digits_ofNat (n : Nat) : Digits (Decimal.ofNat n) :=
  ⟨Decimal.ofNat_ne_nil n, List.all_eq_true.mp (Decimal.all_isDigit_ofNat n)⟩

theorem isInteger_ofNat (n : Nat) : IsInteger (Decimal.ofNat n) := by
  refine ⟨digits_ofNat n, ?_⟩
  fun_induction Decimal.ofNat n with
  | case1 n hn =>
    intro h
    rw [List.head?_cons, Option.some.injEq] at h
    rw [h]
  | case2 n hn ih =>
    intro h
    obtain ⟨d, t, hd, _⟩ := head_isDigit (digits_ofNat (n / 10))
    rw [hd, List.cons_append, List.head?_cons] at h
    have hvalue := congrArg Decimal.value (ih (by rw [hd]; exact h))
    have hzero : Decimal.value [0x30] = 0 := rfl
    rw [Decimal.value_ofNat, hzero] at hvalue
    omega

theorem isMagnitude_ofNat (n : Nat) : IsMagnitude (Decimal.ofNat n) :=
  ⟨Decimal.ofNat n, [], [], isInteger_ofNat n, Or.inl rfl, Or.inl rfl, by simp⟩

theorem isNumber_ofInt (i : Int) : IsNumber (Decimal.ofInt i) := by
  cases i with
  | ofNat n => exact Or.inl (isMagnitude_ofNat n)
  | negSucc n => exact Or.inr ⟨_, isMagnitude_ofNat (n + 1), rfl⟩

/-- The numeral of a natural starts with no sign. -/
theorem signed?_ofNat (n : Nat) : Decimal.signed? (Decimal.ofNat n) = some (n : Int) := by
  obtain ⟨d, t, hd, hdigit⟩ := head_isDigit (digits_ofNat n)
  have hvalue := Decimal.nat?_ofNat n
  rw [hd] at hvalue ⊢
  rw [Decimal.signed?, hvalue]
  · rfl
  · rintro r h
    rw [(List.cons.inj h).1] at hdigit
    cases hdigit
  · rintro r h
    rw [(List.cons.inj h).1] at hdigit
    cases hdigit

theorem signed?_ofInt (i : Int) : Decimal.signed? (Decimal.ofInt i) = some i := by
  cases i with
  | ofNat n => exact signed?_ofNat n
  | negSucc n =>
    rw [Decimal.ofInt, Decimal.signed?, Decimal.nat?_ofNat]
    rfl

theorem ofNat_zero : Decimal.ofNat 0 = [0x30] := by
  rw [Decimal.ofNat, if_pos (by decide)]
  rfl

theorem ofInt_ne_minusZero (i : Int) : Decimal.ofInt i ≠ [0x2d, 0x30] := by
  intro h
  have hsigned := signed?_ofInt i
  rw [h] at hsigned
  have hzero : i = 0 := (Option.some.inj hsigned).symm
  subst hzero
  change Decimal.ofNat 0 = _ at h
  rw [ofNat_zero] at h
  cases h

/-! Integers have one literal. -/

theorem digit_of_isDigit {d : UInt8} (h : Decimal.isDigit d = true) (n : Nat) :
    Decimal.digitValue d < 10 ∧ Decimal.digit (10 * n + Decimal.digitValue d) = d := by
  simp only [Decimal.isDigit, Bool.and_eq_true, decide_eq_true_eq, UInt8.le_iff_toNat_le,
    UInt8.reduceToNat] at h
  have hvalue : Decimal.digitValue d = d.toNat - 48 := rfl
  have hdigit : 48 + (10 * n + Decimal.digitValue d) % 10 = d.toNat := by omega
  refine ⟨by omega, ?_⟩
  change UInt8.ofNat (48 + _) = d
  rw [hdigit, UInt8.ofNat_toNat]

/-- Digits without a zero in front are the numeral of their value. -/
theorem ofNat_value {ds : Bytes} (h : IsInteger ds) : Decimal.ofNat (Decimal.value ds) = ds := by
  induction ds using List.reverseRecOn with
  | nil => exact absurd rfl h.1.1
  | append_singleton init d ih =>
    obtain ⟨⟨_, hdigits⟩, hzero⟩ := h
    obtain ⟨hlt, hdigit⟩ := digit_of_isDigit (hdigits d (by simp)) (Decimal.value init)
    rw [Decimal.value_append_singleton, Decimal.ofNat, hdigit]
    by_cases hinit : init = []
    · subst hinit
      rw [if_pos (by simpa [Decimal.value] using hlt), List.nil_append]
    · have hhead : (init ++ [d]).head? = init.head? := by
        rw [List.head?_append, Option.or_of_isSome (List.isSome_head?.mpr hinit)]
      have hnonzero : init.head? ≠ some 0x30 := by
        intro hfirst
        have hlength := congrArg List.length (hzero (hhead.trans hfirst))
        rw [List.length_append, List.length_singleton] at hlength
        exact hinit (List.eq_nil_of_length_eq_zero (Nat.succ_inj.mp hlength))
      have hinteger : IsInteger init :=
        ⟨⟨hinit, fun b hb => hdigits b (List.mem_append_left _ hb)⟩,
          fun hfirst => absurd hfirst hnonzero⟩
      have hnumeral := ih hinteger
      have hpositive : Decimal.value init ≠ 0 := by
        intro hvalue
        rw [hvalue, ofNat_zero] at hnumeral
        exact hnonzero (hnumeral ▸ rfl)
      rw [if_neg (by omega), show (10 * Decimal.value init + Decimal.digitValue d) / 10
        = Decimal.value init by omega, hnumeral]

/-- A magnitude that consists of digits has neither a fraction nor an exponent. -/
theorem isInteger_of_isMagnitude {l : Bytes} (h : IsMagnitude l)
    (hdigits : ∀ d ∈ l, Decimal.isDigit d = true) : IsInteger l := by
  obtain ⟨ds, fs, es, hds, hfs, hes, rfl⟩ := h
  rcases hfs with rfl | ⟨_, _, rfl⟩
  · rcases hes with rfl | ⟨e, _, _, he, _, _, rfl⟩
    · simpa using hds
    · have hdigit := hdigits e (by simp)
      rcases he with rfl | rfl <;> cases hdigit
  · cases hdigits 0x2e (by simp)

theorem eq_ofNat_of_nat? {l : Bytes} (h : IsMagnitude l) {n : Nat} (hn : Decimal.nat? l = some n) :
    l = Decimal.ofNat n := by
  unfold Decimal.nat? at hn
  split at hn
  · next hl =>
    cases hn
    rw [ofNat_value (isInteger_of_isMagnitude h (List.all_eq_true.mp hl.2))]
  · cases hn

/-- The one literal of an integer is its numeral, apart from minus zero. -/
theorem signed?_eq_some_iff {l : Bytes} (h : IsNumber l) (hzero : l ≠ [0x2d, 0x30]) {i : Int} :
    Decimal.signed? l = some i ↔ l = Decimal.ofInt i := by
  constructor
  · intro hi
    rcases h with h | ⟨m, hm, rfl⟩
    · obtain ⟨d, t, rfl, hdigit⟩ := head_magnitude h
      rw [Decimal.signed?] at hi
      · obtain ⟨n, hn, rfl⟩ := Option.map_eq_some_iff.mp hi
        exact eq_ofNat_of_nat? h hn
      · rintro r hr
        cases hr
        cases hdigit
      · rintro r hr
        cases hr
        cases hdigit
    · rw [Decimal.signed?] at hi
      cases hn : Decimal.nat? m with
      | none =>
        rw [hn] at hi
        cases hi
      | some n =>
        rw [hn] at hi
        cases hi
        obtain rfl := eq_ofNat_of_nat? hm hn
        cases n with
        | zero => exact absurd (congrArg (List.cons 0x2d) ofNat_zero) hzero
        | succ n => rfl
  · rintro rfl
    exact signed?_ofInt i

end Credentials.Json
