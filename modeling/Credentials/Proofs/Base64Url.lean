import Credentials.Base64Url
import Credentials.Proofs.Text

/-!
# Base64url round trip

The digits of a byte string are visible ASCII characters other than the point. They are read back as
the byte string, and no other text is.
-/

namespace Credentials.Base64Url

theorem digit_spec : ∀ n < 64, digitValue? (digit n) = some n ∧
    0x20 < digit n ∧ digit n < 0x7f ∧ digit n ≠ 0x2e := by
  decide

/-- The values of the digits of a byte string. -/
def values : Bytes → List Nat
  | [] => []
  | [a] => [a.toNat / 4, a.toNat % 4 * 16]
  | [a, b] => [a.toNat / 4, a.toNat % 4 * 16 + b.toNat / 16, b.toNat % 16 * 4]
  | a :: b :: c :: r =>
    a.toNat / 4 :: (a.toNat % 4 * 16 + b.toNat / 16)
      :: (b.toNat % 16 * 4 + c.toNat / 64) :: c.toNat % 64 :: values r

theorem digits_eq_map (b : Bytes) : digits b = (values b).map digit := by
  fun_induction values b with
  | case1 => rfl
  | case2 a => rfl
  | case3 a b => rfl
  | case4 a b c r ih => simp [digits, ih]

theorem values_lt (b : Bytes) : ∀ n ∈ values b, n < 64 := by
  fun_induction values b with
  | case1 => simp
  | case2 a =>
    have ha := a.toNat_lt
    simp only [List.forall_mem_cons, List.not_mem_nil, false_implies, implies_true, and_true]
    omega
  | case3 a b =>
    have ha := a.toNat_lt
    have hb := b.toNat_lt
    simp only [List.forall_mem_cons, List.not_mem_nil, false_implies, implies_true, and_true]
    omega
  | case4 a b c r ih =>
    have ha := a.toNat_lt
    have hb := b.toNat_lt
    have hc := c.toNat_lt
    simp only [List.forall_mem_cons]
    refine ⟨?_, ?_, ?_, ?_, ih⟩ <;> omega

theorem eq_of_toNat {n : Nat} {a : UInt8} (h : n = a.toNat) : UInt8.ofNat n = a := by
  rw [h, UInt8.ofNat_toNat]

theorem ofValues_values (b : Bytes) : ofValues (values b) = some b := by
  fun_induction values b with
  | case1 => rfl
  | case2 a =>
    have ha := a.toNat_lt
    have hfirst : UInt8.ofNat (a.toNat / 4 * 4 + a.toNat % 4 * 16 / 16) = a :=
      eq_of_toNat (by omega)
    rw [ofValues, if_pos (by omega), hfirst]
  | case3 a b =>
    have ha := a.toNat_lt
    have hb := b.toNat_lt
    have hfirst : UInt8.ofNat (a.toNat / 4 * 4 + (a.toNat % 4 * 16 + b.toNat / 16) / 16) = a :=
      eq_of_toNat (by omega)
    have hsecond : UInt8.ofNat
        ((a.toNat % 4 * 16 + b.toNat / 16) % 16 * 16 + b.toNat % 16 * 4 / 4) = b :=
      eq_of_toNat (by omega)
    rw [ofValues, if_pos (by omega), hfirst, hsecond]
  | case4 a b c r ih =>
    have ha := a.toNat_lt
    have hb := b.toNat_lt
    have hc := c.toNat_lt
    have hfirst : UInt8.ofNat (a.toNat / 4 * 4 + (a.toNat % 4 * 16 + b.toNat / 16) / 16) = a :=
      eq_of_toNat (by omega)
    have hsecond : UInt8.ofNat ((a.toNat % 4 * 16 + b.toNat / 16) % 16 * 16
        + (b.toNat % 16 * 4 + c.toNat / 64) / 4) = b :=
      eq_of_toNat (by omega)
    have hthird : UInt8.ofNat ((b.toNat % 16 * 4 + c.toNat / 64) % 4 * 64 + c.toNat % 64) = c :=
      eq_of_toNat (by omega)
    rw [ofValues, ih, Option.map_some, hfirst, hsecond, hthird]

theorem mapM_digitValue? {ns : List Nat} (h : ∀ n ∈ ns, n < 64) :
    (ns.map digit).mapM digitValue? = some ns := by
  induction ns with
  | nil => rfl
  | cons n ns ih =>
    obtain ⟨hn, hns⟩ := List.forall_mem_cons.mp h
    simp [List.mapM_cons, (digit_spec n hn).1, ih hns]

/-- Every byte string is read back from its digits. -/
theorem decode?_digits (b : Bytes) : decode? (digits b) = some b := by
  rw [decode?, digits_eq_map, mapM_digitValue? (values_lt b), Option.bind_some, ofValues_values]

/-- The digits are visible characters. -/
theorem digits_visible (b : Bytes) : ∀ x ∈ digits b, 0x20 < x ∧ x < 0x7f ∧ x ≠ 0x2e := by
  intro x hx
  rw [digits_eq_map] at hx
  obtain ⟨n, hn, rfl⟩ := List.mem_map.mp hx
  exact (digit_spec n (values_lt b n hn)).2

/-- The letters, the figures, the hyphen and the underscore, by their values. -/
def alphabet : Bytes :=
  Bytes.ofText "ABCDEFGHIJKLMNOPQRSTUVWXYZabcdefghijklmnopqrstuvwxyz0123456789-_"

theorem digit_mem_alphabet : ∀ n < 64, digit n ∈ alphabet := by decide

theorem digits_alphabet (b : Bytes) : ∀ x ∈ digits b, x ∈ alphabet := by
  intro x hx
  rw [digits_eq_map] at hx
  obtain ⟨n, hn, rfl⟩ := List.mem_map.mp hx
  exact digit_mem_alphabet n (values_lt b n hn)

/-- Six bits a digit, and none to fill up. -/
theorem length_digits (b : Bytes) : (digits b).length = (8 * b.length + 5) / 6 := by
  fun_induction digits b with
  | case1 => rfl
  | case2 a => simp
  | case3 a b => simp
  | case4 a b c r ih =>
    simp only [List.length_cons, ih]
    omega

/-! No other text is read. -/

set_option maxRecDepth 2048 in
theorem digitValue?_spec : ∀ m < 256, ∀ n ∈ digitValue? (UInt8.ofNat m),
    UInt8.ofNat m = digit n ∧ n < 64 := by
  decide

theorem eq_digit_of_digitValue? {x : UInt8} {n : Nat} (h : digitValue? x = some n) :
    x = digit n ∧ n < 64 := by
  have hspec := digitValue?_spec x.toNat x.toNat_lt n
  rw [UInt8.ofNat_toNat] at hspec
  exact hspec h

theorem eq_map_digit_of_mapM {s : Bytes} {ns : List Nat} (h : s.mapM digitValue? = some ns) :
    s = ns.map digit ∧ ∀ n ∈ ns, n < 64 := by
  induction s generalizing ns with
  | nil =>
    cases h
    exact ⟨rfl, fun _ hn => absurd hn List.not_mem_nil⟩
  | cons x s ih =>
    simp only [List.mapM_cons, Option.bind_eq_bind, Option.bind_eq_some_iff] at h
    obtain ⟨n, hn, ms, hms, heq⟩ := h
    cases heq
    obtain ⟨hx, hlt⟩ := eq_digit_of_digitValue? hn
    obtain ⟨hs, hall⟩ := ih hms
    exact ⟨by rw [hx, hs, List.map_cons], List.forall_mem_cons.mpr ⟨hlt, hall⟩⟩

/-- The values that stand for a byte string are the values of its digits. -/
theorem eq_values_of_ofValues {ns : List Nat} {b : Bytes} (hns : ∀ n ∈ ns, n < 64)
    (h : ofValues ns = some b) : ns = values b := by
  fun_induction ofValues ns generalizing b with
  | case1 => cases h; rfl
  | case2 => cases h
  | case3 a c hc =>
    cases h
    simp only [List.forall_mem_cons] at hns
    simp only [values, UInt8.toNat_ofNat', List.cons.injEq, and_true]
    omega
  | case4 => cases h
  | case5 a c e he =>
    cases h
    simp only [List.forall_mem_cons] at hns
    simp only [values, UInt8.toNat_ofNat', List.cons.injEq, and_true]
    omega
  | case6 => cases h
  | case7 a c e f r ih =>
    obtain ⟨rest, hrest, rfl⟩ := Option.map_eq_some_iff.mp h
    simp only [List.forall_mem_cons] at hns
    rw [values, ← ih hns.2.2.2.2 hrest]
    simp only [UInt8.toNat_ofNat', List.cons.injEq, and_true]
    omega

/-- Every byte string has one text that is read as it. -/
theorem decode?_eq_some_iff {s b : Bytes} : decode? s = some b ↔ s = digits b := by
  constructor
  · intro h
    obtain ⟨ns, hns, hvalues⟩ := Option.bind_eq_some_iff.mp h
    obtain ⟨rfl, hlt⟩ := eq_map_digit_of_mapM hns
    rw [digits_eq_map, eq_values_of_ofValues hlt hvalues]
  · rintro rfl
    exact decode?_digits b

theorem digits_injective {a b : Bytes} (h : digits a = digits b) : a = b := by
  have hdecode := decode?_digits a
  rw [h, decode?_digits] at hdecode
  exact (Option.some.inj hdecode).symm

theorem decodeText?_eq_some_iff {s : String} {b : Bytes} :
    decodeText? s = some b ↔ s = encode b := by
  have hascii : ∀ x ∈ digits b, x < 0x80 := fun x hx =>
    UInt8.lt_trans (digits_visible b x hx).2.1 (by decide)
  rw [decodeText?, decode?_eq_some_iff, encode]
  constructor
  · intro h
    apply Bytes.ofText_inj
    rw [h, Bytes.ofText_asciiText hascii]
  · rintro rfl
    exact Bytes.ofText_asciiText hascii

end Credentials.Base64Url
