import Credentials.Digest
import Credentials.Proofs.Uuid

/-!
# Hexadecimal texts

The digits of bytes are small already, so a digest is known from its hexadecimal text in either
case; and the text is read back as the bytes.
-/

namespace Credentials

namespace Hex

theorem small_digit : ∀ n < 16, Bytes.small (digit n) = digit n := by
  decide

theorem exists_digit_of_mem {b : Bytes} {x : UInt8} (h : x ∈ digits b) : ∃ n < 16, x = digit n := by
  obtain ⟨y, _, hy⟩ := List.mem_flatMap.mp h
  obtain ⟨hhigh, hlow⟩ := Uuid.nibbles_lt y
  rcases List.mem_cons.mp hy with rfl | hy
  · exact ⟨_, hhigh, rfl⟩
  · exact ⟨_, hlow, List.mem_singleton.mp hy⟩

theorem lowercase_encode (b : Bytes) : lowercase (encode b) = digits b := by
  have hascii : ∀ x ∈ digits b, x < 0x80 := by
    intro x hx
    obtain ⟨n, hn, rfl⟩ := exists_digit_of_mem hx
    exact digit_ascii n hn
  have hsmall : ∀ x ∈ digits b, Bytes.small x = x := by
    intro x hx
    obtain ⟨n, hn, rfl⟩ := exists_digit_of_mem hx
    exact small_digit n hn
  rw [lowercase, encode, Bytes.ofText_asciiText hascii, List.map_congr_left hsmall, List.map_id']

/-! Reading back. -/

theorem visible_digits {b : Bytes} : ∀ x ∈ digits b, 0x20 < x ∧ x < 0x7f := by
  have hdigit : ∀ n < 16, 0x20 < digit n ∧ digit n < 0x7f := by
    decide
  intro x hx
  obtain ⟨n, hn, rfl⟩ := exists_digit_of_mem hx
  exact hdigit n hn

theorem continues_digit : ∀ n < 16, continues (digit n) = false := by
  decide

theorem continues_head_digits (b : Bytes) : (digits b).head?.any continues = false := by
  cases b with
  | nil => rfl
  | cons x b =>
    rw [digits_cons, List.head?_cons, Option.any_some]
    exact continues_digit _ (Uuid.nibbles_lt x).1

theorem pair?_digits (x : UInt8) :
    pair? (digit (x.toNat / 16)) (digit (x.toNat % 16)) = some x := by
  have hplus : ∀ n < 16, digit n ≠ 0x2b := by
    decide
  obtain ⟨hhigh, hlow⟩ := Uuid.nibbles_lt x
  rw [pair?, if_neg (hplus _ hhigh), digitValue?_digit hhigh, digitValue?_digit hlow]
  simp only [Nat.div_add_mod, UInt8.ofNat_toNat]

theorem pairsFrom_digits (position : Nat) (b : Bytes) : pairsFrom position (digits b) = .ok b := by
  induction b generalizing position with
  | nil => rfl
  | cons x b ih =>
    obtain ⟨hhigh, hlow⟩ := Uuid.nibbles_lt x
    rw [digits_cons, pairsFrom, continues_digit _ hhigh, continues_head_digits, pair?_digits]
    simp only [Bool.or_false, Bool.false_eq_true, if_false, ih, Except.map]

theorem decode_encode (b : Bytes) : decode (encode b) = .ok b := by
  have hascii : ∀ x ∈ digits b, x < 0x80 := fun x hx =>
    UInt8.lt_trans (visible_digits x hx).2 (by decide)
  have heven : (digits b).length % 2 = 0 := by
    rw [Uuid.length_digits]
    omega
  rw [decode, encode, Text.trim_asciiText visible_digits, Bytes.ofText_asciiText hascii,
    if_pos heven, pairsFrom_digits]

theorem digits_injective {a b : Bytes} (h : digits a = digits b) : a = b := by
  have ha := Uuid.ofDigitPairs_digits a
  rw [h, Uuid.ofDigitPairs_digits b] at ha
  exact (Option.some.inj ha).symm

end Hex

/-- Canonical bytes with hashes that agree but for the case of letters have one SHA-256. -/
theorem Canonical.sha256_eq_of_hash {a b : Canonical}
    (h : Hex.lowercase a.hash = Hex.lowercase b.hash) : sha256 a.bytes = sha256 b.bytes := by
  rw [hash, hash, Digest.hex, Digest.hex, Hex.lowercase_encode, Hex.lowercase_encode] at h
  exact Hex.digits_injective h

end Credentials
