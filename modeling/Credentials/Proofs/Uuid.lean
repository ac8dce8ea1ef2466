import Credentials.Proofs.Text
import Mathlib.Algebra.Ring.Nat

/-!
# Reading back identifiers

The text of an identifier has hyphens in four places; taking them out leaves its digits, and these
are read back as its bytes.
-/

namespace Credentials

theorem Hex.digit_ascii : ∀ n < 16, Hex.digit n < 0x80 := by
  decide

theorem Hex.digits_cons (x : UInt8) (b : Bytes) : Hex.digits (x :: b)
    = Hex.digit (x.toNat / 16) :: Hex.digit (x.toNat % 16) :: Hex.digits b := rfl

namespace Uuid

theorem nibbles_lt (x : UInt8) : x.toNat / 16 < 16 ∧ x.toNat % 16 < 16 := by
  have hx := x.toNat_lt
  omega

theorem length_digits (b : Bytes) : (Hex.digits b).length = 2 * b.length := by
  induction b with
  | nil => rfl
  | cons x b ih =>
    rw [Hex.digits_cons, List.length_cons, List.length_cons, ih, List.length_cons]
    omega

theorem ofDigitPairs_digits (b : Bytes) : ofDigitPairs (Hex.digits b) = some b := by
  induction b with
  | nil => rfl
  | cons x b ih =>
    obtain ⟨hhigh, hlow⟩ := nibbles_lt x
    have hx : UInt8.ofNat (16 * (x.toNat / 16) + x.toNat % 16) = x := by
      rw [Nat.div_add_mod, UInt8.ofNat_toNat]
    rw [Hex.digits_cons, ofDigitPairs, Hex.digitValue?_digit hhigh, Hex.digitValue?_digit hlow, ih]
    simp only [hx]

theorem length_grouped (ns : List Nat) (ds : Bytes) :
    (grouped ns ds).length = ds.length + ns.length := by
  induction ns generalizing ds with
  | nil => rfl
  | cons n ns ih =>
    rw [grouped, List.length_append, List.length_cons, ih, List.length_take, List.length_drop,
      List.length_cons]
    omega

/-- Taking the hyphens out gives the digits back. -/
theorem ungrouped_grouped {ns : List Nat} {ds : Bytes} (h : ns.sum ≤ ds.length) :
    ungrouped ns (grouped ns ds) = some ds := by
  induction ns generalizing ds with
  | nil => rfl
  | cons n ns ih =>
    rw [List.sum_cons] at h
    have htake : (ds.take n).length = n := List.length_take_of_le (by omega)
    have hrest : ungrouped ns (grouped ns (ds.drop n)) = some (ds.drop n) :=
      ih (by rw [List.length_drop]; omega)
    rw [grouped, ungrouped, List.drop_left' htake, List.take_left' htake]
    simp only [hrest, Option.map_some, List.take_append_drop]

theorem textBytes_ascii (u : Uuid) : ∀ x ∈ u.textBytes, x < 0x80 := by
  have hdigits : ∀ x ∈ Hex.digits u.bytes, x < 0x80 := by
    intro x hx
    obtain ⟨y, _, hy⟩ := List.mem_flatMap.mp hx
    obtain ⟨hhigh, hlow⟩ := nibbles_lt y
    rcases List.mem_cons.mp hy with rfl | hy
    · exact Hex.digit_ascii _ hhigh
    · obtain rfl := List.mem_singleton.mp hy
      exact Hex.digit_ascii _ hlow
  have hgrouped (ns : List Nat) : ∀ ds : Bytes, (∀ x ∈ ds, x < 0x80) →
      ∀ x ∈ grouped ns ds, x < 0x80 := by
    induction ns with
    | nil => exact fun ds h => h
    | cons n ns ih =>
      intro ds h x hx
      rcases List.mem_append.mp hx with hx | hx
      · exact h x (List.mem_of_mem_take hx)
      · rcases List.mem_cons.mp hx with rfl | hx
        · decide
        · exact ih _ (fun y hy => h y (List.mem_of_mem_drop hy)) x hx
  exact hgrouped _ _ hdigits

/-- Every identifier is read back from its text. -/
theorem ofText?_text (u : Uuid) : ofText? u.text = some u := by
  have hdigits : (Hex.digits u.bytes).length = 32 := by
    rw [length_digits, u.length_eq]
  have hlength : u.textBytes.length = 36 := by
    rw [textBytes, length_grouped, hdigits]
    rfl
  have hungrouped : ungrouped [8, 4, 4, 4] u.textBytes = some (Hex.digits u.bytes) :=
    ungrouped_grouped (by rw [hdigits]; decide)
  rw [ofText?, text, Bytes.ofText_asciiText (textBytes_ascii u), ofTextBytes?, hlength,
    if_neg (by decide), if_pos rfl, ofHyphenated?, hungrouped, Option.bind_some, ofDigits?,
    ofDigitPairs_digits, Option.bind_some, ofBytes?, dif_pos u.length_eq]

end Uuid

theorem CredentialId.parse_text (c : CredentialId) : CredentialId.parse c.text = .ok c := by
  rw [parse, text, Uuid.ofText?_text]

end Credentials
