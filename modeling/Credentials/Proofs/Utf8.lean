import Credentials.Proofs.Text

/-!
# Byte strings that hold a text

A byte string holds a text if it is made of the UTF-8 forms of characters. These forms cannot be
taken apart in another way, so a byte string that holds a text does so in front of any character in
it and behind it, in particular at every byte below 128.
-/

namespace Credentials.Bytes

/-- Well-formed UTF-8. -/
def IsText (b : Bytes) : Prop := ∃ s, ofText s = b

variable {a b x y : Bytes} {c : Char}

theorem isText_iff : IsText b ↔ ∃ cs : List Char, cs.flatMap String.utf8EncodeChar = b := by
  constructor
  · rintro ⟨s, rfl⟩
    refine ⟨s.toList, ?_⟩
    rw [← ofText_ofList, String.ofList_toList]
  · rintro ⟨cs, rfl⟩
    exact ⟨String.ofList cs, ofText_ofList cs⟩

theorem text?_isSome_iff : (text? b).isSome = true ↔ IsText b := by
  constructor
  · intro h
    obtain ⟨s, hs⟩ := Option.isSome_iff_exists.mp h
    exact ⟨s, ofText_of_text? hs⟩
  · rintro ⟨s, rfl⟩
    rw [text?_ofText]
    rfl

theorem isText_nil : IsText [] := ⟨"", rfl⟩

theorem isText_append (ha : IsText a) (hb : IsText b) : IsText (a ++ b) := by
  obtain ⟨cs, rfl⟩ := isText_iff.mp ha
  obtain ⟨ds, rfl⟩ := isText_iff.mp hb
  exact isText_iff.mpr ⟨cs ++ ds, List.flatMap_append⟩

theorem isText_char (c : Char) : IsText (String.utf8EncodeChar c) :=
  isText_iff.mpr ⟨[c], List.append_nil _⟩

/-! Cutting at a character. -/

/-- The form of a character starts with a byte that stands in front only. -/
theorem head_utf8 (c : Char) :
    ∃ b t, String.utf8EncodeChar c = b :: t ∧ b.IsUTF8FirstByte ∧ ∀ x ∈ t, ¬ x.IsUTF8FirstByte := by
  have hfirst (i : Nat) (hi : i < (String.utf8EncodeChar c).length) :
      (String.utf8EncodeChar c)[i].IsUTF8FirstByte ↔ i = 0 :=
    UInt8.isUTF8FirstByte_getElem_utf8EncodeChar
  cases hform : String.utf8EncodeChar c with
  | nil => exact absurd hform String.utf8EncodeChar_ne_nil
  | cons b t =>
    simp only [hform] at hfirst
    refine ⟨b, t, rfl, ?_, fun x hx hfront => ?_⟩
    · exact (hfirst 0 (Nat.succ_pos _)).mpr rfl
    · obtain ⟨i, hi, rfl⟩ := List.getElem_of_mem hx
      exact Nat.succ_ne_zero i ((hfirst (i + 1) (Nat.succ_lt_succ hi)).mp hfront)

theorem isText_of_char_append (h : IsText (String.utf8EncodeChar c ++ y)) : IsText y := by
  obtain ⟨cs, hcs⟩ := isText_iff.mp h
  have hform : [c].utf8Encode ++ y.toByteArray = cs.utf8Encode := by
    apply ByteArray.ext
    simp [List.utf8Encode, hcs]
  obtain ⟨ds, rfl⟩ := List.isPrefix_of_utf8Encode_append_eq_utf8Encode _ hform
  rw [List.singleton_append, List.flatMap_cons] at hcs
  exact isText_iff.mpr ⟨ds, List.append_cancel_left hcs⟩

theorem isText_append_char_iff :
    IsText (x ++ (String.utf8EncodeChar c ++ y)) ↔ IsText x ∧ IsText y := by
  refine ⟨fun h => ?_, fun h => isText_append h.1 (isText_append (isText_char c) h.2)⟩
  obtain ⟨cs, hcs⟩ := isText_iff.mp h
  clear h
  induction cs generalizing x with
  | nil => simp [String.utf8EncodeChar_ne_nil] at hcs
  | cons d cs ih =>
    rw [List.flatMap_cons] at hcs
    rcases List.append_eq_append_iff.mp hcs with ⟨t, rfl, htail⟩ | ⟨t, hd, htail⟩
    · -- the first character ends in front of `c`
      obtain ⟨ht, hy⟩ := ih htail
      exact ⟨isText_append (isText_char d) ht, hy⟩
    · -- otherwise nothing of it stands in front of `c`, which starts with a first byte
      have hrest : IsText (String.utf8EncodeChar c ++ y) → IsText y := isText_of_char_append
      obtain ⟨b, u, hform, _, hinner⟩ := head_utf8 d
      cases x with
      | nil =>
        refine ⟨isText_nil, hrest (isText_iff.mpr ⟨d :: cs, ?_⟩)⟩
        rw [List.flatMap_cons, hcs, List.nil_append]
      | cons b' x =>
        cases t with
        | nil =>
          rw [List.append_nil] at hd
          exact ⟨hd ▸ isText_char d, hrest (isText_iff.mpr ⟨cs, htail.symm⟩)⟩
        | cons e t =>
          obtain ⟨e', v, hc, hfirst, _⟩ := head_utf8 c
          rw [hc, List.cons_append, List.cons_append] at htail
          obtain rfl := (List.cons.inj htail).1
          rw [hform, List.cons_append] at hd
          have hmem : e' ∈ u := (List.cons.inj hd).2 ▸ List.mem_append_right x List.mem_cons_self
          exact absurd hfirst (hinner e' hmem)

/-! Bytes below 128. -/

theorem isText_append_cons_iff {b : UInt8} (hb : b < 0x80) :
    IsText (x ++ b :: y) ↔ IsText x ∧ IsText y := by
  have hform : String.utf8EncodeChar (Char.ofNat b.toNat) = [b] := by
    rw [utf8_ascii b.toNat hb, UInt8.ofNat_toNat]
  rw [← isText_append_char_iff (c := Char.ofNat b.toNat), hform, List.singleton_append]

theorem isText_cons_iff {b : UInt8} (hb : b < 0x80) : IsText (b :: y) ↔ IsText y := by
  have h := isText_append_cons_iff (x := []) (y := y) hb
  rwa [List.nil_append, and_iff_right isText_nil] at h

theorem isText_ascii_append_iff (ha : ∀ b ∈ a, b < 0x80) : IsText (a ++ y) ↔ IsText y := by
  induction a with
  | nil => rfl
  | cons b a ih =>
    obtain ⟨hb, ha⟩ := List.forall_mem_cons.mp ha
    rw [List.cons_append, isText_cons_iff hb, ih ha]

theorem isText_of_ascii (ha : ∀ b ∈ a, b < 0x80) : IsText a := by
  rw [← List.append_nil a, isText_ascii_append_iff ha]
  exact isText_nil

theorem isText_append_ascii_iff (ha : ∀ b ∈ a, b < 0x80) : IsText (x ++ a) ↔ IsText x := by
  cases a with
  | nil => rw [List.append_nil]
  | cons b a =>
    obtain ⟨hb, ha⟩ := List.forall_mem_cons.mp ha
    rw [isText_append_cons_iff hb, and_iff_left (isText_of_ascii ha)]

theorem isText_between_iff {b c : UInt8} (hb : b < 0x80) (hc : c < 0x80) :
    IsText (b :: (x ++ [c])) ↔ IsText x := by
  rw [isText_cons_iff hb, isText_append_ascii_iff (List.forall_mem_singleton.mpr hc)]

theorem isText_append_ascii_append_iff (ha : ∀ b ∈ a, b < 0x80) (hne : a ≠ []) :
    IsText (x ++ (a ++ y)) ↔ IsText x ∧ IsText y := by
  cases a with
  | nil => exact absurd rfl hne
  | cons b a =>
    obtain ⟨hb, ha⟩ := List.forall_mem_cons.mp ha
    rw [List.cons_append, isText_append_cons_iff hb, isText_ascii_append_iff ha]

end Credentials.Bytes
