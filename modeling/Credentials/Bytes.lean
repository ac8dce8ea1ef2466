/-!
# Byte strings

Byte strings are lists, so that programs over them are recursions on the data. A text is held by
exactly one byte string, its UTF-8 form, and a byte string holds at most one text.
-/

namespace Credentials

abbrev Bytes := List UInt8

namespace Bytes

def ofText (s : String) : Bytes := s.toByteArray.data.toList

/-- The text held in UTF-8, if the bytes are well formed. -/
def text? (b : Bytes) : Option String := String.fromUTF8? b.toByteArray

/-- The text whose characters have the bytes as their numbers. -/
def asciiText (b : Bytes) : String := String.ofList (b.map fun x => Char.ofNat x.toNat)

/-- The byte with the letters `A` to `Z` made small. -/
def small (b : UInt8) : UInt8 := if 0x41 ≤ b ∧ b ≤ 0x5a then b + 0x20 else b

/-- The pieces of a byte string between the places where a separator stands. -/
def pieces (separator : UInt8) : Bytes → List Bytes
  | [] => [[]]
  | b :: r =>
    match b == separator, pieces separator r with
    | true, ps => [] :: ps
    | false, p :: ps => (b :: p) :: ps
    | false, [] => [[b]]

theorem toByteArray_ofText (s : String) : (ofText s).toByteArray = s.toByteArray := by
  apply ByteArray.ext
  simp [ofText]

theorem text?_ofText (s : String) : text? (ofText s) = some s := by
  simp [text?, toByteArray_ofText, String.fromUTF8?, s.isValidUTF8, String.fromUTF8]

theorem ofText_of_text? {b : Bytes} {s : String} (h : text? b = some s) : ofText s = b := by
  unfold text? String.fromUTF8? at h
  split at h
  · cases h
    simp [ofText, String.fromUTF8]
  · cases h

theorem ofText_inj {s t : String} (h : ofText s = ofText t) : s = t := by
  have hs := text?_ofText s
  rw [h, text?_ofText t] at hs
  exact (Option.some.inj hs).symm

end Bytes

/-- Names are ordered by their UTF-8 bytes. -/
def nameBefore (a b : String) : Prop := Bytes.ofText a < Bytes.ofText b

instance (a b : String) : Decidable (nameBefore a b) :=
  inferInstanceAs (Decidable (Bytes.ofText a < Bytes.ofText b))

end Credentials
