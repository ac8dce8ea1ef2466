import Credentials.Proofs.Json.Reading
import Credentials.Proofs.Text

/-!
# Documents and the trees in which they are written

The pieces of a text give the text back, so a document can be recovered from the tree in which it is
written, and from its compact text: printing loses nothing as long as numbers are number literals.
-/

namespace Credentials.Json

/-! Texts in pieces. -/

/-- The letter for a byte is read back as the byte. -/
theorem shortEscape?_of_shortLetter? {b e : UInt8} (h : shortLetter? b = some e) :
    shortEscape? e = some b := by
  unfold shortLetter? at h
  repeat' split at h
  all_goals cases h
  all_goals next hb => subst hb; rfl

theorem spellable_pieceOf (b : UInt8) : (pieceOf b).Spellable := by
  unfold pieceOf
  split
  · next e h =>
    show shortEscape? ((shortLetter? b).getD b) = some b
    rw [h]
    exact shortEscape?_of_shortLetter? h
  · next h =>
    split
    · have hlt : b.toNat < 256 := b.toNat_lt
      show b.toNat < 0x10000
      omega
    · next hb =>
      refine ⟨UInt8.not_lt.mp hb, ?_, ?_⟩
      · rintro rfl
        cases h
      · rintro rfl
        cases h

theorem spellable_piecesOf (s : String) : ∀ p ∈ piecesOf s, p.Spellable := by
  intro p hp
  obtain ⟨b, _, rfl⟩ := List.mem_map.mp hp
  exact spellable_pieceOf b

theorem isHighSurrogate_iff {u : Nat} : isHighSurrogate u = true ↔ 0xd800 ≤ u ∧ u < 0xdc00 := by
  simp [isHighSurrogate]

theorem isLowSurrogate_iff {u : Nat} : isLowSurrogate u = true ↔ 0xdc00 ≤ u ∧ u < 0xe000 := by
  simp [isLowSurrogate]

/-- A unit that is no surrogate stands for its character, whatever follows it. -/
theorem bytesOf_code {u : Nat} (hu : u < 0xd800 ∨ 0xe000 ≤ u) (ps : List Piece) :
    bytesOf (.code u :: ps) = (bytesOf ps).map (String.utf8EncodeChar (Char.ofNat u) ++ ·) := by
  have hhigh : isHighSurrogate u = false := by
    rw [← Bool.not_eq_true, isHighSurrogate_iff]
    omega
  have hlow : isLowSurrogate u = false := by
    rw [← Bool.not_eq_true, isLowSurrogate_iff]
    omega
  cases ps with
  | nil => simp [bytesOf, hhigh, hlow]
  | cons p ps => cases p <;> simp [bytesOf, hhigh, hlow]

theorem bytesOf_pieceOf (b : UInt8) (ps : List Piece) :
    bytesOf (pieceOf b :: ps) = (bytesOf ps).map (b :: ·) := by
  unfold pieceOf
  split
  · rfl
  · split
    · next hb =>
      have hlt : b.toNat < 0x20 := hb
      rw [bytesOf_code (by omega), Bytes.utf8_ascii _ (by omega)]
      simp
    · rfl

theorem bytesOf_map_pieceOf (bs : Bytes) : bytesOf (bs.map pieceOf) = some bs := by
  induction bs with
  | nil => rfl
  | cons b bs ih => rw [List.map_cons, bytesOf_pieceOf, ih]; rfl

theorem bytesOf_piecesOf (s : String) : bytesOf (piecesOf s) = some (Bytes.ofText s) :=
  bytesOf_map_pieceOf _

/-- The pieces of a text stand for the text. -/
theorem textOf?_piecesOf (s : String) : textOf? (piecesOf s) = some s := by
  rw [textOf?, bytesOf_piecesOf]
  exact Bytes.text?_ofText s

/-! Documents. -/

/-- Induction on documents, with the hypothesis at every item and at the value of every member. -/
@[elab_as_elim]
theorem induction {motive : Json → Prop} (null : motive .null) (bool : ∀ b, motive (.bool b))
    (number : ∀ l, motive (.number l)) (string : ∀ s, motive (.string s))
    (array : ∀ items, (∀ v ∈ items, motive v) → motive (.array items))
    (object : ∀ ms : Members, (∀ m ∈ ms, motive m.2) → motive (.object ms)) (v : Json) :
    motive v := by
  match v with
  | .null => exact null
  | .bool b => exact bool b
  | .number l => exact number l
  | .string s => exact string s
  | .array items =>
    exact array items fun v _ => induction null bool number string array object v
  | .object ms =>
    refine object ms fun m hm => ?_
    have hsize := List.sizeOf_lt_of_mem hm
    exact induction null bool number string array object m.2
termination_by sizeOf v
decreasing_by
  · have hsize := List.sizeOf_lt_of_mem ‹v ∈ items›
    rw [Json.array.sizeOf_spec]
    omega
  · obtain ⟨n, v⟩ := m
    rw [Prod.mk.sizeOf_spec] at hsize
    rw [Json.object.sizeOf_spec]
    show sizeOf v < _
    omega

theorem writtenItems_eq (vs : List Json) : writtenItems vs = vs.map written := by
  induction vs with
  | nil => rfl
  | cons v vs ih => rw [writtenItems, ih, List.map_cons]

theorem writtenMembers_eq (ms : Members) :
    writtenMembers ms = ms.map fun m => (piecesOf m.1, m.2.written) := by
  induction ms with
  | nil => rfl
  | cons m ms ih => rw [writtenMembers, ih, List.map_cons]

/-- A document whose numbers are number literals other than minus zero, as reading gives them. -/
inductive Lexical : Json → Prop where
  | null : Lexical .null
  | bool (b : Bool) : Lexical (.bool b)
  | number {l : Bytes} : IsNumber l → l ≠ [0x2d, 0x30] → Lexical (.number l)
  | string (s : String) : Lexical (.string s)
  | array {items : List Json} : (∀ v ∈ items, Lexical v) → Lexical (.array items)
  | object {ms : Members} : (∀ m ∈ ms, Lexical m.2) → Lexical (.object ms)

/-- A document whose numbers are number literals. -/
inductive Literal : Json → Prop where
  | null : Literal .null
  | bool (b : Bool) : Literal (.bool b)
  | number {l : Bytes} : IsNumber l → Literal (.number l)
  | string (s : String) : Literal (.string s)
  | array {items : List Json} : (∀ v ∈ items, Literal v) → Literal (.array items)
  | object {ms : Members} : (∀ m ∈ ms, Literal m.2) → Literal (.object ms)

theorem Lexical.literal {v : Json} (hv : v.Lexical) : v.Literal := by
  induction hv with
  | null => exact .null
  | bool b => exact .bool b
  | number hl _ => exact .number hl
  | string s => exact .string s
  | array _ ih => exact .array ih
  | object _ ih => exact .object ih

theorem lexical_written {v : Json} (hv : v.Literal) : v.written.Lexical := by
  induction hv with
  | null => exact .null
  | bool b => exact .bool b
  | number hl => exact .number hl
  | string s => exact .string (spellable_piecesOf s)
  | array _ ih =>
    rw [written, writtenItems_eq]
    refine .array fun w hw => ?_
    obtain ⟨v, hv, rfl⟩ := List.mem_map.mp hw
    exact ih v hv
  | object _ ih =>
    rw [written, writtenMembers_eq]
    refine .object (fun w hw => ?_) fun w hw => ?_
    · obtain ⟨m, _, rfl⟩ := List.mem_map.mp hw
      exact spellable_piecesOf m.1
    · obtain ⟨m, hm, rfl⟩ := List.mem_map.mp hw
      exact ih m hm

mutual
/-- The document that is written in a tree, without any regard to names. -/
def unwritten : Written → Json
  | .null => .null
  | .bool b => .bool b
  | .number l => .number l
  | .string ps => .string ((textOf? ps).getD "")
  | .array items => .array (unwrittenItems items)
  | .object ms => .object (unwrittenMembers ms)

def unwrittenItems : List Written → List Json
  | [] => []
  | w :: r => unwritten w :: unwrittenItems r

def unwrittenMembers : List (List Piece × Written) → Members
  | [] => []
  | (n, w) :: r => ((textOf? n).getD "", unwritten w) :: unwrittenMembers r
end

mutual
theorem unwritten_written (v : Json) : unwritten v.written = v := by
  match v with
  | .null => rfl
  | .bool _ => rfl
  | .number _ => rfl
  | .string s => simp only [written, unwritten, textOf?_piecesOf, Option.getD_some]
  | .array items => simp only [written, unwritten, unwritten_writtenItems items]
  | .object ms => simp only [written, unwritten, unwritten_writtenMembers ms]

theorem unwritten_writtenItems (vs : List Json) : unwrittenItems (writtenItems vs) = vs := by
  match vs with
  | [] => rfl
  | v :: r =>
    simp only [writtenItems, unwrittenItems, unwritten_written v, unwritten_writtenItems r]

theorem unwritten_writtenMembers (ms : Members) :
    unwrittenMembers (writtenMembers ms) = ms := by
  match ms with
  | [] => rfl
  | (n, v) :: r =>
    simp only [writtenMembers, unwrittenMembers, textOf?_piecesOf, Option.getD_some,
      unwritten_written v, unwritten_writtenMembers r]
end

/-- Documents with one compact text are one document. -/
theorem print_inj {v w : Json} (hv : v.Literal) (hw : w.Literal) (h : v.print = w.print) :
    v = w := by
  have htree := print_written_inj (lexical_written hv) (lexical_written hw) h
  rw [← unwritten_written v, htree, unwritten_written w]

end Credentials.Json
