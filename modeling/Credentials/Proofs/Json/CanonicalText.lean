import Credentials.Json.Canonical
import Credentials.Proofs.Json.Resolving

/-!
# The layout of canonical texts

In a canonical text the names of each object ascend, no blank stands outside the strings, and in a
string nothing is escaped but the quote, the backslash and the bytes below the blank.
-/

namespace Credentials.Json

open Written

/-! Outside the strings. -/

mutual
/-- The bytes of a text that stand outside its strings. -/
def outsideStrings : Bytes → Bytes
  | [] => []
  | 0x22 :: r => insideString r
  | b :: r => b :: outsideStrings r

/-- The same behind an open quote. -/
def insideString : Bytes → Bytes
  | [] => []
  | 0x22 :: r => outsideStrings r
  | 0x5c :: _ :: r => insideString r
  | _ :: r => insideString r
end

/-- A text without blanks outside its strings. -/
def Unblank (s : Bytes) : Prop := ∀ b ∈ outsideStrings s, isBlank b = false

theorem outsideStrings_cons {b : UInt8} (hb : b ≠ 0x22) (r : Bytes) :
    outsideStrings (b :: r) = b :: outsideStrings r := by
  rw [outsideStrings]
  exact hb

theorem insideString_cons {b : UInt8} (hquote : b ≠ 0x22) (hslash : b ≠ 0x5c) (r : Bytes) :
    insideString (b :: r) = insideString r := by
  rw [insideString]
  · exact hquote
  · exact fun _ _ h _ => hslash h

theorem insideString_escaped (e : UInt8) (r : Bytes) :
    insideString (0x5c :: e :: r) = insideString r := rfl

theorem insideString_append {a : Bytes} (ha : ∀ b ∈ a, b ≠ 0x22 ∧ b ≠ 0x5c) (r : Bytes) :
    insideString (a ++ r) = insideString r := by
  induction a with
  | nil => rfl
  | cons b a ih =>
    obtain ⟨hb, ha⟩ := List.forall_mem_cons.mp ha
    rw [List.cons_append, insideString_cons hb.1 hb.2, ih ha]

theorem digit_ne_quote {b : UInt8} {n : Nat} (h : Hex.digitValue? b = some n) :
    b ≠ 0x22 ∧ b ≠ 0x5c := by
  constructor <;> rintro rfl <;> cases h

theorem insideString_pieceText {p : Piece} {s : Bytes} (h : PieceText p s) (r : Bytes) :
    insideString (s ++ r) = insideString r := by
  cases h with
  | plain _ hquote hslash => exact insideString_cons hquote hslash r
  | short he => exact insideString_escaped _ r
  | @code a b c d u hu =>
    have hdigits : ∀ x ∈ [a, b, c, d], x ≠ 0x22 ∧ x ≠ 0x5c := by
      intro x hx
      obtain ⟨n, hn⟩ := digits_of_unit? hu x hx
      exact digit_ne_quote hn
    exact insideString_append hdigits r

/-- Strings leave no trace. -/
theorem outsideStrings_stringText {ps : List Piece} {s : Bytes} (h : StringText ps s) (r : Bytes) :
    outsideStrings (s ++ r) = outsideStrings r := by
  obtain ⟨hps⟩ := h
  rw [List.cons_append, List.append_assoc, outsideStrings]
  induction hps with
  | nil => rfl
  | cons hp _ ih => rw [List.append_assoc, insideString_pieceText hp, ih]

theorem unblank_nil : Unblank [] := nofun

theorem unblank_append {a r : Bytes} (ha : ∀ b ∈ a, b ≠ 0x22 ∧ isBlank b = false)
    (hr : Unblank r) : Unblank (a ++ r) := by
  induction a with
  | nil => exact hr
  | cons b a ih =>
    obtain ⟨hb, ha⟩ := List.forall_mem_cons.mp ha
    rw [Unblank, List.cons_append, outsideStrings_cons hb.1]
    exact List.forall_mem_cons.mpr ⟨hb.2, ih ha⟩

theorem unblank_cons {b : UInt8} {r : Bytes} (hb : b ≠ 0x22 ∧ isBlank b = false)
    (hr : Unblank r) : Unblank (b :: r) :=
  unblank_append (List.forall_mem_singleton.mpr hb) hr

theorem unblank_quoted {ps : List Piece} (h : ∀ p ∈ ps, p.Spellable) {r : Bytes}
    (hr : Unblank r) : Unblank (quoted ps ++ r) := by
  rw [Unblank, outsideStrings_stringText (stringText_quoted h)]
  exact hr

mutual
theorem unblank_print (w : Written) (hw : w.Lexical) {r : Bytes} (hr : Unblank r) :
    Unblank (w.print ++ r) := by
  match w, hw with
  | .null, _ => exact unblank_append (List.all_iff_forall_prop.mp rfl) hr
  | .bool true, _ => exact unblank_append (List.all_iff_forall_prop.mp rfl) hr
  | .bool false, _ => exact unblank_append (List.all_iff_forall_prop.mp rfl) hr
  | .number l, .number hl =>
    exact unblank_append (fun b hb => (numberByte_spec (numberByte_isNumber hl b hb)).2) hr
  | .string ps, .string hps => exact unblank_quoted hps hr
  | .array items, .array hitems =>
    rw [Written.print, List.cons_append, List.append_assoc]
    exact unblank_cons (by decide)
      (unblank_printItems items hitems (unblank_cons (by decide) hr))
  | .object ms, .object hnames hvalues =>
    rw [Written.print, List.cons_append, List.append_assoc]
    exact unblank_cons (by decide)
      (unblank_printMembers ms hnames hvalues (unblank_cons (by decide) hr))

theorem unblank_printItems (ws : List Written) (hws : ∀ w ∈ ws, w.Lexical) {r : Bytes}
    (hr : Unblank r) : Unblank (printItems ws ++ r) := by
  match ws, hws with
  | [], _ => exact hr
  | [w], hws => exact unblank_print w (hws w List.mem_cons_self) hr
  | w :: v :: ws, hws =>
    obtain ⟨hw, hrest⟩ := List.forall_mem_cons.mp hws
    rw [printItems, List.append_assoc]
    · exact unblank_print w hw
        (unblank_cons (by decide) (unblank_printItems (v :: ws) hrest hr))
    · exact List.cons_ne_nil v ws

theorem unblank_printMembers (ms : List (List Piece × Written))
    (hnames : ∀ m ∈ ms, ∀ p ∈ m.1, p.Spellable) (hvalues : ∀ m ∈ ms, m.2.Lexical) {r : Bytes}
    (hr : Unblank r) : Unblank (printMembers ms ++ r) := by
  match ms, hnames, hvalues with
  | [], _, _ => exact hr
  | [(n, w)], hnames, hvalues =>
    rw [printMembers, List.append_assoc]
    exact unblank_quoted (hnames (n, w) List.mem_cons_self)
      (unblank_cons (by decide) (unblank_print w (hvalues (n, w) List.mem_cons_self) hr))
  | (n, w) :: m :: ms, hnames, hvalues =>
    obtain ⟨hn, hnames⟩ := List.forall_mem_cons.mp hnames
    obtain ⟨hw, hvalues⟩ := List.forall_mem_cons.mp hvalues
    rw [printMembers, List.append_assoc, List.cons_append, List.append_assoc]
    · exact unblank_quoted hn (unblank_cons (by decide) (unblank_print w hw
        (unblank_cons (by decide) (unblank_printMembers (m :: ms) hnames hvalues hr))))
    · exact List.cons_ne_nil m ms
end

/-! Inside the strings. -/

/-- A piece that stands for itself unless it has to be escaped. -/
def Piece.Sparing : Piece → Prop
  | .plain _ => True
  | .short b => b = 0x22 ∨ b = 0x5c ∨ b < 0x20
  | .code u => u < 0x20

theorem sparing_pieceOf (b : UInt8) : (pieceOf b).Sparing := by
  unfold pieceOf
  split
  · next h =>
    show b = 0x22 ∨ b = 0x5c ∨ b < 0x20
    unfold shortLetter? at h
    repeat' split at h
    all_goals cases h
    all_goals next hb => subst hb; decide
  · split
    · next hb => exact hb
    · trivial

theorem sparing_piecesOf (s : String) : ∀ p ∈ piecesOf s, p.Sparing := by
  intro p hp
  obtain ⟨b, _, rfl⟩ := List.mem_map.mp hp
  exact sparing_pieceOf b

/-- A tree whose objects list their members in strictly ascending order of their names. -/
inductive Written.Sorted : Written → Prop where
  | null : Sorted .null
  | bool (b : Bool) : Sorted (.bool b)
  | number (l : Bytes) : Sorted (.number l)
  | string (ps : List Piece) : Sorted (.string ps)
  | array {ws : List Written} : (∀ w ∈ ws, Sorted w) → Sorted (.array ws)
  | object {ms : List (List Piece × Written)} {names : List String} :
      ms.map (fun m => textOf? m.1) = names.map some → names.Pairwise nameBefore →
      (∀ m ∈ ms, Sorted m.2) → Sorted (.object ms)

theorem sorted_written {v : Json} (hv : v.IsNormal) : v.written.Sorted := by
  induction hv with
  | null => exact .null
  | bool b => exact .bool b
  | number l => exact .number l
  | string s => exact .string _
  | array _ ih =>
    rw [written, writtenItems_eq]
    exact .array (List.forall_mem_map.mpr ih)
  | @object ms hms _ ih =>
    rw [written, writtenMembers_eq]
    have hnames : (ms.map fun m => (piecesOf m.1, m.2.written)).map (fun m => textOf? m.1)
        = (ms.map Prod.fst).map some := by
      rw [List.map_map, List.map_map]
      exact List.map_congr_left fun m _ => textOf?_piecesOf m.1
    exact .object hnames (List.pairwise_map.mpr hms) (List.forall_mem_map.mpr ih)

theorem strings_written {p : List Piece → Prop} (hp : ∀ s, p (piecesOf s)) (v : Json) :
    v.written.Strings p := by
  induction v using induction with
  | null => exact .null
  | bool b => exact .bool b
  | number l => exact .number l
  | string s => exact .string (hp s)
  | array items ih =>
    rw [written, writtenItems_eq]
    exact .array (List.forall_mem_map.mpr ih)
  | object ms ih =>
    rw [written, writtenMembers_eq]
    exact .object (List.forall_mem_map.mpr fun m _ => hp m.1) (List.forall_mem_map.mpr ih)

/-! Canonical texts. -/

/-- The layout of a canonical text. -/
structure CanonicalText (w : Written) (text : Bytes) : Prop where
  value : ValueText w text
  sorted : w.Sorted
  unblank : ∀ b ∈ outsideStrings text, isBlank b = false
  sparing : w.Strings fun ps => ∀ p ∈ ps, p.Sparing

theorem canonicalText_print {v : Json} (hnormal : v.IsNormal) (hlex : v.Lexical) :
    CanonicalText v.written v.print where
  value := valueText_print _ (lexical_written hlex.literal)
  sorted := sorted_written hnormal
  unblank := by
    have hunblank := unblank_print v.written (lexical_written hlex.literal) unblank_nil
    rwa [List.append_nil] at hunblank
  sparing := strings_written sparing_piecesOf v

theorem canonicalText_ofJson {v : Json} (hv : v.Lexical) :
    ∃ w, CanonicalText w (Canonical.ofJson v).bytes :=
  ⟨_, canonicalText_print (isNormal_normal v) (lexical_normal hv)⟩

end Credentials.Json
