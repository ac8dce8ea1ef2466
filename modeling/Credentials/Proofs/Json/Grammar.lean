import Credentials.Json.Printer
import Credentials.Proofs.Json.Number

/-!
# The grammar of texts

Which texts a tree has, apart from the scanner and the machine that read them. White space may stand
around every value and every name; strings are made of bytes that stand for themselves, of the eight
short escapes, and of units in four hexadecimal digits.
-/

namespace Credentials.Json

def Blanks (s : Bytes) : Prop := ∀ b ∈ s, b = 0x20 ∨ b = 0x09 ∨ b = 0x0a ∨ b = 0x0d

/-- The letters of the short escapes and the bytes that they stand for. -/
def escapes : List (UInt8 × UInt8) :=
  [(0x22, 0x22), (0x5c, 0x5c), (0x2f, 0x2f), (0x62, 0x08), (0x66, 0x0c), (0x6e, 0x0a),
    (0x72, 0x0d), (0x74, 0x09)]

inductive PieceText : Piece → Bytes → Prop where
  | plain {b : UInt8} : 0x20 ≤ b → b ≠ 0x22 → b ≠ 0x5c → PieceText (.plain b) [b]
  | short {e b : UInt8} : (e, b) ∈ escapes → PieceText (.short b) [0x5c, e]
  | code {a b c d : UInt8} {u : Nat} : unit? a b c d = some u →
      PieceText (.code u) [0x5c, 0x75, a, b, c, d]

inductive PiecesText : List Piece → Bytes → Prop where
  | nil : PiecesText [] []
  | cons {p : Piece} {ps : List Piece} {s t : Bytes} : PieceText p s → PiecesText ps t →
      PiecesText (p :: ps) (s ++ t)

inductive StringText : List Piece → Bytes → Prop where
  | quoted {ps : List Piece} {s : Bytes} : PiecesText ps s → StringText ps (0x22 :: (s ++ [0x22]))

/-- A name of a member, with white space around it. -/
inductive NameText : List Piece → Bytes → Prop where
  | around {ps : List Piece} {a s b : Bytes} : Blanks a → StringText ps s → Blanks b →
      NameText ps (a ++ (s ++ b))

mutual
inductive ValueText : Written → Bytes → Prop where
  | null : ValueText .null [0x6e, 0x75, 0x6c, 0x6c]
  | true : ValueText (.bool true) [0x74, 0x72, 0x75, 0x65]
  | false : ValueText (.bool false) [0x66, 0x61, 0x6c, 0x73, 0x65]
  | number {l : Bytes} : IsNumber l → ValueText (.number l) l
  | string {ps : List Piece} {s : Bytes} : StringText ps s → ValueText (.string ps) s
  | array {ws : List Written} {s : Bytes} : ItemsText ws s →
      ValueText (.array ws) (0x5b :: (s ++ [0x5d]))
  | object {ms : List (List Piece × Written)} {s : Bytes} : MembersText ms s →
      ValueText (.object ms) (0x7b :: (s ++ [0x7d]))

/-- A value, with white space around it. -/
inductive ElementText : Written → Bytes → Prop where
  | around {w : Written} {a s b : Bytes} : Blanks a → ValueText w s → Blanks b →
      ElementText w (a ++ (s ++ b))

inductive ItemsText : List Written → Bytes → Prop where
  | none {a : Bytes} : Blanks a → ItemsText [] a
  | last {w : Written} {s : Bytes} : ElementText w s → ItemsText [w] s
  | next {w v : Written} {ws : List Written} {s t : Bytes} : ElementText w s →
      ItemsText (v :: ws) t → ItemsText (w :: v :: ws) (s ++ 0x2c :: t)

inductive MembersText : List (List Piece × Written) → Bytes → Prop where
  | none {a : Bytes} : Blanks a → MembersText [] a
  | last {n : List Piece} {w : Written} {s t : Bytes} : NameText n s → ElementText w t →
      MembersText [(n, w)] (s ++ 0x3a :: t)
  | next {n : List Piece} {w : Written} {m : List Piece × Written}
      {ms : List (List Piece × Written)} {s t u : Bytes} : NameText n s → ElementText w t →
      MembersText (m :: ms) u → MembersText ((n, w) :: m :: ms) (s ++ 0x3a :: (t ++ 0x2c :: u))
end

theorem isBlank_iff {b : UInt8} :
    isBlank b = true ↔ b = 0x20 ∨ b = 0x09 ∨ b = 0x0a ∨ b = 0x0d := by
  simp [isBlank, or_assoc]

theorem ascii_blanks {a : Bytes} (ha : Blanks a) : ∀ b ∈ a, b < 0x80 := by
  intro b hb
  rcases ha b hb with rfl | rfl | rfl | rfl <;> decide

theorem blanks_nil : Blanks [] := nofun

theorem elementText_of_valueText {w : Written} {s : Bytes} (h : ValueText w s) :
    ElementText w s := by
  simpa using ElementText.around blanks_nil h blanks_nil

theorem nameText_of_stringText {ps : List Piece} {s : Bytes} (h : StringText ps s) :
    NameText ps s := by
  simpa using NameText.around blanks_nil h blanks_nil

/-! Pieces that have a text. -/

/-- A piece with a spelling of its own. -/
def Piece.Spellable : Piece → Prop
  | .plain b => 0x20 ≤ b ∧ b ≠ 0x22 ∧ b ≠ 0x5c
  | .short b => shortEscape? ((shortLetter? b).getD b) = some b
  | .code u => u < 0x10000

theorem shortEscape?_eq_some_iff {e b : UInt8} : shortEscape? e = some b ↔ (e, b) ∈ escapes := by
  constructor
  · intro h
    unfold shortEscape? at h
    repeat' split at h
    all_goals cases h
    all_goals next he => subst he; decide
  · intro h
    simp only [escapes, List.mem_cons, Prod.mk.injEq, List.not_mem_nil, or_false] at h
    rcases h with h | h | h | h | h | h | h | h
    all_goals obtain ⟨rfl, rfl⟩ := h; rfl

/-- A byte that is named by some letter is named by its own. -/
theorem shortEscape?_shortLetter? {e b : UInt8} (h : (e, b) ∈ escapes) :
    shortEscape? ((shortLetter? b).getD b) = some b := by
  have hall : ∀ x ∈ escapes, shortEscape? ((shortLetter? x.2).getD x.2) = some x.2 :=
    List.all_iff_forall_prop.mp rfl
  exact hall _ h

theorem digitValue?_bounds {b : UInt8} {n : Nat} (h : Hex.digitValue? b = some n) :
    n < 16 ∧ b < 0x80 := by
  have hbyte {m : Nat} (hm : b.toNat ≤ m) (hsmall : m < 0x80) : b < 0x80 :=
    UInt8.lt_iff_toNat_lt.mpr (Nat.lt_of_le_of_lt hm hsmall)
  unfold Hex.digitValue? at h
  split at h
  · next hb =>
    cases h
    have hmax : b.toNat ≤ 0x39 := hb.2
    exact ⟨by omega, hbyte hmax (by decide)⟩
  · split at h
    · next hb =>
      cases h
      have hmax : b.toNat ≤ 0x66 := hb.2
      exact ⟨by omega, hbyte hmax (by decide)⟩
    · split at h
      · next hb =>
        cases h
        have hmax : b.toNat ≤ 0x46 := hb.2
        exact ⟨by omega, hbyte hmax (by decide)⟩
      · cases h

theorem unit?_lt {a b c d : UInt8} {u : Nat} (h : unit? a b c d = some u) : u < 0x10000 := by
  simp only [unit?, Option.bind_eq_bind, Option.bind_eq_some_iff] at h
  obtain ⟨a', ha, b', hb, c', hc, d', hd, hu⟩ := h
  have ha' := (digitValue?_bounds ha).1
  have hb' := (digitValue?_bounds hb).1
  have hc' := (digitValue?_bounds hc).1
  have hd' := (digitValue?_bounds hd).1
  cases hu
  omega

theorem digits_of_unit? {a b c d : UInt8} {u : Nat} (h : unit? a b c d = some u) :
    ∀ x ∈ [a, b, c, d], ∃ n, Hex.digitValue? x = some n := by
  simp only [unit?, Option.bind_eq_bind, Option.bind_eq_some_iff] at h
  obtain ⟨a', ha, b', hb, c', hc, d', hd, -⟩ := h
  simp only [List.forall_mem_cons]
  exact ⟨⟨a', ha⟩, ⟨b', hb⟩, ⟨c', hc⟩, ⟨d', hd⟩, nofun⟩

theorem unit?_fourDigits {u : Nat} (h : u < 0x10000) :
    unit? (Hex.digit (u / 0x1000 % 16)) (Hex.digit (u / 0x100 % 16)) (Hex.digit (u / 16 % 16))
      (Hex.digit (u % 16)) = some u := by
  have h16 (n : Nat) : n % 16 < 16 := Nat.mod_lt n (by decide)
  simp only [unit?, Hex.digitValue?_digit (h16 _), Option.bind_eq_bind, Option.bind_some]
  congr 1
  omega

theorem ascii_of_escape {e b : UInt8} (h : (e, b) ∈ escapes) : b < 0x80 := by
  have hall : ∀ x ∈ escapes, x.2 < 0x80 := List.all_iff_forall_prop.mp rfl
  exact hall _ h

theorem ne_nil_of_pieceText {p : Piece} {s : Bytes} (h : PieceText p s) : s ≠ [] := by
  cases h <;> exact List.cons_ne_nil _ _

/-- Only a piece that stands for itself may be a byte beyond ASCII. -/
theorem ascii_pieceText {p : Piece} {s : Bytes} (h : PieceText p s) (hp : ∀ b, p ≠ .plain b) :
    ∀ b ∈ s, b < 0x80 := by
  cases h with
  | @plain b => exact absurd rfl (hp b)
  | short he =>
    have hall : ∀ x ∈ escapes, x.1 < 0x80 := List.all_iff_forall_prop.mp rfl
    simp only [List.forall_mem_cons]
    exact ⟨by decide, hall _ he, nofun⟩
  | code hu =>
    refine List.forall_mem_cons.mpr ⟨by decide, List.forall_mem_cons.mpr ⟨by decide, ?_⟩⟩
    intro x hx
    obtain ⟨n, hn⟩ := digits_of_unit? hu x hx
    exact (digitValue?_bounds hn).2

theorem spellable_of_pieceText {p : Piece} {s : Bytes} (h : PieceText p s) : p.Spellable := by
  cases h with
  | plain hb hquote hslash => exact ⟨hb, hquote, hslash⟩
  | short he => exact shortEscape?_shortLetter? he
  | code hu => exact unit?_lt hu

theorem pieceText_spelling {p : Piece} (hp : p.Spellable) : PieceText p p.spelling := by
  cases p with
  | plain b => exact .plain hp.1 hp.2.1 hp.2.2
  | short b => exact .short (shortEscape?_eq_some_iff.mp hp)
  | code u => exact .code (unit?_fourDigits hp)

theorem spellable_of_stringText {ps : List Piece} {s : Bytes} (h : StringText ps s) :
    ∀ p ∈ ps, p.Spellable := by
  obtain ⟨hps⟩ := h
  induction hps with
  | nil => exact nofun
  | cons hp _ ih => exact List.forall_mem_cons.mpr ⟨spellable_of_pieceText hp, ih⟩

theorem stringText_quoted {ps : List Piece} (h : ∀ p ∈ ps, p.Spellable) :
    StringText ps (quoted ps) := by
  refine .quoted ?_
  induction ps with
  | nil => exact .nil
  | cons p ps ih =>
    obtain ⟨hp, hps⟩ := List.forall_mem_cons.mp h
    rw [List.flatMap_cons]
    exact .cons (pieceText_spelling hp) (ih hps)

/-! Trees that have a text. -/

/-- A tree whose numbers are number literals and whose pieces have spellings. -/
inductive Written.Lexical : Written → Prop where
  | null : Lexical .null
  | bool (b : Bool) : Lexical (.bool b)
  | number {l : Bytes} : IsNumber l → Lexical (.number l)
  | string {ps : List Piece} : (∀ p ∈ ps, p.Spellable) → Lexical (.string ps)
  | array {items : List Written} : (∀ w ∈ items, Lexical w) → Lexical (.array items)
  | object {ms : List (List Piece × Written)} : (∀ m ∈ ms, ∀ p ∈ m.1, p.Spellable) →
      (∀ m ∈ ms, Lexical m.2) → Lexical (.object ms)

open Written

mutual
theorem lexical_of_valueText (w : Written) {s : Bytes} (h : ValueText w s) : w.Lexical := by
  match w, h with
  | .null, _ => exact .null
  | .bool b, _ => exact .bool b
  | .number l, .number hl => exact .number hl
  | .string ps, .string hps => exact .string (spellable_of_stringText hps)
  | .array items, .array hitems => exact .array (lexical_of_itemsText items hitems)
  | .object ms, .object hms =>
    obtain ⟨hnames, hvalues⟩ := lexical_of_membersText ms hms
    exact .object hnames hvalues

theorem lexical_of_itemsText (ws : List Written) {s : Bytes} (h : ItemsText ws s) :
    ∀ w ∈ ws, w.Lexical := by
  match ws, h with
  | [], _ => exact nofun
  | [w], .last (.around _ hw _) => exact List.forall_mem_singleton.mpr (lexical_of_valueText w hw)
  | w :: v :: ws, .next (.around _ hw _) hws =>
    exact List.forall_mem_cons.mpr
      ⟨lexical_of_valueText w hw, lexical_of_itemsText (v :: ws) hws⟩

theorem lexical_of_membersText (ms : List (List Piece × Written)) {s : Bytes}
    (h : MembersText ms s) : (∀ m ∈ ms, ∀ p ∈ m.1, p.Spellable) ∧ ∀ m ∈ ms, m.2.Lexical := by
  match ms, h with
  | [], _ => exact ⟨nofun, nofun⟩
  | [(n, w)], .last (.around _ hn _) (.around _ hw _) =>
    exact ⟨List.forall_mem_singleton.mpr (spellable_of_stringText hn),
      List.forall_mem_singleton.mpr (lexical_of_valueText w hw)⟩
  | (n, w) :: m :: ms, .next (.around _ hn _) (.around _ hw _) hms =>
    obtain ⟨hnames, hvalues⟩ := lexical_of_membersText (m :: ms) hms
    exact ⟨List.forall_mem_cons.mpr ⟨spellable_of_stringText hn, hnames⟩,
      List.forall_mem_cons.mpr ⟨lexical_of_valueText w hw, hvalues⟩⟩
end

mutual
/-- The compact text of a tree is one of its texts. -/
theorem valueText_print (w : Written) (hw : w.Lexical) : ValueText w w.print := by
  match w, hw with
  | .null, _ => exact .null
  | .bool true, _ => exact .true
  | .bool false, _ => exact .false
  | .number l, .number hl => exact .number hl
  | .string ps, .string hps => exact .string (stringText_quoted hps)
  | .array items, .array hitems => exact .array (itemsText_print items hitems)
  | .object ms, .object hnames hvalues => exact .object (membersText_print ms hnames hvalues)

theorem itemsText_print (ws : List Written) (hws : ∀ w ∈ ws, w.Lexical) :
    ItemsText ws (printItems ws) := by
  match ws, hws with
  | [], _ => exact .none blanks_nil
  | [w], hws =>
    exact .last (elementText_of_valueText (valueText_print w (List.forall_mem_singleton.mp hws)))
  | w :: v :: ws, hws =>
    obtain ⟨hw, hrest⟩ := List.forall_mem_cons.mp hws
    exact .next (elementText_of_valueText (valueText_print w hw)) (itemsText_print (v :: ws) hrest)

theorem membersText_print (ms : List (List Piece × Written))
    (hnames : ∀ m ∈ ms, ∀ p ∈ m.1, p.Spellable) (hvalues : ∀ m ∈ ms, m.2.Lexical) :
    MembersText ms (printMembers ms) := by
  match ms, hnames, hvalues with
  | [], _, _ => exact .none blanks_nil
  | [(n, w)], hnames, hvalues =>
    exact .last (nameText_of_stringText (stringText_quoted (hnames (n, w) List.mem_cons_self)))
      (elementText_of_valueText (valueText_print w (hvalues (n, w) List.mem_cons_self)))
  | (n, w) :: m :: ms, hnames, hvalues =>
    obtain ⟨hn, hnames⟩ := List.forall_mem_cons.mp hnames
    obtain ⟨hw, hvalues⟩ := List.forall_mem_cons.mp hvalues
    exact .next (nameText_of_stringText (stringText_quoted hn))
      (elementText_of_valueText (valueText_print w hw)) (membersText_print (m :: ms) hnames hvalues)
end

end Credentials.Json
