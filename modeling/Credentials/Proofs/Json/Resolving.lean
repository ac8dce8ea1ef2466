import Credentials.Proofs.Json.RoundTrip
import Credentials.Proofs.Utf8

/-!
# Trees that denote documents

A tree denotes a document if it does not nest too deep, its strings hold texts, and the name that is
kept for spelled numbers comes first in an object only where a number is spelled. In a tree that was
read from UTF-8 a string holds a text as soon as its surrogates come in pairs.
-/

namespace Credentials.Json

open Written

/-! Surrogates. -/

/-- Pieces in which a surrogate stands only in a pair, the high one before the low one. -/
inductive Paired : List Piece → Prop where
  | nil : Paired []
  | plain {b : UInt8} {ps : List Piece} : Paired ps → Paired (.plain b :: ps)
  | short {b : UInt8} {ps : List Piece} : Paired ps → Paired (.short b :: ps)
  | code {u : Nat} {ps : List Piece} : u < 0xd800 ∨ 0xe000 ≤ u → Paired ps →
      Paired (.code u :: ps)
  | pair {h l : Nat} {ps : List Piece} : 0xd800 ≤ h ∧ h < 0xdc00 → 0xdc00 ≤ l ∧ l < 0xe000 →
      Paired ps → Paired (.code h :: .code l :: ps)

theorem bytesOf_pair {h l : Nat} (hh : 0xd800 ≤ h ∧ h < 0xdc00) (hl : 0xdc00 ≤ l ∧ l < 0xe000)
    (ps : List Piece) : bytesOf (.code h :: .code l :: ps) = (bytesOf ps).map
      fun b => String.utf8EncodeChar (Char.ofNat (0x10000 + (h - 0xd800) * 0x400 + (l - 0xdc00)))
        ++ b := by
  rw [bytesOf, if_pos (isHighSurrogate_iff.mpr hh), if_pos (isLowSurrogate_iff.mpr hl)]

theorem paired_of_bytesOf {ps : List Piece} {b : Bytes} (h : bytesOf ps = some b) : Paired ps := by
  fun_induction bytesOf ps generalizing b with
  | case1 => exact .nil
  | case2 c ps ih =>
    obtain ⟨_, hb, _⟩ := Option.map_eq_some_iff.mp h
    exact .plain (ih hb)
  | case3 c ps ih =>
    obtain ⟨_, hb, _⟩ := Option.map_eq_some_iff.mp h
    exact .short (ih hb)
  | case4 hi lo ps hhigh hlow ih =>
    obtain ⟨_, hb, _⟩ := Option.map_eq_some_iff.mp h
    exact .pair (isHighSurrogate_iff.mp hhigh) (isLowSurrogate_iff.mp hlow) (ih hb)
  | case5 => cases h
  | case6 => cases h
  | case7 hi lo ps hhigh hlow ih =>
    obtain ⟨_, hb, _⟩ := Option.map_eq_some_iff.mp h
    rw [isHighSurrogate_iff] at hhigh
    rw [isLowSurrogate_iff] at hlow
    exact .code (by omega) (ih hb)
  | case8 => cases h
  | case9 u ps _ hnot ih =>
    obtain ⟨_, hb, _⟩ := Option.map_eq_some_iff.mp h
    rw [Bool.or_eq_true, isHighSurrogate_iff, isLowSurrogate_iff] at hnot
    exact .code (by omega) (ih hb)

theorem bytesOf_of_paired {ps : List Piece} (h : Paired ps) : ∃ b, bytesOf ps = some b := by
  induction h with
  | nil => exact ⟨[], rfl⟩
  | plain _ ih =>
    obtain ⟨b, hb⟩ := ih
    exact ⟨_, by rw [bytesOf, hb, Option.map_some]⟩
  | short _ ih =>
    obtain ⟨b, hb⟩ := ih
    exact ⟨_, by rw [bytesOf, hb, Option.map_some]⟩
  | code hu _ ih =>
    obtain ⟨b, hb⟩ := ih
    exact ⟨_, by rw [bytesOf_code hu, hb, Option.map_some]⟩
  | pair hh hl _ ih =>
    obtain ⟨b, hb⟩ := ih
    exact ⟨_, by rw [bytesOf_pair hh hl, hb, Option.map_some]⟩

/-! Strings in a text. -/

/-- Behind any bytes, the bytes that pieces stand for hold a text if and only if their spelling
does. -/
theorem isText_append_piecesText {ps : List Piece} (hp : Paired ps) {s b : Bytes}
    (hs : PiecesText ps s) (hb : bytesOf ps = some b) (x : Bytes) :
    Bytes.IsText (x ++ s) ↔ Bytes.IsText (x ++ b) := by
  induction hp generalizing s b x with
  | nil =>
    cases hs
    cases hb
    rfl
  | @plain c ps _ ih =>
    obtain ⟨b, hrest, rfl⟩ := Option.map_eq_some_iff.mp hb
    cases hs with
    | cons hc hs =>
    cases hc
    have hplain := ih hs hrest (x ++ [c])
    rwa [List.append_assoc, List.append_assoc] at hplain
  | @short c ps _ ih =>
    obtain ⟨b, hrest, rfl⟩ := Option.map_eq_some_iff.mp hb
    cases hs with
    | cons hc hs =>
    cases hc with
    | short he =>
    have hescape := ascii_pieceText (.short he) nofun
    rw [Bytes.isText_append_ascii_append_iff hescape (List.cons_ne_nil _ _),
      Bytes.isText_append_cons_iff (ascii_of_escape he)]
    exact and_congr_right fun _ => ih hs hrest []
  | code hu _ ih =>
    rw [bytesOf_code hu] at hb
    obtain ⟨b, hrest, rfl⟩ := Option.map_eq_some_iff.mp hb
    cases hs with
    | cons hc hs =>
    rw [Bytes.isText_append_ascii_append_iff (ascii_pieceText hc nofun) (ne_nil_of_pieceText hc),
      Bytes.isText_append_char_iff]
    exact and_congr_right fun _ => ih hs hrest []
  | pair hh hl _ ih =>
    rw [bytesOf_pair hh hl] at hb
    obtain ⟨b, hrest, rfl⟩ := Option.map_eq_some_iff.mp hb
    cases hs with
    | cons hc hs =>
    cases hs with
    | cons hd hs =>
    rw [Bytes.isText_append_ascii_append_iff (ascii_pieceText hc nofun) (ne_nil_of_pieceText hc),
      Bytes.isText_ascii_append_iff (ascii_pieceText hd nofun), Bytes.isText_append_char_iff]
    exact and_congr_right fun _ => ih hs hrest []

/-- The pieces stand for a text. -/
def HoldsText (ps : List Piece) : Prop := (textOf? ps).isSome = true

theorem isText_stringText {ps : List Piece} {s : Bytes} (h : StringText ps s) (hp : Paired ps) :
    Bytes.IsText s ↔ HoldsText ps := by
  obtain ⟨hps⟩ := h
  obtain ⟨b, hb⟩ := bytesOf_of_paired hp
  rw [Bytes.isText_between_iff (by decide) (by decide), HoldsText, textOf?, hb, Option.bind_some,
    Bytes.text?_isSome_iff]
  exact isText_append_piecesText hp hps hb []

theorem paired_of_holdsText {ps : List Piece} (h : HoldsText ps) : Paired ps := by
  obtain ⟨s, hs⟩ := Option.isSome_iff_exists.mp h
  obtain ⟨b, hb, _⟩ := Option.bind_eq_some_iff.mp hs
  exact paired_of_bytesOf hb

theorem isText_around {a s b : Bytes} (ha : Blanks a) (hb : Blanks b) :
    Bytes.IsText (a ++ (s ++ b)) ↔ Bytes.IsText s := by
  rw [Bytes.isText_ascii_append_iff (ascii_blanks ha),
    Bytes.isText_append_ascii_iff (ascii_blanks hb)]

/-! Trees whose strings are of one kind. -/

/-- A tree in which every string and every name has a property. -/
inductive Written.Strings (p : List Piece → Prop) : Written → Prop where
  | null : Strings p .null
  | bool (b : Bool) : Strings p (.bool b)
  | number (l : Bytes) : Strings p (.number l)
  | string {ps : List Piece} : p ps → Strings p (.string ps)
  | array {ws : List Written} : (∀ w ∈ ws, Strings p w) → Strings p (.array ws)
  | object {ms : List (List Piece × Written)} : (∀ m ∈ ms, p m.1) →
      (∀ m ∈ ms, Strings p m.2) → Strings p (.object ms)

theorem Written.Strings.imp {p q : List Piece → Prop} (hpq : ∀ ps, p ps → q ps) {w : Written}
    (h : w.Strings p) : w.Strings q := by
  induction h with
  | null => exact .null
  | bool b => exact .bool b
  | number l => exact .number l
  | string hps => exact .string (hpq _ hps)
  | array _ ih => exact .array ih
  | object hnames _ ih => exact .object (fun m hm => hpq _ (hnames m hm)) ih

mutual
/-- A text of a tree is UTF-8 if and only if its strings hold texts, provided that surrogates come
in pairs. -/
theorem isText_valueText (w : Written) {s : Bytes} (h : ValueText w s) (hw : w.Strings Paired) :
    Bytes.IsText s ↔ w.Strings HoldsText := by
  match w, h, hw with
  | .null, .null, _ =>
    exact iff_of_true (Bytes.isText_of_ascii (List.all_iff_forall_prop.mp rfl)) .null
  | .bool true, .true, _ =>
    exact iff_of_true (Bytes.isText_of_ascii (List.all_iff_forall_prop.mp rfl)) (.bool true)
  | .bool false, .false, _ =>
    exact iff_of_true (Bytes.isText_of_ascii (List.all_iff_forall_prop.mp rfl)) (.bool false)
  | .number l, .number hl, _ =>
    exact iff_of_true (Bytes.isText_of_ascii (ascii_isNumber hl)) (.number l)
  | .string ps, .string hs, .string hps =>
    rw [isText_stringText hs hps]
    exact ⟨fun h => .string h, fun | .string h => h⟩
  | .array ws, .array hs, .array hws =>
    rw [Bytes.isText_between_iff (by decide) (by decide), isText_itemsText ws hs hws]
    exact ⟨fun h => .array h, fun | .array h => h⟩
  | .object ms, .object hs, .object hnames hvalues =>
    rw [Bytes.isText_between_iff (by decide) (by decide), isText_membersText ms hs hnames hvalues]
    exact ⟨fun h => .object h.1 h.2, fun | .object hn hv => ⟨hn, hv⟩⟩

theorem isText_itemsText (ws : List Written) {s : Bytes} (h : ItemsText ws s)
    (hws : ∀ w ∈ ws, w.Strings Paired) :
    Bytes.IsText s ↔ ∀ w ∈ ws, w.Strings HoldsText := by
  match ws, h with
  | [], .none ha => exact iff_of_true (Bytes.isText_of_ascii (ascii_blanks ha)) nofun
  | [w], .last (.around ha hw hb) =>
    rw [isText_around ha hb, List.forall_mem_singleton]
    exact isText_valueText w hw (List.forall_mem_singleton.mp hws)
  | w :: v :: ws, .next (.around ha hw hb) hs =>
    obtain ⟨hpaired, hrest⟩ := List.forall_mem_cons.mp hws
    rw [Bytes.isText_append_cons_iff (by decide), isText_around ha hb, List.forall_mem_cons,
      isText_valueText w hw hpaired, isText_itemsText (v :: ws) hs hrest]

theorem isText_membersText (ms : List (List Piece × Written)) {s : Bytes} (h : MembersText ms s)
    (hnames : ∀ m ∈ ms, Paired m.1) (hvalues : ∀ m ∈ ms, m.2.Strings Paired) :
    Bytes.IsText s ↔ (∀ m ∈ ms, HoldsText m.1) ∧ ∀ m ∈ ms, m.2.Strings HoldsText := by
  match ms, h with
  | [], .none ha => exact iff_of_true (Bytes.isText_of_ascii (ascii_blanks ha)) ⟨nofun, nofun⟩
  | [(n, w)], .last (.around ha hn hb) (.around hc hw hd) =>
    rw [Bytes.isText_append_cons_iff (by decide), isText_around ha hb, isText_around hc hd,
      isText_stringText hn (hnames (n, w) List.mem_cons_self),
      isText_valueText w hw (hvalues (n, w) List.mem_cons_self), List.forall_mem_singleton,
      List.forall_mem_singleton]
  | (n, w) :: m :: ms, .next (.around ha hn hb) (.around hc hw hd) hs =>
    obtain ⟨hname, hnames⟩ := List.forall_mem_cons.mp hnames
    obtain ⟨hvalue, hvalues⟩ := List.forall_mem_cons.mp hvalues
    rw [Bytes.isText_append_cons_iff (by decide), isText_around ha hb,
      Bytes.isText_append_cons_iff (by decide), isText_around hc hd, isText_stringText hn hname,
      isText_valueText w hw hvalue, isText_membersText (m :: ms) hs hnames hvalues]
    constructor
    · rintro ⟨hn, hw, hns, hws⟩
      exact ⟨List.forall_mem_cons.mpr ⟨hn, hns⟩, List.forall_mem_cons.mpr ⟨hw, hws⟩⟩
    · rintro ⟨hns, hws⟩
      obtain ⟨hn, hns⟩ := List.forall_mem_cons.mp hns
      obtain ⟨hw, hws⟩ := List.forall_mem_cons.mp hws
      exact ⟨hn, hw, hns, hws⟩
end

/-! Depth and the name that is kept. -/

/-- A tree in which at most `n` arrays and objects are open at any place. -/
inductive Written.Nests : Nat → Written → Prop where
  | null {n : Nat} : Nests n .null
  | bool {n : Nat} (b : Bool) : Nests n (.bool b)
  | number {n : Nat} (l : Bytes) : Nests n (.number l)
  | string {n : Nat} (ps : List Piece) : Nests n (.string ps)
  | array {n : Nat} {ws : List Written} : (∀ w ∈ ws, Nests n w) → Nests (n + 1) (.array ws)
  | object {n : Nat} {ms : List (List Piece × Written)} : (∀ m ∈ ms, Nests n m.2) →
      Nests (n + 1) (.object ms)

/-- The one member of an object that stands for a number, with a number literal as its string. -/
def SpellsNumber (ms : List (List Piece × Written)) : Prop :=
  ∃ name ps l, ms = [(name, .string ps)] ∧ bytesOf ps = some l ∧ IsNumber l

/-- A tree in which an object that lists first the name kept for spelled numbers spells one. -/
inductive Written.KeepsName : Written → Prop where
  | null : KeepsName .null
  | bool (b : Bool) : KeepsName (.bool b)
  | number (l : Bytes) : KeepsName (.number l)
  | string (ps : List Piece) : KeepsName (.string ps)
  | array {ws : List Written} : (∀ w ∈ ws, KeepsName w) → KeepsName (.array ws)
  | object {ms : List (List Piece × Written)} :
      (∀ m ∈ ms.head?, bytesOf m.1 = some numberName → SpellsNumber ms) →
      (∀ m ∈ ms, KeepsName m.2) → KeepsName (.object ms)

/-! Resolving. -/

theorem startsWithNumberName_iff {ms : List (List Piece × Written)} :
    startsWithNumberName ms = true ↔ ∃ m ∈ ms.head?, bytesOf m.1 = some numberName := by
  cases ms <;> simp [startsWithNumberName]

theorem spelledNumber?_isSome_iff {ms : List (List Piece × Written)} :
    (spelledNumber? ms).isSome = true ↔ SpellsNumber ms := by
  rw [Option.isSome_iff_exists]
  constructor
  · rintro ⟨v, hv⟩
    obtain ⟨name, ps, l, hms, hl, hnumber, _⟩ := spelledNumber?_eq_some_iff.mp hv
    exact ⟨name, ps, l, hms, hl, hnumber⟩
  · rintro ⟨name, ps, l, hms, hl, hnumber⟩
    exact ⟨_, spelledNumber?_eq_some_iff.mpr ⟨name, ps, l, hms, hl, hnumber, rfl⟩⟩

theorem resolveItems_isSome_iff {n : Nat} {ws : List Written} :
    (resolveItems n ws).isSome = true ↔ ∀ w ∈ ws, (resolve n w).isSome = true := by
  induction ws with
  | nil => exact iff_of_true rfl nofun
  | cons w ws ih =>
    rw [List.forall_mem_cons, ← ih, resolveItems]
    cases resolve n w <;> cases resolveItems n ws <;> simp

theorem resolveMembers_isSome_iff {n : Nat} {ms : List (List Piece × Written)} :
    (resolveMembers n ms).isSome = true ↔
      (∀ m ∈ ms, HoldsText m.1) ∧ ∀ m ∈ ms, (resolve n m.2).isSome = true := by
  induction ms with
  | nil => exact iff_of_true rfl ⟨nofun, nofun⟩
  | cons m ms ih =>
    have hcons : (resolveMembers n (m :: ms)).isSome = true ↔ HoldsText m.1 ∧
        (resolve n m.2).isSome = true ∧ (resolveMembers n ms).isSome = true := by
      rw [resolveMembers, HoldsText]
      cases textOf? m.1 <;> cases resolve n m.2 <;> cases resolveMembers n ms <;> simp
    rw [hcons, ih, List.forall_mem_cons, List.forall_mem_cons]
    exact ⟨fun h => ⟨⟨h.1, h.2.2.1⟩, h.2.1, h.2.2.2⟩, fun h => ⟨h.1.1, h.2.1, h.1.2, h.2.2⟩⟩

theorem holdsText_of_ascii {ps : List Piece} {b : Bytes} (h : bytesOf ps = some b)
    (hb : ∀ c ∈ b, c < 0x80) : HoldsText ps := by
  rw [HoldsText, textOf?, h, Option.bind_some, Bytes.text?_isSome_iff]
  exact Bytes.isText_of_ascii hb

/-- An object that spells a number under the name that is kept holds texts only. -/
theorem strings_of_spellsNumber {ms : List (List Piece × Written)}
    (hname : ∀ m ∈ ms.head?, bytesOf m.1 = some numberName) (h : SpellsNumber ms) :
    (∀ m ∈ ms, HoldsText m.1) ∧ ∀ m ∈ ms, m.2.Strings HoldsText := by
  obtain ⟨name, ps, l, rfl, hl, hnumber⟩ := h
  have hascii : ∀ c ∈ numberName, c < 0x80 := List.all_iff_forall_prop.mp rfl
  refine ⟨List.forall_mem_singleton.mpr ?_, List.forall_mem_singleton.mpr (.string ?_)⟩
  · exact holdsText_of_ascii (hname _ rfl) hascii
  · exact holdsText_of_ascii hl (ascii_isNumber hnumber)

theorem resolve_string_isSome_iff {n : Nat} {ps : List Piece} :
    (resolve n (.string ps)).isSome = true ↔ HoldsText ps := by
  rw [resolve, Option.isSome_map, HoldsText]

theorem resolve_array_isSome_iff {n : Nat} {ws : List Written} :
    (resolve (n + 1) (.array ws)).isSome = true ↔ ∀ w ∈ ws, (resolve n w).isSome = true := by
  rw [resolve, Option.isSome_map, resolveItems_isSome_iff]

theorem resolve_spelled_isSome_iff {n : Nat} {ms : List (List Piece × Written)}
    (h : startsWithNumberName ms = true) :
    (resolve (n + 1) (.object ms)).isSome = true ↔ SpellsNumber ms := by
  rw [resolve, if_pos h, spelledNumber?_isSome_iff]

theorem resolve_object_isSome_iff {n : Nat} {ms : List (List Piece × Written)}
    (h : ¬ startsWithNumberName ms = true) :
    (resolve (n + 1) (.object ms)).isSome = true ↔
      (∀ m ∈ ms, HoldsText m.1) ∧ ∀ m ∈ ms, (resolve n m.2).isSome = true := by
  rw [resolve, if_neg h, Option.isSome_map, resolveMembers_isSome_iff]

/-- The trees that denote documents. -/
theorem resolve_isSome_iff {w : Written} (hw : w.Lexical) {n : Nat} :
    (resolve n w).isSome = true ↔ w.Nests n ∧ w.Strings HoldsText ∧ w.KeepsName := by
  induction hw generalizing n with
  | null => exact iff_of_true rfl ⟨.null, .null, .null⟩
  | bool b => exact iff_of_true rfl ⟨.bool b, .bool b, .bool b⟩
  | @number l _ => exact iff_of_true rfl ⟨.number l, .number l, .number l⟩
  | @string ps _ =>
    rw [resolve_string_isSome_iff]
    exact ⟨fun h => ⟨.string ps, .string h, .string ps⟩, fun | ⟨_, .string h, _⟩ => h⟩
  | array _ ih =>
    cases n with
    | zero => exact iff_of_false nofun nofun
    | succ n =>
      rw [resolve_array_isSome_iff]
      constructor
      · intro h
        have hall := fun w hw => (ih w hw).mp (h w hw)
        exact ⟨.array fun w hw => (hall w hw).1, .array fun w hw => (hall w hw).2.1,
          .array fun w hw => (hall w hw).2.2⟩
      · intro h w hw
        match h with
        | ⟨.array hnests, .array hstrings, .array hkeeps⟩ =>
          exact (ih w hw).mpr ⟨hnests w hw, hstrings w hw, hkeeps w hw⟩
  | @object ms _ _ ih =>
    cases n with
    | zero => exact iff_of_false nofun nofun
    | succ n =>
      by_cases hstart : startsWithNumberName ms = true
      · obtain ⟨m, hm, hname⟩ := startsWithNumberName_iff.mp hstart
        have hhead : ∀ m ∈ ms.head?, bytesOf m.1 = some numberName := fun k hk =>
          Option.mem_unique hm hk ▸ hname
        rw [resolve_spelled_isSome_iff hstart]
        constructor
        · intro h
          obtain ⟨hnames, hvalues⟩ := strings_of_spellsNumber hhead h
          have hspells : SpellsNumber ms := h
          obtain ⟨name, ps, _, rfl, _⟩ := h
          exact ⟨.object (List.forall_mem_singleton.mpr (.string ps)), .object hnames hvalues,
            .object (fun _ _ _ => hspells) (List.forall_mem_singleton.mpr (.string ps))⟩
        · intro h
          match h with
          | ⟨_, _, .object hspells _⟩ => exact hspells m hm hname
      · rw [resolve_object_isSome_iff hstart]
        constructor
        · rintro ⟨hnames, hvalues⟩
          have hall := fun m hm => (ih m hm).mp (hvalues m hm)
          refine ⟨.object fun m hm => (hall m hm).1, .object hnames fun m hm => (hall m hm).2.1,
            .object (fun m hm hname => ?_) fun m hm => (hall m hm).2.2⟩
          exact absurd (startsWithNumberName_iff.mpr ⟨m, hm, hname⟩) hstart
        · intro h
          match h with
          | ⟨.object hnests, .object hnames hstrings, .object _ hkeeps⟩ =>
            exact ⟨hnames, fun m hm => (ih m hm).mpr ⟨hnests m hm, hstrings m hm, hkeeps m hm⟩⟩

end Credentials.Json
