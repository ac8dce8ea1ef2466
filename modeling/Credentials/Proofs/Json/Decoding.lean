import Credentials.Proofs.Json.NormalForm

/-!
# Decoding

What a text decodes to: the tree that is read, with its strings resolved and its nesting limited.
A decoded tree can be printed, and a document that is printed decodes to itself unless one of its
objects lists first the name that is kept for spelled numbers.
-/

namespace Credentials.Json

open Written

/-! Resolving. -/

theorem mem_resolveItems {n : Nat} {ws : List Written} {vs : List Json}
    (h : resolveItems n ws = some vs) : ∀ v ∈ vs, ∃ w ∈ ws, resolve n w = some v := by
  induction ws generalizing vs with
  | nil =>
    cases h
    exact fun _ hv => absurd hv List.not_mem_nil
  | cons w ws ih =>
    simp only [resolveItems, Option.bind_eq_bind, Option.bind_eq_some_iff] at h
    obtain ⟨v, hv, us, hus, heq⟩ := h
    cases heq
    intro u hu
    rcases List.mem_cons.mp hu with rfl | hu
    · exact ⟨w, List.mem_cons_self, hv⟩
    · obtain ⟨x, hx, hxu⟩ := ih hus u hu
      exact ⟨x, List.mem_cons_of_mem w hx, hxu⟩

theorem mem_resolveMembers {n : Nat} {ms : List (List Piece × Written)} {ns : Members}
    (h : resolveMembers n ms = some ns) :
    ∀ m ∈ ns, ∃ k ∈ ms, textOf? k.1 = some m.1 ∧ resolve n k.2 = some m.2 := by
  induction ms generalizing ns with
  | nil =>
    cases h
    exact fun _ hm => absurd hm List.not_mem_nil
  | cons k ms ih =>
    simp only [resolveMembers, Option.bind_eq_bind, Option.bind_eq_some_iff] at h
    obtain ⟨name, hname, v, hv, rest, hrest, heq⟩ := h
    cases heq
    intro m hm
    rcases List.mem_cons.mp hm with rfl | hm
    · exact ⟨k, List.mem_cons_self, hname, hv⟩
    · obtain ⟨x, hx, hxm⟩ := ih hrest m hm
      exact ⟨x, List.mem_cons_of_mem k hx, hxm⟩

theorem literalValue_ne (l : Bytes) : literalValue l ≠ [0x2d, 0x30] := by
  unfold literalValue
  split
  · decide
  · next h => exact h

theorem lexical_literalValue {l : Bytes} (h : IsNumber l) : Lexical (.number (literalValue l)) := by
  refine .number ?_ (literalValue_ne l)
  unfold literalValue
  split
  · exact isLiteral_iff.mp rfl
  · exact h

/-- The one member of an object that spells a number is a string that holds a number literal. -/
theorem spelledNumber?_eq_some_iff {ms : List (List Piece × Written)} {v : Json} :
    spelledNumber? ms = some v ↔ ∃ name ps l, ms = [(name, .string ps)] ∧ bytesOf ps = some l ∧
      IsNumber l ∧ v = .number (literalValue l) := by
  constructor
  · intro h
    unfold spelledNumber? at h
    split at h
    · next name ps =>
      split at h
      · next l hl =>
        split at h
        · next hliteral =>
          cases h
          exact ⟨name, ps, l, rfl, hl, isLiteral_iff.mp hliteral, rfl⟩
        · cases h
      · cases h
    · cases h
  · rintro ⟨name, ps, l, rfl, hl, hnumber, rfl⟩
    rw [spelledNumber?, hl]
    exact if_pos (isLiteral_iff.mpr hnumber)

/-- A decoded document can be printed. -/
theorem lexical_resolve {w : Written} (hw : w.Lexical) {n : Nat} {v : Json}
    (h : resolve n w = some v) : v.Lexical := by
  induction hw generalizing n v with
  | null => cases h; exact .null
  | bool b => cases h; exact .bool b
  | number hl => cases h; exact lexical_literalValue hl
  | string _ =>
    rw [resolve] at h
    obtain ⟨s, _, rfl⟩ := Option.map_eq_some_iff.mp h
    exact .string s
  | array _ ih =>
    cases n with
    | zero => cases h
    | succ n =>
      rw [resolve] at h
      obtain ⟨vs, hvs, rfl⟩ := Option.map_eq_some_iff.mp h
      refine .array fun v hv => ?_
      obtain ⟨w, hw, hwv⟩ := mem_resolveItems hvs v hv
      exact ih w hw hwv
  | object _ _ ih =>
    cases n with
    | zero => cases h
    | succ n =>
      rw [resolve] at h
      split at h
      · obtain ⟨_, _, _, _, _, hl, rfl⟩ := spelledNumber?_eq_some_iff.mp h
        exact lexical_literalValue hl
      · obtain ⟨ns, hns, rfl⟩ := Option.map_eq_some_iff.mp h
        refine .object fun m hm => ?_
        obtain ⟨k, hk, _, hkm⟩ := mem_resolveMembers hns m hm
        exact ih k hk hkm

/-! The tree of a text. -/

/-- The document in a text as it is decoded, its members in their order and with repetitions. -/
def tree? (text : Bytes) : Option Json := (Written.read text).bind (resolve maxDepth)

theorem lexical_tree? {text : Bytes} {v : Json} (h : tree? text = some v) : v.Lexical := by
  obtain ⟨w, hw, hv⟩ := Option.bind_eq_some_iff.mp h
  exact lexical_resolve (lexical_of_first (first_of_read hw)) hv

theorem parse_eq_tree? (text : Bytes) : parse text = (tree? text).map normal := by
  rw [parse, tree?, Option.map_bind]
  rfl

theorem lexical_parse {text : Bytes} {v : Json} (h : parse text = some v) : v.Lexical := by
  rw [parse_eq_tree?] at h
  obtain ⟨u, hu, rfl⟩ := Option.map_eq_some_iff.mp h
  exact lexical_normal (lexical_tree? hu)

end Credentials.Json
