import Credentials.Json.Canonical
import Credentials.Proofs.Json.Decoding
import Credentials.Proofs.Json.Sink
import Credentials.Proofs.Step

/-!
# Canonical bytes decide sameness

Two documents are the same when they differ only in the order and repetition of members. That is
what their normal forms agree on, and printing loses nothing, so two texts have the same canonical
bytes exactly if they decode to the same document.
-/

namespace Credentials.Json

/-- Sameness of documents: arrays item by item, objects as finite maps in which the last of two
equal names wins, numbers by their spelling. -/
inductive SameDocument : Json → Json → Prop where
  | null : SameDocument .null .null
  | bool (b : Bool) : SameDocument (.bool b) (.bool b)
  | number (l : Bytes) : SameDocument (.number l) (.number l)
  | string (s : String) : SameDocument (.string s) (.string s)
  | array {vs ws : List Json} : vs.length = ws.length →
      (∀ (i : Nat) (v w : Json), vs[i]? = some v → ws[i]? = some w → SameDocument v w) →
      SameDocument (.array vs) (.array ws)
  | object {ms ns : Members} : (∀ name, (last? ms name).isSome = (last? ns name).isSome) →
      (∀ name v w, last? ms name = some v → last? ns name = some w → SameDocument v w) →
      SameDocument (.object ms) (.object ns)

theorem normal_array_eq_iff {vs ws : List Json} :
    normal (.array vs) = normal (.array ws) ↔ vs.map normal = ws.map normal := by
  rw [normal, normal, normalItems_eq, normalItems_eq, array.injEq]

/-- Normal forms of objects agree if the normal forms of what is found under each name do. -/
theorem normal_object_eq_iff {ms ns : Members} :
    normal (.object ms) = normal (.object ns) ↔
      ∀ name, (last? ms name).map normal = (last? ns name).map normal := by
  rw [normal, normal, object.injEq]
  constructor
  · intro h name
    have hname := congrArg (get? · name) h
    simpa only [get?_membersOf, last?_normalMembers] using hname
  · intro h
    apply ascending_ext (ascending_membersOf _) (ascending_membersOf _)
    intro name
    rw [get?_membersOf, get?_membersOf, last?_normalMembers, last?_normalMembers]
    exact h name

theorem normal_eq_of_sameDocument {v w : Json} (h : SameDocument v w) : v.normal = w.normal := by
  induction h with
  | null => rfl
  | bool b => rfl
  | number l => rfl
  | string s => rfl
  | @array vs ws hlength _ ih =>
    apply normal_array_eq_iff.mpr
    apply List.ext_getElem
    · simpa using hlength
    · intro i hi hj
      rw [List.length_map] at hi hj
      rw [List.getElem_map, List.getElem_map]
      exact ih i _ _ (List.getElem?_eq_getElem hi) (List.getElem?_eq_getElem hj)
  | @object ms ns hnames _ ih =>
    apply normal_object_eq_iff.mpr
    intro name
    have hname := hnames name
    cases hv : last? ms name with
    | none =>
      rw [hv] at hname
      cases hw : last? ns name with
      | none => rfl
      | some w => rw [hw] at hname; cases hname
    | some v =>
      rw [hv] at hname
      cases hw : last? ns name with
      | none => rw [hw] at hname; cases hname
      | some w => exact congrArg some (ih name v w hv hw)

theorem mem_of_last? {ms : Members} {n : String} {v : Json} (h : last? ms n = some v) :
    (n, v) ∈ ms :=
  List.mem_reverse.mp (mem_of_get? h)

theorem sameDocument_of_normal_eq {v w : Json} (h : v.normal = w.normal) : SameDocument v w := by
  induction v using induction generalizing w with
  | null => cases w <;> cases h; exact .null
  | bool b => cases w <;> cases h; exact .bool b
  | number l => cases w <;> cases h; exact .number l
  | string s => cases w <;> cases h; exact .string s
  | array vs ih =>
    cases w <;> try cases h
    next ws =>
    have hmaps := normal_array_eq_iff.mp h
    refine .array ?_ fun i v w hv hw => ih v (List.mem_of_getElem? hv) ?_
    · simpa using congrArg List.length hmaps
    · have hi := congrArg (·[i]?) hmaps
      simpa [hv, hw] using hi
  | object ms ih =>
    cases w <;> try cases h
    next ns =>
    have hnames := normal_object_eq_iff.mp h
    refine .object (fun name => ?_) fun name v w hv hw => ih _ (mem_of_last? hv) ?_
    · simpa using congrArg Option.isSome (hnames name)
    · have hname := hnames name
      rw [hv, hw] at hname
      exact Option.some.inj hname

/-- Documents are the same exactly if they have one normal form. -/
theorem sameDocument_iff {v w : Json} : SameDocument v w ↔ v.normal = w.normal :=
  ⟨normal_eq_of_sameDocument, sameDocument_of_normal_eq⟩

end Json

namespace Canonical

open Json

theorem ofJson_eq_of_sameDocument {v w : Json} (h : SameDocument v w) : ofJson v = ofJson w := by
  rw [ofJson, ofJson, normal_eq_of_sameDocument h]

theorem ofJson_eq_iff {v w : Json} (hv : v.Literal) (hw : w.Literal) :
    ofJson v = ofJson w ↔ SameDocument v w := by
  constructor
  · intro h
    rw [sameDocument_iff]
    exact print_inj (literal_normal hv) (literal_normal hw) (congrArg Canonical.bytes h)
  · exact ofJson_eq_of_sameDocument

theorem ofJson_normal (v : Json) : ofJson v.normal = ofJson v := by
  rw [ofJson, ofJson, normal_normal]

theorem read_eq_ok_iff {text : Bytes} {v : Json} :
    Canonical.read text = .ok v ↔ parse text = some v := by
  rw [Canonical.read, parse, Written.read]
  cases Written.first text with
  | none => simp
  | some p =>
    obtain ⟨w, rest⟩ := p
    cases rest with
    | nil => cases hjson : w.json <;> simp [hjson]
    | cons l rest => cases hjson : w.json <;> simp [hjson]

theorem ofText_eq_ok_iff_parse {text : Bytes} {c : Canonical} :
    ofText text = .ok c ↔ ∃ v, parse text = some v ∧ ofJson v = c := by
  simp only [ofText_eq, except_map_eq_ok_iff, read_eq_ok_iff]

/-- Canonical bytes are those of the document to which a text decodes. -/
theorem ofText_eq_ok_iff {text : Bytes} {c : Canonical} :
    ofText text = .ok c ↔ ∃ v, tree? text = some v ∧ ofJson v = c := by
  simp only [ofText_eq_ok_iff_parse, parse_eq_tree?, Option.map_eq_some_iff]
  constructor
  · rintro ⟨u, ⟨v, hv, rfl⟩, rfl⟩
    exact ⟨v, hv, (ofJson_normal v).symm⟩
  · rintro ⟨v, hv, rfl⟩
    exact ⟨v.normal, ⟨v, hv, rfl⟩, ofJson_normal v⟩

/-- The canonical bytes of two accepted texts agree exactly if the texts decode to the same
document. -/
theorem ofText_eq_iff_sameDocument {a b : Bytes} {ca cb : Canonical} (ha : ofText a = .ok ca)
    (hb : ofText b = .ok cb) :
    ∃ v w, tree? a = some v ∧ tree? b = some w ∧ (ca.bytes = cb.bytes ↔ SameDocument v w) := by
  obtain ⟨v, hv, rfl⟩ := ofText_eq_ok_iff.mp ha
  obtain ⟨w, hw, rfl⟩ := ofText_eq_ok_iff.mp hb
  refine ⟨v, w, hv, hw, ?_⟩
  rw [← ofJson_eq_iff (lexical_tree? hv).literal (lexical_tree? hw).literal]
  exact ⟨fun h => congrArg Canonical.mk h, congrArg Canonical.bytes⟩

/-- Order, repetition, blanks and escapes do not matter. -/
theorem sameDocument_of_reordered :
    ∃ v w, tree? (Bytes.ofText "\x7b\"b\":7,\"a\":[],\"b\":1e0\x7d") = some v ∧
      tree? (Bytes.ofText " \x7b\"\\u0061\": [], \"b\": 1e0\x7d") = some w ∧ SameDocument v w := by
  have hcanonical : ofText (Bytes.ofText "\x7b\"b\":7,\"a\":[],\"b\":1e0\x7d")
      = .ok ⟨Bytes.ofText "\x7b\"a\":[],\"b\":1e0\x7d"⟩ := rfl
  have hcanonical' : ofText (Bytes.ofText " \x7b\"\\u0061\": [], \"b\": 1e0\x7d")
      = .ok ⟨Bytes.ofText "\x7b\"a\":[],\"b\":1e0\x7d"⟩ := rfl
  obtain ⟨v, w, hv, hw, hsame⟩ := ofText_eq_iff_sameDocument hcanonical hcanonical'
  exact ⟨v, w, hv, hw, hsame.mp rfl⟩

end Canonical
end Credentials
