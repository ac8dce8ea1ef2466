import Credentials.Proofs.Json.CanonicalForm
import Credentials.Proofs.Json.Resolving
import Credentials.Proofs.Step
import Credentials.Proofs.Token

/-!
# What is taken in

A text is accepted if it is UTF-8 and holds one document that nests at most 127 deep, with white
space around it, and if every object in it that lists first the name kept for spelled numbers
spells a number. A text that is refused holds something behind a document, or no document at its
start.
-/

namespace Credentials

open Json

namespace Json

/-- A text of one document and nothing else. -/
structure StrictText (w : Written) (text : Bytes) : Prop where
  utf8 : Bytes.IsText text
  element : ElementText w text
  nests : w.Nests 127
  paired : w.Strings Paired

theorem json_isSome_iff {w : Written} {text : Bytes} (h : ElementText w text) :
    w.json.isSome = true ↔ StrictText w text ∧ w.KeepsName := by
  cases h with
  | @around _ a s b ha hs hb =>
    rw [Written.json, Written.jsonWithin, Option.isSome_map, maxDepth,
      resolve_isSome_iff (lexical_of_valueText w hs)]
    constructor
    · rintro ⟨hnests, hstrings, hkeeps⟩
      have hpaired := hstrings.imp fun _ => paired_of_holdsText
      have htext := (isText_valueText w hs hpaired).mpr hstrings
      exact ⟨⟨(isText_around ha hb).mpr htext, .around ha hs hb, hnests, hpaired⟩, hkeeps⟩
    · rintro ⟨⟨htext, _, hnests, hpaired⟩, hkeeps⟩
      have hstrings := (isText_valueText w hs hpaired).mp ((isText_around ha hb).mp htext)
      exact ⟨hnests, hstrings, hkeeps⟩

theorem parse_eq_some_iff {text : Bytes} {v : Json} : parse text = some v ↔
    ∃ w, StrictText w text ∧ w.KeepsName ∧ w.json = some v := by
  rw [parse, Option.bind_eq_some_iff]
  constructor
  · rintro ⟨w, hw, hv⟩
    have helement := read_eq_some_iff.mp hw
    obtain ⟨hstrict, hkeeps⟩ := (json_isSome_iff helement).mp (Option.isSome_iff_exists.mpr ⟨v, hv⟩)
    exact ⟨w, hstrict, hkeeps, hv⟩
  · rintro ⟨w, hstrict, _, hv⟩
    exact ⟨w, read_eq_some_iff.mpr hstrict.element, hv⟩

end Json

namespace Canonical

variable {text : Bytes}

theorem ofText_isOk_iff_parse : (∃ c, ofText text = .ok c) ↔ (parse text).isSome = true := by
  rw [parse_eq_tree?, Option.isSome_map, Option.isSome_iff_exists]
  constructor
  · rintro ⟨c, hc⟩
    obtain ⟨v, hv, _⟩ := ofText_eq_ok_iff.mp hc
    exact ⟨v, hv⟩
  · rintro ⟨v, hv⟩
    exact ⟨ofJson v, ofText_eq_ok_iff.mpr ⟨v, hv, rfl⟩⟩

theorem ofText_isOk_iff : (∃ c, ofText text = .ok c) ↔ ∃ w, StrictText w text ∧ w.KeepsName := by
  rw [ofText_isOk_iff_parse, Option.isSome_iff_exists]
  constructor
  · rintro ⟨v, hv⟩
    obtain ⟨w, hstrict, hkeeps, _⟩ := parse_eq_some_iff.mp hv
    exact ⟨w, hstrict, hkeeps⟩
  · rintro ⟨w, hstrict, hkeeps⟩
    obtain ⟨v, hv⟩ :=
      Option.isSome_iff_exists.mp ((json_isSome_iff hstrict.element).mpr ⟨hstrict, hkeeps⟩)
    exact ⟨v, parse_eq_some_iff.mpr ⟨w, hstrict, hkeeps, hv⟩⟩

theorem ofText_eq_error {e : CanonicalizationError} (h : ofText text = .error e) :
    e = .invalidJson ∨ e = .trailingData := by
  rw [ofText_eq, except_map_eq_error_iff, Canonical.read] at h
  split at h
  · exact .inl (Except.error.inj h).symm
  · split at h
    · exact .inl (Except.error.inj h).symm
    · split at h
      · cases h
      · exact .inr (Except.error.inj h).symm

theorem ofText_eq_trailingData_iff : ofText text = .error .trailingData ↔
    ∃ w v ls, Written.first text = some (w, ls) ∧ w.json = some v ∧ ls ≠ [] := by
  rw [ofText_eq, except_map_eq_error_iff, Canonical.read]
  constructor
  · intro h
    split at h
    · cases h
    · next w ls hfirst =>
      split at h
      · cases h
      · next v hv =>
        split at h
        · cases h
        · next hls => exact ⟨w, v, ls, hfirst, hv, hls⟩
  · rintro ⟨w, v, ls, hfirst, hv, hls⟩
    rw [hfirst]
    dsimp only
    rw [hv]
    dsimp only
    rw [if_neg hls]

/-- What is refused for its end starts with an accepted text, and something else follows. -/
theorem exists_prefix_of_trailingData (h : ofText text = .error .trailingData) :
    ∃ d b r, text = d ++ b :: r ∧ isBlank b = false ∧ ∃ c, ofText d = .ok c := by
  obtain ⟨w, v, ls, hfirst, hv, hls⟩ := ofText_eq_trailingData_iff.mp h
  obtain ⟨a, t, r, ha, ht, rfl, rfl⟩ := valueText_of_first hfirst
  rcases exists_blanks r with hr | ⟨a', b, r', ha', rfl, hb⟩
  · exact absurd (lexemes_eq_nil_iff.mpr hr) hls
  · have helement : ElementText w (a ++ (t ++ a')) := .around ha ht ha'
    refine ⟨a ++ (t ++ a'), b, r', by simp, hb, ofText_isOk_iff.mpr ⟨w, ?_⟩⟩
    exact (json_isSome_iff helement).mp (Option.isSome_iff_exists.mpr ⟨v, hv⟩)

/-- Whatever follows an accepted text, a text that goes on is refused for its end, unless a number
goes on. -/
theorem trailingData_of_append {w : Written} {d r : Bytes} (hd : StrictText w d)
    (hkeeps : w.KeepsName) (hnumber : ∀ l, w = .number l → EndsNumber r) (hr : ¬ Blanks r) :
    ofText (d ++ r) = .error .trailingData := by
  obtain ⟨v, hv⟩ := Option.isSome_iff_exists.mp ((json_isSome_iff hd.element).mpr ⟨hd, hkeeps⟩)
  cases hd.element with
  | @around _ a s b ha hs hb =>
    have hends := fun l hl => endsNumber_blanks hb (hnumber l hl)
    have hfirst := first_valueText ha hs hends
    rw [lexemes_blanks hb] at hfirst
    refine ofText_eq_trailingData_iff.mpr ⟨w, v, _, ?_, hv, fun h => hr (lexemes_eq_nil_iff.mp h)⟩
    rw [← hfirst]
    simp

example : ofText (Bytes.ofText "[1] ]") = .error .trailingData := rfl

-- a number goes on with the point, and is none
example : ofText (Bytes.ofText "1.]") = .error .invalidJson := rfl

/-- Which texts are taken in, why others are not, and that the segments of a token are read in the
same way. -/
theorem intake (text : Bytes) :
    ((∃ c, ofText text = .ok c) ↔ ∃ w, StrictText w text ∧ w.KeepsName) ∧
    (∀ e, ofText text = .error e → e = .invalidJson ∨ e = .trailingData) ∧
    (ofText text = .error .trailingData →
      ∃ d b r, text = d ++ b :: r ∧ isBlank b = false ∧ ∃ c, ofText d = .ok c) ∧
    (∀ w d r, text = d ++ r → StrictText w d → w.KeepsName →
      (∀ l, w = .number l → EndsNumber r) → ¬ Blanks r → ofText text = .error .trailingData) ∧
    (∀ name ms, Token.decodeObject name text = .ok ms ↔ ∃ b w, text = Base64Url.digits b ∧
      StrictText w b ∧ w.KeepsName ∧ w.json = some (.object ms)) := by
  refine ⟨ofText_isOk_iff, fun e => ofText_eq_error, exists_prefix_of_trailingData, ?_, ?_⟩
  · rintro w d r rfl hd hkeeps hnumber hr
    exact trailingData_of_append hd hkeeps hnumber hr
  · intro name ms
    simp only [Token.decodeObject_eq_ok_iff, parse_eq_some_iff, exists_and_left]

/-- A text of one document with one member, under the name that is kept for spelled numbers. -/
theorem refused_for_name :
    ∃ w, StrictText w (Bytes.ofText "\x7b\"$serde_json::private::Number\":1\x7d") ∧
      ofText (Bytes.ofText "\x7b\"$serde_json::private::Number\":1\x7d") = .error .invalidJson := by
  have hpaired : Paired (numberName.map .plain) := paired_of_bytesOf rfl
  refine ⟨.object [(numberName.map .plain, .number [0x31])], ?_, rfl⟩
  exact
    { utf8 := ⟨_, rfl⟩
      element := read_eq_some_iff.mp rfl
      nests := .object (List.forall_mem_singleton.mpr (.number _))
      paired := .object (List.forall_mem_singleton.mpr hpaired)
        (List.forall_mem_singleton.mpr (.number _)) }

end Canonical
end Credentials
