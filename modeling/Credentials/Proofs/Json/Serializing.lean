import Credentials.Json.Serialized
import Credentials.Proofs.Json.CanonicalForm

/-!
# Serializing

A document whose numbers are spelled as numbers is serialized into its normal form, so what is
computed by way of serializing is what is computed of the document itself, and it does not fail.
-/

namespace Credentials

namespace Json

variable {ms : Members} {v : Json}

/-! Numbers that are spelled as numbers. -/

theorem isLexicalItems_eq (vs : List Json) : isLexicalItems vs = vs.all isLexical := by
  induction vs with
  | nil => rfl
  | cons v vs ih => rw [isLexicalItems, ih, List.all_cons]

theorem isLexicalMembers_eq (ms : Members) :
    isLexicalMembers ms = ms.all fun m => m.2.isLexical := by
  induction ms with
  | nil => rfl
  | cons m ms ih => rw [isLexicalMembers, ih, List.all_cons]

theorem isLexical_of_lexical (hv : v.Lexical) : v.isLexical = true := by
  induction hv with
  | null => rfl
  | bool b => rfl
  | number hl hzero =>
    rw [isLexical, isLiteral_iff.mpr hl, Bool.true_and]
    exact bne_iff_ne.mpr hzero
  | string s => rfl
  | array _ ih =>
    rw [isLexical, isLexicalItems_eq]
    exact List.all_eq_true.mpr ih
  | object _ ih =>
    rw [isLexical, isLexicalMembers_eq]
    exact List.all_eq_true.mpr ih

theorem lexical_of_isLexical (h : v.isLexical = true) : v.Lexical := by
  induction v using Json.induction with
  | null => exact .null
  | bool b => exact .bool b
  | number l =>
    rw [isLexical, Bool.and_eq_true] at h
    exact .number (isLiteral_iff.mp h.1) (bne_iff_ne.mp h.2)
  | string s => exact .string s
  | array items ih =>
    rw [isLexical, isLexicalItems_eq, List.all_eq_true] at h
    exact .array fun v hv => ih v hv (h v hv)
  | object ms ih =>
    rw [isLexical, isLexicalMembers_eq, List.all_eq_true] at h
    exact .object fun m hm => ih m hm (h m hm)

theorem lexed?_of_lexical (hv : v.Lexical) :
    lexed? v = some ⟨v, isLexical_of_lexical hv⟩ :=
  dif_pos (isLexical_of_lexical hv)

theorem value_of_lexed? {s : Lexed} (h : lexed? v = some s) :
    s.value = v := by
  unfold lexed? at h
  split at h
  · cases h
    rfl
  · cases h

/-! The tree into which a document is serialized. -/

theorem number?_of_isNumber {l : Bytes} (h : IsNumber l) (hzero : l ≠ [0x2d, 0x30]) :
    number? l = some (.number l) := by
  rw [number?, if_pos (isLiteral_iff.mpr h), literalValue, if_neg hzero]

theorem serializedItems?_eq {vs : List Json} (h : ∀ v ∈ vs, v.serialized? = some v.normal) :
    serializedItems? vs = some (normalItems vs) := by
  induction vs with
  | nil => rfl
  | cons v vs ih =>
    obtain ⟨hv, hvs⟩ := List.forall_mem_cons.mp h
    rw [serializedItems?, hv, ih hvs]
    rfl

theorem serializedMembers?_eq (h : ∀ m ∈ ms, m.2.serialized? = some m.2.normal) :
    serializedMembers? ms = some (normalMembers ms) := by
  induction ms with
  | nil => rfl
  | cons m ms ih =>
    obtain ⟨hm, hms⟩ := List.forall_mem_cons.mp h
    rw [serializedMembers?, hm, ih hms]
    rfl

/-- A document is serialized into its normal form; nothing is lost but the order of members. -/
theorem serialized?_of_lexical (hv : v.Lexical) : v.serialized? = some v.normal := by
  induction hv with
  | null => rfl
  | bool b => rfl
  | number hl hzero => exact number?_of_isNumber hl hzero
  | string s => rfl
  | array _ ih =>
    rw [serialized?, serializedItems?_eq ih]
    rfl
  | object _ ih =>
    rw [serialized?, serializedMembers?_eq ih]
    rfl

/-! Leaving a member out. -/

theorem get?_erase (ms : Members) (k n : String) :
    get? (erase ms k) n = if k = n then none else get? ms n := by
  induction ms with
  | nil => simp [erase]
  | cons m ms ih =>
    rw [erase] at ih
    rw [erase, List.filter_cons, get?_cons]
    by_cases hm : m.1 = k
    · rw [if_neg (by simpa using hm), ih, hm]
      split <;> rfl
    · rw [if_pos (by simpa using hm), get?_cons, ih]
      by_cases hn : m.1 = n
      · rw [if_pos hn, if_pos hn, if_neg fun hk => hm (hn.trans hk.symm)]
      · rw [if_neg hn, if_neg hn]

theorem last?_erase (ms : Members) (k n : String) :
    last? (erase ms k) n = if k = n then none else last? ms n := by
  rw [last?, last?, ← get?_erase, erase, erase, List.filter_reverse]

/-- Members may be left out before or after a list of them is made a finite map. -/
theorem erase_membersOf (ms : Members) (k : String) :
    erase (membersOf ms) k = membersOf (erase ms k) := by
  apply ascending_ext
  · exact (ascending_membersOf ms).filter _
  · exact ascending_membersOf _
  · intro n
    rw [get?_erase, get?_membersOf, get?_membersOf, last?_erase]

theorem erase_normalMembers (ms : Members) (k : String) :
    erase (normalMembers ms) k = normalMembers (erase ms k) := by
  rw [normalMembers_eq, normalMembers_eq, erase, erase, List.filter_map]
  rfl

theorem without_ofMembers (ms : Members) (name : String) :
    (ofMembers ms).without name = ofMembers (erase ms name) := by
  rw [ofMembers, without, erase_membersOf, ofMembers]

theorem without_normal (v : Json) (name : String) :
    v.normal.without name = (v.without name).normal := by
  cases v with
  | object ms => rw [normal, without, without, erase_membersOf, erase_normalMembers, normal]
  | null => rfl
  | bool b => rfl
  | number l => rfl
  | string s => rfl
  | array items => rfl

end Json

namespace Canonical

open Json

theorem ofSerialized_of_lexical {v : Json} (hv : v.Lexical) :
    ofSerialized v = .ok (ofJson v) := by
  rw [ofSerialized, serialized?_of_lexical hv]
  change ofValue v.normal = _
  rw [ofValue_eq, ofJson_normal]

end Canonical
end Credentials
