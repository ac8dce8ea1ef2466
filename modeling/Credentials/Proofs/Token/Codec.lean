import Credentials.Proofs.Json.FixedPoint
import Credentials.Validator

/-!
# Tokens as texts

An encoded token decodes to its parts if header and payload are read back from their canonical
bytes. A text that decodes at all is three segments between two points, each the one base64url text
of its bytes. What a segment holds matters, and how it is laid out does not, neither to the bytes
that are signed nor to a validator.
-/

namespace Credentials

open Json

namespace Token

/-! Segments. -/

theorem segments_eq_iff {s : String} {h p g : Bytes} :
    segments s = [Base64Url.digits h, Base64Url.digits p, Base64Url.digits g] ↔
      Bytes.ofText (Text.trim s) = Base64Url.digits h ++ 0x2e ::
        (Base64Url.digits p ++ 0x2e :: Base64Url.digits g) := by
  have hpoint (b : Bytes) : ∀ x ∈ Base64Url.digits b, x ≠ 0x2e := fun x hx =>
    (Base64Url.digits_visible b x hx).2.2
  constructor
  · intro hsegments
    have hjoined := Bytes.intercalate_pieces 0x2e (Bytes.ofText (Text.trim s))
    rw [← segments, hsegments] at hjoined
    simpa using hjoined.symm
  · intro htext
    rw [segments, htext, Bytes.pieces_append (hpoint h), Bytes.pieces_append (hpoint p),
      Bytes.pieces_of_forall_ne (hpoint g)]

theorem count_points {s : String} {t : Token} (h : decode s = .ok t) :
    (Bytes.ofText (Text.trim s)).count 0x2e = 2 := by
  obtain ⟨_, _, hsegments, _⟩ := decode_eq_ok_iff.mp h
  have hlength := Bytes.length_pieces 0x2e (Bytes.ofText (Text.trim s))
  rw [← segments, hsegments] at hlength
  exact (Nat.succ.inj hlength).symm

/-- A token that holds a header, a payload and a signature: two documents as they stand in the
segments, and bytes. -/
inductive Holds (s : String) (header payload : Json) (signature : Bytes) : Prop where
  | segments {h p : Bytes} : Bytes.ofText (Text.trim s) = Base64Url.digits h ++ 0x2e ::
      (Base64Url.digits p ++ 0x2e :: Base64Url.digits signature) →
      tree? h = some header → tree? p = some payload → Holds s header payload signature

variable {s s' : String} {header header' payload payload' : Json} {g : Bytes}

theorem holds_of_decode {t : Token} (h : decode s = .ok t) : ∃ header payload,
    Holds s header payload t.signature ∧ header.normal = .object t.header ∧
      payload.normal = .object t.payload := by
  obtain ⟨b, c, hsegments, hb, hc⟩ := decode_eq_ok_iff.mp h
  rw [parse_eq_tree?] at hb hc
  obtain ⟨header, hheader, hnormal⟩ := Option.map_eq_some_iff.mp hb
  obtain ⟨payload, hpayload, hnormal'⟩ := Option.map_eq_some_iff.mp hc
  exact ⟨header, payload, .segments (segments_eq_iff.mp hsegments) hheader hpayload, hnormal,
    hnormal'⟩

/-- Tokens that hold the same documents and the same signature are decoded alike. -/
theorem decode_of_sameDocument (h : Holds s header payload g) (h' : Holds s' header' payload' g)
    (hheader : SameDocument header header') (hpayload : SameDocument payload payload') :
    decode s = decode s' := by
  obtain ⟨htext, hb, hc⟩ := h
  obtain ⟨htext', hb', hc'⟩ := h'
  simp only [decode, segments_eq_iff.mpr htext, segments_eq_iff.mpr htext', decodeObject_digits,
    decodeSegment_digits, parse_eq_tree?, hb, hb', hc, hc', Option.map_some,
    normal_eq_of_sameDocument hheader, normal_eq_of_sameDocument hpayload]

/-- A validator looks at a token only as it is decoded. -/
theorem validate_of_decode_eq (h : decode s = decode s') {W : Type} (v : Validator W) (w : W) :
    v.validate s w = v.validate s' w := by
  have hnamed : Validator.named s = Validator.named s' := by
    rw [Validator.named, Validator.named, h]
  unfold Validator.validate Validator.run
  rw [hnamed]

/-! Encoded tokens. -/

theorem decode_around_iff {header payload : Members} (s : Signature) {a b : String}
    (hheader : IsNormal (.object header)) (hpayload : IsNormal (.object payload))
    (hlex : Lexical (.object header)) (hlex' : Lexical (.object payload))
    (hdepth : (Json.object header).depth ≤ 127) (hdepth' : (Json.object payload).depth ≤ 127)
    (ha : ∀ c ∈ a.toList, Text.isBlank c = true) (hb : ∀ c ∈ b.toList, Text.isBlank c = true) :
    decode (a ++ (encode header payload s ++ b)) = .ok ⟨header, payload, s.bytes⟩ ↔
      Readable (.object header) ∧ Readable (.object payload) := by
  have hread := Canonical.parse_ofJson_iff hlex hdepth
  have hread' := Canonical.parse_ofJson_iff hlex' hdepth'
  rw [normal_of_isNormal hheader] at hread
  rw [normal_of_isNormal hpayload] at hread'
  rw [← hread, ← hread', decode_eq_ok_iff, segments_around header payload s ha hb]
  constructor
  · rintro ⟨h, p, hsegments, hh, hp⟩
    rw [List.cons.injEq, List.cons.injEq] at hsegments
    rw [Base64Url.digits_injective hsegments.1, Base64Url.digits_injective hsegments.2.1]
    exact ⟨hh, hp⟩
  · rintro ⟨hh, hp⟩
    exact ⟨_, _, rfl, hh, hp⟩

/-- A token is refused for its payload if only the header is read back. -/
theorem decode_encode_of_unread {header payload : Members} (s : Signature)
    (hheader : parse (Canonical.ofJson (.object header)).bytes = some (.object header))
    (hpayload : parse (Canonical.ofJson (.object payload)).bytes = none) :
    decode (encode header payload s) = .error (.notAnObject .payload) := by
  simp only [decode, segments_encode, decodeObject_digits, hheader, hpayload, Option.bind_some,
    Option.bind_none, asObject?]

/-- When an encoded token is decoded to its parts, what is decoded at all, and what decoding does not
look at. -/
theorem codec (s : String) :
    (∀ (header payload : Members) (signature : Signature) (a b : String),
      IsNormal (.object header) → IsNormal (.object payload) →
      Lexical (.object header) → Lexical (.object payload) →
      (Json.object header).depth ≤ 127 → (Json.object payload).depth ≤ 127 →
      (∀ c ∈ a.toList, Text.isBlank c = true) → (∀ c ∈ b.toList, Text.isBlank c = true) →
      s = a ++ (encode header payload signature ++ b) →
      (decode s = .ok ⟨header, payload, signature.bytes⟩ ↔
        Readable (.object header) ∧ Readable (.object payload))) ∧
    (∀ t, decode s = .ok t → (Bytes.ofText (Text.trim s)).count 0x2e = 2 ∧
      ∃ header payload, Holds s header payload t.signature ∧ header.normal = .object t.header ∧
        payload.normal = .object t.payload) ∧
    (∀ b : Bytes, (∀ x, Base64Url.decode? x = some b ↔ x = Base64Url.digits b) ∧
      (∀ x ∈ Base64Url.digits b, x ∈ Base64Url.alphabet) ∧
      (Base64Url.digits b).length = (8 * b.length + 5) / 6) ∧
    (∀ s' header header' payload payload' g, Holds s header payload g →
      Holds s' header' payload' g → SameDocument header header' → SameDocument payload payload' →
      decode s = decode s' ∧
      (∀ t t', decode s = .ok t → decode s' = .ok t' →
        signingInput t.header t.payload = signingInput t'.header t'.payload) ∧
      ∀ (W : Type) (v : Validator W) (w : W), v.validate s w = v.validate s' w) := by
  refine ⟨?_, ?_, ?_, ?_⟩
  · rintro header payload signature a b hheader hpayload hlex hlex' hdepth hdepth' ha hb rfl
    exact decode_around_iff signature hheader hpayload hlex hlex' hdepth hdepth' ha hb
  · exact fun t h => ⟨count_points h, holds_of_decode h⟩
  · exact fun b => ⟨fun x => Base64Url.decode?_eq_some_iff, Base64Url.digits_alphabet b,
      Base64Url.length_digits b⟩
  · intro s' header header' payload payload' g h h' hheader hpayload
    have hdecode := decode_of_sameDocument h h' hheader hpayload
    refine ⟨hdecode, fun t t' ht ht' => ?_, fun W v w => validate_of_decode_eq hdecode v w⟩
    rw [hdecode, ht'] at ht
    rw [Except.ok.inj ht]

/-- An object that was decoded from a text in which its first member stood behind the other one. -/
def keptNameFirst : Members :=
  [(Bytes.asciiText numberName, .string "5"), ("a", .number [0x31])]

def blankSignature : Signature := ⟨List.replicate 64 0, rfl⟩

theorem decode_encode_keptNameFirst :
    parse (Bytes.ofText "\x7b\"a\":1,\"$serde_json::private::Number\":\"5\"\x7d")
      = some (.object keptNameFirst) ∧
    (Json.object keptNameFirst).depth ≤ 127 ∧
    decode (encode [] keptNameFirst blankSignature) = .error (.notAnObject .payload) := by
  have hheader : parse (Canonical.ofJson (.object [])).bytes = some (.object []) := rfl
  have hpayload : parse (Canonical.ofJson (.object keptNameFirst)).bytes = none := rfl
  exact ⟨rfl, by decide, decode_encode_of_unread blankSignature hheader hpayload⟩

end Token
end Credentials
