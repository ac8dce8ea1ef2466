import Credentials.Token
import Credentials.Proofs.Base64Url
import Credentials.Proofs.Json.RoundTrip
import Credentials.Proofs.Json.Sink

/-!
# Reading back tokens

An encoded token is cut into the segments it was made of, and these decode to the header, the
payload and the signature as far as header and payload are read back from their canonical bytes.
Putting a token together never fails.
-/

namespace Credentials

open Json

namespace Token

/-! Putting together. -/

@[simp]
theorem canonical_eq (v : Json) : canonical v = .ok (Canonical.ofJson v) := by
  rw [canonical, Canonical.ofValue_eq]
  rfl

theorem trySigningInput_eq (header payload : Members) :
    trySigningInput header payload = .ok (signingInput header payload) :=
  canonical_eq _

theorem tryEncode_eq (header payload : Members) (s : Signature) :
    tryEncode header payload s = .ok (encode header payload s) := by
  rw [tryEncode, canonical_eq, canonical_eq]
  rfl

/-! Segments. -/

theorem encode_eq_asciiText (header payload : Members) (s : Signature) :
    encode header payload s = Bytes.asciiText
      (Base64Url.digits (Canonical.ofJson (.object header)).bytes ++ 0x2e ::
        (Base64Url.digits (Canonical.ofJson (.object payload)).bytes ++ 0x2e ::
          Base64Url.digits s.bytes)) := by
  have hpoint : "." = Bytes.asciiText [0x2e] := rfl
  simp only [encode, Base64Url.encode, hpoint, ← Bytes.asciiText_append, List.append_assoc,
    List.cons_append, List.nil_append]

/-- Blanks around an encoded token do not matter. -/
theorem segments_around (header payload : Members) (s : Signature) {a b : String}
    (ha : ∀ c ∈ a.toList, Text.isBlank c = true) (hb : ∀ c ∈ b.toList, Text.isBlank c = true) :
    segments (a ++ (encode header payload s ++ b)) =
      [Base64Url.digits (Canonical.ofJson (.object header)).bytes,
        Base64Url.digits (Canonical.ofJson (.object payload)).bytes,
        Base64Url.digits s.bytes] := by
  have hvisible (b : Bytes) : ∀ x ∈ Base64Url.digits b, 0x20 < x ∧ x < 0x7f := fun x hx =>
    ⟨(Base64Url.digits_visible b x hx).1, (Base64Url.digits_visible b x hx).2.1⟩
  have hpoint (b : Bytes) : ∀ x ∈ Base64Url.digits b, x ≠ 0x2e := fun x hx =>
    (Base64Url.digits_visible b x hx).2.2
  have hall : ∀ x ∈ Base64Url.digits (Canonical.ofJson (.object header)).bytes ++ 0x2e ::
      (Base64Url.digits (Canonical.ofJson (.object payload)).bytes ++ 0x2e ::
        Base64Url.digits s.bytes), 0x20 < x ∧ x < 0x7f := by
    intro x hx
    rw [List.mem_append, List.mem_cons, List.mem_append, List.mem_cons] at hx
    rcases hx with hx | rfl | hx | rfl | hx
    · exact hvisible _ x hx
    · decide
    · exact hvisible _ x hx
    · decide
    · exact hvisible _ x hx
  have hascii : ∀ x ∈ Base64Url.digits (Canonical.ofJson (.object header)).bytes ++ 0x2e ::
      (Base64Url.digits (Canonical.ofJson (.object payload)).bytes ++ 0x2e ::
        Base64Url.digits s.bytes), x < 0x80 := fun x hx =>
    UInt8.lt_trans (hall x hx).2 (by decide)
  rw [segments, encode_eq_asciiText, Text.trim_around hall ha hb, Bytes.ofText_asciiText hascii,
    Bytes.pieces_append (hpoint _), Bytes.pieces_append (hpoint _),
    Bytes.pieces_of_forall_ne (hpoint _)]

theorem segments_encode (header payload : Members) (s : Signature) :
    segments (encode header payload s) =
      [Base64Url.digits (Canonical.ofJson (.object header)).bytes,
        Base64Url.digits (Canonical.ofJson (.object payload)).bytes,
        Base64Url.digits s.bytes] := by
  have hnone : ∀ c ∈ "".toList, Text.isBlank c = true := nofun
  have hsegments := segments_around header payload s hnone hnone
  rwa [String.empty_append, String.append_empty] at hsegments

theorem decodeSegment_digits (name : TokenSegment) (b : Bytes) :
    decodeSegment name (Base64Url.digits b) = .ok b := by
  rw [decodeSegment, Base64Url.decode?_digits]

theorem decodeObject_digits (name : TokenSegment) (b : Bytes) :
    decodeObject name (Base64Url.digits b) = match (parse b).bind asObject? with
      | some ms => .ok ms
      | none => .error (.notAnObject name) := by
  have hsegment := decodeSegment_digits name b
  cases hobject : (parse b).bind asObject? with
  | none => simp only [decodeObject, hsegment, hobject]
  | some ms => simp only [decodeObject, hsegment, hobject]

theorem parse_bind_asObject?_eq_some_iff {b : Bytes} {ms : Members} :
    (parse b).bind asObject? = some ms ↔ parse b = some (.object ms) := by
  constructor
  · intro h
    obtain ⟨v, hv, hobject⟩ := Option.bind_eq_some_iff.mp h
    cases v <;> cases hobject
    exact hv
  · intro h
    rw [h]
    rfl

theorem decodeSegment_eq_ok_iff {name : TokenSegment} {s b : Bytes} :
    decodeSegment name s = .ok b ↔ s = Base64Url.digits b := by
  rw [← Base64Url.decode?_eq_some_iff, decodeSegment]
  cases Base64Url.decode? s <;> simp

/-- A segment of an object holds a text with this object in it. -/
theorem decodeObject_eq_ok_iff {name : TokenSegment} {s : Bytes} {ms : Members} :
    decodeObject name s = .ok ms ↔ ∃ b, s = Base64Url.digits b ∧ parse b = some (.object ms) := by
  constructor
  · intro h
    unfold decodeObject at h
    split at h
    · cases h
    · next b hs =>
      split at h
      · next hobject =>
        cases h
        exact ⟨b, decodeSegment_eq_ok_iff.mp hs, parse_bind_asObject?_eq_some_iff.mp hobject⟩
      · cases h
  · rintro ⟨b, rfl, hparse⟩
    rw [decodeObject_digits, hparse]
    rfl

/-! The parts of a token. -/

theorem decode_eq_ok_iff {s : String} {t : Token} : decode s = .ok t ↔ ∃ h p,
    segments s = [Base64Url.digits h, Base64Url.digits p, Base64Url.digits t.signature] ∧
      parse h = some (.object t.header) ∧ parse p = some (.object t.payload) := by
  constructor
  · intro hdecode
    unfold decode at hdecode
    split at hdecode
    · next hsegments =>
      split at hdecode
      · cases hdecode
      · next hheader =>
        split at hdecode
        · cases hdecode
        · next hpayload =>
          split at hdecode
          · cases hdecode
          · next hsignature =>
            cases hdecode
            obtain ⟨h, rfl, hh⟩ := decodeObject_eq_ok_iff.mp hheader
            obtain ⟨p, rfl, hp⟩ := decodeObject_eq_ok_iff.mp hpayload
            obtain rfl := decodeSegment_eq_ok_iff.mp hsignature
            exact ⟨h, p, hsegments, hh, hp⟩
    · cases hdecode
  · rintro ⟨h, p, hsegments, hh, hp⟩
    simp only [decode, hsegments, decodeObject_digits, decodeSegment_digits, hh, hp,
      Option.bind_some, asObject?]

theorem decode_encode {header payload : Members} (s : Signature)
    (hheader : parse (Canonical.ofJson (.object header)).bytes = some (.object header))
    (hpayload : parse (Canonical.ofJson (.object payload)).bytes = some (.object payload)) :
    decode (encode header payload s) = .ok ⟨header, payload, s.bytes⟩ :=
  decode_eq_ok_iff.mpr ⟨_, _, segments_encode header payload s, hheader, hpayload⟩

/-- An encoded token decodes only if its header and its payload are read back. -/
theorem decode_encode_eq_ok {header payload : Members} {s : Signature} {t : Token}
    (h : decode (encode header payload s) = .ok t) :
    parse (Canonical.ofJson (.object header)).bytes = some (.object t.header) ∧
      parse (Canonical.ofJson (.object payload)).bytes = some (.object t.payload) := by
  obtain ⟨b, c, hsegments, hb, hc⟩ := decode_eq_ok_iff.mp h
  rw [segments_encode, List.cons.injEq, List.cons.injEq] at hsegments
  rw [Base64Url.digits_injective hsegments.1, Base64Url.digits_injective hsegments.2.1]
  exact ⟨hb, hc⟩

/-! Headers. -/

theorem headerFor_eq (k : KeyId) : headerFor k =
    [("alg", .string signatureAlgorithm), ("kid", .string k.name), ("typ", .string "JWT")] := rfl

/-- An object of texts alone is lexical, readable and flat. -/
theorem parse_headerFor (k : KeyId) :
    parse (Canonical.ofJson (.object (headerFor k))).bytes = some (.object (headerFor k)) := by
  have hstring : ∀ m ∈ headerFor k, ∃ s, m.2 = .string s := by
    rw [headerFor_eq]
    simp
  have hnormal : IsNormal (.object (headerFor k)) := by
    refine .object (ascending_membersOf _) fun m hm => ?_
    obtain ⟨s, hs⟩ := hstring m hm
    exact hs ▸ .string s
  have hlexical : Lexical (.object (headerFor k)) := by
    refine .object fun m hm => ?_
    obtain ⟨s, hs⟩ := hstring m hm
    exact hs ▸ .string s
  have hreadable : Readable (.object (headerFor k)) := by
    refine .object (fun m hm => ?_) fun m hm => ?_
    · cases hm
      decide
    · obtain ⟨s, hs⟩ := hstring m hm
      exact hs ▸ .string s
  rw [Canonical.ofJson, normal_of_isNormal hnormal]
  have hdepth : (Json.object (headerFor k)).depth ≤ maxDepth := by
    simp [headerFor_eq, depth, depthMembers, maxDepth]
  exact parse_print hnormal hlexical ⟨hreadable, hdepth⟩

theorem get?_headerFor (k : KeyId) : get? (headerFor k) "kid" = some (.string k.name) := by
  rw [headerFor_eq]
  simp [get?]

theorem keyId?_headerFor (k : KeyId) (payload : Members) (s : Bytes) :
    keyId? ⟨headerFor k, payload, s⟩ = (KeyId.ofName k.name).toOption := by
  rw [keyId?, get?_headerFor, Option.bind_some, asString?, Option.bind_some]

theorem algorithm?_headerFor (k : KeyId) (payload : Members) (s : Bytes) :
    algorithm? ⟨headerFor k, payload, s⟩ = some signatureAlgorithm := rfl

/-- The header of a token that was encoded for a key names no other key. -/
theorem keyId?_of_decode_encode {k id : KeyId} {payload : Members} {s : Signature} {t : Token}
    (h : decode (encode (headerFor k) payload s) = .ok t) (hid : t.keyId? = some id) : id = k := by
  have hheader := (decode_encode_eq_ok h).1
  rw [parse_headerFor] at hheader
  have hsame : headerFor k = t.header := object.inj (Option.some.inj hheader)
  rw [keyId?, ← hsame, get?_headerFor, Option.bind_some, asString?, Option.bind_some] at hid
  cases hname : KeyId.ofName k.name with
  | error e =>
    rw [hname] at hid
    cases hid
  | ok n =>
    rw [hname] at hid
    cases hid
    exact KeyId.ofName_eq_ok hname

end Token
end Credentials
