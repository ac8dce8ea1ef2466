import Credentials.Proofs.BoundDocument
import Credentials.Proofs.Commitment
import Credentials.Proofs.Json.FixedPoint

/-!
# Values and texts

Canonical bytes are made in three ways: of a value that is serialized, of a document in memory, and
of a text. They agree, so whoever has the text of a policy or of a challenge, in whatever layout,
arrives at the hash and the commitment that are computed from the value.
-/

namespace Credentials

namespace Canonical

open Json

variable {text : Bytes} {v : Json}

/-- The text is accepted, and what it decodes to is the document. -/
def DecodesTo (text : Bytes) (v : Json) : Prop :=
  ∃ u, Canonical.read text = .ok u ∧ SameDocument u v

theorem ofText_of_decodesTo (h : DecodesTo text v) : ofText text = .ok (ofJson v) := by
  obtain ⟨u, hread, hsame⟩ := h
  rw [ofText_eq, hread, ← ofJson_eq_of_sameDocument hsame]
  rfl

/-- A text has the canonical bytes of a document exactly if it decodes to the document. -/
theorem ofText_eq_ofJson_iff (hv : v.Literal) :
    ofText text = .ok (ofJson v) ↔ DecodesTo text v := by
  constructor
  · intro h
    obtain ⟨u, hparse, hu⟩ := ofText_eq_ok_iff_parse.mp h
    have hliteral := (lexical_parse hparse).literal
    exact ⟨u, read_eq_ok_iff.mpr hparse, (ofJson_eq_iff hliteral hv).mp hu⟩
  · exact ofText_of_decodesTo

/-- What is computed from a value is what is computed from any text that decodes to its document:
hashes of policies, commitments to challenges, and the canonical bytes of documents. A document in
memory is `Lexical`: its numbers have the spelling of one, and none is spelled `-0`. -/
theorem typed_agrees_with_text (d : PolicyDefinition) (c : Challenge) (key : CommitmentKey)
    (v : Json) (text : Bytes) :
    (DecodesTo text d.contentJson → canonicalHash text = .ok d.hash) ∧
    (DecodesTo text c.json → canonicalCommit text key.bytes = .ok (c.commitment key)) ∧
    (v.Lexical → ofSerialized v = .ok (ofJson v) ∧
      (ofText text = .ok (ofJson v) ↔ DecodesTo text v)) := by
  refine ⟨fun h => ?_, fun h => ?_, fun hv => ?_⟩
  · rw [d.contentJson_eq] at h
    rw [canonicalHash, ofText_of_decodesTo h]
    rfl
  · exact canonicalCommit_of_ofText (ofText_of_decodesTo h) key.minLength_le
  · exact ⟨ofSerialized_of_lexical hv, ofText_eq_ofJson_iff hv.literal⟩

/-! Texts in another layout. -/

def spacedPolicy : PolicyDefinition :=
  ⟨⟨"p"⟩, ⟨1⟩, .draft, "c", "k", "f", [⟨2⟩], 60, .object [("b", .number [0x31]), ("a", .null)],
    none, rfl⟩

def spacedPolicyText : Bytes := Bytes.ofText
  " \x7b\"version\":1, \"policyId\":\"\\u0070\", \"verificationKeyId\":\"k\", \"circuitId\":\"c\",
    \"verificationKeyFingerprint\":\"f\", \"defaultExpirySecs\":60, \"compatibleVersions\":[ 2 ],
    \"requiredPublicSignalsSchema\":\x7b\"a\":null,\"b\":1\x7d\x7d"

def spacedChallenge : Challenge :=
  ⟨"i", "n", ⟨"p"⟩, none, ⟨0, by decide, by decide⟩, ⟨90, by decide, by decide⟩⟩

def spacedChallengeText : Bytes := Bytes.ofText
  "\x7b\"policyId\" : \"p\", \"nonce\" : \"\\u006e\", \"expiresAt\" : \"1970-01-01T00:01:30Z\",
    \"issuedAt\" : \"1970-01-01T00:00:00Z\", \"challengeId\" : \"i\"\x7d"

theorem decodesTo_spacedPolicyText : DecodesTo spacedPolicyText spacedPolicy.contentJson := by
  have hschema : spacedPolicy.signalsSchema.Literal := by
    apply Literal.object
    simp only [List.forall_mem_cons, List.not_mem_nil, false_imp_iff, implies_true, and_true]
    exact ⟨.number (isLiteral_iff.mp rfl), .null⟩
  rw [spacedPolicy.contentJson_eq]
  apply (ofText_eq_ofJson_iff (PolicyDefinition.literal_boundMembers hschema)).mp
  decide +kernel

theorem decodesTo_spacedChallengeText : DecodesTo spacedChallengeText spacedChallenge.json := by
  apply (ofText_eq_ofJson_iff spacedChallenge.literal_json).mp
  decide +kernel

/-- Order, blanks and escapes change neither the hash nor the commitment. -/
theorem agrees_with_spaced_text (key : CommitmentKey) :
    canonicalHash spacedPolicyText = .ok spacedPolicy.hash ∧
    canonicalCommit spacedChallengeText key.bytes = .ok (spacedChallenge.commitment key) :=
  ⟨(typed_agrees_with_text spacedPolicy spacedChallenge key .null _).1 decodesTo_spacedPolicyText,
    (typed_agrees_with_text spacedPolicy spacedChallenge key .null _).2.1
      decodesTo_spacedChallengeText⟩

end Canonical
end Credentials
