import Credentials.Proofs.Issuance.Acceptance

/-!
# Decoding what was issued

Issuing puts no limit on the claims, and decoding does: the payload stands around them, so that
claims which nest as deeply as a decoder allows at all are issued within a payload that nests one
level deeper. A token with such claims is refused by the decoder, as is one whose claims list first
the name that is kept for spelled numbers; all others are decoded to what was signed.
-/

namespace Credentials

namespace World

variable {w : World} {id : CredentialId} {q : IssueRequest} {text : Bytes}

/-- An issued token holds a signature that the current key gave for its header and its payload, and
it is decoded to these exactly if the claims are readable and nest at most 126 deep. -/
theorem decode_issued (hw : Reached w) (hclaims : Json.parse text = some (.object q.claims))
    {issued : IssuedCredential} {v : World} (hissue : issuer.issue id q w = (.ok issued, v)) :
    ∃ s, w.keys.sign issued.credential.keyId
        (Token.signingInput (Token.headerFor issued.credential.keyId)
          issued.credential.toPayload) = .ok s ∧
      issued.token = Token.encode (Token.headerFor issued.credential.keyId)
        issued.credential.toPayload s ∧
      (Token.decode issued.token = .ok ⟨Token.headerFor issued.credential.keyId,
          issued.credential.toPayload, s.bytes⟩ ↔
        (Json.object q.claims).ReadableWithin 126) ∧
      (¬ (Json.object q.claims).ReadableWithin 126 →
        Token.decode issued.token = .error (.notAnObject .payload)) := by
  obtain ⟨_, p, k, expiry, s, hissues, rfl⟩ := (issue_eq_ok_iff hw.not_cancelled).mp hissue
  have hrefused : ¬ (Json.object q.claims).ReadableWithin 126 →
      Token.decode (w.issuedBy id q p k expiry s).token = .error (.notAnObject .payload) :=
    decode_issuedBy_eq_error hclaims
  refine ⟨s, hissues.signed, rfl, ⟨?_, decode_issuedBy hclaims⟩, hrefused⟩
  intro hdecode
  by_contra h
  rw [hrefused h] at hdecode
  cases hdecode

/-- A flat object of claims is decoded again. -/
theorem decode_issued_flat : ∃ issued,
    issuer.issue ⟨Uuid.nil⟩ (sampleRequest [("a", .number [0x31])]) sampleWorld
      = (.ok issued, sampleWorld) ∧
    ∃ t, Token.decode issued.token = .ok t ∧ t.payload = issued.credential.toPayload := by
  have hclaims : Json.parse (Bytes.ofText "\x7b\"a\":1\x7d")
      = some (.object (sampleRequest [("a", .number [0x31])]).claims) := rfl
  have hreadable : (Json.object [("a", .number [0x31])]).ReadableWithin 126 :=
    ⟨.object (by decide) (List.forall_mem_singleton.mpr (.number _)), by decide⟩
  obtain ⟨issued, hissue, _⟩ := issue_sampleRequest [("a", .number [0x31])]
  obtain ⟨s, _, _, hdecode, _⟩ := decode_issued reached_sampleWorld hclaims hissue
  exact ⟨issued, hissue, _, hdecode.mpr hreadable, rfl⟩

/-! Claims that nest too deeply. -/

/-- Objects in one another, the innermost one empty. -/
def nestedClaims : Nat → Json.Members
  | 0 => []
  | n + 1 => [("a", .object (nestedClaims n))]

theorem depth_nestedClaims (n : Nat) : (Json.object (nestedClaims n)).depth = n + 1 := by
  induction n with
  | zero => rfl
  | succ n ih => rw [nestedClaims, Json.depth, Json.depthMembers, ih, Json.depthMembers, Nat.max_zero]

theorem isNormal_nestedClaims (n : Nat) : (Json.object (nestedClaims n)).IsNormal := by
  induction n with
  | zero => exact .object List.Pairwise.nil nofun
  | succ n ih => exact .object (List.pairwise_singleton _ _) (List.forall_mem_singleton.mpr ih)

theorem lexical_nestedClaims (n : Nat) : (Json.object (nestedClaims n)).Lexical := by
  induction n with
  | zero => exact .object nofun
  | succ n ih => exact .object (List.forall_mem_singleton.mpr ih)

theorem readable_nestedClaims (n : Nat) : (Json.object (nestedClaims n)).Readable := by
  induction n with
  | zero => exact .object nofun nofun
  | succ n ih =>
    refine .object ?_ (List.forall_mem_singleton.mpr ih)
    intro m hm
    cases hm
    change ¬ Json.IsNumberName "a"
    decide

/-- The text of these claims is decoded as long as it nests at most 127 deep. -/
theorem parse_nestedClaims {n : Nat} (h : n < 127) :
    Json.parse (Json.object (nestedClaims n)).print = some (.object (nestedClaims n)) := by
  apply Json.parse_print (isNormal_nestedClaims n) (lexical_nestedClaims n)
  refine ⟨readable_nestedClaims n, ?_⟩
  rw [depth_nestedClaims]
  exact h

/-- Claims that a decoder accepts are issued in a token that it refuses. -/
theorem issued_but_refused :
    Json.parse (Json.object (nestedClaims 126)).print = some (.object (nestedClaims 126)) ∧
    Reached sampleWorld ∧ ∃ issued,
      issuer.issue ⟨Uuid.nil⟩ (sampleRequest (nestedClaims 126)) sampleWorld
        = (.ok issued, sampleWorld) ∧
      Token.decode issued.token = .error (.notAnObject .payload) := by
  have hparse := parse_nestedClaims (n := 126) (by decide)
  obtain ⟨issued, hissue, _⟩ := issue_sampleRequest (nestedClaims 126)
  obtain ⟨_, p, k, expiry, s, _, rfl⟩ := (issue_eq_ok_iff rfl).mp hissue
  refine ⟨hparse, reached_sampleWorld, _, hissue, ?_⟩
  apply decode_issuedBy_eq_error (q := sampleRequest (nestedClaims 126)) hparse
  intro h
  have hdepth : (Json.object (nestedClaims 126)).depth ≤ 126 := h.depth
  rw [depth_nestedClaims] at hdepth
  exact absurd hdepth (by decide)

end World
end Credentials
