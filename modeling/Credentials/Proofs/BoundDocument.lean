import Credentials.Credential
import Credentials.Proof
import Credentials.Token
import Credentials.Proofs.Challenge
import Credentials.Proofs.Policy.Hash

/-!
# Documents that bind

Signatures, hashes, commitments and proofs are each over the canonical bytes of one document. The
bytes tell what has been bound, and for which purpose: every kind of document has a member at its
root that no other kind has, and canonical form neither drops it nor lets a nested member take its
place.
-/

namespace Credentials

open Json

/-! What each document binds. -/

theorem SubjectId.sameDocument_json_iff {s t : SubjectId} :
    SameDocument s.json t.json ↔ s = t := by
  rw [json, json, sameDocument_string_iff]
  cases s
  cases t
  rw [mk.injEq]

theorem CredentialId.sameDocument_json_iff {c d : CredentialId} :
    SameDocument c.json d.json ↔ c = d := by
  rw [json, json, sameDocument_string_iff]
  constructor
  · intro h
    have hc := parse_text c
    rw [h, parse_text] at hc
    exact (Except.ok.inj hc).symm
  · exact congrArg text

theorem Instant.sameDocument_json_iff {s t : Instant} : SameDocument s.json t.json ↔ s = t := by
  rw [json, json, sameDocument_string_iff]
  exact ⟨text_injective, congrArg text⟩

namespace Token

theorem sameDocument_signed_iff {header header' payload payload' : Members} :
    SameDocument (.object [("header", .object header), ("payload", .object payload)])
        (.object [("header", .object header'), ("payload", .object payload')]) ↔
      SameDocument (.object header) (.object header') ∧
        SameDocument (.object payload) (.object payload') := by
  change SameDocument (ofMembers [("header", .object header), ("payload", .object payload)])
    (ofMembers [("header", .object header'), ("payload", .object payload')]) ↔ _
  rw [sameDocument_ofMembers_iff_forall₂ ["header", "payload"] (by decide) rfl rfl]
  simp only [List.forall₂_cons, List.forall₂_nil_right_iff, and_true]

end Token

namespace Credential

/-- Credentials that differ at most in what their hash does not cover: the claims, the start of
validity, the device and the key. -/
structure SameBound (c d : Credential) : Prop where
  id : c.id = d.id
  policyId : c.policyId = d.policyId
  subjectId : c.subjectId = d.subjectId
  issuedAt : c.issuedAt = d.issuedAt
  expiresAt : c.expiresAt = d.expiresAt
  policyHash : c.policyHash = d.policyHash

def boundNames : List String :=
  ["credentialId", "policyId", "subjectId", "issuedAt", "expiresAt", "policyHash"]

theorem sameDocument_boundDocument_iff {c d : Credential} :
    SameDocument c.boundDocument d.boundDocument ↔ c.SameBound d := by
  rw [boundDocument, boundDocument,
    sameDocument_ofMembers_iff_forall₂ boundNames (by decide) rfl rfl]
  simp only [List.forall₂_cons, List.forall₂_nil_right_iff, CredentialId.sameDocument_json_iff,
    PolicyId.sameDocument_json_iff, SubjectId.sameDocument_json_iff, sameDocument_ofInt_iff,
    sameDocument_string_iff, Instant.epoch_inj, and_true]
  constructor
  · rintro ⟨hid, hpolicy, hsubject, hissued, hexpires, hhash⟩
    exact ⟨hid, hpolicy, hsubject, hissued, hexpires, hhash⟩
  · rintro ⟨hid, hpolicy, hsubject, hissued, hexpires, hhash⟩
    exact ⟨hid, hpolicy, hsubject, hissued, hexpires, hhash⟩

theorem literal_boundDocument (c : Credential) : c.boundDocument.Literal := by
  apply literal_ofMembers
  simp only [List.forall_mem_cons, List.not_mem_nil, false_imp_iff, implies_true, and_true]
  exact ⟨.string _, .string _, .string _, literal_ofInt _, literal_ofInt _, .string _⟩

end Credential

namespace Challenge

/-- The names in the document of a challenge with an audience or without one. -/
def names : Bool → List String
  | false => ["challengeId", "nonce", "policyId", "issuedAt", "expiresAt"]
  | true => ["challengeId", "nonce", "policyId", "issuedAt", "expiresAt", "audience"]

theorem nodup_names (b : Bool) : (names b).Nodup := by
  cases b <;> decide

theorem hasMember_json_iff {c : Challenge} {n : String} :
    HasMember n c.json ↔ n ∈ names c.audience.isSome := by
  rw [json, hasMember_ofMembers_iff]
  cases c.audience <;> rfl

theorem audience_mem_names (b : Bool) : "audience" ∈ names b ↔ b = true := by
  cases b <;> decide

/-- Every field of a challenge stands in its document. -/
theorem sameDocument_json_iff {c d : Challenge} : SameDocument c.json d.json ↔ c = d := by
  constructor
  · intro h
    have haudience : c.audience.isSome = true ↔ d.audience.isSome = true := by
      rw [← audience_mem_names, ← audience_mem_names, ← hasMember_json_iff, ← hasMember_json_iff]
      exact h.hasMember_iff
    obtain ⟨id, nonce, policyId, audience, issuedAt, expiresAt⟩ := c
    obtain ⟨id', nonce', policyId', audience', issuedAt', expiresAt'⟩ := d
    have hnodup := nodup_names audience.isSome
    cases audience with
    | none =>
      cases audience' with
      | some s => cases haudience.mpr rfl
      | none =>
        rw [json, json, sameDocument_ofMembers_iff_forall₂ _ hnodup rfl rfl] at h
        simp only [optionalOf, Json.optional, Option.map_none, List.append_nil, List.forall₂_cons,
          sameDocument_string_iff, PolicyId.sameDocument_json_iff,
          Instant.sameDocument_json_iff] at h
        obtain ⟨rfl, rfl, rfl, rfl, rfl, -⟩ := h
        rfl
    | some s =>
      cases audience' with
      | none => cases haudience.mp rfl
      | some t =>
        rw [json, json, sameDocument_ofMembers_iff_forall₂ _ hnodup rfl rfl] at h
        simp only [optionalOf, Json.optional, Option.map_some, List.cons_append, List.nil_append,
          List.forall₂_cons, sameDocument_string_iff, PolicyId.sameDocument_json_iff,
          Instant.sameDocument_json_iff] at h
        obtain ⟨rfl, rfl, rfl, rfl, rfl, rfl, -⟩ := h
        rfl
  · rintro rfl
    exact sameDocument_iff.mpr rfl

theorem literal_json (c : Challenge) : c.json.Literal := c.lexical_json.literal

end Challenge

namespace TransparentProof

theorem sameDocument_document_iff {circuitId circuitId' : String} {v w : Json} :
    SameDocument (document circuitId v) (document circuitId' w) ↔
      circuitId = circuitId' ∧ SameDocument v w := by
  rw [document, document, sameDocument_ofMembers_iff_forall₂ ["circuitId", "publicInputs"]
    (by decide) rfl rfl]
  simp only [List.forall₂_cons, List.forall₂_nil_right_iff, sameDocument_string_iff, and_true]

end TransparentProof

/-! All kinds of documents. -/

/-- What a document is bound for. -/
inductive Purpose where
  | token
  | credential
  | challenge
  | proof
  | policy
deriving DecidableEq

/-- The name of a member that only documents of one purpose have. -/
def Purpose.mark : Purpose → String
  | .token => "header"
  | .credential => "credentialId"
  | .challenge => "challengeId"
  | .proof => "publicInputs"
  | .policy => "version"

inductive BoundDocument where
  | token (header payload : Members)
  | credential (c : Credential)
  | challenge (c : Challenge)
  | proof (circuitId : String) (publicInputs : Json)
  | policy (d : PolicyDefinition)

namespace BoundDocument

variable {a b : BoundDocument}

/-- The bytes that are signed, hashed, committed to or proved. -/
def canonical : BoundDocument → Canonical
  | .token header payload => Token.signingInput header payload
  | .credential c => .ofJson c.boundDocument
  | .challenge c => .ofJson c.json
  | .proof circuitId publicInputs => .ofJson (TransparentProof.document circuitId publicInputs)
  | .policy d => d.hashInput

def document : BoundDocument → Json
  | .token header payload => .object [("header", .object header), ("payload", .object payload)]
  | .credential c => c.boundDocument
  | .challenge c => c.json
  | .proof circuitId publicInputs => TransparentProof.document circuitId publicInputs
  | .policy d => .ofMembers d.boundMembers

def purpose : BoundDocument → Purpose
  | .token _ _ => .token
  | .credential _ => .credential
  | .challenge _ => .challenge
  | .proof _ _ => .proof
  | .policy _ => .policy

/-- A document in which the trees that are bound as they come hold number literals for their
numbers. -/
inductive Literal : BoundDocument → Prop where
  | token {header payload : Members} : (Json.object header).Literal →
      (Json.object payload).Literal → Literal (.token header payload)
  | credential (c : Credential) : Literal (.credential c)
  | challenge (c : Challenge) : Literal (.challenge c)
  | proof (circuitId : String) {publicInputs : Json} : publicInputs.Literal →
      Literal (.proof circuitId publicInputs)
  | policy {d : PolicyDefinition} : d.signalsSchema.Literal → Literal (.policy d)

/-- Documents of one purpose that bind the same. -/
inductive Agrees : BoundDocument → BoundDocument → Prop where
  | token {header header' payload payload' : Members} :
      SameDocument (.object header) (.object header') →
      SameDocument (.object payload) (.object payload') →
      Agrees (.token header payload) (.token header' payload')
  | credential {c d : Credential} : c.SameBound d → Agrees (.credential c) (.credential d)
  | challenge (c : Challenge) : Agrees (.challenge c) (.challenge c)
  | proof {v w : Json} (circuitId : String) : SameDocument v w →
      Agrees (.proof circuitId v) (.proof circuitId w)
  | policy {d e : PolicyDefinition} : d.SameContent e → Agrees (.policy d) (.policy e)

theorem canonical_eq (b : BoundDocument) : b.canonical = .ofJson b.document := by
  cases b <;> rfl

theorem literal_document (h : b.Literal) : b.document.Literal := by
  cases h with
  | token hheader hpayload =>
    exact .object (List.forall_mem_cons.mpr ⟨hheader, List.forall_mem_singleton.mpr hpayload⟩)
  | credential c => exact c.literal_boundDocument
  | challenge c => exact c.literal_json
  | proof circuitId hinputs =>
    apply literal_ofMembers
    exact List.forall_mem_cons.mpr ⟨.string _, List.forall_mem_singleton.mpr hinputs⟩
  | policy hschema => exact PolicyDefinition.literal_boundMembers hschema

/-- The names at the root of a document. -/
def names : BoundDocument → List String
  | .token _ _ => ["header", "payload"]
  | .credential _ => Credential.boundNames
  | .challenge c => Challenge.names c.audience.isSome
  | .proof _ _ => ["circuitId", "publicInputs"]
  | .policy _ => PolicyDefinition.boundNames

theorem hasMember_document_iff {n : String} : HasMember n b.document ↔ n ∈ b.names := by
  cases b with
  | token header payload => exact hasMember_object_iff
  | credential c => exact hasMember_ofMembers_iff
  | challenge c => exact Challenge.hasMember_json_iff
  | proof circuitId publicInputs => exact hasMember_ofMembers_iff
  | policy d => exact hasMember_ofMembers_iff

/-- The mark of a purpose stands in the documents of this purpose and in no others. -/
theorem mark_mem_names_iff (b : BoundDocument) (p : Purpose) :
    p.mark ∈ b.names ↔ b.purpose = p := by
  cases b with
  | challenge c =>
    rw [names, purpose]
    cases c.audience.isSome <;> cases p <;> decide
  | _ =>
    rw [names, purpose]
    cases p <;> decide

theorem purpose_eq_of_sameDocument (h : SameDocument a.document b.document) :
    a.purpose = b.purpose := by
  have hmark := (mark_mem_names_iff a a.purpose).mpr rfl
  rw [← hasMember_document_iff, h.hasMember_iff, hasMember_document_iff,
    mark_mem_names_iff] at hmark
  exact hmark.symm

theorem sameDocument_iff_agrees : SameDocument a.document b.document ↔ a.Agrees b := by
  constructor
  · intro h
    have hpurpose := purpose_eq_of_sameDocument h
    cases a <;> cases b <;> try cases hpurpose
    · obtain ⟨hheader, hpayload⟩ := Token.sameDocument_signed_iff.mp h
      exact .token hheader hpayload
    · exact .credential (Credential.sameDocument_boundDocument_iff.mp h)
    · obtain rfl := Challenge.sameDocument_json_iff.mp h
      exact .challenge _
    · obtain ⟨rfl, hinputs⟩ := TransparentProof.sameDocument_document_iff.mp h
      exact .proof _ hinputs
    · exact .policy (PolicyDefinition.sameDocument_boundMembers_iff.mp h)
  · intro h
    cases h with
    | token hheader hpayload => exact Token.sameDocument_signed_iff.mpr ⟨hheader, hpayload⟩
    | credential hbound => exact Credential.sameDocument_boundDocument_iff.mpr hbound
    | challenge c => exact Challenge.sameDocument_json_iff.mpr rfl
    | proof circuitId hinputs =>
      exact TransparentProof.sameDocument_document_iff.mpr ⟨rfl, hinputs⟩
    | policy hcontent => exact PolicyDefinition.sameDocument_boundMembers_iff.mpr hcontent

/-- Two documents have the same canonical bytes exactly if they have one purpose and bind the same
for it. -/
theorem canonical_bytes_eq_iff (ha : a.Literal) (hb : b.Literal) :
    a.canonical.bytes = b.canonical.bytes ↔ a.Agrees b := by
  rw [← sameDocument_iff_agrees,
    ← Canonical.ofJson_eq_iff (literal_document ha) (literal_document hb), ← canonical_eq,
    ← canonical_eq]
  exact ⟨congrArg Canonical.mk, congrArg Canonical.bytes⟩

/-- A payload with the members of a proof document does not make a token of it. -/
theorem token_ne_proof :
    (token [] [("circuitId", .string "c1"), ("publicInputs", .number [0x31])]).canonical.bytes ≠
      (proof "c1" (.number [0x31])).canonical.bytes := by
  have hnumber : (Json.number [0x31]).Literal := .number (isLiteral_iff.mp rfl)
  have hpayload : (Json.object
      [("circuitId", .string "c1"), ("publicInputs", .number [0x31])]).Literal :=
    .object (List.forall_mem_cons.mpr ⟨.string _, List.forall_mem_singleton.mpr hnumber⟩)
  have hheader : (Json.object []).Literal := .object fun _ hm => absurd hm List.not_mem_nil
  intro h
  cases (canonical_bytes_eq_iff (.token hheader hpayload) (.proof _ hnumber)).mp h

end BoundDocument
end Credentials
