import Credentials.Credential
import Credentials.Proofs.Json.RoundTrip
import Credentials.Proofs.Json.Sink
import Credentials.Proofs.Step
import Credentials.Proofs.Uuid

/-!
# Reading back credentials

The payload of a credential holds every field under a name of its own, so the credential is rebuilt
from it. As a document it is read back exactly if the claims are.
-/

namespace Credentials.Credential

open Json

variable {c : Credential}

theorem tryHash_eq (c : Credential) : c.tryHash = .ok c.hash := by
  rw [tryHash, Canonical.ofValue_eq]
  rfl

/-! The members of a payload. -/

theorem toPayload_eq (c : Credential) : c.toPayload =
    ("claims", .object c.claims) :: (optionalOf "deviceTag" .string c.deviceTag
      ++ ("exp", .ofInt c.expiresAt.epoch) :: ("iat", .ofInt c.issuedAt.epoch)
        :: ("jti", c.id.json) :: (optionalOf "nbf" (fun t : Instant => .ofInt t.epoch) c.notBefore
          ++ [("policyHash", .string c.policyHash), ("policyId", c.policyId.json),
            ("sub", c.subjectId.json)])) := by
  cases c with
  | mk id policyId subjectId claims issuedAt expiresAt notBefore keyId deviceTag policyHash =>
    cases notBefore <;> cases deviceTag <;> rfl

theorem mem_toPayload {m : String × Json} (h : m ∈ c.toPayload) :
    ¬ IsNumberName m.1 ∧
      (m.2 = .object c.claims ∨ (∃ s, m.2 = .string s) ∨ ∃ i, m.2 = .ofInt i) := by
  have hmember : ∀ m ∈ c.toPayload, m.1 ∈ ["claims", "deviceTag", "exp", "iat", "jti", "nbf",
      "policyHash", "policyId", "sub"] ∧
      (m.2 = .object c.claims ∨ (∃ s, m.2 = .string s) ∨ ∃ i, m.2 = .ofInt i) := by
    rw [toPayload_eq]
    cases c.deviceTag <;> cases c.notBefore <;>
      simp [optionalOf, Json.optional, CredentialId.json, PolicyId.json, SubjectId.json]
  have hnames : ∀ n ∈ ["claims", "deviceTag", "exp", "iat", "jti", "nbf", "policyHash",
      "policyId", "sub"], ¬ IsNumberName n := by
    decide
  obtain ⟨hname, hvalue⟩ := hmember m h
  exact ⟨hnames _ hname, hvalue⟩

/-- The members of a payload are the claims, texts and numerals. -/
theorem forall_mem_toPayload {p : Json → Prop} (claims : p (.object c.claims))
    (text : ∀ s, p (.string s)) (numeral : ∀ i, p (.ofInt i)) : ∀ m ∈ c.toPayload, p m.2 := by
  intro m hm
  rcases (mem_toPayload hm).2 with hv | ⟨s, hv⟩ | ⟨i, hv⟩
  · exact hv ▸ claims
  · exact hv ▸ text s
  · exact hv ▸ numeral i

theorem claims_mem_toPayload (c : Credential) : ("claims", .object c.claims) ∈ c.toPayload := by
  rw [toPayload_eq]
  exact List.mem_cons_self

/-! The payload as a document. -/

theorem isNormal_toPayload (h : IsNormal (.object c.claims)) :
    IsNormal (.object c.toPayload) :=
  .object (ascending_membersOf _) (forall_mem_toPayload h .string fun _ => .number _)

theorem lexical_toPayload (h : Lexical (.object c.claims)) : Lexical (.object c.toPayload) :=
  .object (forall_mem_toPayload h .string fun i =>
    .number (isNumber_ofInt i) (ofInt_ne_minusZero i))

theorem unspelled_toPayload (h : Unspelled (.object c.claims)) :
    Unspelled (.object c.toPayload) := by
  refine .object (fun m hm => ?_) (forall_mem_toPayload h .string fun _ => .number _)
  exact (mem_toPayload (hm ▸ List.mem_cons_self)).1

theorem readable_toPayload_iff :
    Readable (.object c.toPayload) ↔ Readable (.object c.claims) := by
  constructor
  · intro h
    cases h with
    | object _ hvalues => exact hvalues _ (claims_mem_toPayload c)
  · intro h
    refine .object (fun m hm => ?_) (forall_mem_toPayload h .string fun _ => .number _)
    exact (mem_toPayload (List.mem_of_head? hm)).1

theorem depth_toPayload_le_iff {n : Nat} :
    (Json.object c.toPayload).depth ≤ n + 1 ↔ (Json.object c.claims).depth ≤ n := by
  rw [depth, Nat.succ_le_succ_iff, depthMembers_le_iff]
  constructor
  · intro h
    exact h _ (claims_mem_toPayload c)
  · intro h
    exact forall_mem_toPayload (p := fun v => v.depth ≤ n) h (fun _ => Nat.zero_le n)
      fun _ => Nat.zero_le n

theorem readableWithin_toPayload_iff {n : Nat} :
    (Json.object c.toPayload).ReadableWithin (n + 1) ↔ (Json.object c.claims).ReadableWithin n := by
  constructor
  · intro h
    exact ⟨readable_toPayload_iff.mp h.readable, depth_toPayload_le_iff.mp h.depth⟩
  · intro h
    exact ⟨readable_toPayload_iff.mpr h.readable, depth_toPayload_le_iff.mpr h.depth⟩

section Decoded

variable {text : Bytes} (hclaims : parse text = some (.object c.claims))
include hclaims

theorem ofJson_toPayload :
    (Canonical.ofJson (.object c.toPayload)).bytes = (Json.object c.toPayload).print := by
  rw [Canonical.ofJson, normal_of_isNormal (isNormal_toPayload (isNormal_parse hclaims))]

/-- The payload of a credential with decoded claims is read back if they are readable and leave
room for the payload around them. -/
theorem parse_toPayload (h : (Json.object c.claims).ReadableWithin 126) :
    parse (Canonical.ofJson (.object c.toPayload)).bytes = some (.object c.toPayload) := by
  rw [ofJson_toPayload hclaims]
  exact parse_print (isNormal_toPayload (isNormal_parse hclaims))
    (lexical_toPayload (lexical_parse hclaims)) (readableWithin_toPayload_iff.mpr h)

/-- It is not read back otherwise. -/
theorem readableWithin_of_parse_toPayload {v : Json}
    (h : parse (Canonical.ofJson (.object c.toPayload)).bytes = some v) :
    (Json.object c.claims).ReadableWithin 126 := by
  rw [ofJson_toPayload hclaims] at h
  exact readableWithin_toPayload_iff.mp (readableWithin_of_parse_print
    (lexical_toPayload (lexical_parse hclaims)) (unspelled_toPayload (unspelled_parse hclaims)) h)

end Decoded

/-! Rebuilding the credential. -/

theorem instant?_ofInt (t : Instant) : Claim.instant? (.ofInt t.epoch) = some t := by
  change (Decimal.signed? (Decimal.ofInt t.epoch)).bind Instant.ofEpoch? = some t
  rw [signed?_ofInt, Option.bind_some, Instant.ofEpoch?, dif_pos ⟨t.least_le, t.le_greatest⟩]

section Claims

open Claim

variable {payload : Members} {claim : String}

theorem requiredText_eq_ok_iff {s : String} :
    requiredText payload claim = .ok s ↔ get? payload claim = some (.string s) := by
  constructor
  · intro h
    unfold requiredText at h
    split at h
    · cases h
    · next t ht =>
      cases h
      exact (Option.filter_eq_some_iff.mp ht).1
    · cases h
  · intro h
    rw [requiredText, present?, h]
    rfl

theorem optionalInstant_of_get? {t : Instant}
    (h : get? payload claim = some (.ofInt t.epoch)) :
    optionalInstant payload claim = .ok (some t) := by
  have hpresent : present? payload claim = some (.ofInt t.epoch) := by
    rw [present?, h]
    rfl
  rw [optionalInstant, hpresent]
  simp only [instant?_ofInt]

theorem requiredInstant_of_get? {t : Instant}
    (h : get? payload claim = some (.ofInt t.epoch)) :
    requiredInstant payload claim = .ok t := by
  rw [requiredInstant, optionalInstant_of_get? h]

end Claims

/-- A payload in which the fields of a credential are found, each under its name. -/
structure Carries (payload : Members) (c : Credential) : Prop where
  id : get? payload "jti" = some (.string c.id.text)
  subject : get? payload "sub" = some (.string c.subjectId.name)
  policy : get? payload "policyId" = some (.string c.policyId.name)
  hash : get? payload "policyHash" = some (.string c.policyHash)
  issued : get? payload "iat" = some (.ofInt c.issuedAt.epoch)
  expires : get? payload "exp" = some (.ofInt c.expiresAt.epoch)
  starts : get? payload "nbf" = c.notBefore.map fun t => .ofInt t.epoch
  device : get? payload "deviceTag" = c.deviceTag.map .string
  claims : get? payload "claims" = some (.object c.claims)

theorem carries_toPayload (c : Credential) : Carries c.toPayload c := by
  rw [toPayload_eq]
  cases c with
  | mk id policyId subjectId claims issuedAt expiresAt notBefore keyId deviceTag policyHash =>
    cases notBefore <;> cases deviceTag <;> exact ⟨rfl, rfl, rfl, rfl, rfl, rfl, rfl, rfl, rfl⟩

theorem optionalInstant_nbf (c : Credential) :
    Claim.optionalInstant c.toPayload "nbf" = .ok c.notBefore := by
  have hget := (carries_toPayload c).starts
  cases hnbf : c.notBefore with
  | none =>
    rw [hnbf] at hget
    rw [Claim.optionalInstant, Claim.present?, hget]
    rfl
  | some t =>
    rw [hnbf] at hget
    exact optionalInstant_of_get? hget

theorem optionalText_deviceTag (c : Credential) :
    Claim.optionalText c.toPayload "deviceTag" = .ok c.deviceTag := by
  have hget := (carries_toPayload c).device
  cases htag : c.deviceTag with
  | none =>
    rw [htag] at hget
    rw [Claim.optionalText, Claim.present?, hget]
    rfl
  | some s =>
    rw [htag] at hget
    rw [Claim.optionalText, Claim.present?, hget]
    rfl

theorem parsed_eq_ok_iff {ε α : Type} {claim : String} {x : Except ε α} {a : α} :
    Claim.parsed claim x = .ok a ↔ x = .ok a := by
  cases x with
  | error e => exact iff_of_false nofun nofun
  | ok b => exact ⟨fun h => congrArg _ (Except.ok.inj h), fun h => congrArg _ (Except.ok.inj h)⟩

/-- Every claim of a payload is read as the field of the credential that it stands for. -/
structure Decodes (payload : Members) (k : KeyId) (c : Credential) : Prop where
  id : ∃ s, Claim.requiredText payload "jti" = .ok s ∧ CredentialId.parse s = .ok c.id
  subject : ∃ s, Claim.requiredText payload "sub" = .ok s ∧ SubjectId.ofName s = .ok c.subjectId
  policy : ∃ s, Claim.requiredText payload "policyId" = .ok s ∧ PolicyId.ofName s = .ok c.policyId
  hash : Claim.requiredText payload "policyHash" = .ok c.policyHash
  issued : Claim.requiredInstant payload "iat" = .ok c.issuedAt
  expires : Claim.requiredInstant payload "exp" = .ok c.expiresAt
  starts : Claim.optionalInstant payload "nbf" = .ok c.notBefore
  device : Claim.optionalText payload "deviceTag" = .ok c.deviceTag
  claims : Claim.attributes payload = .ok c.claims
  key : c.keyId = k

theorem ofPayload_eq_ok_iff {payload : Members} {k : KeyId} :
    ofPayload payload k = .ok c ↔ Decodes payload k c := by
  unfold ofPayload
  constructor
  · intro h
    obtain ⟨jti, hjti, h⟩ := except_bind_eq_ok_iff.mp h
    obtain ⟨id, hid, h⟩ := except_bind_eq_ok_iff.mp h
    obtain ⟨sub, hsub, h⟩ := except_bind_eq_ok_iff.mp h
    obtain ⟨subject, hsubject, h⟩ := except_bind_eq_ok_iff.mp h
    obtain ⟨name, hname, h⟩ := except_bind_eq_ok_iff.mp h
    obtain ⟨policy, hpolicy, h⟩ := except_bind_eq_ok_iff.mp h
    obtain ⟨hash, hhash, h⟩ := except_bind_eq_ok_iff.mp h
    obtain ⟨issued, hissued, h⟩ := except_bind_eq_ok_iff.mp h
    obtain ⟨expires, hexpires, h⟩ := except_bind_eq_ok_iff.mp h
    obtain ⟨starts, hstarts, h⟩ := except_bind_eq_ok_iff.mp h
    obtain ⟨device, hdevice, h⟩ := except_bind_eq_ok_iff.mp h
    obtain ⟨claims, hclaims, h⟩ := except_bind_eq_ok_iff.mp h
    cases h
    exact ⟨⟨jti, hjti, parsed_eq_ok_iff.mp hid⟩, ⟨sub, hsub, parsed_eq_ok_iff.mp hsubject⟩,
      ⟨name, hname, parsed_eq_ok_iff.mp hpolicy⟩, hhash, hissued, hexpires, hstarts, hdevice,
      hclaims, rfl⟩
  · rintro ⟨⟨jti, hjti, hid⟩, ⟨sub, hsub, hsubject⟩, ⟨name, hname, hpolicy⟩, hhash, hissued,
      hexpires, hstarts, hdevice, hclaims, rfl⟩
    refine except_bind_eq_ok_iff.mpr ⟨_, hjti, ?_⟩
    refine except_bind_eq_ok_iff.mpr ⟨_, parsed_eq_ok_iff.mpr hid, ?_⟩
    refine except_bind_eq_ok_iff.mpr ⟨_, hsub, ?_⟩
    refine except_bind_eq_ok_iff.mpr ⟨_, parsed_eq_ok_iff.mpr hsubject, ?_⟩
    refine except_bind_eq_ok_iff.mpr ⟨_, hname, ?_⟩
    refine except_bind_eq_ok_iff.mpr ⟨_, parsed_eq_ok_iff.mpr hpolicy, ?_⟩
    refine except_bind_eq_ok_iff.mpr ⟨_, hhash, ?_⟩
    refine except_bind_eq_ok_iff.mpr ⟨_, hissued, ?_⟩
    refine except_bind_eq_ok_iff.mpr ⟨_, hexpires, ?_⟩
    refine except_bind_eq_ok_iff.mpr ⟨_, hstarts, ?_⟩
    refine except_bind_eq_ok_iff.mpr ⟨_, hdevice, ?_⟩
    exact except_bind_eq_ok_iff.mpr ⟨_, hclaims, rfl⟩

/-- A credential whose names were checked is rebuilt from its payload. -/
theorem ofPayload_toPayload (hsubject : SubjectId.ofName c.subjectId.name = .ok c.subjectId)
    (hpolicy : PolicyId.ofName c.policyId.name = .ok c.policyId) :
    ofPayload c.toPayload c.keyId = .ok c := by
  have hcarries := carries_toPayload c
  exact ofPayload_eq_ok_iff.mpr
    { id := ⟨_, requiredText_eq_ok_iff.mpr hcarries.id, CredentialId.parse_text c.id⟩
      subject := ⟨_, requiredText_eq_ok_iff.mpr hcarries.subject, hsubject⟩
      policy := ⟨_, requiredText_eq_ok_iff.mpr hcarries.policy, hpolicy⟩
      hash := requiredText_eq_ok_iff.mpr hcarries.hash
      issued := requiredInstant_of_get? hcarries.issued
      expires := requiredInstant_of_get? hcarries.expires
      starts := optionalInstant_nbf c
      device := optionalText_deviceTag c
      claims := by rw [Claim.attributes, hcarries.claims]
      key := rfl }

end Credentials.Credential
