import Credentials.Proofs.Step
import Credentials.Validator

/-!
# The stages of a validation

A token is judged by the keys, the policies, the time and the skew. Each of eleven stages passes or
fails by itself, in terms of what can be read from the token; what a validation has to answer is
said by the first stage that fails, or by all stages together.
-/

namespace Credentials

/-- What a token is judged by; with policies, credentials are bound to them. -/
structure Situation where
  token : String
  keys : KeyRing
  policies : Option PolicyRegistry
  now : Instant
  skew : Nat

/-- A claim that is missing and one that is invalid give different reasons. -/
def ClaimProblem.reason : ClaimProblem → Reason
  | .missing _ => .missingRequiredClaim
  | .invalid _ => .malformedToken

/-- A signature over header and payload as they were decoded. -/
def Token.Signed (t : Token) (k : PublicKey) : Prop :=
  t.algorithm? = some signatureAlgorithm ∧
    ∃ s : Signature, s.bytes = t.signature ∧
      k.verify (Token.signingInput t.header t.payload) s = .ok ()

/-- The hash of a credential is that of the current version of its policy, or of a version that is
compatible with it, and this version is not retired. -/
def PolicyRegistry.Binds (r : PolicyRegistry) (c : Credential) : Prop :=
  ∃ p d, r.current? c.policyId = some p ∧
    (d = p ∨ ∃ v ∈ p.compatible, r.find? c.policyId v = some d) ∧
    d.status ≠ .retired ∧ Hex.lowercase d.hash = Hex.lowercase c.policyHash

inductive Stage where
  | decoding
  | keyNamed
  | keyKnown
  | keyActive
  | signature
  | times
  | skew
  | start
  | expiry
  | content
  | binding
deriving DecidableEq

/-- The place of a stage in the order of validation. -/
def Stage.number : Stage → Nat
  | .decoding => 1
  | .keyNamed => 2
  | .keyKnown => 3
  | .keyActive => 4
  | .signature => 5
  | .times => 6
  | .skew => 7
  | .start => 8
  | .expiry => 9
  | .content => 10
  | .binding => 11

namespace Situation

variable (s : Situation)

/-! What can be read from the token. -/

def token? : Option Token := (Token.decode s.token).toOption

def keyId? : Option KeyId := s.token?.bind Token.keyId?

def key? : Option IssuerKey := s.keyId?.bind s.keys.view?

def issuedAt? : Option Instant :=
  s.token?.bind fun t => (Claim.requiredInstant t.payload "iat").toOption

def expiresAt? : Option Instant :=
  s.token?.bind fun t => (Claim.requiredInstant t.payload "exp").toOption

def notBefore? : Option (Option Instant) :=
  s.token?.bind fun t => (Claim.optionalInstant t.payload "nbf").toOption

def credential? : Option Credential :=
  s.token?.bind fun t => s.keyId?.bind fun id => (Credential.ofPayload t.payload id).toOption

/-! Stages. -/

def Passes : Stage → Prop
  | .decoding => ∃ t, s.token? = some t
  | .keyNamed => ∃ id, s.keyId? = some id
  | .keyKnown => ∃ k, s.key? = some k
  | .keyActive => ∃ k, s.key? = some k ∧ k.status = .active
  | .signature => ∃ t k, s.token? = some t ∧ s.key? = some k ∧ t.Signed k.publicKey
  | .times => ∃ iat exp nbf,
      s.issuedAt? = some iat ∧ s.expiresAt? = some exp ∧ s.notBefore? = some nbf
  | .skew => ∃ iat, s.issuedAt? = some iat ∧ (s.now.since iat).natAbs ≤ s.skew
  | .start => ∃ nbf, s.notBefore? = some nbf ∧ ∀ t ∈ nbf, t ≤ s.now
  | .expiry => ∃ exp, s.expiresAt? = some exp ∧ s.now < exp
  | .content => ∃ c, s.credential? = some c
  | .binding => ∀ r ∈ s.policies, ∃ c, s.credential? = some c ∧ r.Binds c

/-- The reason that a stage gives when it fails. -/
def Gives : Stage → Reason → Prop
  | .decoding, r => r = .malformedToken
  | .keyNamed, r => r = .missingRequiredClaim
  | .keyKnown, r => r = .unknownKey
  | .keyActive, r => r = .retiredKeyUsed
  | .signature, r => r = .invalidSignature
  | .times, r => ∃ t e, s.token? = some t ∧ Validator.times t.payload = .error e ∧ r = e.reason
  | .skew, r => r = .clockSkewExceeded
  | .start, r => r = .notYetValid
  | .expiry, r => r = .expired
  | .content, r => ∃ t id e, s.token? = some t ∧ s.keyId? = some id ∧
      Credential.ofPayload t.payload id = .error e ∧ r = e.reason
  | .binding, r => ∃ p c, s.policies = some p ∧ s.credential? = some c ∧
      r = if p.current? c.policyId = none then .policyNotFound else .policyHashMismatch

/-- The first stage that fails. -/
def FailsFirst (stage : Stage) : Prop :=
  ¬ s.Passes stage ∧ ∀ e : Stage, e.number < stage.number → s.Passes e

/-- What an accepted token has to be. -/
structure Accepts (t : Token) (id : KeyId) (k : IssuerKey) (c : Credential) : Prop where
  decodes : Token.decode s.token = .ok t
  names : t.keyId? = some id
  known : s.keys.view? id = some k
  active : k.status = .active
  algorithm : t.algorithm? = some "EdDSA"
  signed : ∃ sig : Signature, sig.bytes = t.signature ∧
    k.publicKey.verify (Token.signingInput t.header t.payload) sig = .ok ()
  issued : ∃ iat, Claim.requiredInstant t.payload "iat" = .ok iat ∧
    (s.now.since iat).natAbs ≤ s.skew
  expires : ∃ exp, Claim.requiredInstant t.payload "exp" = .ok exp ∧ s.now < exp
  starts : ∃ nbf, Claim.optionalInstant t.payload "nbf" = .ok nbf ∧ ∀ n ∈ nbf, n ≤ s.now
  content : Credential.ofPayload t.payload id = .ok c
  bound : ∀ r ∈ s.policies, r.Binds c

/-- What a validation has to answer. -/
structure Judges (v : Validation) : Prop where
  valid_iff : v.isValid = true ↔ v.reason = .valid ∧ v.credential.isSome
  accepted : v.isValid = true → (∀ stage, s.Passes stage) ∧
    ∃ t id k c, s.Accepts t id k c ∧ v = ⟨.valid, none, some id, some c, s.now⟩
  refused : v.isValid = false → v.credential = none ∧ v.time = s.now ∧
    ∃ stage, s.FailsFirst stage ∧ s.Gives stage v.reason

variable {s}

theorem number_injective {a b : Stage} (h : a.number = b.number) : a = b := by
  cases a <;> cases b <;> first | rfl | cases h

/-- At most one stage is the first that fails. -/
theorem FailsFirst.unique {a b : Stage} (ha : s.FailsFirst a) (hb : s.FailsFirst b) : a = b := by
  apply number_injective
  by_cases hlt : a.number < b.number
  · exact absurd (hb.2 a hlt) ha.1
  · by_cases hgt : b.number < a.number
    · exact absurd (ha.2 b hgt) hb.1
    · omega

/-- The reasons for which a token is refused. -/
def refusals : List Reason :=
  [.malformedToken, .missingRequiredClaim, .unknownKey, .retiredKeyUsed, .invalidSignature,
    .clockSkewExceeded, .notYetValid, .expired, .policyNotFound, .policyHashMismatch]

theorem mem_refusals_of_gives {stage : Stage} {r : Reason} (h : s.Gives stage r) :
    r ∈ refusals := by
  have hproblem (e : ClaimProblem) : e.reason ∈ refusals := by
    cases e <;> simp [ClaimProblem.reason, refusals]
  cases stage
  case times =>
    obtain ⟨t, e, _, _, rfl⟩ := h
    exact hproblem e
  case content =>
    obtain ⟨t, id, e, _, _, _, rfl⟩ := h
    exact hproblem e
  case binding =>
    obtain ⟨p, c, _, _, rfl⟩ := h
    split <;> decide
  all_goals
    cases h
    decide

theorem gives_ne_valid {stage : Stage} {r : Reason} (h : s.Gives stage r) : r ≠ .valid := by
  rintro rfl
  exact absurd (mem_refusals_of_gives h) (by decide)

/-! Reading from a decoded token. -/

section Decoded

variable {t : Token} {id : KeyId}

theorem keyId?_eq (ht : s.token? = some t) : s.keyId? = t.keyId? := by
  rw [keyId?, ht, Option.bind_some]

theorem key?_eq (hid : s.keyId? = some id) : s.key? = s.keys.view? id := by
  rw [key?, hid, Option.bind_some]

theorem issuedAt?_eq (ht : s.token? = some t) :
    s.issuedAt? = (Claim.requiredInstant t.payload "iat").toOption := by
  rw [issuedAt?, ht, Option.bind_some]

theorem expiresAt?_eq (ht : s.token? = some t) :
    s.expiresAt? = (Claim.requiredInstant t.payload "exp").toOption := by
  rw [expiresAt?, ht, Option.bind_some]

theorem notBefore?_eq (ht : s.token? = some t) :
    s.notBefore? = (Claim.optionalInstant t.payload "nbf").toOption := by
  rw [notBefore?, ht, Option.bind_some]

theorem credential?_eq (ht : s.token? = some t) (hid : s.keyId? = some id) :
    s.credential? = (Credential.ofPayload t.payload id).toOption := by
  rw [credential?, ht, hid, Option.bind_some, Option.bind_some]

end Decoded

/-- A token passes all stages exactly if it is what an accepted token has to be. -/
theorem passes_all_iff : (∀ stage, s.Passes stage) ↔ ∃ t id k c, s.Accepts t id k c := by
  constructor
  · intro h
    obtain ⟨t, k, ht, hk, halgorithm, hsigned⟩ := h .signature
    obtain ⟨id, hid⟩ := h .keyNamed
    obtain ⟨k', hk', hactive⟩ := h .keyActive
    obtain rfl : k' = k := Option.eq_some_unique hk' hk
    obtain ⟨iat, hiat, hskew⟩ := h .skew
    obtain ⟨exp, hexp, hexpiry⟩ := h .expiry
    obtain ⟨nbf, hnbf, hstart⟩ := h .start
    obtain ⟨c, hc⟩ := h .content
    refine ⟨t, id, k', c, ?_⟩
    rw [issuedAt?_eq ht] at hiat
    rw [expiresAt?_eq ht] at hexp
    rw [notBefore?_eq ht] at hnbf
    refine
      { decodes := toOption_eq_some_iff.mp ht
        names := (keyId?_eq ht).symm.trans hid
        known := (key?_eq hid).symm.trans hk
        active := hactive
        algorithm := halgorithm
        signed := hsigned
        issued := ⟨iat, toOption_eq_some_iff.mp hiat, hskew⟩
        expires := ⟨exp, toOption_eq_some_iff.mp hexp, hexpiry⟩
        starts := ⟨nbf, toOption_eq_some_iff.mp hnbf, hstart⟩
        content := toOption_eq_some_iff.mp ((credential?_eq ht hid).symm.trans hc)
        bound := fun r hr => ?_ }
    obtain ⟨c', hc', hbinds⟩ := h .binding r hr
    obtain rfl : c' = c := Option.eq_some_unique hc' hc
    exact hbinds
  · rintro ⟨t, id, k, c, h⟩ stage
    obtain ⟨iat, hiat, hskew⟩ := h.issued
    obtain ⟨exp, hexp, hexpiry⟩ := h.expires
    obtain ⟨nbf, hnbf, hstart⟩ := h.starts
    have ht : s.token? = some t := toOption_eq_some_iff.mpr h.decodes
    have hid : s.keyId? = some id := (keyId?_eq ht).trans h.names
    have hk : s.key? = some k := (key?_eq hid).trans h.known
    have hiat' : s.issuedAt? = some iat := (issuedAt?_eq ht).trans (toOption_eq_some_iff.mpr hiat)
    have hexp' : s.expiresAt? = some exp :=
      (expiresAt?_eq ht).trans (toOption_eq_some_iff.mpr hexp)
    have hnbf' : s.notBefore? = some nbf :=
      (notBefore?_eq ht).trans (toOption_eq_some_iff.mpr hnbf)
    have hc : s.credential? = some c :=
      (credential?_eq ht hid).trans (toOption_eq_some_iff.mpr h.content)
    cases stage with
    | decoding => exact ⟨t, ht⟩
    | keyNamed => exact ⟨id, hid⟩
    | keyKnown => exact ⟨k, hk⟩
    | keyActive => exact ⟨k, hk, h.active⟩
    | signature => exact ⟨t, k, ht, hk, h.algorithm, h.signed⟩
    | times => exact ⟨iat, exp, nbf, hiat', hexp', hnbf'⟩
    | skew => exact ⟨iat, hiat', hskew⟩
    | start => exact ⟨nbf, hnbf', hstart⟩
    | expiry => exact ⟨exp, hexp', hexpiry⟩
    | content => exact ⟨c, hc⟩
    | binding => exact fun r hr => ⟨c, hc, h.bound r hr⟩

end Situation
end Credentials
