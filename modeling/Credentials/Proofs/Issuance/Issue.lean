import Credentials.Proofs.Payload
import Credentials.Proofs.Policy.Hash
import Credentials.Proofs.Token
import Credentials.Proofs.World.Run

/-!
# What issuing goes by

What a request comes to depends on four answers: the policy that is found, the current key, the time
and the signature. A credential is issued only under an active policy, with the current key, for a
period that starts no earlier than now; and it is issued as soon as all of this is so.
-/

namespace Credentials

/-- The errors that say why a request is not granted; no collaborator has failed. -/
inductive IssuanceError.Refuses : IssuanceError → Prop where
  | policyNotFound (id : PolicyId) : Refuses (.policyNotFound id)
  | policyInactive (id : PolicyId) (s : PolicyStatus) : Refuses (.policyInactive id s)
  | noSigningKey : Refuses .noSigningKey
  | expiryNotAfter (expiry now : Instant) : Refuses (.expiryNotAfter expiry now)
  | expiryOverflows : Refuses .expiryOverflows
  | notBeforePrecedes (start now : Instant) : Refuses (.notBeforePrecedes start now)
  | notBeforeReaches (start expiry : Instant) : Refuses (.notBeforeReaches start expiry)

namespace IssueRequest

variable {q : IssueRequest} {id : CredentialId} {found : Option PolicyDefinition}
  {current : Option IssuerKey} {now : Instant}
  {sign : KeyId → Canonical → Except KeyServiceError Signature} {issued : IssuedCredential}

def checkPolicy (q : IssueRequest) : Option PolicyDefinition → Except IssuanceError PolicyDefinition
  | none => .error (.policyNotFound q.policyId)
  | some p => if p.status = .active then .ok p else .error (.policyInactive p.id p.status)

def checkKey : Option IssuerKey → Except IssuanceError IssuerKey
  | none => .error .noSigningKey
  | some k => if k.isRetired then .error .noSigningKey else .ok k

/-- The credential with its token. -/
def issuedUnder (q : IssueRequest) (id : CredentialId) (p : PolicyDefinition) (k : KeyId)
    (now expiry : Instant) (s : Signature) : IssuedCredential :=
  let c := q.credential id p k now expiry
  ⟨Token.encode (Token.headerFor k) c.toPayload s, c.hash, c⟩

/-- What a request comes to, in terms of what the collaborators answer. -/
def outcome (q : IssueRequest) (id : CredentialId) (found : Option PolicyDefinition)
    (current : Option IssuerKey) (now : Instant)
    (sign : KeyId → Canonical → Except KeyServiceError Signature) :
    Except IssuanceError IssuedCredential := do
  let p ← q.checkPolicy found
  let k ← checkKey current
  let expiry ← q.expiresAt p now
  q.checkStart now expiry
  let s ← (sign k.id (Token.signingInput (Token.headerFor k.id)
    (q.credential id p k.id now expiry).toPayload)).mapError .ofKeyService
  return q.issuedUnder id p k.id now expiry s

theorem checkPolicy_eq_ok_iff {p : PolicyDefinition} :
    q.checkPolicy found = .ok p ↔ found = some p ∧ p.status = .active := by
  unfold checkPolicy
  split
  · simp
  · next e =>
    split
    · next hactive =>
      constructor
      · rintro ⟨⟩
        exact ⟨rfl, hactive⟩
      · rintro ⟨⟨⟩, _⟩
        rfl
    · next hinactive =>
      refine iff_of_false nofun ?_
      rintro ⟨⟨⟩, hactive⟩
      exact hinactive hactive

theorem checkKey_eq_ok_iff {k : IssuerKey} :
    checkKey current = .ok k ↔ current = some k ∧ k.isRetired = false := by
  unfold checkKey
  split
  · simp
  · next key =>
    split
    · next hretired =>
      refine iff_of_false nofun ?_
      rintro ⟨⟨⟩, hactive⟩
      exact Bool.false_ne_true (hactive.symm.trans hretired)
    · next hactive =>
      constructor
      · rintro ⟨⟩
        exact ⟨rfl, Bool.not_eq_true _ ▸ hactive⟩
      · rintro ⟨⟨⟩, _⟩
        rfl

/-- All that has been settled when the signer is asked. -/
structure ReachesSigning (q : IssueRequest) (found : Option PolicyDefinition)
    (current : Option IssuerKey) (now : Instant) (p : PolicyDefinition) (k : IssuerKey)
    (expiry : Instant) : Prop where
  policy : found = some p
  active : p.status = .active
  key : current = some k
  usable : k.isRetired = false
  expires : q.expiresAt p now = .ok expiry
  starts : q.checkStart now expiry = .ok ()

theorem outcome_of_reaches {p : PolicyDefinition} {k : IssuerKey} {expiry : Instant}
    (h : q.ReachesSigning found current now p k expiry) :
    q.outcome id found current now sign =
      ((sign k.id (Token.signingInput (Token.headerFor k.id)
        (q.credential id p k.id now expiry).toPayload)).mapError .ofKeyService).map
        (q.issuedUnder id p k.id now expiry) := by
  unfold outcome
  rw [checkPolicy_eq_ok_iff.mpr ⟨h.policy, h.active⟩, checkKey_eq_ok_iff.mpr ⟨h.key, h.usable⟩]
  dsimp only [bind, Except.bind]
  rw [h.expires]
  dsimp only
  rw [h.starts]
  rfl

theorem outcome_eq_ok_iff : q.outcome id found current now sign = .ok issued ↔
    ∃ p k expiry s, q.ReachesSigning found current now p k expiry ∧
      sign k.id (Token.signingInput (Token.headerFor k.id)
        (q.credential id p k.id now expiry).toPayload) = .ok s ∧
      issued = q.issuedUnder id p k.id now expiry s := by
  constructor
  · intro h
    obtain ⟨p, hpolicy, h⟩ := except_bind_eq_ok_iff.mp h
    obtain ⟨hfound, hactive⟩ := checkPolicy_eq_ok_iff.mp hpolicy
    obtain ⟨k, hkey, h⟩ := except_bind_eq_ok_iff.mp h
    obtain ⟨hcurrent, husable⟩ := checkKey_eq_ok_iff.mp hkey
    obtain ⟨expiry, hexpires, h⟩ := except_bind_eq_ok_iff.mp h
    obtain ⟨_, hstarts, h⟩ := except_bind_eq_ok_iff.mp h
    obtain ⟨s, hsigned, h⟩ := except_bind_eq_ok_iff.mp h
    exact ⟨p, k, expiry, s, ⟨hfound, hactive, hcurrent, husable, hexpires, hstarts⟩,
      mapError_eq_ok_iff.mp hsigned, (Except.ok.inj h).symm⟩
  · rintro ⟨p, k, expiry, s, h, hsigned, rfl⟩
    rw [outcome_of_reaches h, hsigned]
    rfl

/-! Errors. -/

section Errors

variable {e : IssuanceError}

theorem checkPolicy_eq_error (h : q.checkPolicy found = .error e) : e.Refuses := by
  unfold checkPolicy at h
  split at h
  · cases h
    exact .policyNotFound _
  · split at h
    · cases h
    · cases h
      exact .policyInactive _ _

theorem checkKey_eq_error (h : checkKey current = .error e) : e.Refuses := by
  unfold checkKey at h
  split at h
  · cases h
    exact .noSigningKey
  · split at h
    · cases h
      exact .noSigningKey
    · cases h

theorem expiresAt_eq_error {p : PolicyDefinition} (h : q.expiresAt p now = .error e) :
    e.Refuses := by
  unfold expiresAt at h
  split at h
  · split at h
    · cases h
    · cases h
      exact .expiryNotAfter _ _
  · split at h
    · cases h
    · cases h
      exact .expiryOverflows

theorem checkStart_eq_error {expiry : Instant} (h : q.checkStart now expiry = .error e) :
    e.Refuses := by
  unfold checkStart at h
  split at h
  · cases h
  · split at h
    · cases h
      exact .notBeforePrecedes _ _
    · split at h
      · cases h
        exact .notBeforeReaches _ _
      · cases h

/-- A request is refused, or else the signer has failed. -/
theorem outcome_eq_error (h : q.outcome id found current now sign = .error e) :
    e.Refuses ∨ ∃ k c cause, current = some k ∧ sign k.id c = .error cause := by
  rcases except_bind_eq_error_iff.mp h with hpolicy | ⟨p, _, h⟩
  · exact .inl (checkPolicy_eq_error hpolicy)
  rcases except_bind_eq_error_iff.mp h with hkey | ⟨k, hkey, h⟩
  · exact .inl (checkKey_eq_error hkey)
  rcases except_bind_eq_error_iff.mp h with hexpires | ⟨expiry, _, h⟩
  · exact .inl (expiresAt_eq_error hexpires)
  rcases except_bind_eq_error_iff.mp h with hstarts | ⟨_, _, h⟩
  · exact .inl (checkStart_eq_error hstarts)
  rcases except_bind_eq_error_iff.mp h with hsign | ⟨s, _, h⟩
  · right
    cases hcause : sign k.id (Token.signingInput (Token.headerFor k.id)
        (q.credential id p k.id now expiry).toPayload) with
    | ok s =>
      rw [hcause] at hsign
      cases hsign
    | error cause => exact ⟨k, _, cause, (checkKey_eq_ok_iff.mp hkey).1, hcause⟩
  · cases h

end Errors

end IssueRequest

/-! The collaborators. -/

namespace Issuer

variable {W : Type} {i : Issuer W} {q : IssueRequest} {u v : W}

theorem policy_eq {found : Option PolicyDefinition}
    (h : i.guarded IssuanceError.cancelled
      (Step.mapError .ofRegistry (i.policies q.policyId q.version)) u
      = (.ok found, v)) : i.policy q u = (q.checkPolicy found, v) := by
  unfold policy IssueRequest.checkPolicy
  rw [Step.bind_of_ok h]
  cases found with
  | none => rfl
  | some p =>
    dsimp only
    split <;> rfl

theorem key_eq {current : Option IssuerKey}
    (h : i.guarded IssuanceError.cancelled (Step.mapError .ofKeyService i.keys.current) u = (.ok current, v)) :
    i.key u = (IssueRequest.checkKey current, v) := by
  unfold key IssueRequest.checkKey
  rw [Step.bind_of_ok h]
  cases current with
  | none => rfl
  | some k =>
    dsimp only
    split <;> rfl

/-- A run of an issuer, with the world in which each collaborator is asked. -/
theorem issue_fst {u₀ u₁ u₂ u₃ : W} {found : Option PolicyDefinition}
    {current : Option IssuerKey} {sign : KeyId → Canonical → Except KeyServiceError Signature}
    (hsignal : i.cancelled u₀ = false)
    (hpolicy : i.guarded IssuanceError.cancelled
      (Step.mapError .ofRegistry (i.policies q.policyId q.version)) u₀
      = (.ok found, u₁))
    (hkey : i.guarded IssuanceError.cancelled (Step.mapError .ofKeyService i.keys.current) u₁ = (.ok current, u₂))
    (hsign : ∀ k c, i.guarded IssuanceError.cancelled (Step.mapError .ofKeyService (i.signer k c)) u₂
      = ((sign k c).mapError .ofKeyService, u₃)) (id : CredentialId) :
    (i.issue id q u₀).1 = q.outcome id found current (i.now u₂) sign := by
  have hcheck : i.check IssuanceError.cancelled u₀ = (.ok (), u₀) :=
    Step.check_of_not_cancelled hsignal _
  have htime : i.time (ε := IssuanceError) u₂ = (.ok (i.now u₂), u₂) := rfl
  unfold issue IssueRequest.outcome
  refine (Step.bind_fst hcheck).trans ?_
  refine (Step.bind_fst (policy_eq hpolicy)).trans (bind_congr fun p => ?_)
  refine (Step.bind_fst (key_eq hkey)).trans (bind_congr fun k => ?_)
  refine (Step.bind_fst htime).trans ?_
  refine (Step.bind_fst rfl).trans (bind_congr fun expiry => ?_)
  refine (Step.bind_fst rfl).trans (bind_congr fun _ => ?_)
  rw [p.tryHash_eq, mapError_ok, Step.bind_ofExcept_ok, Token.trySigningInput_eq, mapError_ok,
    Step.bind_ofExcept_ok]
  refine (Step.bind_fst (hsign _ _)).trans (bind_congr fun s => ?_)
  rw [Token.tryEncode_eq, mapError_ok, Step.bind_ofExcept_ok, Credential.tryHash_eq, mapError_ok,
    Step.bind_ofExcept_ok]
  rfl

end Issuer

namespace World

variable {w : World}

/-- What a credential was issued by: the policy, the key, the end of validity and the signature. -/
structure Issues (w : World) (id : CredentialId) (q : IssueRequest) (p : PolicyDefinition)
    (k : IssuerKey) (expiry : Instant) (s : Signature) : Prop where
  policy : w.policies.get? q.policyId q.version = some p
  active : p.status = .active
  key : w.keys.currentKey? = some k
  expires : q.expiresAt p w.clock.now = .ok expiry
  starts : q.checkStart w.clock.now expiry = .ok ()
  signed : w.keys.sign k.id (Token.signingInput (Token.headerFor k.id)
    (q.credential id p k.id w.clock.now expiry).toPayload) = .ok s

/-- The credential with its token. -/
def issuedBy (w : World) (id : CredentialId) (q : IssueRequest) (p : PolicyDefinition)
    (k : IssuerKey) (expiry : Instant) (s : Signature) : IssuedCredential :=
  let c := q.credential id p k.id w.clock.now expiry
  ⟨Token.encode (Token.headerFor k.id) c.toPayload s, c.hash, c⟩

/-- In memory the collaborators answer from one world. -/
theorem issue_eq (hw : w.cancelled = false) (id : CredentialId) (q : IssueRequest) :
    issuer.issue id q w = (q.outcome id (w.policies.get? q.policyId q.version)
      w.keys.currentKey? w.clock.now w.keys.sign, w) := by
  refine Prod.ext ?_ (looks_issue id q w)
  exact Issuer.issue_fst hw (guarded_look hw _ _ _ _) (guarded_look hw _ _ _ _)
    (fun k c => guarded_step hw _ _ _ rfl) id

theorem currentKey?_isRetired {ring : KeyRing} {k : IssuerKey} (h : ring.currentKey? = some k) :
    k.isRetired = false := by
  simpa using (Option.filter_eq_some_iff.mp h).2

/-- Issuing succeeds exactly with a policy, a key, an end of validity and a signature. -/
theorem issue_eq_ok_iff (hw : w.cancelled = false) {id : CredentialId} {q : IssueRequest}
    {issued : IssuedCredential} {w' : World} :
    issuer.issue id q w = (.ok issued, w') ↔
      w' = w ∧ ∃ p k expiry s, w.Issues id q p k expiry s ∧
        issued = w.issuedBy id q p k expiry s := by
  rw [issue_eq hw, Prod.mk.injEq, and_comm, eq_comm (a := w), IssueRequest.outcome_eq_ok_iff]
  refine and_congr_right fun _ => ⟨?_, ?_⟩
  · rintro ⟨p, k, expiry, s, h, hsigned, rfl⟩
    exact ⟨p, k, expiry, s, ⟨h.policy, h.active, h.key, h.expires, h.starts, hsigned⟩, rfl⟩
  · rintro ⟨p, k, expiry, s, h, rfl⟩
    exact ⟨p, k, expiry, s, ⟨h.policy, h.active, h.key, currentKey?_isRetired h.key, h.expires,
      h.starts⟩, h.signed, rfl⟩

end World
end Credentials
