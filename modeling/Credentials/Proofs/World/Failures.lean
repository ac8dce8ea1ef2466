import Credentials.Proofs.Issuance.Issue
import Credentials.Proofs.Presentation.Normalization
import Credentials.Proofs.Presentation.Recorded
import Credentials.Proofs.Validation.Judgement
import Credentials.Report

/-!
# No internal failure

In memory the branches for internal failures are never taken. Three things that every operation keeps
rule them out: no signal has fired, the current key can sign, and every schema in the registry
compiles; and canonical bytes are always written, so nothing fails to be hashed, signed or encoded.
So validation and verification always answer, never with an internal error, and issuing fails only
for a reason that lies in the request, the policy or the lack of a key.
-/

namespace Credentials

/-- A verdict for reasons, none of which is an internal error. -/
def Verdict.Reasoned (v : Verdict) : Prop := v.reasons ≠ [] ∧ .internalError ∉ v.reasons

theorem Verdict.reasoned_of_eq_singleton {v : Verdict} {reason : Reason}
    (h : v.reasons = [reason]) (hreason : reason ≠ .internalError) : v.Reasoned := by
  unfold Reasoned
  rw [h]
  refine ⟨List.cons_ne_nil _ _, ?_⟩
  intro hmem
  exact hreason (List.mem_singleton.mp hmem).symm

theorem Verdict.internalError_notMem_ofVerdict {v : Verdict} (h : v.Reasoned) (now : Instant) :
    .internalError ∉ (VerificationResult.ofVerdict v now).reasons := by
  obtain ⟨hne, hmem⟩ := h
  unfold VerificationResult.ofVerdict
  cases hreasons : v.reasons with
  | nil => exact absurd hreasons hne
  | cons r rs =>
    rw [hreasons] at hmem
    exact hmem

/-! The labels under which a request that is not granted is reported. -/

def IssuanceError.refusalLabels : List String :=
  ["PolicyNotFound", "PolicyInactive", "NoSigningKey", "InvalidExpiry", "InvalidNotBefore"]

theorem IssuanceError.refuses_iff_label {e : IssuanceError} :
    e.Refuses ↔ e.report.label ∈ refusalLabels := by
  constructor
  · intro h
    cases h <;> simp [report, refusalLabels]
  · intro h
    cases e with
    | policyNotFound id => exact .policyNotFound id
    | policyInactive id s => exact .policyInactive id s
    | noSigningKey => exact .noSigningKey
    | expiryNotAfter expiry now => exact .expiryNotAfter expiry now
    | expiryOverflows => exact .expiryOverflows
    | notBeforePrecedes start now => exact .notBeforePrecedes start now
    | notBeforeReaches start expiry => exact .notBeforeReaches start expiry
    | _ => simp [report, refusalLabels] at h

/-! Verifiers and engines in memory. -/

/-- The two verifiers there are in memory. -/
inductive Verifier.InMemory : Verifier World → Prop where
  | credential (skew : Nat) (binds : Bool) (expectedType flag : String) :
      InMemory (CredentialVerifier.verifier ⟨World.validator skew binds, expectedType, flag⟩)
  | zeroKnowledge (settings : ZeroKnowledgeSettings) :
      InMemory (World.zeroKnowledgeVerifier settings).verifier

/-- An engine with any choice of them. -/
structure Engine.InMemory (e : Engine World) : Prop where
  surroundings : e.toSurroundings = World.surroundings
  verifiers : ∀ v ∈ e.verifiers, v.InMemory

theorem Engine.inMemory_empty : InMemory World.engine := by
  refine ⟨rfl, ?_⟩
  intro v hv
  cases hv

theorem Engine.InMemory.register {e : Engine World} (he : e.InMemory) {v : Verifier World}
    (hv : v.InMemory) : (e.register v).InMemory := by
  refine ⟨he.surroundings, ?_⟩
  intro v' hv'
  obtain ⟨k, _, hk⟩ := List.mem_filterMap.mp hv'
  split at hk
  · obtain rfl := Option.some.inj hk
    exact hv
  · exact he.verifiers v' (List.mem_of_find?_eq_some hk)

namespace World

/-- What rules internal failures out. -/
structure Settled (w : World) : Prop where
  signal : w.cancelled = false
  keys : w.keys.CurrentSigns
  policies : w.policies.AllProper

theorem Reached.settled {w : World} (h : Reached w) : w.Settled :=
  ⟨h.not_cancelled, h.currentSigns, h.allProper⟩

variable {w : World}

theorem Settled.proper (hw : w.Settled) {id : PolicyId} {version : Option PolicyVersion}
    {p : PolicyDefinition} (h : w.policies.get? id version = some p) : p.Proper :=
  hw.policies p (PolicyRegistry.mem_of_get? h).1

/-- The current key is one that signs. -/
theorem Settled.signs (hw : w.Settled) {k : IssuerKey} (hk : w.keys.currentKey? = some k)
    (c : Canonical) : ∃ s, w.keys.sign k.id c = .ok s := by
  obtain ⟨hcurrent, _⟩ := KeyRing.current_of_currentKey? hk
  obtain ⟨pair, hpair⟩ := hw.keys k.id hcurrent
  exact ⟨_, KeyRing.sign_eq_ok_iff.mpr ⟨pair, hpair, rfl⟩⟩

/-! Tokens. -/

theorem validate_of_settled (hw : w.Settled) (skew : Nat) (binds : Bool) (token : String) :
    ∃ r, (validator skew binds).validate token w = (.ok r, w) ∧
      ((r.reason = .valid ∧ r.credential.isSome) ∨ r.reason ∈ Situation.refusals) := by
  obtain ⟨r, hr, hjudges⟩ := exists_validation hw.signal skew binds token
  refine ⟨r, hr, ?_⟩
  cases hvalid : r.isValid with
  | true => exact .inl (hjudges.valid_iff.mp hvalid)
  | false =>
    obtain ⟨_, _, stage, _, hgives⟩ := hjudges.refused hvalid
    exact .inr (Situation.mem_refusals_of_gives hgives)

theorem internalError_notMem_refusals : Reason.internalError ∉ Situation.refusals := by decide

theorem judge_of_settled (v : CredentialVerifier World) {r : Validation}
    (h : (r.reason = .valid ∧ r.credential.isSome) ∨ r.reason ∈ Situation.refusals) :
    ∃ verdict, v.judge r = .ok verdict ∧ verdict.Reasoned := by
  unfold CredentialVerifier.judge
  rcases h with ⟨hreason, hcredential⟩ | hrefused
  · obtain ⟨c, hc⟩ := Option.isSome_iff_exists.mp hcredential
    have hvalid : r.isValid = true := decide_eq_true hreason
    rw [hvalid, hc]
    dsimp only
    split
    · exact ⟨_, rfl, Verdict.reasoned_of_eq_singleton rfl (by decide)⟩
    · split
      · exact ⟨_, rfl, Verdict.reasoned_of_eq_singleton rfl (by decide)⟩
      · exact ⟨_, rfl, Verdict.reasoned_of_eq_singleton rfl (by decide)⟩
  · have hvalid : r.isValid = false := by
      apply decide_eq_false
      intro hreason
      rw [hreason] at hrefused
      exact absurd hrefused (by decide)
    have hreason : r.reason ≠ .internalError := by
      intro hreason
      rw [hreason] at hrefused
      exact internalError_notMem_refusals hrefused
    rw [hvalid]
    dsimp only
    rw [if_neg hreason]
    refine ⟨_, rfl, List.cons_ne_nil _ _, ?_⟩
    intro hmem
    rcases List.mem_cons.mp hmem with heq | hmem
    · cases heq
    · exact hreason (List.mem_singleton.mp hmem).symm

/-! Verifiers. -/

theorem verify_credential_of_settled (hw : w.Settled) (skew : Nat) (binds : Bool)
    (expectedType flag : String) (presentation : Json) : ∃ verdict,
      CredentialVerifier.verify ⟨validator skew binds, expectedType, flag⟩ presentation w
        = (.ok verdict, w) ∧ verdict.Reasoned := by
  unfold CredentialVerifier.verify
  cases CredentialVerifier.token? presentation with
  | none => exact ⟨_, rfl, Verdict.reasoned_of_eq_singleton rfl (by decide)⟩
  | some token =>
    obtain ⟨r, hr, hreason⟩ := validate_of_settled hw skew binds token
    obtain ⟨verdict, hjudge, hreasoned⟩ :=
      judge_of_settled ⟨validator skew binds, expectedType, flag⟩ hreason
    refine ⟨verdict, ?_, hreasoned⟩
    refine (Step.bind_of_ok (Step.mapError_of_ok hr)).trans ?_
    exact Step.ofExcept_of_ok hjudge w

open ZeroKnowledgeVerifier

theorem verify_zeroKnowledge_of_settled (hw : w.Settled) (settings : ZeroKnowledgeSettings)
    (presentation : Json) : ∃ verdict u,
      (zeroKnowledgeVerifier settings).verify presentation w = (.ok verdict, u) ∧
        u.cancelled = false ∧ verdict.Reasoned := by
  have hverify : (verifierAsking settings proofService).verify presentation w = _ :=
    verify_eq presentation w
  have hrun : (verifierAsking settings proofService).run presentation w = _ :=
    run_verifierAsking presentation w
  cases hdemand : (verifierAsking settings proofService).demand w.cancelled w.policies
      w.clock.now presentation with
  | error e =>
    rw [hdemand] at hrun
    rw [hrun] at hverify
    rcases demand_eq_error hdemand with ⟨reason, hmem, rfl⟩ | ⟨hsignal, _⟩ | ⟨d, hd, hnone, _⟩
    · have hreason : reason ≠ .internalError := by
        rintro rfl
        exact absurd hmem (by decide)
      exact ⟨_, w, hverify, hw.signal, Verdict.reasoned_of_eq_singleton rfl hreason⟩
    · rw [hw.signal] at hsignal
      cases hsignal
    · obtain ⟨schema, hschema⟩ := (hw.policies d hd).schema
      rw [hnone] at hschema
      cases hschema
  | ok q =>
    rw [hdemand] at hrun
    dsimp only at hrun
    rw [Step.mapError_of_ok (proofService_eq hw.signal q)] at hrun
    have hconclusion : ∃ verdict, conclusion (.ok (TransparentProof.holds q)) = .ok verdict ∧
        verdict.Reasoned := by
      cases TransparentProof.holds q with
      | true => exact ⟨_, rfl, Verdict.reasoned_of_eq_singleton rfl (by decide)⟩
      | false => exact ⟨_, rfl, Verdict.reasoned_of_eq_singleton rfl (by decide)⟩
    obtain ⟨verdict, hverdict, hreasoned⟩ := hconclusion
    rw [hrun, hverdict] at hverify
    exact ⟨verdict, _, hverify, hw.signal, hreasoned⟩

/-- A verifier in memory comes to a verdict. -/
theorem verify_of_settled (hw : w.Settled) {v : Verifier World} (hv : v.InMemory)
    (presentation : Json) : ∃ verdict u,
      v.verify presentation w = (.ok verdict, u) ∧ u.cancelled = false ∧ verdict.Reasoned := by
  cases hv with
  | credential skew binds expectedType flag =>
    obtain ⟨verdict, hverify, hreasoned⟩ :=
      verify_credential_of_settled hw skew binds expectedType flag presentation
    exact ⟨verdict, w, hverify, hw.signal, hreasoned⟩
  | zeroKnowledge settings => exact verify_zeroKnowledge_of_settled hw settings presentation

/-! The engine. -/

theorem verify_engine_of_settled (hw : w.Settled) {e : Engine World} (he : e.InMemory)
    (q : VerificationRequest) :
    ∃ r u, e.verify q w = (.ok r, u) ∧ .internalError ∉ r.reasons := by
  have hsignal {u : World} (hu : u.cancelled = false) : e.cancelled u = false := by
    rwa [he.surroundings]
  rcases Engine.request_cases e q with hlacks | hunsupported | ⟨k, v, hsupports⟩
  · refine ⟨_, w, Engine.verify_of_lacksType (hsignal hw.signal) hlacks, ?_⟩
    exact List.not_mem_cons_of_ne_of_not_mem nofun List.not_mem_nil
  · refine ⟨_, w, Engine.verify_of_unsupported (hsignal hw.signal) hunsupported, ?_⟩
    exact List.not_mem_cons_of_ne_of_not_mem nofun List.not_mem_nil
  · have hv := he.verifiers v (List.mem_of_find?_eq_some hsupports.2)
    obtain ⟨verdict, u, hverify, hu, hreasoned⟩ := verify_of_settled hw hv q.presentation
    refine ⟨.ofVerdict verdict (e.now w), u, ?_, Verdict.internalError_notMem_ofVerdict hreasoned _⟩
    rw [Engine.verify_of_supports (hsignal hw.signal) hsupports,
      Engine.dispatch_of_no_signal hverify (hsignal hu)]
    rfl

/-! Issuing. -/

theorem issue_error_of_settled (hw : w.Settled) {id : CredentialId} {q : IssueRequest}
    {e : IssuanceError} {u : World} (h : issuer.issue id q w = (.error e, u)) : e.Refuses := by
  rw [issue_eq hw.signal] at h
  rcases IssueRequest.outcome_eq_error (congrArg Prod.fst h) with
    hrefuses | ⟨k, c, cause, hk, hsign⟩
  · exact hrefuses
  · obtain ⟨s, hs⟩ := hw.signs hk c
    cases hs.symm.trans hsign

/-- Nothing in this world ends in an internal failure. -/
structure Unfailing (w : World) : Prop where
  validate : ∀ skew binds token, ∃ r, (validator skew binds).validate token w = (.ok r, w) ∧
    r.reason ≠ .internalError
  verify : ∀ e : Engine World, e.InMemory → ∀ q, ∃ r u, e.verify q w = (.ok r, u) ∧
    .internalError ∉ r.reasons
  issue : ∀ id q e u, issuer.issue id q w = (.error e, u) →
    e.Refuses ∧ e.report.label ∈ IssuanceError.refusalLabels
  hash : ∀ d ∈ w.policies.definitions, d.tryHash = .ok d.hash
  schema : ∀ d ∈ w.policies.definitions, ∀ signals, d.checkSignals signals ≠ .error .invalidSchema

theorem unfailing_of_settled (hw : w.Settled) : w.Unfailing where
  validate := by
    intro skew binds token
    obtain ⟨r, hr, hreason⟩ := validate_of_settled hw skew binds token
    refine ⟨r, hr, ?_⟩
    intro hinternal
    rw [hinternal] at hreason
    rcases hreason with ⟨hvalid, _⟩ | hrefused
    · cases hvalid
    · exact internalError_notMem_refusals hrefused
  verify := fun e he q => verify_engine_of_settled hw he q
  issue := by
    intro id q e u h
    have hrefuses := issue_error_of_settled hw h
    exact ⟨hrefuses, IssuanceError.refuses_iff_label.mp hrefuses⟩
  hash := fun d _ => d.tryHash_eq
  schema := by
    intro d hd signals h
    obtain ⟨schema, hschema⟩ := (hw.policies d hd).schema
    unfold PolicyDefinition.checkSignals at h
    rw [hschema] at h
    dsimp only at h
    split at h <;> cases h

/-- No run of operations leads to an internal failure, however often proofs were checked. -/
theorem unfailing_run (now : Instant) (ops : List Operation) (calls : Nat) :
    Unfailing { run ops (initial now) with proofCalls := calls } := by
  have hreached : Reached (run ops (initial now)) := ⟨now, ops, rfl⟩
  have hsettled := hreached.settled
  exact unfailing_of_settled ⟨hsettled.signal, hsettled.keys, hsettled.policies⟩

end World
end Credentials
