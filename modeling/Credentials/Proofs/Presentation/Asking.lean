import Credentials.Presentation.ZeroKnowledge
import Credentials.Proofs.Base64Url
import Credentials.Proofs.Challenge
import Credentials.Proofs.Policy.Hash
import Credentials.Proofs.Policy.Registry
import Credentials.Proofs.Step
import Credentials.World

/-!
# What the proof service is asked

Up to the call of the proof service a verifier decides by itself. What it decides depends on the
presentation, the registry, the time and the server's key alone: either it makes one request, out of
values that it worked out anew, or it makes none.
-/

namespace Credentials

/-- The version of a policy that a presentation is for: the current one unless it pins another one,
which has to be compatible with the current one. -/
inductive PolicyRegistry.Offers (r : PolicyRegistry) (id : PolicyId) :
    Option PolicyVersion → PolicyDefinition → Prop where
  | current {d : PolicyDefinition} : r.current? id = some d → Offers r id none d
  | pinned {d : PolicyDefinition} : r.current? id = some d → Offers r id (some d.version) d
  | compatible {current d : PolicyDefinition} {n : PolicyVersion} :
      r.current? id = some current → n ≠ current.version → n ∈ current.compatible →
        r.find? id n = some d → Offers r id (some n) d

theorem PolicyRegistry.mem_of_offers {r : PolicyRegistry} {id : PolicyId}
    {pinned : Option PolicyVersion} {d : PolicyDefinition} (h : r.Offers id pinned d) :
    d ∈ r.definitions := by
  cases h with
  | current hcurrent => exact (mem_of_current? hcurrent).1
  | pinned hcurrent => exact (mem_of_current? hcurrent).1
  | compatible _ _ _ hfind => exact mem_of_find? hfind

/-- Public signals that meet the schema of a definition. -/
def PolicyDefinition.Admits (d : PolicyDefinition) (signals : Json) : Prop :=
  ∃ s, PublicSignalsSchema.compile d.signalsSchema = some s ∧ s.violations signals = 0

theorem PolicyDefinition.checkSignals_eq_ok_iff {d : PolicyDefinition} {signals : Json} :
    d.checkSignals signals = .ok () ↔ d.Admits signals := by
  unfold checkSignals Admits
  cases PublicSignalsSchema.compile d.signalsSchema with
  | none => simp
  | some s =>
    dsimp only
    cases hcount : s.violations signals with
    | zero => simp [hcount]
    | succ n => simp [hcount]

theorem PolicyDefinition.hasHash_iff {d : PolicyDefinition} {hash : String} :
    d.hasHash hash = true ↔ Hex.lowercase d.hash = Hex.lowercase hash := by
  rw [hasHash_eq, Hex.agree, beq_iff_eq]

theorem Challenge.not_isExpired_iff {c : Challenge} {now : Instant} :
    ¬ c.isExpired now = true ↔ now < c.expiresAt := by
  rw [isExpired, decide_eq_true_eq]
  exact Int.not_le

/-- The document of the recomputed public inputs. -/
theorem publicInputs_eq (commitment policyHash : String) (sessionTag : Option String) :
    publicInputs commitment policyHash sessionTag =
      .object (("challengeCommitment", .string commitment) :: ("policyHash", .string policyHash)
        :: (sessionTag.map fun tag => ("sessionTag", Json.string tag)).toList) := by
  cases sessionTag <;> rfl

namespace ZeroKnowledgePresentation

variable {key : CommitmentKey} {r : PolicyRegistry} {now : Instant} {presentation : Json}
  {p : ZeroKnowledgePresentation} {d : PolicyDefinition} {proof : Bytes}

/-- What a presentation has to be for the proof service to be asked about it. -/
structure Warrants (key : CommitmentKey) (r : PolicyRegistry) (now : Instant)
    (presentation : Json) (p : ZeroKnowledgePresentation) (d : PolicyDefinition)
    (proof : Bytes) : Prop where
  reads : Json.readJson ofWritten? presentation = some p
  encoded : p.proof = Base64Url.encode proof
  nonempty : proof ≠ []
  commitment : Hex.lowercase (p.challenge.commitment key) = Hex.lowercase p.declared.commitment
  unexpired : now < p.challenge.expiresAt
  offered : r.Offers p.challenge.policyId p.version d
  usable : d.status = .active ∨ d.status = .deprecated
  hash : Hex.lowercase d.hash = Hex.lowercase p.declared.policyHash
  signals : d.Admits (publicInputs (p.challenge.commitment key) d.hash p.declared.sessionTag)

/-- What the proof service is asked: all is worked out anew but the proof and the session tag. -/
def asked (key : CommitmentKey) (p : ZeroKnowledgePresentation) (d : PolicyDefinition)
    (proof : Bytes) : ProofRequest where
  circuitId := d.circuitId
  verificationKeyId := d.verificationKeyId
  proof := proof
  publicInputs :=
    .object (("challengeCommitment", .string (p.challenge.commitment key))
      :: ("policyHash", .string d.hash)
      :: (p.declared.sessionTag.map fun tag => ("sessionTag", Json.string tag)).toList)

theorem proofBytes?_eq_some_iff :
    p.proofBytes? = some proof ↔ p.proof = Base64Url.encode proof ∧ proof ≠ [] := by
  rw [proofBytes?, Option.filter_eq_some_iff, Base64Url.decodeText?_eq_some_iff]
  simp

end ZeroKnowledgePresentation

namespace ZeroKnowledgeVerifier

open ZeroKnowledgePresentation

variable {W : Type} {v : ZeroKnowledgeVerifier W} {w : W} {r : PolicyRegistry}

/-! The decision. -/

/-- The definition that a proof is for, in terms of the registry alone. -/
def resolved (r : PolicyRegistry) (id : PolicyId) (pinned : Option PolicyVersion) :
    Except Stop PolicyDefinition :=
  match r.current? id with
  | none => .error (.rejected .policyNotFound)
  | some current =>
    match pinned with
    | none => usable current
    | some n =>
      if n = current.version then usable current
      else if n ∈ current.compatible then
        match r.find? id n with
        | none => .error (.rejected .policyNotFound)
        | some p => usable p
      else .error (.rejected .policyHashMismatch)

/-- The request that a presentation leads to, in terms of the signal, the registry and the time. -/
def demand (v : ZeroKnowledgeVerifier W) (cancelled : Bool) (r : PolicyRegistry) (now : Instant)
    (presentation : Json) : Except Stop ProofRequest :=
  match v.opened presentation with
  | .error e => .error e
  | .ok (p, proof, commitment) =>
    if p.challenge.isExpired now then .error (.rejected .challengeExpired)
    else if cancelled then .error (.failed .cancelled)
    else do request (← resolved r p.challenge.policyId p.version) p proof commitment

theorem usable_eq_ok_iff {p d : PolicyDefinition} :
    usable p = .ok d ↔ p = d ∧ (d.status = .active ∨ d.status = .deprecated) := by
  unfold usable
  constructor
  · intro h
    split at h
    · next hs => cases h; exact ⟨rfl, .inl hs⟩
    · next hs => cases h; exact ⟨rfl, .inr hs⟩
    · cases h
  · rintro ⟨rfl, hs | hs⟩ <;> rw [hs]

theorem resolved_eq_ok_iff {id : PolicyId} {pinned : Option PolicyVersion}
    {d : PolicyDefinition} : resolved r id pinned = .ok d ↔
      r.Offers id pinned d ∧ (d.status = .active ∨ d.status = .deprecated) := by
  unfold resolved
  constructor
  · intro h
    split at h
    · cases h
    · next current hcurrent =>
      split at h
      · obtain ⟨rfl, hs⟩ := usable_eq_ok_iff.mp h
        exact ⟨.current hcurrent, hs⟩
      · next n =>
        split at h
        · next hn =>
          obtain ⟨rfl, hs⟩ := usable_eq_ok_iff.mp h
          subst hn
          exact ⟨.pinned hcurrent, hs⟩
        · next hn =>
          split at h
          · next hmem =>
            split at h
            · cases h
            · next p hp =>
              obtain ⟨rfl, hs⟩ := usable_eq_ok_iff.mp h
              exact ⟨.compatible hcurrent hn hmem hp, hs⟩
          · cases h
  · rintro ⟨hoffers, hs⟩
    cases hoffers with
    | current hcurrent =>
      rw [hcurrent]
      exact usable_eq_ok_iff.mpr ⟨rfl, hs⟩
    | pinned hcurrent =>
      rw [hcurrent]
      exact (if_pos rfl).trans (usable_eq_ok_iff.mpr ⟨rfl, hs⟩)
    | compatible hcurrent hn hmem hfind =>
      rw [hcurrent]
      refine ((if_neg hn).trans (if_pos hmem)).trans ?_
      rw [hfind]
      exact usable_eq_ok_iff.mpr ⟨rfl, hs⟩

theorem opened_eq_ok_iff {presentation : Json} {p : ZeroKnowledgePresentation} {proof : Bytes}
    {commitment : String} : v.opened presentation = .ok (p, proof, commitment) ↔
      Json.readJson ofWritten? presentation = some p ∧ p.proofBytes? = some proof ∧
        commitment = p.challenge.commitment v.settings.challengeKey ∧
        Hex.lowercase commitment = Hex.lowercase p.declared.commitment := by
  unfold opened
  constructor
  · intro h
    split at h
    · cases h
    · next p' hreads =>
      split at h
      · cases h
      · next proof' hproof =>
        rw [Challenge.tryCommitment_eq] at h
        dsimp only at h
        split at h
        · next hagree =>
          cases h
          exact ⟨hreads, hproof, rfl, beq_iff_eq.mp hagree⟩
        · cases h
  · rintro ⟨hreads, hproof, rfl, hagree⟩
    rw [hreads]
    dsimp only
    rw [hproof]
    dsimp only
    rw [Challenge.tryCommitment_eq]
    exact if_pos (beq_iff_eq.mpr hagree)

theorem request_eq_ok_iff {d : PolicyDefinition} {p : ZeroKnowledgePresentation} {proof : Bytes}
    {commitment : String} {q : ProofRequest} : request d p proof commitment = .ok q ↔
      Hex.lowercase d.hash = Hex.lowercase p.declared.policyHash ∧
        d.Admits (publicInputs commitment d.hash p.declared.sessionTag) ∧
        q = ⟨d.circuitId, d.verificationKeyId, proof,
          publicInputs commitment d.hash p.declared.sessionTag⟩ := by
  rw [← PolicyDefinition.hasHash_iff, PolicyDefinition.hasHash_eq,
    ← PolicyDefinition.checkSignals_eq_ok_iff, request, PolicyDefinition.tryHash_eq]
  dsimp only
  constructor
  · intro h
    split at h
    · cases h
    · next hhash =>
      split at h
      · next hsignals =>
        cases h
        exact ⟨by simpa using hhash, hsignals, rfl⟩
      · cases h
      · cases h
  · rintro ⟨hhash, hsignals, rfl⟩
    rw [hhash, hsignals]
    rfl

/-- The proof service is asked exactly about presentations that warrant it. -/
theorem demand_eq_ok_iff {cancelled : Bool} {now : Instant} {presentation : Json}
    {q : ProofRequest} : v.demand cancelled r now presentation = .ok q ↔
      cancelled = false ∧ ∃ p d proof,
        Warrants v.settings.challengeKey r now presentation p d proof ∧
          q = asked v.settings.challengeKey p d proof := by
  unfold demand
  constructor
  · intro h
    split at h
    · cases h
    · next p proof commitment hopened =>
      obtain ⟨hreads, hproof, rfl, hcommitment⟩ := opened_eq_ok_iff.mp hopened
      obtain ⟨hencoded, hnonempty⟩ := proofBytes?_eq_some_iff.mp hproof
      split at h
      · cases h
      · next hexpired =>
        split at h
        · cases h
        · next hsignal =>
          obtain ⟨d, hresolved, hrequest⟩ := except_bind_eq_ok_iff.mp h
          obtain ⟨hoffered, husable⟩ := resolved_eq_ok_iff.mp hresolved
          obtain ⟨hhash, hsignals, rfl⟩ := request_eq_ok_iff.mp hrequest
          refine ⟨Bool.not_eq_true _ ▸ hsignal, p, d, proof, ?_, by rw [asked, publicInputs_eq]⟩
          exact
            { reads := hreads
              encoded := hencoded
              nonempty := hnonempty
              commitment := hcommitment
              unexpired := Challenge.not_isExpired_iff.mp hexpired
              offered := hoffered
              usable := husable
              hash := hhash
              signals := hsignals }
  · rintro ⟨rfl, p, d, proof, h, rfl⟩
    have hproof := proofBytes?_eq_some_iff.mpr ⟨h.encoded, h.nonempty⟩
    rw [opened_eq_ok_iff.mpr ⟨h.reads, hproof, rfl, h.commitment⟩]
    dsimp only
    rw [if_neg (Challenge.not_isExpired_iff.mpr h.unexpired), if_neg Bool.false_ne_true,
      resolved_eq_ok_iff.mpr ⟨h.offered, h.usable⟩, asked, ← publicInputs_eq]
    exact request_eq_ok_iff.mpr ⟨h.hash, h.signals, rfl⟩

/-! Decisions against a presentation. -/

/-- The codes that a presentation is turned away with before the proof service is asked. -/
def rejections : List Reason :=
  [.malformedPresentation, .publicInputMismatch, .challengeExpired, .policyNotFound,
    .policyInactive, .policyHashMismatch]

def Rejects (e : Stop) : Prop := ∃ reason ∈ rejections, e = .rejected reason

section Decisions

variable {e : Stop} {presentation : Json} {id : PolicyId} {pinned : Option PolicyVersion}
  {d : PolicyDefinition} {p : ZeroKnowledgePresentation} {proof : Bytes} {commitment : String}

theorem opened_eq_error (h : v.opened presentation = .error e) : Rejects e := by
  unfold opened at h
  split at h
  · cases h
    exact ⟨.malformedPresentation, by decide, rfl⟩
  · split at h
    · cases h
      exact ⟨.malformedPresentation, by decide, rfl⟩
    · rw [Challenge.tryCommitment_eq] at h
      dsimp only at h
      split at h
      · cases h
      · cases h
        exact ⟨.publicInputMismatch, by decide, rfl⟩

theorem usable_eq_error (h : usable d = .error e) : Rejects e := by
  unfold usable at h
  split at h
  · cases h
  · cases h
  · cases h
    exact ⟨.policyInactive, by decide, rfl⟩

theorem resolved_eq_error (h : resolved r id pinned = .error e) : Rejects e := by
  unfold resolved at h
  split at h
  · cases h
    exact ⟨.policyNotFound, by decide, rfl⟩
  · split at h
    · exact usable_eq_error h
    · split at h
      · exact usable_eq_error h
      · split at h
        · split at h
          · cases h
            exact ⟨.policyNotFound, by decide, rfl⟩
          · exact usable_eq_error h
        · cases h
          exact ⟨.policyHashMismatch, by decide, rfl⟩

/-- A schema that does not compile is the one failure that is not the presentation's. -/
theorem request_eq_error (h : request d p proof commitment = .error e) :
    Rejects e ∨ PublicSignalsSchema.compile d.signalsSchema = none ∧
      ∃ detail, e = .failed (.dependency detail) := by
  rw [request, PolicyDefinition.tryHash_eq] at h
  dsimp only at h
  split at h
  · cases h
    exact .inl ⟨.publicInputMismatch, by decide, rfl⟩
  · split at h
    · cases h
    · cases h
      exact .inl ⟨.publicInputMismatch, by decide, rfl⟩
    · next cause hrejected hcheck =>
      cases h
      refine .inr ⟨?_, _, rfl⟩
      unfold PolicyDefinition.checkSignals at hcheck
      split at hcheck
      · next hcompile => exact hcompile
      · split at hcheck
        · cases hcheck
        · cases hcheck
          exact absurd rfl (hrejected _)

theorem demand_eq_error {cancelled : Bool} {now : Instant}
    (h : v.demand cancelled r now presentation = .error e) :
    Rejects e ∨ (cancelled = true ∧ e = .failed .cancelled) ∨
      ∃ d ∈ r.definitions, PublicSignalsSchema.compile d.signalsSchema = none ∧
        ∃ detail, e = .failed (.dependency detail) := by
  unfold demand at h
  split at h
  · next hopened =>
    cases h
    exact .inl (opened_eq_error hopened)
  · next p proof commitment _ =>
    split at h
    · cases h
      exact .inl ⟨.challengeExpired, by decide, rfl⟩
    · split at h
      · next hcancelled =>
        cases h
        exact .inr (.inl ⟨hcancelled, rfl⟩)
      · cases hd : resolved r p.challenge.policyId p.version with
        | error cause =>
          rw [hd] at h
          cases h
          exact .inl (resolved_eq_error hd)
        | ok d =>
          rw [hd] at h
          rcases request_eq_error h with hrejects | ⟨hcompile, hdetail⟩
          · exact .inl hrejects
          · have hmem := PolicyRegistry.mem_of_offers (resolved_eq_ok_iff.mp hd).1
            exact .inr (.inr ⟨d, hmem, hcompile, hdetail⟩)

theorem demand_ne_valid {cancelled : Bool} {now : Instant} :
    v.demand cancelled r now presentation ≠ .error (.rejected .valid) := by
  intro h
  rcases demand_eq_error h with ⟨reason, hmem, heq⟩ | ⟨_, heq⟩ | ⟨_, _, _, _, heq⟩
  · cases heq
    exact absurd hmem (by decide)
  · cases heq
  · cases heq

end Decisions

theorem ofProofService_ne_valid (e : ProofServiceError) : ofProofService e ≠ .rejected .valid := by
  cases e <;> simp [ofProofService]

/-! The call. -/

section Lookup

variable (hsignal : v.cancelled w = false)
  (hpolicies : ∀ id n, v.policies id n w = (.ok (r.get? id n), w))

include hsignal hpolicies

theorem lookup_eq (id : PolicyId) (n : Option PolicyVersion) :
    v.lookup id n w = (.ok (r.get? id n), w) := by
  unfold lookup Surroundings.guarded
  rw [Step.guarded_of_not_cancelled hsignal, hpolicies]

theorem resolve_eq (id : PolicyId) (pinned : Option PolicyVersion) :
    v.resolve id pinned w = (resolved r id pinned, w) := by
  unfold resolve resolved
  rw [Step.bind_of_ok (lookup_eq hsignal hpolicies id none), PolicyRegistry.get?]
  cases r.current? id with
  | none => rfl
  | some current =>
    cases pinned with
    | none => rfl
    | some n =>
      dsimp only
      split
      · rfl
      · split
        · rw [Step.bind_of_ok (lookup_eq hsignal hpolicies id (some n)), PolicyRegistry.get?]
          cases r.find? id n <;> rfl
        · rfl

end Lookup

theorem resolve_of_cancelled (hsignal : v.cancelled w = true) (id : PolicyId)
    (pinned : Option PolicyVersion) :
    v.resolve id pinned w = (.error (.failed .cancelled), w) := by
  unfold resolve lookup Surroundings.guarded
  exact Step.bind_of_error (Step.guarded_of_cancelled hsignal _ _)

/-- A verifier decides, and then asks the proof service if there is something to ask. -/
theorem run_eq (hpolicies : v.cancelled w = false →
      ∀ id n, v.policies id n w = (.ok (r.get? id n), w)) (presentation : Json) :
    v.run presentation w =
      match v.demand (v.cancelled w) r (v.now w) presentation with
      | .error e => (.error e, w)
      | .ok q => Step.mapError ofProofService (v.proofs q) w := by
  unfold run demand
  cases hopened : v.opened presentation with
  | error e => exact Step.bind_of_error (Step.ofExcept_of_error rfl w)
  | ok x =>
    obtain ⟨p, proof, commitment⟩ := x
    rw [Step.bind_of_ok (Step.ofExcept_of_ok rfl w)]
    dsimp only
    rw [Step.bind_of_ok (rfl : v.time w = (.ok (v.now w), w))]
    split
    · rfl
    -- the signal is first seen when the current version is looked up
    · cases hsignal : v.cancelled w with
      | true => exact Step.bind_of_error (resolve_of_cancelled hsignal _ _)
      | false =>
        have hresolve := resolve_eq hsignal (hpolicies hsignal) p.challenge.policyId p.version
        rw [if_neg Bool.false_ne_true]
        cases hd : resolved r p.challenge.policyId p.version with
        | error e =>
          rw [hd] at hresolve
          exact Step.bind_of_error hresolve
        | ok d =>
          rw [hd] at hresolve
          dsimp only [bind, Except.bind]
          refine (Step.bind_of_ok hresolve).trans ?_
          cases hq : request d p proof commitment with
          | error e => exact Step.bind_of_error (Step.ofExcept_of_error rfl w)
          | ok q =>
            refine (Step.bind_of_ok (Step.ofExcept_of_ok rfl w)).trans ?_
            exact Step.guarded_of_not_cancelled hsignal _ _

/-! The verdict. -/

/-- What is concluded from the end of a run. -/
def conclusion : Except Stop Bool → Except VerifierError Verdict
  | .ok true => .ok (.accept .zeroKnowledge none)
  | .ok false => .ok (reject .proofInvalid)
  | .error (.rejected r) => .ok (reject r)
  | .error (.failed e) => .error e

theorem verify_eq (presentation : Json) (w : W) : v.verify presentation w =
    (conclusion (v.run presentation w).1, (v.run presentation w).2) := by
  unfold verify conclusion
  cases v.run presentation w with
  | mk result u =>
    cases result with
    | error e => cases e <;> rfl
    | ok b => cases b <;> rfl

/-- A verdict is reached, and it is that the presentation is valid. -/
def Accepted (r : Except VerifierError Verdict) : Prop := ∃ v, r = .ok v ∧ v.isValid = true

theorem accepted_conclusion_iff {r : Except Stop Bool} (h : r ≠ .error (.rejected .valid)) :
    Accepted (conclusion r) ↔ r = .ok true := by
  unfold conclusion Accepted
  split
  · simp [Verdict.accept, Verdict.isValid]
  · simp [reject, Verdict.reject, Verdict.isValid]
  · next reason =>
    have hreason : reason ≠ .valid := fun heq => h (by rw [heq])
    simp [reject, Verdict.reject, Verdict.isValid, hreason]
  · simp

theorem mapError_ofProofService_ne_valid (r : Except ProofServiceError Bool) :
    r.mapError ofProofService ≠ .error (.rejected .valid) := by
  cases r with
  | ok b => simp
  | error e => simpa using ofProofService_ne_valid e

end ZeroKnowledgeVerifier
end Credentials
