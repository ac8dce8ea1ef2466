import Credentials.Proofs.Issuance.Acceptance
import Credentials.Proofs.Presentation.Normalization
import Credentials.Proofs.Presentation.Recorded
import Credentials.Proofs.Presentation.Wire

/-!
# Honest presentations

A presentation that answers a challenge of the server in time, under a version that the policy
offers, with the right values and the proof for that version's circuit, is accepted. The prover
works from the challenge that it was handed, the verifier from what it reads back.
-/

namespace Credentials

/-! The engine. -/

namespace Engine

/-- A verdict of the verifier in memory, in normal form. -/
theorem verify_of_zeroKnowledge {e : Engine World} {settings : ZeroKnowledgeSettings}
    {w u : World} {presentation : Json} {verdict : Verdict}
    (he : e.toSurroundings = World.surroundings)
    (hverifier : e.verifier? .zeroKnowledge = some (World.zeroKnowledgeVerifier settings).verifier)
    (hw : w.cancelled = false)
    (hverify : (World.zeroKnowledgeVerifier settings).verify presentation w = (.ok verdict, u))
    (hu : u.cancelled = false) :
    e.verify ⟨some "zkp", presentation⟩ w = (.ok (.ofVerdict verdict w.clock.now), u) := by
  have hsignal : e.cancelled w = false := by rwa [he]
  have hsignal' : e.cancelled u = false := by rwa [he]
  refine (verify_of_supports hsignal ⟨rfl, hverifier⟩).trans ?_
  refine (dispatch_of_no_signal hverify hsignal').trans ?_
  rw [he]
  rfl

end Engine

/-! The honest presentation. -/

open ZeroKnowledgePresentation ZeroKnowledgeVerifier

/-- The answer to a challenge: the challenge as it was handed out, the two declared values, and the
proof over the commitment that came with the challenge and the hash of the policy. -/
def ZeroKnowledgePresentation.honest (issued : IssuedChallenge) (d : PolicyDefinition)
    (version : Option PolicyVersion) (commitment policyHash : String)
    (sessionTag : Option String) : ZeroKnowledgePresentation where
  proof := Base64Url.encode (TransparentProof.prove d.circuitId
    (publicInputs issued.commitment d.hash sessionTag))
  challenge := issued.challenge
  version := version
  declared := ⟨commitment, policyHash, sessionTag⟩

theorem TransparentProof.length_prove (circuitId : String) (publicInputs : Json) :
    (prove circuitId publicInputs).length = 32 :=
  length_sha256 _

namespace World

variable {settings : ZeroKnowledgeSettings} {w : World} {presentation : Json}
  {p : ZeroKnowledgePresentation} {d : PolicyDefinition} {proof : Bytes}

/-- The one proof there is for the recomputed inputs is accepted. -/
theorem verify_of_warrants (hw : w.cancelled = false)
    (h : Warrants settings.challengeKey w.policies w.clock.now presentation p d proof)
    (hproof : proof = TransparentProof.prove d.circuitId
      (publicInputs (p.challenge.commitment settings.challengeKey) d.hash p.declared.sessionTag)) :
    (zeroKnowledgeVerifier settings).verify presentation w =
      (.ok (.accept .zeroKnowledge none), { w with proofCalls := w.proofCalls + 1 }) := by
  have hdemand : (verifierAsking settings proofService).demand w.cancelled w.policies w.clock.now
      presentation = .ok (asked settings.challengeKey p d proof) :=
    demand_eq_ok_iff.mpr ⟨hw, p, d, proof, h, rfl⟩
  have hholds : TransparentProof.holds (asked settings.challengeKey p d proof) = true := by
    rw [TransparentProof.holds, asked, ← publicInputs_eq]
    exact beq_iff_eq.mpr hproof
  have hrun : (zeroKnowledgeVerifier settings).run presentation w =
      (.ok true, { w with proofCalls := w.proofCalls + 1 }) := by
    refine (run_verifierAsking presentation w).trans ?_
    rw [hdemand]
    refine Step.mapError_of_ok ?_
    rw [proofService_eq hw, hholds]
  rw [verify_eq, hrun]
  rfl

/-- A challenge that cannot be read back makes the presentation malformed, whoever made it. -/
theorem verify_of_signed (h : ¬ p.challenge.issuedAt.HasPlainYear) (w : World) :
    (zeroKnowledgeVerifier settings).verify p.json w =
      (.ok (reject .malformedPresentation), w) := by
  have hopened : (zeroKnowledgeVerifier settings).opened p.json =
      .error (.rejected .malformedPresentation) := by
    unfold opened Json.readJson
    rw [ofWritten?_json_of_signed h]
  have hrun : (zeroKnowledgeVerifier settings).run p.json w =
      (.error (.rejected .malformedPresentation), w) := by
    unfold ZeroKnowledgeVerifier.run
    exact Step.bind_of_error (Step.ofExcept_of_error hopened w)
  rw [verify_eq, hrun]
  rfl

end World

section Honest

variable {settings : ZeroKnowledgeSettings} {w : World} {i : ChallengeIssuer} {time : Instant}
  {id : Uuid} {nonce : Bytes} {policyId : PolicyId} {audience : Option String}
  {issued : IssuedChallenge} {d : PolicyDefinition} {version : Option PolicyVersion}
  {commitment policyHash : String} {sessionTag : Option String}

theorem warrants_honest (hkey : i.key = settings.challengeKey)
    (hissue : i.issue time id nonce policyId audience = .ok issued)
    (hissued : issued.challenge.issuedAt.HasPlainYear)
    (hexpires : issued.challenge.expiresAt.HasPlainYear)
    (hnow : w.clock.now < issued.challenge.expiresAt)
    (hoffers : w.policies.Offers policyId version d)
    (husable : d.status = .active ∨ d.status = .deprecated)
    (hsignals : d.Admits (publicInputs issued.commitment d.hash sessionTag))
    (hcommitment : Hex.lowercase commitment = Hex.lowercase issued.commitment)
    (hhash : Hex.lowercase policyHash = Hex.lowercase d.hash) :
    Warrants settings.challengeKey w.policies w.clock.now
      (honest issued d version commitment policyHash sessionTag).json
      (honest issued d version commitment policyHash sessionTag) d
      (TransparentProof.prove d.circuitId (publicInputs issued.commitment d.hash sessionTag)) := by
  obtain ⟨expiresAt, hadd, hc, hown⟩ := ChallengeIssuer.issue_eq_ok_iff.mp hissue
  -- under one key, the commitment that was handed out is the one that is recomputed
  rw [hkey] at hown
  exact
    { reads := ofWritten?_json hissued hexpires
      encoded := rfl
      nonempty := List.ne_nil_of_length_pos (by rw [TransparentProof.length_prove]; decide)
      commitment := by rw [honest, ← hown, hcommitment]
      unexpired := hnow
      offered := by rwa [honest, hc]
      usable := husable
      hash := hhash.symm
      signals := by rwa [honest, ← hown] }

/-- An honest presentation is valid, and the proof service was asked about it once. -/
theorem Engine.verify_honest {e : Engine World} (he : e.toSurroundings = World.surroundings)
    (hverifier : e.verifier? .zeroKnowledge = some (World.zeroKnowledgeVerifier settings).verifier)
    (hw : w.cancelled = false) (hkey : i.key = settings.challengeKey) (hlifetime : 0 < i.lifetime)
    (hissue : i.issue time id nonce policyId audience = .ok issued) (hfirst : 0 ≤ time.date.year)
    (hlast : issued.challenge.expiresAt.date.year ≤ 9999)
    (hnow : w.clock.now < issued.challenge.expiresAt)
    (hoffers : w.policies.Offers policyId version d)
    (husable : d.status = .active ∨ d.status = .deprecated)
    (hsignals : d.Admits (publicInputs issued.commitment d.hash sessionTag))
    (hcommitment : Hex.lowercase commitment = Hex.lowercase issued.commitment)
    (hhash : Hex.lowercase policyHash = Hex.lowercase d.hash) :
    e.verify ⟨some "zkp", (honest issued d version commitment policyHash sessionTag).json⟩ w =
      (.ok ⟨true, [.valid], some "zkp", none, w.clock.now⟩,
        { w with proofCalls := w.proofCalls + 1 }) := by
  obtain ⟨hissued, hexpires⟩ := ChallengeIssuer.plain_of_issue hissue hlifetime hfirst hlast
  have hwarrants := warrants_honest hkey hissue hissued hexpires hnow hoffers husable hsignals
    hcommitment hhash
  have hown := (ChallengeIssuer.issue_eq_ok_iff.mp hissue).choose_spec.2.2
  rw [hkey] at hown
  have hverify := World.verify_of_warrants hw hwarrants (by rw [honest, ← hown])
  exact Engine.verify_of_zeroKnowledge he hverifier hw hverify hw

end Honest

/-! A challenge under the one policy of a small world, and one a second too old to be read. -/

namespace World

def sampleSettings : ZeroKnowledgeSettings := ⟨⟨List.replicate 32 0x5a, by decide⟩, 5000⟩

def sampleEngine : Engine World :=
  engine.register (zeroKnowledgeVerifier sampleSettings).verifier

def sampleChallenges : ChallengeIssuer := ⟨sampleSettings.challengeKey, 300⟩

theorem admits_samplePolicy (commitment policyHash : String) (sessionTag : Option String) :
    samplePolicy.Admits (publicInputs commitment policyHash sessionTag) := by
  rw [publicInputs_eq]
  cases sessionTag <;> exact ⟨_, rfl, rfl⟩

theorem verify_honest_sample : ∃ issued,
    sampleChallenges.issue sampleTime Uuid.nil (List.replicate 32 0) ⟨"p1"⟩ none = .ok issued ∧
    sampleEngine.verify ⟨some "zkp",
      (honest issued samplePolicy (some samplePolicy.version) issued.commitment samplePolicy.hash
        (some "s")).json⟩ sampleWorld =
      (.ok ⟨true, [.valid], some "zkp", none, sampleTime⟩,
        { sampleWorld with proofCalls := 1 }) := by
  have hissue : sampleChallenges.issue sampleTime Uuid.nil (List.replicate 32 0) ⟨"p1"⟩ none =
    .ok _ := ChallengeIssuer.issue_of_add? rfl _ _ _ _
  have hengine : sampleEngine.verifier? .zeroKnowledge =
    some (zeroKnowledgeVerifier sampleSettings).verifier := rfl
  exact ⟨_, hissue, Engine.verify_honest rfl hengine rfl rfl (by decide) hissue (by decide)
    (by decide) (by decide) (.pinned rfl) (.inl rfl) (admits_samplePolicy _ _ _) rfl rfl⟩

/-- The last second before the year 0. -/
def earlyTime : Instant := ⟨-62167219201, by decide, by decide⟩

theorem honest_before_year_zero : Reached (run [.setClock earlyTime] sampleWorld) ∧ ∃ issued,
    sampleChallenges.issue earlyTime Uuid.nil (List.replicate 32 0) ⟨"p1"⟩ none = .ok issued ∧
    issued.challenge.expiresAt.date.year ≤ 9999 ∧
    (run [.setClock earlyTime] sampleWorld).clock.now < issued.challenge.expiresAt ∧
    (run [.setClock earlyTime] sampleWorld).policies.Offers ⟨"p1"⟩ none samplePolicy ∧
    samplePolicy.status = .active ∧
    samplePolicy.Admits (publicInputs issued.commitment samplePolicy.hash none) ∧
    sampleEngine.verify ⟨some "zkp",
      (honest issued samplePolicy none issued.commitment samplePolicy.hash none).json⟩
        (run [.setClock earlyTime] sampleWorld) =
      (.ok ⟨false, [.malformedPresentation], some "zkp", none, earlyTime⟩,
        run [.setClock earlyTime] sampleWorld) := by
  have hissue : sampleChallenges.issue earlyTime Uuid.nil (List.replicate 32 0) ⟨"p1"⟩ none =
    .ok _ := ChallengeIssuer.issue_of_add? rfl _ _ _ _
  have hengine : sampleEngine.verifier? .zeroKnowledge =
    some (zeroKnowledgeVerifier sampleSettings).verifier := rfl
  have hsigned : ¬ earlyTime.HasPlainYear := by decide
  refine ⟨reached_sampleWorld.run _, _, hissue, by decide, by decide, .current rfl, rfl,
    admits_samplePolicy _ _ _, ?_⟩
  refine Engine.verify_of_zeroKnowledge rfl hengine rfl (verify_of_signed ?_ _) rfl
  exact hsigned

end World

end Credentials
