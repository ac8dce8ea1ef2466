import Credentials.Proofs.Presentation.Asking
import Credentials.Proofs.World.Run

/-!
# The requests of a verifier on record

A verifier runs in a world beside which every request to the proof service is written down, whatever
that service does and answers. The record shows that a presentation leads to at most one request,
and which; and a verdict accepts a presentation only on the word of the service about that request.
-/

namespace Credentials

/-- A verifier in memory that asks a service of one's choice. -/
def World.verifierAsking (settings : ZeroKnowledgeSettings) (service : ProofService World) :
    ZeroKnowledgeVerifier World :=
  { zeroKnowledgeVerifier settings with proofs := service }

/-- A world and all that the proof service was asked so far. -/
structure RecordedWorld where
  world : World
  requests : List ProofRequest

namespace RecordedWorld

def surroundings : Surroundings RecordedWorld :=
  ⟨fun o => o.world.cancelled, fun o => o.world.clock.now⟩

def policyDirectory : PolicyDirectory RecordedWorld := fun id n o =>
  let (r, w) := World.policyDirectory id n o.world
  (r, { o with world := w })

/-- The service as it is; the request is written down. -/
def proofService (service : ProofService World) : ProofService RecordedWorld := fun q o =>
  let (r, w) := service q o.world
  (r, ⟨w, o.requests ++ [q]⟩)

def verifier (settings : ZeroKnowledgeSettings) (service : ProofService World) :
    ZeroKnowledgeVerifier RecordedWorld :=
  { surroundings with
    policies := policyDirectory
    proofs := proofService service
    settings := settings }

end RecordedWorld

open ZeroKnowledgePresentation ZeroKnowledgeVerifier

variable {settings : ZeroKnowledgeSettings} {service : ProofService World}

/-- A request is answered without fail. -/
theorem TransparentProof.check_eq (q : ProofRequest) : check q = .ok (holds q) := by
  rw [check, tryProve, Canonical.ofValue_eq]
  rfl

theorem World.proofService_eq {w : World} (hw : w.cancelled = false) (q : ProofRequest) :
    proofService q w =
      (.ok (TransparentProof.holds q), { w with proofCalls := w.proofCalls + 1 }) := by
  have hsignal : surroundings.cancelled w = false := hw
  unfold proofService Surroundings.guarded
  rw [Step.guarded_of_not_cancelled hsignal, TransparentProof.check_eq]

theorem World.run_verifierAsking (presentation : Json) (w : World) :
    (verifierAsking settings service).run presentation w =
      match (verifierAsking settings service).demand w.cancelled w.policies w.clock.now
        presentation with
      | .error e => (.error e, w)
      | .ok q => Step.mapError ofProofService (service q) w :=
  run_eq (fun hw => policies_eq hw) presentation

/-- A presentation is accepted on the word of the proof service about what it is asked. -/
theorem World.accepted_iff (presentation : Json) (w : World) :
    Accepted ((verifierAsking settings service).verify presentation w).1 ↔
      ∃ q, (verifierAsking settings service).demand w.cancelled w.policies w.clock.now
        presentation = .ok q ∧ (service q w).1 = .ok true := by
  rw [verify_eq, run_verifierAsking]
  cases hdemand : (verifierAsking settings service).demand w.cancelled w.policies w.clock.now
      presentation with
  | error e =>
    -- nothing is asked, and a decision against a presentation is never for the reason valid
    have hvalid : Except.error e ≠ .error (.rejected .valid) := hdemand ▸ demand_ne_valid
    refine (accepted_conclusion_iff fun h => hvalid ?_).trans ?_
    · cases h
      rfl
    · simp
  | ok q =>
    refine (accepted_conclusion_iff (mapError_ofProofService_ne_valid (service q w).1)).trans ?_
    simp [mapError_eq_ok_iff]

namespace RecordedWorld

theorem run_verifier (presentation : Json) (o : RecordedWorld) :
    (verifier settings service).run presentation o =
      match (World.verifierAsking settings service).demand o.world.cancelled o.world.policies
        o.world.clock.now presentation with
      | .error e => (.error e, o)
      | .ok q => Step.mapError ofProofService (proofService service q) o := by
  refine run_eq (fun hw id n => ?_) presentation
  have hlookup := World.policies_eq hw id n
  change (let (r, w) := World.policyDirectory id n o.world; (r, { o with world := w })) = _
  rw [hlookup]

/-- The proof is the hash of the document of circuit and public inputs. -/
theorem holds_iff {q : ProofRequest} : TransparentProof.holds q = true ↔
    q.proof = sha256 (Canonical.ofJson (.object
      [("circuitId", .string q.circuitId), ("publicInputs", q.publicInputs)])).bytes :=
  beq_iff_eq

/-- One presentation, one request at most, made of recomputed values; and no acceptance without the
service's word about that request. -/
theorem verify_asks_once (settings : ZeroKnowledgeSettings) (service : ProofService World)
    (presentation : Json) (o : RecordedWorld) : ∃ query : Option ProofRequest,
      (∀ q, query = some q ↔ o.world.cancelled = false ∧ ∃ p d proof,
        Warrants settings.challengeKey o.world.policies o.world.clock.now presentation p d proof ∧
          q = asked settings.challengeKey p d proof) ∧
      ((verifier settings service).verify presentation o).2 =
        (match query with
          | none => o
          | some q => ⟨(service q o.world).2, o.requests ++ [q]⟩) ∧
      ((verifier settings service).verify presentation o).1 =
        ((World.verifierAsking settings service).verify presentation o.world).1 ∧
      (Accepted ((World.verifierAsking settings service).verify presentation o.world).1 ↔
        ∃ q, query = some q ∧ (service q o.world).1 = .ok true) ∧
      (Accepted ((World.zeroKnowledgeVerifier settings).verify presentation o.world).1 ↔
        ∃ q, query = some q ∧ q.proof = sha256 (Canonical.ofJson (.object
          [("circuitId", .string q.circuitId), ("publicInputs", q.publicInputs)])).bytes) := by
  obtain ⟨w, before⟩ := o
  have hrun : (verifier settings service).run presentation ⟨w, before⟩ = _ :=
    run_verifier presentation ⟨w, before⟩
  refine ⟨((World.verifierAsking settings service).demand w.cancelled w.policies w.clock.now
    presentation).toOption, fun q => ?_, ?_, ?_, ?_, ?_⟩
  · rw [toOption_eq_some_iff]
    exact demand_eq_ok_iff
  · rw [verify_eq, hrun]
    cases (World.verifierAsking settings service).demand w.cancelled w.policies w.clock.now
      presentation <;> rfl
  · rw [verify_eq, verify_eq, hrun, World.run_verifierAsking]
    cases (World.verifierAsking settings service).demand w.cancelled w.policies w.clock.now
      presentation <;> rfl
  · rw [World.accepted_iff]
    simp only [toOption_eq_some_iff]
  · refine (World.accepted_iff presentation w).trans (exists_congr fun q => ?_)
    rw [toOption_eq_some_iff]
    refine and_congr_right fun hq => ?_
    have hw : w.cancelled = false := (demand_eq_ok_iff.mp hq).1
    rw [World.proofService_eq hw, ← holds_iff]
    simp

end RecordedWorld
end Credentials
