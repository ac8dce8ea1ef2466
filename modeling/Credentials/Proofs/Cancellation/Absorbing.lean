import Credentials.Proofs.Cancellation.Operations
import Credentials.Proofs.Issuance.Acceptance

/-!
# A signal that has fired

Runs of a world in which anything may be asked, keys and policies change and the signal fires. Once
it has fired it stays so, and from then on every request fails with a cancellation and leaves the
world as it is. In any world, what is under way when the signal fires stops before its next call.
-/

namespace Credentials

namespace World

/-! Requests. -/

/-- What a world is asked. Issuers, validators and engines look at its signal and at its clock and
may have any collaborators. -/
inductive Request where
  | issue (issuer : Issuer World) (within : issuer.toSurroundings = surroundings)
      (id : CredentialId) (request : IssueRequest)
  | validate (validator : Validator World) (within : validator.toSurroundings = surroundings)
      (token : String)
  | verify (engine : Engine World) (within : engine.toSurroundings = surroundings)
      (request : VerificationRequest)
  | sign (id : KeyId) (input : Canonical)
  | currentKey
  | findKey (id : KeyId)
  | findPolicy (id : PolicyId) (version : Option PolicyVersion)
  | checkProof (request : ProofRequest)

namespace Request

/-- What a request fails with. -/
def Failure : Request → Type
  | .issue .. => IssuanceError
  | .validate .. | .verify .. => Cancelled
  | .sign .. | .currentKey | .findKey .. => KeyServiceError
  | .findPolicy .. => RegistryError
  | .checkProof .. => ProofServiceError

def Answer : Request → Type
  | .issue .. => IssuedCredential
  | .validate .. => Validation
  | .verify .. => VerificationResult
  | .sign .. => Signature
  | .currentKey | .findKey .. => Option IssuerKey
  | .findPolicy .. => Option PolicyDefinition
  | .checkProof .. => Bool

def perform : (c : Request) → Step World c.Failure c.Answer
  | .issue i _ id q => i.issue id q
  | .validate v _ token => v.validate token
  | .verify e _ q => e.verify q
  | .sign id input => signer id input
  | .currentKey => keyDirectory.current
  | .findKey id => keyDirectory.find id
  | .findPolicy id version => policyDirectory id version
  | .checkProof q => proofService q

/-- How a request says that it was cancelled. -/
def cancellation : (c : Request) → c.Failure
  | .issue .. => IssuanceError.cancelled
  | .validate .. | .verify .. => Cancelled.mk
  | .sign .. | .currentKey | .findKey .. => KeyServiceError.cancelled
  | .findPolicy .. => RegistryError.cancelled
  | .checkProof .. => ProofServiceError.cancelled

/-- One request. -/
theorem perform_of_cancelled {w : World} (hw : w.cancelled = true) (c : Request) :
    c.perform w = (.error c.cancellation, w) := by
  have hsignal : surroundings.cancelled w = true := hw
  cases c with
  | issue i hi id q => exact (i.cancellable_issue id q).absorbed w (by rw [hi]; exact hw)
  | validate v hv token => exact (v.cancellable_validate token).absorbed w (by rw [hv]; exact hw)
  | verify e he q =>
    obtain ⟨counted, rfl⟩ := CountedEngine.exists_engine_eq e
    have hcounted : counted.toSurroundings = surroundings := he
    exact (counted.cancellable_verify q).absorbed w (by rw [hcounted]; exact hw)
  | sign id input => exact Step.guarded_of_cancelled hsignal _ _
  | currentKey => exact Step.guarded_of_cancelled hsignal _ _
  | findKey id => exact Step.guarded_of_cancelled hsignal _ _
  | findPolicy id version => exact Step.guarded_of_cancelled hsignal _ _
  | checkProof q => exact if_pos hsignal

end Request

/-! Runs. -/

/-- A request, a change of keys, policies or clock, or the signal. -/
inductive Event where
  | request (c : Request)
  | change (op : Operation)
  | cancel

namespace Event

/-- The world after an event, whatever is answered. -/
def apply : Event → World → World
  | .request c, w => (c.perform w).2
  | .change op, w => op.apply w
  | .cancel, w => w.cancel

def run (events : List Event) (w : World) : World := events.foldl (fun w e => e.apply w) w

theorem cancelled_apply {w : World} (hw : w.cancelled = true) (e : Event) :
    (e.apply w).cancelled = true := by
  cases e with
  | request c =>
    change (c.perform w).2.cancelled = true
    rw [c.perform_of_cancelled hw]
    exact hw
  | change op => exact (Later.apply op w).cancelled.trans hw
  | cancel => rfl

theorem cancelled_run {w : World} (hw : w.cancelled = true) (events : List Event) :
    (run events w).cancelled = true := by
  induction events generalizing w with
  | nil => exact hw
  | cons e events ih => exact ih (cancelled_apply hw e)

end Event

/-- The signal has fired, every request fails with a cancellation, and none changes anything. -/
structure Stopped (w : World) : Prop where
  cancelled : w.cancelled = true
  requests : ∀ c : Request, c.perform w = (.error c.cancellation, w)

end World

/-- Once the signal has fired in a run, the world is stopped for the rest of it. And whatever world
and collaborators there are, issuing, validating and verifying can be cancelled between any two
calls. -/
theorem cancellation_absorbs :
    (∀ (w : World) (before after : List World.Event),
      (World.Event.run before w).cancelled = true →
        (World.Event.run (before ++ after) w).Stopped) ∧
    ∀ W : Type,
      (∀ (i : Issuer W) (id : CredentialId) (q : IssueRequest),
        Cancellable i.toSurroundings .cancelled (i.issue id q)
          fun limit => (i.traced limit).issue id q) ∧
      (∀ (v : Validator W) (token : String),
        Cancellable v.toSurroundings .mk (v.validate token)
          fun limit => (v.traced limit).validate token) ∧
      (∀ (e : CountedEngine W) (q : VerificationRequest),
        Cancellable e.toSurroundings .mk (e.engine.verify q)
          fun limit => (e.traced limit).verify q) := by
  refine ⟨fun w before after hbefore => ?_, fun W => ⟨?_, ?_, ?_⟩⟩
  · have hafter := World.Event.cancelled_run hbefore after
    rw [World.Event.run, World.Event.run, ← List.foldl_append] at hafter
    exact ⟨hafter, fun c => c.perform_of_cancelled hafter⟩
  · exact fun i => i.cancellable_issue
  · exact fun v => v.cancellable_validate
  · exact fun e => e.cancellable_verify

/-- A world stops when the signal fires after a rotation, and a key can still be retired. Issuing
takes more than one call, so a signal that fires after the first cancels it. -/
theorem cancellation_absorbs_sample :
    (World.Event.run ([.change (.rotateKey ⟨"k2"⟩ World.samplePair), .cancel]
      ++ [.change (.retireKey ⟨"k1"⟩)]) World.sampleWorld).Stopped ∧
    ((World.issuer.traced (some 1)).issue ⟨Uuid.nil⟩ (World.sampleRequest [])
      (.start World.sampleWorld)).1 = .error .cancelled := by
  have hcalls : 1 < ((World.issuer.traced none).issue ⟨Uuid.nil⟩ (World.sampleRequest [])
      (.start World.sampleWorld)).2.calls := by decide +kernel
  have hissue := (cancellation_absorbs.2 World).1 World.issuer ⟨Uuid.nil⟩ (World.sampleRequest [])
  exact ⟨cancellation_absorbs.1 _ _ _ rfl, (hissue.interrupted 1 _ hcalls).1⟩

end Credentials
