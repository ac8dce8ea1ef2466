import Credentials.Issuer
import Credentials.Presentation.Credential
import Credentials.Presentation.Engine
import Credentials.Proofs.Cancellation.Tracing
import Credentials.Proofs.Presentation.Asking

/-!
# Operations that can be cancelled

Issuing, validating and verifying, with all that their collaborators are asked counted. Whatever the
world is and whatever the collaborators do in it, the operations heed the signal.
-/

namespace Credentials

variable {W : Type}

/-! Counted collaborators. -/

def KeyDirectory.traced (d : KeyDirectory W) : KeyDirectory (Traced W) where
  current := d.current.traced .cancelled
  find id := (d.find id).traced .cancelled

def PolicyDirectory.traced (d : PolicyDirectory W) : PolicyDirectory (Traced W) :=
  fun id version => (d id version).traced .cancelled

def Issuer.traced (i : Issuer W) (limit : Option Nat) : Issuer (Traced W) :=
  { i.toSurroundings.traced limit with
    policies := PolicyDirectory.traced i.policies
    keys := i.keys.traced
    signer := fun id input => (i.signer id input).traced .cancelled }

def Validator.traced (v : Validator W) (limit : Option Nat) : Validator (Traced W) :=
  { v.toSurroundings.traced limit with
    keys := v.keys.traced
    policies := v.policies.map PolicyDirectory.traced
    skew := v.skew }

def CredentialVerifier.traced (v : CredentialVerifier W) (limit : Option Nat) :
    CredentialVerifier (Traced W) :=
  ⟨v.validator.traced limit, v.expectedType, v.flag⟩

def ZeroKnowledgeVerifier.traced (v : ZeroKnowledgeVerifier W) (limit : Option Nat) :
    ZeroKnowledgeVerifier (Traced W) :=
  { v.toSurroundings.traced limit with
    policies := PolicyDirectory.traced v.policies
    proofs := fun q => (v.proofs q).traced .cancelled
    settings := v.settings }

/-! Issuing. -/

namespace Issuer

theorem heeds_policy (i : Issuer W) (q : IssueRequest) :
    Heeds 0 .cancelled (i.policy q) fun limit => (i.traced limit).policy q := by
  unfold policy
  refine .bind (.ask _ _ rfl) fun found => ?_
  cases found with
  | none => exact .throw _
  | some p =>
    dsimp only
    split
    · exact .pure p
    · exact .throw _

theorem heeds_key (i : Issuer W) :
    Heeds 0 .cancelled i.key fun limit => (i.traced limit).key := by
  unfold key
  refine .bind (.ask _ _ rfl) fun found => ?_
  cases found with
  | none => exact .throw _
  | some k =>
    dsimp only
    split
    · exact .throw _
    · exact .pure k

theorem cancellable_issue (i : Issuer W) (id : CredentialId) (q : IssueRequest) :
    Cancellable i.toSurroundings .cancelled (i.issue id q)
      fun limit => (i.traced limit).issue id q := by
  unfold issue
  refine Heeds.cancellable (Heeds.weaken ?_) _
  refine .bind (i.heeds_policy q) fun p => ?_
  refine .bind i.heeds_key fun k => ?_
  refine .timed (fun now => ?_) _
  refine .bind (.ofExcept _) fun expiry => ?_
  refine .bind (.ofExcept _) fun _ => ?_
  refine .bind (.ofExcept _) fun policyHash => ?_
  refine .bind (.ofExcept _) fun input => ?_
  refine .bind (.ask _ _ rfl) fun signature => ?_
  refine .bind (.ofExcept _) fun token => ?_
  refine .bind (.ofExcept _) fun hash => ?_
  exact .pure _

end Issuer

/-! Validating. -/

namespace Validator

theorem heeds_key (v : Validator W) (id : KeyId) :
    Heeds 0 .cancelled (v.key id) fun limit => (v.traced limit).key id := by
  unfold key
  refine .bind (.ask _ _ rfl) fun found => ?_
  cases found with
  | none => exact .throw _
  | some k =>
    dsimp only
    split
    · exact .throw _
    · exact .pure k

theorem heeds_versions (v : Validator W) (policies : PolicyDirectory W) (id : KeyId)
    (p : PolicyId) (ns : List PolicyVersion) :
    Heeds 0 .cancelled (v.versions policies id p ns)
      fun limit => (v.traced limit).versions (PolicyDirectory.traced policies) id p ns := by
  induction ns with
  | nil => exact .pure []
  | cons n ns ih =>
    unfold versions
    refine .bind (.ask _ _ rfl) fun found => ?_
    exact .bind ih fun rest => .pure _

theorem heeds_bind (v : Validator W) (policies : PolicyDirectory W) (id : KeyId) (c : Credential) :
    Heeds 0 .cancelled (v.bind policies id c)
      fun limit => (v.traced limit).bind (PolicyDirectory.traced policies) id c := by
  unfold bind
  refine .bind (.ask _ _ rfl) fun current => ?_
  cases current with
  | none => exact .throw _
  | some p =>
    refine .bind (v.heeds_versions policies id c.policyId p.compatible) fun others => ?_
    split
    · exact .pure ()
    · exact .throw _

theorem policies_traced (v : Validator W) (limit : Option Nat) :
    (v.traced limit).policies = v.policies.map PolicyDirectory.traced := rfl

theorem heeds_run (v : Validator W) (token : String) (now : Instant) :
    Heeds 0 .cancelled (v.run token now) fun limit => (v.traced limit).run token now := by
  unfold run
  refine .bind (.ofExcept _) fun named => ?_
  refine .bind (v.heeds_key named.2) fun k => ?_
  refine .bind (.ofExcept _) fun c => ?_
  simp only [policies_traced]
  cases v.policies with
  | none => exact .pure _
  | some policies => exact .bind (v.heeds_bind policies named.2 c) fun _ => .pure _

/-- How a validator ends after its checks. -/
def conclude (now : Instant) : Except Stop (KeyId × Credential) → Except Cancelled Validation
  | .ok (id, c) => .ok ⟨.valid, none, some id, some c, now⟩
  | .error (.refused r) => .ok ⟨r.reason, some r.message, r.keyId, none, now⟩
  | .error .cancelled => .error .mk

theorem validate_eq (v : Validator W) (token : String) :
    v.validate token = (v.check .mk >>= fun _ => v.time >>= fun now =>
      (v.run token now).mapAnswer (conclude now)) := by
  unfold validate
  refine congrArg _ (funext fun _ => congrArg _ (funext fun now => funext fun w => ?_))
  unfold Step.mapAnswer
  cases v.run token now w with
  | mk r u =>
    cases r with
    | ok passed => rfl
    | error e => cases e <;> rfl

theorem heeds_checks (v : Validator W) (token : String) :
    Heeds 0 .mk (v.time >>= fun now => (v.run token now).mapAnswer (conclude now))
      fun limit => (v.traced limit).time >>= fun now =>
        ((v.traced limit).run token now).mapAnswer (conclude now) := by
  refine .timed (fun now => .mapAnswer (v.heeds_run token now) ?_) _
  rfl

theorem heeds_validate (v : Validator W) (token : String) :
    Heeds 0 .mk (v.validate token) fun limit => (v.traced limit).validate token := by
  simp only [validate_eq]
  exact .bind (.check _) fun _ => v.heeds_checks token

theorem cancellable_validate (v : Validator W) (token : String) :
    Cancellable v.toSurroundings .mk (v.validate token)
      fun limit => (v.traced limit).validate token := by
  simp only [validate_eq]
  exact (v.heeds_checks token).weaken.cancellable _

end Validator

/-! Verifying presentations. -/

theorem CredentialVerifier.heeds_verify (v : CredentialVerifier W) (presentation : Json) :
    Heeds 0 .cancelled (v.verify presentation)
      fun limit => (v.traced limit).verify presentation := by
  unfold verify
  cases token? presentation with
  | none => exact .pure _
  | some s => exact .bind (.mapError (v.validator.heeds_validate s) rfl) fun r => .ofExcept _

namespace ZeroKnowledgeVerifier

/-- The answer to a look-up for what a directory answers. -/
def found : Except RegistryError (Option PolicyDefinition) → Except Stop (Option PolicyDefinition)
  | .ok d => .ok d
  | .error e => ofRegistry e

theorem lookup_eq_mapAnswer (v : ZeroKnowledgeVerifier W) (id : PolicyId)
    (version : Option PolicyVersion) : v.lookup id version
      = v.guarded (.failed .cancelled) (Step.mapAnswer found (v.policies id version)) := by
  unfold lookup
  refine congrArg _ (funext fun w => ?_)
  unfold Step.mapAnswer
  cases v.policies id version w with
  | mk r u => cases r <;> rfl

theorem heeds_lookup (v : ZeroKnowledgeVerifier W) (id : PolicyId)
    (version : Option PolicyVersion) :
    Heeds 0 (.failed .cancelled) (v.lookup id version)
      fun limit => (v.traced limit).lookup id version := by
  simp only [lookup_eq_mapAnswer]
  refine .guarded (.mapAnswer (.call _ _) ?_) _
  rfl

theorem heeds_resolve (v : ZeroKnowledgeVerifier W) (id : PolicyId)
    (pinned : Option PolicyVersion) :
    Heeds 0 (.failed .cancelled) (v.resolve id pinned)
      fun limit => (v.traced limit).resolve id pinned := by
  unfold resolve
  refine .bind (v.heeds_lookup id none) fun current => ?_
  cases current with
  | none => exact .throw _
  | some d =>
    cases pinned with
    | none => exact .ofExcept _
    | some n =>
      dsimp only
      split
      · exact .ofExcept _
      · split
        · refine .bind (v.heeds_lookup id (some n)) fun other => ?_
          cases other with
          | none => exact .throw _
          | some d' => exact .ofExcept _
        · exact .throw _

theorem heeds_run (v : ZeroKnowledgeVerifier W) (presentation : Json) :
    Heeds 0 (.failed .cancelled) (v.run presentation)
      fun limit => (v.traced limit).run presentation := by
  unfold run
  refine .bind (.ofExcept _) fun opened => ?_
  refine .timed (fun now => ?_) _
  dsimp only
  split
  · exact .bind (.throw _) fun _ => .bind (v.heeds_resolve _ _) fun d =>
      .bind (.ofExcept _) fun q => .ask _ _ rfl
  · exact .bind (v.heeds_resolve _ _) fun d => .bind (.ofExcept _) fun q => .ask _ _ rfl

theorem heeds_verify (v : ZeroKnowledgeVerifier W) (presentation : Json) :
    Heeds 0 .cancelled (v.verify presentation)
      fun limit => (v.traced limit).verify presentation := by
  have heq : ∀ {X : Type} (x : ZeroKnowledgeVerifier X),
      x.verify presentation = (x.run presentation).mapAnswer conclusion :=
    fun x => funext fun w => x.verify_eq presentation w
  simp only [heq]
  exact (v.heeds_run presentation).mapAnswer rfl

end ZeroKnowledgeVerifier

/-! Verifying with an engine. -/

/-- A verifier whose work is counted. What is not known from inside is one call. -/
inductive CountedVerifier (W : Type) where
  | credential (v : CredentialVerifier W)
  | zeroKnowledge (v : ZeroKnowledgeVerifier W)
  | other (v : Verifier W)

namespace CountedVerifier

def verifier : CountedVerifier W → Verifier W
  | .credential v => v.verifier
  | .zeroKnowledge v => v.verifier
  | .other v => v

def traced (limit : Option Nat) : CountedVerifier W → Verifier (Traced W)
  | .credential v => (v.traced limit).verifier
  | .zeroKnowledge v => (v.traced limit).verifier
  | .other v => ⟨v.kind, fun presentation => (v.verify presentation).traced .cancelled⟩

theorem kind_traced (v : CountedVerifier W) (limit : Option Nat) :
    (v.traced limit).kind = v.verifier.kind := by
  cases v <;> rfl

theorem heeds_verify (v : CountedVerifier W) (presentation : Json) :
    Heeds 1 .cancelled (v.verifier.verify presentation)
      fun limit => (v.traced limit).verify presentation := by
  cases v with
  | credential v => exact (v.heeds_verify presentation).weaken
  | zeroKnowledge v => exact (v.heeds_verify presentation).weaken
  | other v => exact .call _ _

end CountedVerifier

/-- The last look at the signal comes after the answer. -/
theorem Engine.dispatch_eq (e : Engine W) (v : Verifier W) (presentation : Json) (now : Instant) :
    e.dispatch v presentation now = ((v.verify presentation).mapAnswer (answer v.kind now)
      >>= fun r => e.check .mk >>= fun _ => pure r) := by
  funext w
  rw [Step.bind_apply]
  unfold dispatch Step.mapAnswer
  cases v.verify presentation w with
  | mk result u =>
    cases hanswer : answer v.kind now result with
    | ok r =>
      simp only [hanswer, check_bind]
      rfl
    | error cause =>
      simp only [hanswer]
      exact ite_self _

structure CountedEngine (W : Type) extends Surroundings W where
  verifiers : List (CountedVerifier W)

namespace CountedEngine

def engine (e : CountedEngine W) : Engine W := ⟨e.toSurroundings, e.verifiers.map (·.verifier)⟩

/-- Every engine can be counted. -/
theorem exists_engine_eq (e : Engine W) : ∃ c : CountedEngine W, c.engine = e := by
  refine ⟨⟨e.toSurroundings, e.verifiers.map .other⟩, ?_⟩
  have hverifiers : (e.verifiers.map CountedVerifier.other).map (·.verifier) = e.verifiers := by
    rw [List.map_map]
    exact List.map_id _
  rw [engine, hverifiers]

def traced (e : CountedEngine W) (limit : Option Nat) : Engine (Traced W) :=
  ⟨e.toSurroundings.traced limit, e.verifiers.map (·.traced limit)⟩

def counted? (e : CountedEngine W) (k : PresentationKind) : Option (CountedVerifier W) :=
  e.verifiers.find? fun v => v.verifier.kind = k

theorem verifier?_engine (e : CountedEngine W) (k : PresentationKind) :
    e.engine.verifier? k = (e.counted? k).map (·.verifier) :=
  List.find?_map

theorem verifier?_traced (e : CountedEngine W) (limit : Option Nat) (k : PresentationKind) :
    (e.traced limit).verifier? k = (e.counted? k).map (·.traced limit) := by
  refine List.find?_map.trans ?_
  simp only [Function.comp_def, CountedVerifier.kind_traced]
  rfl

theorem heeds_dispatch (e : CountedEngine W) (v : CountedVerifier W) (presentation : Json)
    (now : Instant) : Heeds 1 .mk (e.engine.dispatch v.verifier presentation now)
      fun limit => (e.traced limit).dispatch (v.traced limit) presentation now := by
  simp only [Engine.dispatch_eq, CountedVerifier.kind_traced]
  refine .bind ((v.heeds_verify presentation).mapAnswer rfl) fun r => ?_
  exact .bind (.check _) fun _ => .pure r

theorem cancellable_verify (e : CountedEngine W) (q : VerificationRequest) :
    Cancellable e.toSurroundings .mk (e.engine.verify q)
      fun limit => (e.traced limit).verify q := by
  unfold Engine.verify
  -- a verifier that is not known from inside does not look at the signal before its one call, but
  -- the engine has just done so
  refine Heeds.cancellable ?_ _
  refine .timed (fun now => ?_) _
  split
  · exact (Heeds.pure _).weaken
  · exact (Heeds.pure _).weaken
  · next name _ _ =>
    cases PresentationKind.ofName? name with
    | none => exact (Heeds.pure _).weaken
    | some k =>
      simp only [Option.bind_some, verifier?_engine, verifier?_traced]
      cases e.counted? k with
      | none => exact (Heeds.pure _).weaken
      | some v => exact e.heeds_dispatch v q.presentation now

end CountedEngine
end Credentials
