import Credentials.World
import Credentials.Proofs.Key.Ring
import Credentials.Proofs.Policy.Registry
import Credentials.Proofs.Step

/-!
# Runs of a world

A run is a list of operations on keys, policies and clock, among them issuing and validating, with
no signal fired. Whatever the operations are, the ring and the registry only change as rings and
registries do, so what these keep is kept by every run.
-/

namespace Credentials

open Relation

/-! Issuing and validating only look. -/

section Looking

variable {W : Type}

theorem Issuer.looks_issue {i : Issuer W} (hpolicies : ∀ p v, (i.policies p v).Looks)
    (hkeys : i.keys.current.Looks) (hsigner : ∀ k c, (i.signer k c).Looks) (id : CredentialId)
    (q : IssueRequest) : (i.issue id q).Looks := by
  unfold issue
  refine Step.looks_bind (Step.looks_check _ _) fun _ => Step.looks_bind ?_ fun p =>
    Step.looks_bind ?_ fun k => Step.looks_bind (Step.looks_look _) fun now =>
    Step.looks_bind (Step.looks_ofExcept _) fun expiry =>
    Step.looks_bind (Step.looks_ofExcept _) fun _ =>
    Step.looks_bind (Step.looks_ofExcept _) fun _ =>
    Step.looks_bind (Step.looks_ofExcept _) fun _ => Step.looks_bind ?_ fun _ =>
    Step.looks_bind (Step.looks_ofExcept _) fun _ =>
    Step.looks_bind (Step.looks_ofExcept _) fun _ => Step.looks_pure _
  · refine Step.looks_bind (Step.looks_guarded _ _ (Step.looks_mapError _ (hpolicies _ _)))
      fun found => ?_
    split
    · exact Step.looks_throw _
    · split
      · exact Step.looks_pure _
      · exact Step.looks_throw _
  · refine Step.looks_bind (Step.looks_guarded _ _ (Step.looks_mapError _ hkeys)) fun found => ?_
    split
    · exact Step.looks_throw _
    · split
      · exact Step.looks_throw _
      · exact Step.looks_pure _
  · exact Step.looks_guarded _ _ (Step.looks_mapError _ (hsigner _ _))

theorem Validator.looks_versions (v : Validator W) {policies : PolicyDirectory W}
    (h : ∀ p n, (policies p n).Looks) (id : KeyId) (p : PolicyId) (ns : List PolicyVersion) :
    (v.versions policies id p ns).Looks := by
  induction ns with
  | nil => exact Step.looks_pure _
  | cons n ns ih =>
    exact Step.looks_bind (Step.looks_guarded _ _ (Step.looks_mapError _ (h _ _))) fun _ =>
      Step.looks_bind ih fun _ => Step.looks_pure _

theorem Validator.looks_run {v : Validator W} (hkeys : ∀ id, (v.keys.find id).Looks)
    (hpolicies : ∀ policies ∈ v.policies, ∀ p n, (policies p n).Looks) (token : String)
    (now : Instant) : (v.run token now).Looks := by
  unfold run
  refine Step.looks_bind (Step.looks_ofExcept _) fun named => ?_
  obtain ⟨t, id⟩ := named
  refine Step.looks_bind ?_ fun k => Step.looks_bind (Step.looks_ofExcept _) fun c => ?_
  · refine Step.looks_bind (Step.looks_guarded _ _ (Step.looks_mapError _ (hkeys _)))
      fun found => ?_
    split
    · exact Step.looks_throw _
    · split
      · exact Step.looks_throw _
      · exact Step.looks_pure _
  · split
    · exact Step.looks_pure _
    · next policies hp =>
      have hlook := hpolicies policies hp
      refine Step.looks_bind ?_ fun _ => Step.looks_pure _
      refine Step.looks_bind (Step.looks_guarded _ _ (Step.looks_mapError _ (hlook _ _)))
        fun current => ?_
      split
      · exact Step.looks_throw _
      · refine Step.looks_bind (Validator.looks_versions v hlook _ _ _) fun _ => ?_
        split
        · exact Step.looks_pure _
        · exact Step.looks_throw _

theorem Validator.looks_validate {v : Validator W} (hkeys : ∀ id, (v.keys.find id).Looks)
    (hpolicies : ∀ policies ∈ v.policies, ∀ p n, (policies p n).Looks) (token : String) :
    (v.validate token).Looks := by
  unfold validate
  refine Step.looks_bind (Step.looks_check _ _) fun _ => Step.looks_bind (Step.looks_look _)
    fun now => ?_
  intro w
  have hrun := looks_run hkeys hpolicies token now w
  dsimp only
  split
  all_goals next h => rw [h] at hrun; exact hrun

end Looking

namespace World

theorem looks_guarded_look {ε α : Type} (cause : ε) (f : World → α) :
    (surroundings.guarded cause (Step.look f)).Looks :=
  Step.looks_guarded _ _ (Step.looks_look f)

theorem looks_signer (k : KeyId) (c : Canonical) : (signer k c).Looks :=
  Step.looks_guarded _ _ fun _ => rfl

theorem looks_issue (id : CredentialId) (q : IssueRequest) : (issuer.issue id q).Looks :=
  Issuer.looks_issue (fun _ _ => looks_guarded_look _ _) (looks_guarded_look _ _) looks_signer id q

theorem looks_validate (skew : Nat) (binds : Bool) (token : String) :
    ((validator skew binds).validate token).Looks := by
  refine Validator.looks_validate (fun _ => looks_guarded_look _ _) (fun policies h p n => ?_) token
  cases binds with
  | false => cases h
  | true =>
    cases h
    exact looks_guarded_look _ _

/-! Guarded steps. -/

section Guarded

variable {ε ε' α : Type} {w : World}

/-- A collaborator's step, twice guarded, without a signal. -/
theorem guarded_step (hw : w.cancelled = false) (cause : ε') (f : ε → ε') (cause' : ε)
    {s : Step World ε α} {r : Except ε α} (hs : s w = (r, w)) :
    surroundings.guarded cause (Step.mapError f (surroundings.guarded cause' s)) w
      = (r.mapError f, w) := by
  have hsignal : surroundings.cancelled w = false := hw
  unfold Surroundings.guarded
  rw [Step.guarded_of_not_cancelled hsignal, Step.mapError,
    Step.guarded_of_not_cancelled hsignal, hs]

theorem guarded_look (hw : w.cancelled = false) (cause : ε') (f : ε → ε') (cause' : ε)
    (g : World → α) :
    surroundings.guarded cause (Step.mapError f (surroundings.guarded cause' (Step.look g))) w
      = (.ok (g w), w) :=
  guarded_step hw cause f cause' rfl

theorem policies_eq (hw : w.cancelled = false) (id : PolicyId) (n : Option PolicyVersion) :
    policyDirectory id n w = (.ok (w.policies.get? id n), w) := by
  have hsignal : surroundings.cancelled w = false := hw
  exact Step.guarded_of_not_cancelled hsignal _ _

theorem keyDirectory_find_eq (hw : w.cancelled = false) (k : KeyId) :
    keyDirectory.find k w = (.ok (w.keys.view? k), w) := by
  have hsignal : surroundings.cancelled w = false := hw
  exact Step.guarded_of_not_cancelled hsignal _ _

theorem keyDirectory_current_eq (hw : w.cancelled = false) :
    keyDirectory.current w = (.ok w.keys.currentKey?, w) := by
  have hsignal : surroundings.cancelled w = false := hw
  exact Step.guarded_of_not_cancelled hsignal _ _

theorem signer_eq (hw : w.cancelled = false) (k : KeyId) (c : Canonical) :
    signer k c w = (w.keys.sign k c, w) := by
  have hsignal : surroundings.cancelled w = false := hw
  exact Step.guarded_of_not_cancelled hsignal _ _

end Guarded

/-! Steps on a ring. -/

section KeyStep

variable {α : Type} {f : KeyRing → Except KeyServiceError (α × KeyRing)} {w v : World}

theorem keyStep_of_ok {a : α} {ring : KeyRing} (h : f w.keys = .ok (a, ring)) :
    keyStep f w = (.ok a, { w with keys := ring }) := by
  rw [keyStep, h]

theorem keyStep_of_error {e : KeyServiceError} (h : f w.keys = .error e) :
    keyStep f w = (.error e, w) := by
  rw [keyStep, h]

theorem keyStep_eq_ok {a : α} (h : keyStep f w = (.ok a, v)) : f w.keys = .ok (a, v.keys) := by
  unfold keyStep at h
  split at h
  · next hf =>
    cases h
    exact hf
  · cases h

end KeyStep

/-! Steps on a registry. -/

section RegistryStep

variable {f : PolicyRegistry → Except RegistryError PolicyRegistry} {w : World}

theorem registryStep_of_ok {r : PolicyRegistry} (h : f w.policies = .ok r) :
    registryStep f w = (.ok (), { w with policies := r }) := by
  rw [registryStep, h]

theorem registryStep_of_error {e : RegistryError} (h : f w.policies = .error e) :
    registryStep f w = (.error e, w) := by
  rw [registryStep, h]

end RegistryStep

/-! Operations. -/

inductive Operation where
  | insertKey (id : KeyId) (pair : KeyPair)
  | insertPublicKey (id : KeyId) (key : PublicKey) (status : KeyStatus)
  | rotateKey (id : KeyId) (pair : KeyPair)
  | setCurrentKey (id : KeyId)
  | retireKey (id : KeyId)
  | currentKey
  | findKey (id : KeyId)
  | sign (id : KeyId) (input : Canonical)
  | registerPolicy (definition : PolicyDefinition)
  | setPolicyStatus (id : PolicyId) (version : PolicyVersion) (status : PolicyStatus)
  | findPolicy (id : PolicyId) (version : Option PolicyVersion)
  | setClock (time : Instant)
  | advanceClock (secs : Int64)
  | issue (id : CredentialId) (request : IssueRequest)
  | validate (skew : Nat) (bindsPolicies : Bool) (token : String)

/-- The world after an operation, whatever it answers. -/
def Operation.apply : Operation → World → World
  | .insertKey id pair, w => (World.insertKey id pair w).2
  | .insertPublicKey id key status, w => (World.insertPublicKey id key status w).2
  | .rotateKey id pair, w => (World.rotateKey id pair w).2
  | .setCurrentKey id, w => (World.setCurrentKey id w).2
  | .retireKey id, w => (World.retireKey id w).2
  | .currentKey, w => (keyDirectory.current w).2
  | .findKey id, w => (keyDirectory.find id w).2
  | .sign id input, w => (signer id input w).2
  | .registerPolicy d, w => (World.registerPolicy d w).2
  | .setPolicyStatus id v s, w => (World.setPolicyStatus id v s w).2
  | .findPolicy id v, w => (policyDirectory id v w).2
  | .setClock t, w => w.setClock t
  | .advanceClock secs, w => w.advanceClock secs
  | .issue id q, w => (issuer.issue id q w).2
  | .validate skew binds token, w => ((validator skew binds).validate token w).2

def run (ops : List Operation) (w : World) : World := ops.foldl (fun w op => op.apply w) w

/-- What the ring and the registry of a world have become some changes later. -/
structure Later (w v : World) : Prop where
  keys : ReflTransGen KeyRing.Change w.keys v.keys
  policies : ReflTransGen PolicyRegistry.Change w.policies v.policies
  cancelled : v.cancelled = w.cancelled

namespace Later

theorem refl (w : World) : Later w w := ⟨.refl, .refl, rfl⟩

theorem trans {u v w : World} (h : Later u v) (h' : Later v w) : Later u w :=
  ⟨h.keys.trans h'.keys, h.policies.trans h'.policies, h'.cancelled.trans h.cancelled⟩

theorem of_eq {w v : World} (h : v = w) : Later w v := h ▸ refl w

theorem keyStep {α : Type} {f : KeyRing → Except KeyServiceError (α × KeyRing)}
    (hf : ∀ ring a ring', f ring = .ok (a, ring') → KeyRing.Change ring ring') (w : World) :
    Later w (World.keyStep f w).2 := by
  unfold World.keyStep
  split
  · next a ring h => exact ⟨.single (hf _ _ _ h), .refl, rfl⟩
  · exact refl w

theorem registryStep {f : PolicyRegistry → Except RegistryError PolicyRegistry}
    (hf : ∀ r r', f r = .ok r' → PolicyRegistry.Change r r') (w : World) :
    Later w (World.registryStep f w).2 := by
  unfold World.registryStep
  split
  · next r h => exact ⟨.refl, .single (hf _ _ h), rfl⟩
  · exact refl w

theorem insertKey (id : KeyId) (pair : KeyPair) (w : World) :
    Later w (World.insertKey id pair w).2 :=
  keyStep (fun _ _ _ h => .insert h) w

theorem setCurrentKey (id : KeyId) (w : World) : Later w (World.setCurrentKey id w).2 := by
  refine keyStep (fun ring a ring' h => ?_) w
  cases hset : ring.setCurrent id with
  | error e => rw [hset] at h; cases h
  | ok r =>
    rw [hset] at h
    cases h
    exact .setCurrent hset

theorem retireKey (id : KeyId) (w : World) : Later w (World.retireKey id w).2 := by
  refine keyStep (fun ring a ring' h => ?_) w
  cases hretire : ring.retire id with
  | error e => rw [hretire] at h; cases h
  | ok r =>
    rw [hretire] at h
    cases h
    exact .retire hretire

theorem rotateKey (id : KeyId) (pair : KeyPair) (w : World) :
    Later w (World.rotateKey id pair w).2 := by
  have hinsert := insertKey id pair w
  unfold World.rotateKey
  rw [Step.bind_apply]
  split
  · next key v h =>
    rw [h] at hinsert
    have hset := setCurrentKey id v
    rw [Step.bind_apply]
    split
    all_goals next h' => rw [h'] at hset; exact hinsert.trans hset
  · next h =>
    rw [h] at hinsert
    exact hinsert

/-- One operation. -/
theorem apply (op : Operation) (w : World) : Later w (op.apply w) := by
  cases op with
  | insertKey id pair => exact insertKey id pair w
  | insertPublicKey id key status => exact keyStep (fun _ _ _ h => .insertPublic h) w
  | rotateKey id pair => exact rotateKey id pair w
  | setCurrentKey id => exact setCurrentKey id w
  | retireKey id => exact retireKey id w
  | currentKey => exact of_eq (looks_guarded_look _ _ w)
  | findKey id => exact of_eq (looks_guarded_look _ _ w)
  | sign id input => exact of_eq (looks_signer id input w)
  | registerPolicy d => exact registryStep (fun _ _ h => .register h) w
  | setPolicyStatus id v s => exact registryStep (fun _ _ h => .setStatus h) w
  | findPolicy id v => exact of_eq (looks_guarded_look _ _ w)
  | setClock t => exact ⟨.refl, .refl, rfl⟩
  | advanceClock secs => exact ⟨.refl, .refl, rfl⟩
  | issue id q => exact of_eq (looks_issue id q w)
  | validate skew binds token => exact of_eq (looks_validate skew binds token w)

/-- A whole run. -/
theorem run (ops : List Operation) (w : World) : Later w (World.run ops w) := by
  induction ops generalizing w with
  | nil => exact refl w
  | cons op ops ih => exact (apply op w).trans (ih (op.apply w))

end Later

/-- A world that some run reaches from an empty one. -/
def Reached (w : World) : Prop := ∃ now ops, w = run ops (initial now)

theorem Reached.run {w : World} (h : Reached w) (ops : List Operation) : Reached (run ops w) := by
  obtain ⟨now, before, rfl⟩ := h
  exact ⟨now, before ++ ops, by rw [World.run, World.run, World.run, List.foldl_append]⟩

section Reached

variable {w : World}

theorem Reached.not_cancelled (h : Reached w) : w.cancelled = false := by
  obtain ⟨now, ops, rfl⟩ := h
  exact (Later.run ops (initial now)).cancelled

theorem Reached.currentSigns (h : Reached w) : w.keys.CurrentSigns := by
  obtain ⟨now, ops, rfl⟩ := h
  exact KeyRing.currentSigns_of_changes (Later.run ops (initial now)).keys
    KeyRing.currentSigns_empty

theorem Reached.unique (h : Reached w) : w.policies.Unique := by
  obtain ⟨now, ops, rfl⟩ := h
  exact PolicyRegistry.unique_of_changes (Later.run ops (initial now)).policies
    PolicyRegistry.unique_empty

theorem Reached.allProper (h : Reached w) : w.policies.AllProper := by
  obtain ⟨now, ops, rfl⟩ := h
  exact PolicyRegistry.allProper_of_changes (Later.run ops (initial now)).policies
    PolicyRegistry.allProper_empty

end Reached

end World
end Credentials
