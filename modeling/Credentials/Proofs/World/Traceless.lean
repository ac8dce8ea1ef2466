import Credentials.Proofs.World.Failures
import Credentials.Proofs.World.InPlace

/-!
# Failed calls leave no trace

Runs of calls with their writes one after the other, between which the clock is set and signals
fire. Every run has an entry for exactly the policies with a version, a current key that signs and
schemas that compile. So a call that fails leaves everything as it was, whatever it had begun to
write, and a call that only looks does so even if it succeeds.
-/

namespace Credentials

/-! Verifying writes nothing but the number of proofs that were asked for. -/

/-- The same worlds up to that number. -/
structure World.SameButCalls (w u : World) : Prop where
  keys : u.keys = w.keys
  policies : u.policies = w.policies
  clock : u.clock = w.clock
  cancelled : u.cancelled = w.cancelled

theorem World.SameButCalls.of_eq {w u : World} (h : u = w) : SameButCalls w u := by
  subst h
  exact ⟨rfl, rfl, rfl, rfl⟩

theorem CredentialVerifier.looks_verify {v : CredentialVerifier World}
    (h : ∀ token, (v.validator.validate token).Looks) (presentation : Json) :
    (v.verify presentation).Looks := by
  unfold verify
  split
  · exact Step.looks_pure _
  · exact Step.looks_bind (Step.looks_mapError _ (h _)) fun _ => Step.looks_ofExcept _

theorem World.sameButCalls_proofService (q : ProofRequest) (w : World) :
    SameButCalls w (proofService q w).2 := by
  unfold proofService Surroundings.guarded Step.guarded
  split <;> exact ⟨rfl, rfl, rfl, rfl⟩

theorem World.sameButCalls_verify (settings : ZeroKnowledgeSettings) (presentation : Json)
    (w : World) : SameButCalls w ((zeroKnowledgeVerifier settings).verify presentation w).2 := by
  have hrun : (zeroKnowledgeVerifier settings).run presentation w = _ :=
    run_verifierAsking presentation w
  rw [ZeroKnowledgeVerifier.verify_eq, hrun]
  split
  · exact .of_eq rfl
  · exact sameButCalls_proofService _ w

theorem Verifier.InMemory.sameButCalls {v : Verifier World} (hv : v.InMemory)
    (presentation : Json) (w : World) : World.SameButCalls w (v.verify presentation w).2 := by
  cases hv with
  | credential skew binds expectedType flag =>
    have hlooks := CredentialVerifier.looks_verify
      (v := ⟨World.validator skew binds, expectedType, flag⟩) (World.looks_validate skew binds)
    exact .of_eq (hlooks presentation w)
  | zeroKnowledge settings => exact World.sameButCalls_verify settings presentation w

theorem Engine.snd_dispatch {W : Type} (e : Engine W) (v : Verifier W) (presentation : Json)
    (now : Instant) (w : W) :
    (e.dispatch v presentation now w).2 = (v.verify presentation w).2 := by
  unfold dispatch
  split
  split <;> simp only [*]

theorem Engine.InMemory.sameButCalls {e : Engine World} (he : e.InMemory)
    (q : VerificationRequest) (w : World) : World.SameButCalls w (e.verify q w).2 := by
  cases hsignal : e.cancelled w with
  | true => exact .of_eq (by rw [Engine.verify_of_cancelled hsignal])
  | false =>
    rcases Engine.request_cases e q with hlacks | hunsupported | ⟨k, v, hsupports⟩
    · exact .of_eq (by rw [Engine.verify_of_lacksType hsignal hlacks])
    · exact .of_eq (by rw [Engine.verify_of_unsupported hsignal hunsupported])
    · have hv := he.verifiers v (List.mem_of_find?_eq_some hsupports.2)
      rw [Engine.verify_of_supports hsignal hsupports, Engine.snd_dispatch]
      exact hv.sameButCalls q.presentation w

namespace StoredWorld

variable {ε α : Type} {s : StoredWorld}

/-! Calls. -/

inductive Call where
  | insertKey (id : KeyId) (pair : KeyPair)
  | insertPublicKey (id : KeyId) (key : PublicKey) (status : KeyStatus)
  | rotateKey (id : KeyId) (pair : KeyPair)
  | setCurrentKey (id : KeyId)
  | retireKey (id : KeyId)
  | sign (id : KeyId) (input : Canonical)
  | registerPolicy (definition : PolicyDefinition)
  | setPolicyStatus (id : PolicyId) (version : PolicyVersion) (status : PolicyStatus)
  | findPolicy (id : PolicyId) (version : Option PolicyVersion)
  | issue (id : CredentialId) (request : IssueRequest)
  | validate (skew : Nat) (bindsPolicies : Bool) (token : String)
  | verify (engine : Engine World) (memory : engine.InMemory) (request : VerificationRequest)

namespace Call

/-- What a call fails with. -/
def Failure : Call → Type
  | .insertKey .. | .insertPublicKey .. | .rotateKey .. | .setCurrentKey .. | .retireKey ..
  | .sign .. => KeyServiceError
  | .registerPolicy .. | .setPolicyStatus .. | .findPolicy .. => RegistryError
  | .issue .. => IssuanceError
  | .validate .. | .verify .. => Cancelled

def Answer : Call → Type
  | .insertKey .. | .insertPublicKey .. | .rotateKey .. => IssuerKey
  | .setCurrentKey .. | .retireKey .. | .registerPolicy .. | .setPolicyStatus .. => Unit
  | .sign .. => Signature
  | .findPolicy .. => Option PolicyDefinition
  | .issue .. => IssuedCredential
  | .validate .. => Validation
  | .verify .. => VerificationResult

/-- A call in one go. -/
def inWorld : (c : Call) → Step World c.Failure c.Answer
  | .insertKey id pair => World.insertKey id pair
  | .insertPublicKey id key status => World.insertPublicKey id key status
  | .rotateKey id pair => World.rotateKey id pair
  | .setCurrentKey id => World.setCurrentKey id
  | .retireKey id => World.retireKey id
  | .sign id input => World.signer id input
  | .registerPolicy d => World.registerPolicy d
  | .setPolicyStatus id v status => World.setPolicyStatus id v status
  | .findPolicy id version => World.policyDirectory id version
  | .issue id q => World.issuer.issue id q
  | .validate skew binds token => (World.validator skew binds).validate token
  | .verify e _ q => e.verify q

/-- A call with its writes one after the other. -/
def perform : (c : Call) → Step StoredWorld c.Failure c.Answer
  | .insertKey id pair => StoredWorld.insertKey id pair
  | .insertPublicKey id key status => StoredWorld.insertPublicKey id key status
  | .rotateKey id pair => StoredWorld.rotateKey id pair
  | .setCurrentKey id => StoredWorld.setCurrentKey id
  | .retireKey id => StoredWorld.retireKey id
  | .registerPolicy d => StoredWorld.registerPolicy d
  | .setPolicyStatus id v status => StoredWorld.setPolicyStatus id v status
  | .findPolicy id version => StoredWorld.findPolicy id version
  | .sign id input => inside (World.signer id input)
  | .issue id q => inside (World.issuer.issue id q)
  | .validate skew binds token => inside ((World.validator skew binds).validate token)
  | .verify e _ q => inside (e.verify q)

/-- The calls that only look, whatever they answer. -/
def onlyLooks : Call → Bool
  | .sign .. | .findPolicy .. | .issue .. | .validate .. => true
  | _ => false

theorem later_inWorld (c : Call) (w : World) : World.Later w (c.inWorld w).2 := by
  cases c with
  | insertKey id pair => exact World.Later.apply (.insertKey id pair) w
  | insertPublicKey id key status => exact World.Later.apply (.insertPublicKey id key status) w
  | rotateKey id pair => exact World.Later.apply (.rotateKey id pair) w
  | setCurrentKey id => exact World.Later.apply (.setCurrentKey id) w
  | retireKey id => exact World.Later.apply (.retireKey id) w
  | sign id input => exact World.Later.apply (.sign id input) w
  | registerPolicy d => exact World.Later.apply (.registerPolicy d) w
  | setPolicyStatus id v status => exact World.Later.apply (.setPolicyStatus id v status) w
  | findPolicy id version => exact World.Later.apply (.findPolicy id version) w
  | issue id q => exact World.Later.apply (.issue id q) w
  | validate skew binds token => exact World.Later.apply (.validate skew binds token) w
  | verify e he q =>
    obtain ⟨hkeys, hpolicies, -, hcancelled⟩ := he.sameButCalls q w
    refine ⟨?_, ?_, hcancelled⟩
    · exact hkeys ▸ .refl
    · exact hpolicies ▸ .refl

theorem looks_perform {c : Call} (h : c.onlyLooks = true) : c.perform.Looks := by
  cases c with
  | sign id input => exact looks_inside (World.looks_signer id input)
  | findPolicy id version => exact Step.looks_guarded _ _ (Step.looks_look _)
  | issue id q => exact looks_inside (World.looks_issue id q)
  | validate skew binds token => exact looks_inside (World.looks_validate skew binds token)
  | _ => cases h

end Call

/-! Reached worlds. -/

/-- What every run keeps. -/
structure Sound (s : StoredWorld) : Prop where
  indexed : s.Indexed
  keys : s.world.keys.CurrentSigns
  policies : s.world.policies.AllProper

/-- Only a signal that has fired makes an engine fail, and then nothing is begun. -/
theorem faithful_verify (hs : s.Sound) {e : Engine World} (he : e.InMemory)
    (q : VerificationRequest) : Faithful (inside (e.verify q)) (e.verify q) s := by
  cases hw : s.world.cancelled with
  | true =>
    have hsignal : e.cancelled s.world = true := by rw [he.surroundings]; exact hw
    exact faithful_inside_of_error hs.indexed (Engine.verify_of_cancelled hsignal)
  | false =>
    obtain ⟨r, u, hverify, -⟩ := World.verify_engine_of_settled ⟨hw, hs.keys, hs.policies⟩ he q
    have hsame := he.sameButCalls q s.world
    rw [hverify] at hsame
    exact faithful_inside_of_ok hs.indexed hverify hsame.policies

/-- One call. -/
theorem faithful_perform (hs : s.Sound) (c : Call) : Faithful c.perform c.inWorld s := by
  have hindexed := hs.indexed
  cases c with
  | insertKey id pair =>
    rw [Call.perform, insertKey_eq]
    exact faithful_keyStep hindexed _
  | insertPublicKey id key status =>
    rw [Call.perform, insertPublicKey_eq]
    exact faithful_keyStep hindexed _
  | rotateKey id pair => exact faithful_rotateKey hindexed id pair
  | setCurrentKey id =>
    rw [Call.perform, setCurrentKey_eq]
    exact faithful_keyStep hindexed _
  | retireKey id =>
    rw [Call.perform, retireKey_eq]
    exact faithful_keyStep hindexed _
  | sign id input => exact faithful_inside_of_looks hindexed (World.looks_signer id input)
  | registerPolicy d => exact faithful_registerPolicy hindexed d
  | setPolicyStatus id v status => exact faithful_setPolicyStatus hindexed id v status
  | findPolicy id version => exact faithful_findPolicy hindexed id version
  | issue id q => exact faithful_inside_of_looks hindexed (World.looks_issue id q)
  | validate skew binds token =>
    exact faithful_inside_of_looks hindexed (World.looks_validate skew binds token)
  | verify e he q => exact faithful_verify hs he q

/-! Runs. -/

/-- A call, or what happens around the calls. -/
inductive Move where
  | call (c : Call)
  | setClock (time : Instant)
  | advanceClock (secs : Int64)
  | signal (fired : Bool)

namespace Move

/-- The world after a move in one go. -/
def inWorld : Move → World → World
  | .call c, w => (c.inWorld w).2
  | .setClock t, w => w.setClock t
  | .advanceClock secs, w => w.advanceClock secs
  | .signal fired, w => { w with cancelled := fired }

def perform : Move → StoredWorld → StoredWorld
  | .call c, s => (c.perform s).2
  | m, s => { s with world := m.inWorld s.world }

end Move

def run (moves : List Move) (s : StoredWorld) : StoredWorld :=
  moves.foldl (fun s m => m.perform s) s

def initial (now : Instant) : StoredWorld := ⟨World.initial now, []⟩

theorem sound_initial (now : Instant) : (initial now).Sound where
  indexed := by
    intro id
    constructor
    · intro h
      cases h
    · rintro ⟨d, hd, -⟩
      cases hd
  keys := KeyRing.currentSigns_empty
  policies := PolicyRegistry.allProper_empty

/-- One move. -/
theorem sound_perform (hs : s.Sound) (m : Move) :
    (m.perform s).Sound ∧ (m.perform s).world = m.inWorld s.world := by
  obtain ⟨hindexed, hkeys, hpolicies⟩ := hs
  cases m with
  | call c =>
    have hfaithful := faithful_perform ⟨hindexed, hkeys, hpolicies⟩ c
    have hlater := c.later_inWorld s.world
    rw [← hfaithful.world] at hlater
    refine ⟨⟨hfaithful.indexed, ?_, ?_⟩, hfaithful.world⟩
    · exact KeyRing.currentSigns_of_changes hlater.keys hkeys
    · exact PolicyRegistry.allProper_of_changes hlater.policies hpolicies
  | setClock t => exact ⟨⟨hindexed, hkeys, hpolicies⟩, rfl⟩
  | advanceClock secs => exact ⟨⟨hindexed, hkeys, hpolicies⟩, rfl⟩
  | signal fired => exact ⟨⟨hindexed, hkeys, hpolicies⟩, rfl⟩

/-- A whole run. -/
theorem sound_run (hs : s.Sound) (moves : List Move) :
    (run moves s).Sound ∧
      (run moves s).world = moves.foldl (fun w m => m.inWorld w) s.world := by
  induction moves generalizing s with
  | nil => exact ⟨hs, rfl⟩
  | cons m moves ih =>
    obtain ⟨hsound, hworld⟩ := sound_perform hs m
    rw [List.foldl_cons, ← hworld]
    exact ih hsound

/-- Calls that fail and calls that only look leave everything where it was: keys, policies and their
entries, the count of proofs. Each call answers and does what it does in one go. -/
structure Traceless (s : StoredWorld) : Prop where
  failed : ∀ (c : Call) e u, c.perform s = (.error e, u) → u = s
  looked : ∀ c : Call, c.onlyLooks = true → (c.perform s).2 = s
  answer : ∀ c : Call, (c.perform s).1 = (c.inWorld s.world).1
  world : ∀ c : Call, (c.perform s).2.world = (c.inWorld s.world).2
  known : ∀ id, id ∈ s.known ↔ ∃ d ∈ s.world.policies.definitions, d.id = id

/-- Whatever was done before, no call that fails has written anything. -/
theorem traceless_run (now : Instant) (moves : List Move) :
    (run moves (initial now)).Traceless ∧
      (run moves (initial now)).world
        = moves.foldl (fun w m => m.inWorld w) (World.initial now) := by
  obtain ⟨hsound, hworld⟩ := sound_run (sound_initial now) moves
  refine ⟨?_, hworld⟩
  exact
    { failed := fun c => (faithful_perform hsound c).trace
      looked := fun c hc => Call.looks_perform hc _
      answer := fun c => (faithful_perform hsound c).answer
      world := fun c => (faithful_perform hsound c).world
      known := hsound.indexed }

end StoredWorld
end Credentials
