import Credentials.Proofs.Key.Service
import Mathlib.Logic.Basic

/-!
# Operations in place

The key service and the policy registry write one place after the other: a rotation registers its
pair before it makes it current, a registration opens an entry for its policy before it knows
whether the version is taken, a retirement writes the status before it looks at the current key.
Written so, each operation still comes to what it does in one go, and one that fails has written
nothing, as long as exactly the policies with a version have an entry.
-/

namespace Credentials

/-- A world and the policies that have an entry in its registry, with or without a version in it. -/
structure StoredWorld where
  world : World
  known : List PolicyId

namespace StoredWorld

variable {ε α β : Type} {s : StoredWorld}

/-! The single writes. -/

def write (f : World → World) : Step StoredWorld ε Unit :=
  fun s => (.ok (), { s with world := f s.world })

def putRecord (r : KeyRecord) : Step StoredWorld KeyServiceError Unit :=
  write fun w => { w with keys := ⟨w.keys.records ++ [r], w.keys.current⟩ }

def putKeyStatus (id : KeyId) (status : KeyStatus) : Step StoredWorld KeyServiceError Unit :=
  write fun w => { w with keys :=
    ⟨w.keys.records.map fun r => if r.id = id then ⟨r.id, status, r.material⟩ else r,
      w.keys.current⟩ }

def putCurrent (id : Option KeyId) : Step StoredWorld KeyServiceError Unit :=
  write fun w => { w with keys := ⟨w.keys.records, id⟩ }

/-- The policies with an entry once there is one for this policy, an empty one if it is new. -/
def opened (ids : List PolicyId) (id : PolicyId) : List PolicyId :=
  if id ∈ ids then ids else ids ++ [id]

def openEntry (id : PolicyId) : Step StoredWorld RegistryError Unit :=
  fun s => (.ok (), { s with known := opened s.known id })

def putDefinition (d : PolicyDefinition) : Step StoredWorld RegistryError Unit :=
  write fun w => { w with policies := ⟨w.policies.definitions ++ [d]⟩ }

def putPolicyStatus (id : PolicyId) (v : PolicyVersion) (status : PolicyStatus) :
    Step StoredWorld RegistryError Unit :=
  write fun w => { w with policies := ⟨w.policies.definitions.map fun e =>
    if e.id = id ∧ e.version = v then { e with status := status } else e⟩ }

/-! Keys. -/

def key? (id : KeyId) : Step StoredWorld KeyServiceError (Option KeyRecord) :=
  Step.look fun s => s.world.keys.find? id

def current? : Step StoredWorld KeyServiceError (Option KeyId) :=
  Step.look fun s => s.world.keys.current

def addKey (r : KeyRecord) : Step StoredWorld KeyServiceError IssuerKey := do
  match ← key? r.id with
  | some _ => throw (.duplicate r.id)
  | none =>
    putRecord r
    return r.view

def insertKey (id : KeyId) (pair : KeyPair) : Step StoredWorld KeyServiceError IssuerKey := do
  let key ← addKey ⟨id, .active, .ofPair pair⟩
  match ← current? with
  | some _ => return key
  | none =>
    putCurrent (some id)
    return key

def insertPublicKey (id : KeyId) (key : PublicKey) (status : KeyStatus) :
    Step StoredWorld KeyServiceError IssuerKey :=
  addKey ⟨id, status, .publicOnly key⟩

def setCurrentKey (id : KeyId) : Step StoredWorld KeyServiceError Unit := do
  match ← key? id with
  | none => throw (.notFound id)
  | some r =>
    if r.status = .retired then throw (.retired id)
    else match r.material.keyPair? with
      | none => throw (.verificationOnly id)
      | some _ => putCurrent (some id)

def rotateKey (id : KeyId) (pair : KeyPair) : Step StoredWorld KeyServiceError IssuerKey := do
  let key ← insertKey id pair
  setCurrentKey id
  return key

def retireKey (id : KeyId) : Step StoredWorld KeyServiceError Unit := do
  match ← key? id with
  | none => throw (.notFound id)
  | some _ =>
    putKeyStatus id .retired
    let current ← current?
    if current = some id then putCurrent none else return ()

/-! Policies. -/

/-- What a registry finds: it looks into the entry of the policy. -/
def lookup? (s : StoredWorld) (id : PolicyId) (version : Option PolicyVersion) :
    Option PolicyDefinition :=
  if id ∈ s.known then s.world.policies.get? id version else none

def policy? (id : PolicyId) (version : Option PolicyVersion) :
    Step StoredWorld RegistryError (Option PolicyDefinition) :=
  Step.look fun s => s.lookup? id version

def registerPolicy (d : PolicyDefinition) : Step StoredWorld RegistryError Unit := do
  Step.ofExcept (d.validate.mapError .invalidDefinition)
  openEntry d.id
  match ← policy? d.id (some d.version) with
  | some _ => throw (.duplicateVersion d.id d.version)
  | none => putDefinition d

def setPolicyStatus (id : PolicyId) (v : PolicyVersion) (status : PolicyStatus) :
    Step StoredWorld RegistryError Unit := do
  match ← policy? id (some v) with
  | none => throw (.notFound id)
  | some d =>
    if d.status.mayBecome status then putPolicyStatus id v status
    else throw (.invalidTransition d.status status)

def surroundings : Surroundings StoredWorld :=
  ⟨fun s => s.world.cancelled, fun s => s.world.clock.now⟩

def findPolicy (id : PolicyId) (version : Option PolicyVersion) :
    Step StoredWorld RegistryError (Option PolicyDefinition) :=
  surroundings.guarded .cancelled (policy? id version)

/-! A step of the world, in one go. -/

def inside (step : Step World ε α) : Step StoredWorld ε α := fun s =>
  let (r, w) := step s.world
  (r, { s with world := w })

theorem inside_of_eq {step : Step World ε α} {r : Except ε α} {w : World}
    (h : step s.world = (r, w)) : inside step s = (r, { s with world := w }) := by
  unfold inside
  rw [h]

theorem looks_inside {step : Step World ε α} (h : step.Looks) : (inside step).Looks := by
  intro s
  change { s with world := (step s.world).2 } = s
  rw [h s.world]

theorem inside_bind (step : Step World ε α) (f : α → Step World ε β) :
    inside (step >>= f) = inside step >>= fun a => inside (f a) := by
  funext s
  rw [Step.bind_apply]
  unfold inside
  rw [Step.bind_apply]
  cases step s.world with
  | mk r w => cases r <;> rfl

/-! What is read and written on the way. -/

theorem bind_key? (id : KeyId) (f : Option KeyRecord → Step StoredWorld KeyServiceError α) :
    (key? id >>= f) s = f (s.world.keys.find? id) s :=
  Step.bind_of_ok rfl

theorem bind_current? (f : Option KeyId → Step StoredWorld KeyServiceError α) :
    (current? >>= f) s = f s.world.keys.current s :=
  Step.bind_of_ok rfl

/-! The key service in place is the key service in one go. -/

section Keys

variable {r : KeyRecord} {id : KeyId}

theorem addKey_of_registered (h : ∃ q, s.world.keys.find? r.id = some q) :
    addKey r s = (.error (.duplicate r.id), s) := by
  obtain ⟨q, hq⟩ := h
  rw [addKey, bind_key?, hq]
  rfl

theorem addKey_of_free (h : s.world.keys.find? r.id = none) :
    addKey r s = (.ok r.view, { s with world := { s.world with keys :=
      ⟨s.world.keys.records ++ [r], s.world.keys.current⟩ } }) := by
  rw [addKey, bind_key?, h]
  rfl

theorem insertKey_eq (id : KeyId) (pair : KeyPair) :
    insertKey id pair = inside (World.insertKey id pair) := by
  funext s
  cases hfind : s.world.keys.find? id with
  | some q =>
    have hadd : addKey ⟨id, .active, .ofPair pair⟩ s = (.error (.duplicate id), s) :=
      addKey_of_registered ⟨q, hfind⟩
    rw [inside_of_eq (World.insertKey_of_registered ⟨q, hfind⟩ pair)]
    exact Step.bind_of_error hadd
  | none =>
    have hadd := addKey_of_free (r := ⟨id, .active, .ofPair pair⟩) hfind
    rw [inside_of_eq (World.insertKey_of_find? hfind pair), insertKey, Step.bind_of_ok hadd,
      bind_current?]
    cases hcurrent : s.world.keys.current <;> rfl

theorem insertPublicKey_eq (id : KeyId) (key : PublicKey) (status : KeyStatus) :
    insertPublicKey id key status = inside (World.insertPublicKey id key status) := by
  funext s
  cases hfind : s.world.keys.find? id with
  | some q =>
    have hworld : World.insertPublicKey id key status s.world
        = (.error (.duplicate id), s.world) :=
      World.keyStep_of_error (by rw [KeyRing.insertPublic, hfind])
    rw [inside_of_eq hworld]
    exact addKey_of_registered ⟨q, hfind⟩
  | none =>
    have hworld : World.insertPublicKey id key status s.world = (.ok ⟨id, status, key⟩, _) :=
      World.keyStep_of_ok (by rw [KeyRing.insertPublic, hfind]; rfl)
    rw [inside_of_eq hworld]
    exact addKey_of_free hfind

/-- The checks are those of signing. -/
theorem setCurrentKey_apply (id : KeyId) (s : StoredWorld) :
    setCurrentKey id s = match s.world.keys.signingPair id with
      | .error e => (.error e, s)
      | .ok _ => putCurrent (some id) s := by
  rw [setCurrentKey, bind_key?, KeyRing.signingPair]
  cases s.world.keys.find? id with
  | none => rfl
  | some r =>
    dsimp only
    by_cases hretired : r.status = .retired
    · rw [if_pos hretired, if_pos hretired]
      rfl
    · rw [if_neg hretired, if_neg hretired]
      cases r.material.keyPair? <;> rfl

theorem setCurrentKey_eq (id : KeyId) : setCurrentKey id = inside (World.setCurrentKey id) := by
  funext s
  rw [setCurrentKey_apply]
  cases hpair : s.world.keys.signingPair id with
  | error e =>
    have hworld : World.setCurrentKey id s.world = (.error e, s.world) :=
      World.keyStep_of_error (by rw [KeyRing.setCurrent, hpair]; rfl)
    rw [inside_of_eq hworld]
  | ok pair =>
    have hworld : World.setCurrentKey id s.world = (.ok (), _) :=
      World.keyStep_of_ok (by rw [KeyRing.setCurrent, hpair]; rfl)
    rw [inside_of_eq hworld]
    rfl

theorem rotateKey_eq (id : KeyId) (pair : KeyPair) :
    rotateKey id pair = inside (World.rotateKey id pair) := by
  unfold rotateKey World.rotateKey
  rw [inside_bind, insertKey_eq]
  simp only [inside_bind, setCurrentKey_eq]
  rfl

theorem retireKey_eq (id : KeyId) : retireKey id = inside (World.retireKey id) := by
  funext s
  cases hfind : s.world.keys.find? id with
  | none =>
    have hworld : World.retireKey id s.world = (.error (.notFound id), s.world) :=
      World.keyStep_of_error (by rw [KeyRing.retire, hfind]; rfl)
    rw [inside_of_eq hworld, retireKey, bind_key?, hfind]
    rfl
  | some r =>
    have hworld : World.retireKey id s.world = (.ok (), _) :=
      World.keyStep_of_ok (by rw [KeyRing.retire_of_find? hfind]; rfl)
    rw [inside_of_eq hworld, retireKey, bind_key?, hfind]
    by_cases hcurrent : s.world.keys.current = some id
    · rw [if_pos hcurrent]
      exact congrFun (if_pos hcurrent) _
    · rw [if_neg hcurrent]
      exact congrFun (if_neg hcurrent) _

end Keys

/-! The registry. -/

/-- The policies with an entry are those with a version. -/
def Indexed (s : StoredWorld) : Prop :=
  ∀ id, id ∈ s.known ↔ ∃ d ∈ s.world.policies.definitions, d.id = id

theorem bind_policy? (id : PolicyId) (version : Option PolicyVersion)
    (f : Option PolicyDefinition → Step StoredWorld RegistryError α) :
    (policy? id version >>= f) s = f (s.lookup? id version) s :=
  Step.bind_of_ok rfl

theorem lookup?_of_mem {id : PolicyId} (h : id ∈ s.known) (version : Option PolicyVersion) :
    s.lookup? id version = s.world.policies.get? id version :=
  if_pos h

theorem Indexed.lookup?_eq (hs : s.Indexed) (id : PolicyId) (version : Option PolicyVersion) :
    s.lookup? id version = s.world.policies.get? id version := by
  by_cases hid : id ∈ s.known
  · exact lookup?_of_mem hid version
  · refine (if_neg hid).trans (Eq.symm ?_)
    rw [Option.eq_none_iff_forall_ne_some]
    intro d hd
    exact hid ((hs id).mpr ⟨d, PolicyRegistry.mem_of_get? hd⟩)

theorem mem_opened_iff {ids : List PolicyId} {id k : PolicyId} :
    k ∈ opened ids id ↔ k ∈ ids ∨ k = id := by
  unfold opened
  split
  · next hid =>
    constructor
    · exact .inl
    · rintro (hk | rfl)
      · exact hk
      · exact hid
  · rw [List.mem_append, List.mem_singleton]

/-- A step that does what a step of the world does, and leaves no trace if it fails. -/
structure Faithful (step' : Step StoredWorld ε α) (step : Step World ε α) (s : StoredWorld) :
    Prop where
  answer : (step' s).1 = (step s.world).1
  world : (step' s).2.world = (step s.world).2
  trace : ∀ e u, step' s = (.error e, u) → u = s
  indexed : (step' s).2.Indexed

section Faithful

variable {step' : Step StoredWorld ε α} {step : Step World ε α} {e : ε} {a : α} {u : StoredWorld}
  {w : World}

theorem faithful_of_error (hs : s.Indexed) (h' : step' s = (.error e, s))
    (h : step s.world = (.error e, s.world)) : Faithful step' step s where
  answer := by rw [h', h]
  world := by rw [h', h]
  trace := by
    intro e' u hu
    rw [h'] at hu
    cases hu
    rfl
  indexed := by rwa [h']

theorem faithful_of_ok (h' : step' s = (.ok a, u)) (h : step s.world = (.ok a, u.world))
    (hu : u.Indexed) : Faithful step' step s where
  answer := by rw [h', h]
  world := by rw [h', h]
  trace := by
    intro e u' hu'
    rw [h'] at hu'
    cases hu'
  indexed := by rwa [h']

theorem Indexed.of_policies (hs : s.Indexed) (h : w.policies = s.world.policies) :
    Indexed ⟨w, s.known⟩ := by
  intro id
  rw [h]
  exact hs id

theorem faithful_inside_of_error (hs : s.Indexed) (h : step s.world = (.error e, s.world)) :
    Faithful (inside step) step s :=
  faithful_of_error hs (inside_of_eq h) h

theorem faithful_inside_of_ok (hs : s.Indexed) (h : step s.world = (.ok a, w))
    (hpolicies : w.policies = s.world.policies) : Faithful (inside step) step s :=
  faithful_of_ok (inside_of_eq h) h (hs.of_policies hpolicies)

theorem faithful_inside_of_looks (hs : s.Indexed) (h : step.Looks) :
    Faithful (inside step) step s := by
  have hworld := h s.world
  cases hstep : step s.world with
  | mk r w =>
    rw [hstep] at hworld
    subst hworld
    cases r with
    | error e => exact faithful_inside_of_error hs hstep
    | ok a => exact faithful_inside_of_ok hs hstep rfl

theorem faithful_keyStep (hs : s.Indexed) (f : KeyRing → Except KeyServiceError (α × KeyRing)) :
    Faithful (inside (World.keyStep f)) (World.keyStep f) s := by
  cases hf : f s.world.keys with
  | error e => exact faithful_inside_of_error hs (World.keyStep_of_error hf)
  | ok x => exact faithful_inside_of_ok hs (World.keyStep_of_ok hf) rfl

/-- A rotation fails only if its key is taken, before anything is written. -/
theorem faithful_rotateKey (hs : s.Indexed) (id : KeyId) (pair : KeyPair) :
    Faithful (rotateKey id pair) (World.rotateKey id pair) s := by
  rw [rotateKey_eq]
  cases hfind : s.world.keys.find? id with
  | some r =>
    have hinsert := World.insertKey_of_registered ⟨r, hfind⟩ pair
    exact faithful_inside_of_error hs (Step.bind_of_error hinsert)
  | none => exact faithful_inside_of_ok hs (World.rotateKey_of_find? hfind pair) rfl

end Faithful

/-! Policies, one write after the other. -/

section Policies

variable {d : PolicyDefinition}

theorem Indexed.register (hs : s.Indexed) (d : PolicyDefinition) :
    Indexed ⟨{ s.world with policies := ⟨s.world.policies.definitions ++ [d]⟩ },
      opened s.known d.id⟩ := by
  intro id
  simp only [mem_opened_iff, hs id, List.mem_append, List.mem_singleton, or_and_right, exists_or,
    exists_eq_left, eq_comm (a := id)]

/-- The entry is opened whether or not the version is taken. -/
theorem registerPolicy_of_valid (h : d.validate = .ok ()) (s : StoredWorld) :
    registerPolicy d s = match s.world.policies.find? d.id d.version with
      | some _ => (.error (.duplicateVersion d.id d.version),
          { s with known := opened s.known d.id })
      | none => (.ok (), ⟨{ s.world with policies := ⟨s.world.policies.definitions ++ [d]⟩ },
          opened s.known d.id⟩) := by
  have hknown : d.id ∈ opened s.known d.id := mem_opened_iff.mpr (.inr rfl)
  have hopen : openEntry d.id s = (.ok (), { s with known := opened s.known d.id }) := rfl
  rw [registerPolicy, h, mapError_ok, Step.bind_of_ok (Step.ofExcept_of_ok rfl s),
    Step.bind_of_ok hopen, bind_policy?, lookup?_of_mem hknown, PolicyRegistry.get?]
  cases s.world.policies.find? d.id d.version <;> rfl

/-- A version that is taken stands in an entry that was there before. -/
theorem faithful_registerPolicy (hs : s.Indexed) (d : PolicyDefinition) :
    Faithful (registerPolicy d) (World.registerPolicy d) s := by
  cases hvalid : d.validate with
  | error e =>
    have hfails : s.world.policies.register d = .error (.invalidDefinition e) := by
      rw [PolicyRegistry.register, hvalid]
    refine faithful_of_error hs ?_ (World.registryStep_of_error hfails)
    rw [registerPolicy, hvalid]
    exact Step.bind_of_error rfl
  | ok _ =>
    have happly := registerPolicy_of_valid hvalid s
    cases hfind : s.world.policies.find? d.id d.version with
    | some q =>
      have hfails : s.world.policies.register d = .error (.duplicateVersion d.id d.version) := by
        rw [PolicyRegistry.register, hvalid, hfind]
      have hentry : d.id ∈ s.known :=
        (hs d.id).mpr ⟨q, PolicyRegistry.mem_of_find? hfind, (PolicyRegistry.key_of_find? hfind).1⟩
      rw [hfind, opened, if_pos hentry] at happly
      exact faithful_of_error hs happly (World.registryStep_of_error hfails)
    | none =>
      have hregisters : s.world.policies.register d = .ok _ :=
        PolicyRegistry.register_eq_ok_iff.mpr ⟨hvalid, hfind, rfl⟩
      rw [hfind] at happly
      exact faithful_of_ok happly (World.registryStep_of_ok hregisters) (hs.register d)

theorem Indexed.setStatus (hs : s.Indexed) (id : PolicyId) (v : PolicyVersion)
    (status : PolicyStatus) :
    Indexed ⟨{ s.world with policies := ⟨s.world.policies.definitions.map fun e =>
      if e.id = id ∧ e.version = v then { e with status := status } else e⟩ }, s.known⟩ := by
  intro k
  refine (hs k).trans ?_
  simp only [List.mem_map, exists_exists_and_eq_and]
  refine exists_congr fun d => and_congr_right fun _ => ?_
  split <;> rfl

theorem faithful_setPolicyStatus (hs : s.Indexed) (id : PolicyId) (v : PolicyVersion)
    (status : PolicyStatus) :
    Faithful (setPolicyStatus id v status) (World.setPolicyStatus id v status) s := by
  have happly : setPolicyStatus id v status s = _ := bind_policy? id (some v) _
  rw [hs.lookup?_eq, PolicyRegistry.get?] at happly
  cases hfind : s.world.policies.find? id v with
  | none =>
    have hfails : s.world.policies.setStatus id v status = .error (.notFound id) := by
      rw [PolicyRegistry.setStatus, hfind]
    rw [hfind] at happly
    exact faithful_of_error hs happly (World.registryStep_of_error hfails)
  | some d =>
    rw [hfind] at happly
    by_cases hmay : d.status.mayBecome status = true
    · have hsets : s.world.policies.setStatus id v status = .ok _ :=
        PolicyRegistry.setStatus_eq_ok_iff.mpr ⟨d, hfind, hmay, rfl⟩
      refine faithful_of_ok (happly.trans (congrFun (if_pos hmay) s))
        (World.registryStep_of_ok hsets) (hs.setStatus id v status)
    · have hfails : s.world.policies.setStatus id v status
          = .error (.invalidTransition d.status status) := by
        rw [PolicyRegistry.setStatus, hfind]
        exact if_neg hmay
      exact faithful_of_error hs (happly.trans (congrFun (if_neg hmay) s))
        (World.registryStep_of_error hfails)

/-- Looking into the entry of a policy finds what is there. -/
theorem faithful_findPolicy (hs : s.Indexed) (id : PolicyId) (version : Option PolicyVersion) :
    Faithful (findPolicy id version) (World.policyDirectory id version) s := by
  cases hw : s.world.cancelled with
  | true =>
    have hsignal : surroundings.cancelled s = true := hw
    exact faithful_of_error hs (Step.guarded_of_cancelled hsignal _ _)
      (Step.guarded_of_cancelled hw _ _)
  | false =>
    have hsignal : surroundings.cancelled s = false := hw
    have hfound : findPolicy id version s = (.ok (s.lookup? id version), s) :=
      Step.guarded_of_not_cancelled hsignal _ _
    rw [hs.lookup?_eq] at hfound
    exact faithful_of_ok hfound (World.policies_eq hw id version) hs

end Policies

end StoredWorld
end Credentials
