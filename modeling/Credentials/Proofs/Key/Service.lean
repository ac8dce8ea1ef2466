import Credentials.Proofs.World.Run

/-!
# The key service under many clients

A rotation takes the lock of the ring twice, once to register the new pair and once to make it
current, and other clients may act in between. Whatever they do, the current key can sign, nothing
that was registered is lost or exchanged, and a key changes its status at most from active to
retired.
-/

namespace Credentials

namespace KeyRing

variable {ring ring' : KeyRing} {id k : KeyId}

/-! Each key is registered once. -/

def Unique (ring : KeyRing) : Prop := ∀ r ∈ ring.records, ring.find? r.id = some r

theorem unique_empty : empty.Unique := by
  intro r hr
  cases hr

theorem unique_append (hring : ring.Unique) {r : KeyRecord} (hr : ring.find? r.id = none)
    (current : Option KeyId) : Unique ⟨ring.records ++ [r], current⟩ := by
  intro s hs
  rw [find?_append]
  rcases List.mem_append.mp hs with hs | hs
  · rw [hring s hs, Option.some_or]
  · obtain rfl := List.mem_singleton.mp hs
    rw [hr, Option.none_or, if_pos rfl]

theorem unique_of_change (h : Change ring ring') (hring : ring.Unique) : ring'.Unique := by
  cases h with
  | insert h =>
    obtain ⟨hnone, rfl⟩ := insert_eq_ok h
    exact unique_append hring hnone _
  | insertPublic h =>
    obtain ⟨hnone, rfl⟩ := insertPublic_eq_ok h
    exact unique_append hring hnone _
  | setCurrent h =>
    obtain ⟨_, rfl⟩ := setCurrent_eq_ok h
    exact hring
  | retire h =>
    obtain ⟨_, rfl⟩ := retire_eq_ok h
    intro s hs
    obtain ⟨r, hr, rfl⟩ := List.mem_map.mp hs
    rw [find?_retire]
    split
    · next hid => rw [hring r hr, Option.map_some, if_pos hid]
    · next hid => rw [hring r hr, Option.map_some, if_neg hid]

theorem unique_of_changes (h : Relation.ReflTransGen Change ring ring') (hring : ring.Unique) :
    ring'.Unique := by
  induction h with
  | refl => exact hring
  | tail _ hchange ih => exact unique_of_change hchange ih

/-! What becomes of a key. -/

/-- Every key is still registered with the same halves, and its status has changed at most from
active to retired. -/
def Keeps (ring ring' : KeyRing) : Prop :=
  ∀ k r, ring.find? k = some r → ∃ r', ring'.find? k = some r' ∧ r'.material = r.material ∧
    (r'.status = r.status ∨ r.status = .active ∧ r'.status = .retired)

theorem keeps_of_changes (h : Relation.ReflTransGen Change ring ring') : ring.Keeps ring' := by
  intro k r hr
  obtain ⟨r', hr', hmaterial, hstatus⟩ := find?_of_changes h hr
  refine ⟨r', hr', hmaterial, ?_⟩
  cases hbefore : r.status with
  | active =>
    rw [hbefore] at hstatus
    rcases hstatus with hsame | hretired
    · exact Or.inl hsame
    · exact Or.inr ⟨rfl, hretired⟩
  | retired =>
    rw [hbefore, or_self] at hstatus
    exact Or.inl hstatus

/-! Single operations. -/

theorem insert_of_find? (hnone : ring.find? id = none) (pair : KeyPair) :
    ring.insert id pair = .ok (⟨id, .active, pair.publicKey⟩,
      ⟨ring.records ++ [⟨id, .active, .ofPair pair⟩], some (ring.current.getD id)⟩) := by
  rw [insert, hnone]
  rfl

theorem find?_inserted (hnone : ring.find? id = none) (pair : KeyPair) (current : Option KeyId) :
    find? ⟨ring.records ++ [⟨id, .active, .ofPair pair⟩], current⟩ k
      = if id = k then some ⟨id, .active, .ofPair pair⟩ else ring.find? k := by
  rw [find?_append]
  by_cases hk : id = k
  · subst hk
    rw [hnone, Option.none_or]
  · simp [hk]

theorem setCurrent_of_find? {r : KeyRecord} {pair : KeyPair} (hr : ring.find? id = some r)
    (hactive : r.status = .active) (hpair : r.material.keyPair? = some pair) :
    ring.setCurrent id = .ok ⟨ring.records, some id⟩ := by
  rw [setCurrent, signingPair_eq_ok_iff.mpr ⟨r, hr, hactive, hpair⟩]

theorem retire_of_find? {r : KeyRecord} (hr : ring.find? id = some r) :
    ring.retire id = .ok
      ⟨ring.records.map fun r => if r.id = id then ⟨r.id, .retired, r.material⟩ else r,
        if ring.current = some id then none else ring.current⟩ := by
  rw [retire, hr]

theorem currentKey?_of_find? {r : KeyRecord} (hcurrent : ring.current = some id)
    (hr : ring.find? id = some r) (hactive : r.status = .active) :
    ring.currentKey? = some r.view := by
  rw [currentKey?, hcurrent, Option.bind_some, view?, hr, Option.map_some, Option.filter_some]
  simp [IssuerKey.isRetired, KeyRecord.view, hactive]

/-- A key signs exactly if it is registered, active and held with its private half. -/
theorem sign_eq_ok_iff_held {c : Canonical} {s : Signature} : ring.sign k c = .ok s ↔
    ∃ r pair, ring.find? k = some r ∧ r.status = .active ∧ r.material.keyPair? = some pair ∧
      s = pair.sign c := by
  rw [sign_eq_ok_iff]
  constructor
  · intro h
    obtain ⟨pair, hpair, hs⟩ := h
    obtain ⟨r, hr, hactive, hmaterial⟩ := signingPair_eq_ok_iff.mp hpair
    exact ⟨r, pair, hr, hactive, hmaterial, hs⟩
  · intro h
    obtain ⟨r, pair, hr, hactive, hmaterial, hs⟩ := h
    exact ⟨pair, signingPair_eq_ok_iff.mpr ⟨r, hr, hactive, hmaterial⟩, hs⟩

end KeyRing

/-- A world together with the rotations that have registered their key and not yet made it
current. -/
structure RotatingWorld where
  world : World
  rotating : List KeyId

namespace RotatingWorld

/-- What one client does while no other acts: a whole operation, or half of a rotation. -/
inductive Move where
  | operation (op : World.Operation)
  | signal (fired : Bool)
  | beginRotation (id : KeyId) (pair : KeyPair)
  | endRotation (id : KeyId)

/-- A rotation that fails to register its key goes no further. -/
def Move.apply : Move → RotatingWorld → RotatingWorld
  | .operation op, s => ⟨op.apply s.world, s.rotating⟩
  | .signal fired, s => ⟨{ s.world with cancelled := fired }, s.rotating⟩
  | .beginRotation id pair, s =>
    match World.insertKey id pair s.world with
    | (.ok _, w) => ⟨w, id :: s.rotating⟩
    | (.error _, w) => ⟨w, s.rotating⟩
  | .endRotation id, s =>
    if id ∈ s.rotating then ⟨(World.setCurrentKey id s.world).2, s.rotating.erase id⟩ else s

def run (moves : List Move) (s : RotatingWorld) : RotatingWorld :=
  moves.foldl (fun s m => m.apply s) s

def initial (now : Instant) : RotatingWorld := ⟨World.initial now, []⟩

theorem changes_apply (m : Move) (s : RotatingWorld) :
    Relation.ReflTransGen KeyRing.Change s.world.keys (m.apply s).world.keys := by
  cases m with
  | operation op => exact (World.Later.apply op s.world).keys
  | signal fired => exact .refl
  | beginRotation id pair =>
    have hkeys := (World.Later.insertKey id pair s.world).keys
    unfold Move.apply
    dsimp only
    split
    all_goals
      next h =>
        rw [h] at hkeys
        exact hkeys
  | endRotation id =>
    unfold Move.apply
    dsimp only
    split
    · exact (World.Later.setCurrentKey id s.world).keys
    · exact .refl

theorem changes_run (moves : List Move) (s : RotatingWorld) :
    Relation.ReflTransGen KeyRing.Change s.world.keys (run moves s).world.keys := by
  induction moves generalizing s with
  | nil => exact .refl
  | cons m moves ih => exact (changes_apply m s).trans (ih (m.apply s))

end RotatingWorld

namespace World

variable {w : World}

/-- How the key service of a world answers: its current key, and what its operations come to. -/
structure ServesKeys (w : World) : Prop where
  current : ∀ id, w.keys.current = some id → ∃ r pair, w.keys.find? id = some r ∧
    r.status = .active ∧ r.material.keyPair? = some pair ∧
    (w.cancelled = false → keyDirectory.current w = (.ok (some r.view), w))
  no_current : w.keys.current = none → w.cancelled = false →
    keyDirectory.current w = (.ok none, w)
  records : ∀ r ∈ w.keys.records, w.keys.find? r.id = some r ∧
    ∀ pair, r.material.keyPair? = some pair → r.material.publicKey = pair.publicKey
  retire : ∀ id, w.keys.current = some id → ∃ v, retireKey id w = (.ok (), v) ∧
    v.keys.current = none
  /-- a new key becomes current if there is no other -/
  insert : ∀ id pair, w.keys.find? id = none → ∃ v,
    insertKey id pair w = (.ok ⟨id, .active, pair.publicKey⟩, v) ∧
    v.keys.find? id = some ⟨id, .active, .ofPair pair⟩ ∧
    v.keys.current = some (w.keys.current.getD id)
  /-- a rotation in one piece -/
  rotate : ∀ id pair, w.keys.find? id = none → ∃ v,
    rotateKey id pair w = (.ok ⟨id, .active, pair.publicKey⟩, v) ∧
    v.keys.current = some id ∧ ∀ k, k ≠ id → v.keys.find? k = w.keys.find? k
  taken : ∀ id pair, (∃ r, w.keys.find? id = some r) →
    insertKey id pair w = (.error (.duplicate id), w) ∧
    rotateKey id pair w = (.error (.duplicate id), w)
  sign : w.cancelled = false → ∀ k c s v, signer k c w = (.ok s, v) ↔ v = w ∧
    ∃ r pair, w.keys.find? k = some r ∧ r.status = .active ∧ r.material.keyPair? = some pair ∧
      s = pair.sign c

theorem insertKey_of_find? {id : KeyId} (hnone : w.keys.find? id = none) (pair : KeyPair) :
    insertKey id pair w = (.ok ⟨id, .active, pair.publicKey⟩, { w with keys :=
      ⟨w.keys.records ++ [⟨id, .active, .ofPair pair⟩], some (w.keys.current.getD id)⟩ }) :=
  keyStep_of_ok (KeyRing.insert_of_find? hnone pair)

theorem insertKey_of_registered {id : KeyId} (h : ∃ r, w.keys.find? id = some r) (pair : KeyPair) :
    insertKey id pair w = (.error (.duplicate id), w) :=
  keyStep_of_error (KeyRing.insert_of_registered h pair)

/-- A rotation that no other client interrupts. -/
theorem rotateKey_of_find? {id : KeyId} (hnone : w.keys.find? id = none) (pair : KeyPair) :
    rotateKey id pair w = (.ok ⟨id, .active, pair.publicKey⟩, { w with keys :=
      ⟨w.keys.records ++ [⟨id, .active, .ofPair pair⟩], some id⟩ }) := by
  have hinserted : KeyRing.find? ⟨w.keys.records ++ [⟨id, .active, .ofPair pair⟩],
      some (w.keys.current.getD id)⟩ id = some ⟨id, .active, .ofPair pair⟩ := by
    rw [KeyRing.find?_inserted hnone, if_pos rfl]
  have hset := KeyRing.setCurrent_of_find? hinserted rfl rfl
  unfold rotateKey
  rw [Step.bind_of_ok (insertKey_of_find? hnone pair)]
  refine Step.bind_of_ok (a := ()) (keyStep_of_ok ?_)
  rw [hset]
  rfl

theorem servesKeys_of_ring (hcurrent : w.keys.CurrentSigns) (hunique : w.keys.Unique) :
    w.ServesKeys := by
  constructor
  · intro id hid
    obtain ⟨pair, hpair⟩ := hcurrent id hid
    obtain ⟨r, hr, hactive, hmaterial⟩ := KeyRing.signingPair_eq_ok_iff.mp hpair
    refine ⟨r, pair, hr, hactive, hmaterial, ?_⟩
    intro hw
    rw [keyDirectory_current_eq hw, KeyRing.currentKey?_of_find? hid hr hactive]
  · intro hnone hw
    rw [keyDirectory_current_eq hw, KeyRing.currentKey?, hnone]
    rfl
  · intro r hr
    exact ⟨hunique r hr, fun pair => KeyRing.publicKey_of_keyPair?⟩
  · intro id hid
    obtain ⟨pair, hpair⟩ := hcurrent id hid
    obtain ⟨r, hr, _⟩ := KeyRing.signingPair_eq_ok_iff.mp hpair
    refine ⟨_, keyStep_of_ok (by rw [KeyRing.retire_of_find? hr]; rfl), ?_⟩
    exact if_pos hid
  · intro id pair hnone
    refine ⟨_, insertKey_of_find? hnone pair, ?_, rfl⟩
    rw [KeyRing.find?_inserted hnone, if_pos rfl]
  · intro id pair hnone
    refine ⟨_, rotateKey_of_find? hnone pair, rfl, ?_⟩
    intro k hk
    rw [KeyRing.find?_inserted hnone, if_neg hk.symm]
  · intro id pair hr
    have hinsert := insertKey_of_registered hr pair
    exact ⟨hinsert, Step.bind_of_error hinsert⟩
  · intro hw k c s v
    rw [signer_eq hw, Prod.mk.injEq, KeyRing.sign_eq_ok_iff_held, and_comm, eq_comm (a := w)]

end World

namespace RotatingWorld

/-- The halves of a rotation, one after the other, are a rotation in one piece. -/
theorem run_rotation {s : RotatingWorld} {id : KeyId} (hnone : s.world.keys.find? id = none)
    (pair : KeyPair) : run [.beginRotation id pair, .endRotation id] s
      = ⟨(World.rotateKey id pair s.world).2, s.rotating⟩ := by
  have hinsert := World.insertKey_of_find? hnone pair
  rw [run, List.foldl_cons, List.foldl_cons, List.foldl_nil, Move.apply, hinsert]
  dsimp only
  rw [Move.apply, if_pos List.mem_cons_self, List.erase_cons_head, World.rotateKey,
    Step.bind_of_ok hinsert, Step.bind_apply]
  split
  · next h =>
    rw [h]
    rfl
  · next h => rw [h]

/-- After any moves of any clients the key service is in order, whatever moves follow keep what it
holds, and the halves of a rotation may as well be taken apart. -/
theorem servesKeys_run (now : Instant) (before after : List Move) :
    (run before (initial now)).world.ServesKeys ∧
      (run before (initial now)).world.keys.Keeps
        (run after (run before (initial now))).world.keys ∧
      ∀ id pair, (run before (initial now)).world.keys.find? id = none →
        run [.beginRotation id pair, .endRotation id] (run before (initial now))
          = run [.operation (.rotateKey id pair)] (run before (initial now)) := by
  have hchanges := changes_run before (initial now)
  have hcurrent := KeyRing.currentSigns_of_changes hchanges KeyRing.currentSigns_empty
  have hunique := KeyRing.unique_of_changes hchanges KeyRing.unique_empty
  refine ⟨World.servesKeys_of_ring hcurrent hunique, ?_, ?_⟩
  · exact KeyRing.keeps_of_changes (changes_run after _)
  · intro id pair hnone
    exact run_rotation hnone pair

/-- A key that is retired between the halves of its rotation does not become current. -/
example (now : Instant) (first second : KeyPair) :
    (run [.operation (.insertKey ⟨"k1"⟩ first), .beginRotation ⟨"k2"⟩ second,
      .operation (.retireKey ⟨"k2"⟩), .endRotation ⟨"k2"⟩] (initial now)).world.keys.current
      = some ⟨"k1"⟩ := rfl

end RotatingWorld
end Credentials
