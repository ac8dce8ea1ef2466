import Credentials.Key.Ring
import Mathlib.Logic.Relation

/-!
# What a key ring keeps

Every change of a ring keeps each record with its material and never brings a retired key back, so
the same holds of any number of changes. The current key of a ring that grew from the empty one can
sign.
-/

namespace Credentials.KeyRing

open Relation

variable {ring ring' : KeyRing} {id k : KeyId}

theorem id_of_find? {r : KeyRecord} (h : ring.find? k = some r) : r.id = k := by
  simpa using List.find?_some h

theorem find?_append (r : KeyRecord) (current : Option KeyId) (k : KeyId) :
    find? ⟨ring.records ++ [r], current⟩ k
      = (ring.find? k).or (if r.id = k then some r else none) := by
  by_cases h : r.id = k <;> simp [find?, h]

theorem find?_retire (id : KeyId) (current : Option KeyId) (k : KeyId) :
    find? ⟨ring.records.map fun r => if r.id = id then ⟨r.id, .retired, r.material⟩ else r,
      current⟩ k
      = (ring.find? k).map fun r => if r.id = id then ⟨r.id, .retired, r.material⟩ else r := by
  have hid (r : KeyRecord) :
      (if r.id = id then (⟨r.id, .retired, r.material⟩ : KeyRecord) else r).id = r.id := by
    split <;> rfl
  simp only [find?, List.find?_map, Function.comp_def, hid]

/-- The public half of a pair is the public key of its record. -/
theorem publicKey_of_keyPair? {m : KeyMaterial} {pair : KeyPair} (h : m.keyPair? = some pair) :
    m.publicKey = pair.publicKey := by
  cases m with
  | pair keyPair publicKey heq =>
    cases h
    exact heq
  | publicOnly publicKey => cases h

/-! What the operations do. -/

theorem insert_eq_ok {pair : KeyPair} {view : IssuerKey}
    (h : ring.insert id pair = .ok (view, ring')) :
    ring.find? id = none ∧
      ring' = ⟨ring.records ++ [⟨id, .active, .ofPair pair⟩], some (ring.current.getD id)⟩ := by
  unfold insert at h
  split at h
  · cases h
  · next hnone =>
    cases h
    exact ⟨hnone, rfl⟩

theorem insert_of_registered (h : ∃ r, ring.find? id = some r) (pair : KeyPair) :
    ring.insert id pair = .error (.duplicate id) := by
  obtain ⟨r, hr⟩ := h
  rw [insert, hr]

theorem insertPublic_eq_ok {key : PublicKey} {status : KeyStatus} {view : IssuerKey}
    (h : ring.insertPublic id key status = .ok (view, ring')) :
    ring.find? id = none ∧
      ring' = ⟨ring.records ++ [⟨id, status, .publicOnly key⟩], ring.current⟩ := by
  unfold insertPublic at h
  split at h
  · cases h
  · next hnone =>
    cases h
    exact ⟨hnone, rfl⟩

theorem signingPair_eq_ok_iff {pair : KeyPair} : ring.signingPair id = .ok pair ↔
    ∃ r, ring.find? id = some r ∧ r.status = .active ∧ r.material.keyPair? = some pair := by
  unfold signingPair
  cases ring.find? id with
  | none => simp
  | some r =>
    cases hr : r.status with
    | retired => simp [hr]
    | active => cases hp : r.material.keyPair? <;> simp [hr, hp]

theorem sign_eq_ok_iff {c : Canonical} {s : Signature} : ring.sign id c = .ok s ↔
    ∃ pair, ring.signingPair id = .ok pair ∧ s = pair.sign c := by
  unfold sign
  cases ring.signingPair id with
  | error e => simp [Except.map]
  | ok pair => simp [Except.map, eq_comm]

theorem setCurrent_eq_ok (h : ring.setCurrent id = .ok ring') :
    (∃ pair, ring.signingPair id = .ok pair) ∧ ring' = ⟨ring.records, some id⟩ := by
  unfold setCurrent at h
  split at h
  · cases h
  · next pair hpair =>
    cases h
    exact ⟨⟨pair, hpair⟩, rfl⟩

theorem retire_eq_ok (h : ring.retire id = .ok ring') :
    (∃ r, ring.find? id = some r) ∧
      ring' = ⟨ring.records.map fun r => if r.id = id then ⟨r.id, .retired, r.material⟩ else r,
        if ring.current = some id then none else ring.current⟩ := by
  unfold retire at h
  split at h
  · cases h
  · next r hr =>
    cases h
    exact ⟨⟨r, hr⟩, rfl⟩

/-! Changes. -/

/-- One change of a ring. -/
inductive Change (ring ring' : KeyRing) : Prop where
  | insert {id : KeyId} {pair : KeyPair} {view : IssuerKey} :
      ring.insert id pair = .ok (view, ring') → Change ring ring'
  | insertPublic {id : KeyId} {key : PublicKey} {status : KeyStatus} {view : IssuerKey} :
      ring.insertPublic id key status = .ok (view, ring') → Change ring ring'
  | setCurrent {id : KeyId} : ring.setCurrent id = .ok ring' → Change ring ring'
  | retire {id : KeyId} : ring.retire id = .ok ring' → Change ring ring'

/-- The record keeps its material, and its status unless the key is retired. -/
theorem find?_of_change (h : Change ring ring') {r : KeyRecord} (hr : ring.find? k = some r) :
    ∃ r', ring'.find? k = some r' ∧ r'.material = r.material ∧
      (r'.status = r.status ∨ r'.status = .retired) := by
  cases h with
  | insert h =>
    obtain ⟨_, rfl⟩ := insert_eq_ok h
    refine ⟨r, ?_, rfl, Or.inl rfl⟩
    rw [find?_append, hr, Option.some_or]
  | insertPublic h =>
    obtain ⟨_, rfl⟩ := insertPublic_eq_ok h
    refine ⟨r, ?_, rfl, Or.inl rfl⟩
    rw [find?_append, hr, Option.some_or]
  | setCurrent h =>
    obtain ⟨_, rfl⟩ := setCurrent_eq_ok h
    exact ⟨r, hr, rfl, Or.inl rfl⟩
  | @retire id h =>
    obtain ⟨_, rfl⟩ := retire_eq_ok h
    rw [find?_retire, hr, Option.map_some]
    by_cases hid : r.id = id
    · exact ⟨⟨r.id, .retired, r.material⟩, congrArg some (if_pos hid), rfl, Or.inr rfl⟩
    · exact ⟨r, congrArg some (if_neg hid), rfl, Or.inl rfl⟩

theorem find?_of_changes (h : ReflTransGen Change ring ring') {r : KeyRecord}
    (hr : ring.find? k = some r) :
    ∃ r', ring'.find? k = some r' ∧ r'.material = r.material ∧
      (r'.status = r.status ∨ r'.status = .retired) := by
  induction h with
  | refl => exact ⟨r, hr, rfl, Or.inl rfl⟩
  | tail _ hchange ih =>
    obtain ⟨s, hs, hmaterial, hstatus⟩ := ih
    obtain ⟨t, ht, hmaterial', hstatus'⟩ := find?_of_change hchange hs
    refine ⟨t, ht, hmaterial'.trans hmaterial, ?_⟩
    rcases hstatus' with hsame | hretired
    · rw [hsame]
      exact hstatus
    · exact Or.inr hretired

/-! The current key. -/

theorem current_of_currentKey? {key : IssuerKey} (h : ring.currentKey? = some key) :
    ring.current = some key.id ∧ ∃ r, ring.find? key.id = some r ∧ r.view = key := by
  obtain ⟨hbind, -⟩ := Option.filter_eq_some_iff.mp h
  obtain ⟨c, hc, hview⟩ := Option.bind_eq_some_iff.mp hbind
  obtain ⟨r, hr, rfl⟩ := Option.map_eq_some_iff.mp hview
  obtain rfl : r.id = c := id_of_find? hr
  exact ⟨hc, r, hr, rfl⟩

/-- The current key, if there is one, can sign. -/
def CurrentSigns (ring : KeyRing) : Prop :=
  ∀ id, ring.current = some id → ∃ pair, ring.signingPair id = .ok pair

theorem currentSigns_empty : CurrentSigns empty := by
  intro id h
  cases h

/-- A key that can sign still can when a record is added. -/
theorem signingPair_append {pair : KeyPair} (h : ring.signingPair k = .ok pair) (r : KeyRecord)
    (current : Option KeyId) :
    signingPair ⟨ring.records ++ [r], current⟩ k = .ok pair := by
  obtain ⟨s, hs, hactive, hpair⟩ := signingPair_eq_ok_iff.mp h
  refine signingPair_eq_ok_iff.mpr ⟨s, ?_, hactive, hpair⟩
  rw [find?_append, hs, Option.some_or]

theorem currentSigns_of_change (h : Change ring ring') (hring : ring.CurrentSigns) :
    ring'.CurrentSigns := by
  intro c hc
  cases h with
  | @insert id pair view h =>
    obtain ⟨hnone, rfl⟩ := insert_eq_ok h
    cases hcurrent : ring.current with
    | some d =>
      rw [hcurrent] at hc
      cases hc
      obtain ⟨p, hp⟩ := hring _ hcurrent
      exact ⟨p, signingPair_append hp _ _⟩
    | none =>
      rw [hcurrent] at hc
      cases hc
      refine ⟨pair, signingPair_eq_ok_iff.mpr ⟨⟨id, .active, .ofPair pair⟩, ?_, rfl, rfl⟩⟩
      rw [find?_append]
      simp [hnone]
  | insertPublic h =>
    obtain ⟨_, rfl⟩ := insertPublic_eq_ok h
    obtain ⟨p, hp⟩ := hring c hc
    exact ⟨p, signingPair_append hp _ _⟩
  | setCurrent h =>
    obtain ⟨hpair, rfl⟩ := setCurrent_eq_ok h
    cases hc
    exact hpair
  | @retire id h =>
    obtain ⟨_, rfl⟩ := retire_eq_ok h
    by_cases hcurrent : ring.current = some id
    · simp [hcurrent] at hc
    · simp only [hcurrent, if_false] at hc
      obtain ⟨p, hp⟩ := hring c hc
      obtain ⟨r, hr, hactive, hmaterial⟩ := signingPair_eq_ok_iff.mp hp
      have hne : r.id ≠ id := by
        rw [id_of_find? hr]
        rintro rfl
        exact hcurrent hc
      refine ⟨p, signingPair_eq_ok_iff.mpr ⟨r, ?_, hactive, hmaterial⟩⟩
      rw [find?_retire, hr, Option.map_some, if_neg hne]

theorem currentSigns_of_changes (h : ReflTransGen Change ring ring') (hring : ring.CurrentSigns) :
    ring'.CurrentSigns := by
  induction h with
  | refl => exact hring
  | tail _ hchange ih => exact currentSigns_of_change hchange ih

/-! Retired keys. -/

/-- A key that is registered and retired. -/
def Retired (ring : KeyRing) (k : KeyId) : Prop :=
  ∃ r, ring.find? k = some r ∧ r.status = .retired

theorem retired_of_retire (h : ring.retire k = .ok ring') : ring'.Retired k := by
  obtain ⟨⟨r, hr⟩, rfl⟩ := retire_eq_ok h
  refine ⟨⟨r.id, .retired, r.material⟩, ?_, rfl⟩
  rw [find?_retire, hr, Option.map_some, if_pos (id_of_find? hr)]

theorem retired_of_insertPublic {key : PublicKey} {view : IssuerKey}
    (h : ring.insertPublic k key .retired = .ok (view, ring')) : ring'.Retired k := by
  obtain ⟨hnone, rfl⟩ := insertPublic_eq_ok h
  refine ⟨⟨k, .retired, .publicOnly key⟩, ?_, rfl⟩
  rw [find?_append]
  simp [hnone]

/-- Nothing brings a retired key back. -/
theorem retired_of_changes (h : ReflTransGen Change ring ring') (hk : ring.Retired k) :
    ring'.Retired k := by
  obtain ⟨r, hr, hretired⟩ := hk
  obtain ⟨r', hr', _, hstatus⟩ := find?_of_changes h hr
  rw [hretired, or_self] at hstatus
  exact ⟨r', hr', hstatus⟩

theorem signingPair_of_retired (h : ring.Retired k) : ring.signingPair k = .error (.retired k) := by
  obtain ⟨r, hr, hretired⟩ := h
  rw [signingPair, hr]
  exact if_pos hretired

theorem current_ne_of_retired (hring : ring.CurrentSigns) (h : ring.Retired k) :
    ring.current ≠ some k := by
  intro hcurrent
  obtain ⟨pair, hpair⟩ := hring k hcurrent
  rw [signingPair_of_retired h] at hpair
  cases hpair

theorem insert_of_retired (h : ring.Retired k) (pair : KeyPair) :
    ring.insert k pair = .error (.duplicate k) := by
  obtain ⟨r, hr, _⟩ := h
  exact insert_of_registered ⟨r, hr⟩ pair

theorem insertPublic_of_retired (h : ring.Retired k) (key : PublicKey) (status : KeyStatus) :
    ring.insertPublic k key status = .error (.duplicate k) := by
  obtain ⟨r, hr, _⟩ := h
  rw [insertPublic, hr]

theorem setCurrent_of_retired (h : ring.Retired k) :
    ring.setCurrent k = .error (.retired k) := by
  rw [setCurrent, signingPair_of_retired h]

theorem sign_of_retired (h : ring.Retired k) (c : Canonical) :
    ring.sign k c = .error (.retired k) := by
  rw [sign, signingPair_of_retired h]
  rfl

theorem view?_of_retired (h : ring.Retired k) : ∃ key, ring.view? k = some key ∧
    key.isRetired = true := by
  obtain ⟨r, hr, hretired⟩ := h
  refine ⟨r.view, ?_, decide_eq_true hretired⟩
  rw [view?, hr, Option.map_some]

end Credentials.KeyRing
