import Credentials.Proofs.Key.Ring
import Credentials.Trust.Building
import Mathlib.Data.List.Nodup

/-!
# Key rings that grow record by record

Every registered key is one record more, whatever its status: a pair that is retired leaves no trace
in the choice of the current key, though it is registered as an active key before it is retired. The
current key is that of the first record that can sign.
-/

namespace Credentials

/-- The record of an active key with its private half. -/
def KeyRecord.Signs (r : KeyRecord) : Prop :=
  r.status = .active ∧ r.material.keyPair?.isSome = true

instance (r : KeyRecord) : Decidable r.Signs := inferInstanceAs (Decidable (_ ∧ _))

namespace KeyRecord

theorem not_signs_retired (id : KeyId) (m : KeyMaterial) : ¬ Signs ⟨id, .retired, m⟩ := by
  rintro ⟨hactive, -⟩
  cases hactive

theorem not_signs_publicOnly (id : KeyId) (status : KeyStatus) (key : PublicKey) :
    ¬ Signs ⟨id, status, .publicOnly key⟩ := by
  rintro ⟨-, hpair⟩
  cases hpair

end KeyRecord

namespace KeyRing

variable {ring ring' : KeyRing} {id : KeyId} {r : KeyRecord} {rs : List KeyRecord}

/-- One record more. Its key becomes current if it can sign and no other key is current. -/
def add (ring : KeyRing) (r : KeyRecord) : KeyRing :=
  ⟨ring.records ++ [r], ring.current.or (if r.Signs then some r.id else none)⟩

theorem add_of_signs (h : r.Signs) :
    ring.add r = ⟨ring.records ++ [r], some (ring.current.getD r.id)⟩ := by
  rw [add, if_pos h]
  cases ring.current <;> rfl

theorem add_of_not_signs (h : ¬ r.Signs) : ring.add r = ⟨ring.records ++ [r], ring.current⟩ := by
  rw [add, if_neg h, Option.or_none]

/-- The current key, if there is one, is registered. -/
def CurrentListed (ring : KeyRing) : Prop :=
  ∀ id, ring.current = some id → ring.find? id ≠ none

theorem currentListed_empty : CurrentListed empty := by
  intro id h
  cases h

theorem currentListed_add (h : ring.CurrentListed) (r : KeyRecord) :
    (ring.add r).CurrentListed := by
  intro id hid
  unfold add at hid ⊢
  rw [find?_append]
  rcases Option.or_eq_some_iff.mp hid with hold | ⟨-, hnew⟩
  · obtain ⟨s, hs⟩ := Option.ne_none_iff_exists'.mp (h id hold)
    rw [hs, Option.some_or]
    exact Option.some_ne_none s
  · split at hnew
    · rw [if_pos (Option.some.inj hnew)]
      cases ring.find? id <;> exact Option.some_ne_none _
    · cases hnew

theorem ne_of_find?_eq_none (h : ring.find? id = none) (hr : r ∈ ring.records) : r.id ≠ id := by
  simpa using List.find?_eq_none.mp h r hr

theorem find?_add_self (h : ring.find? id = none) {status : KeyStatus} {m : KeyMaterial}
    (current : Option KeyId) :
    find? ⟨ring.records ++ [⟨id, status, m⟩], current⟩ id = some ⟨id, status, m⟩ := by
  rw [find?_append, h, Option.none_or, if_pos rfl]

/-- Retiring a new pair takes back what it was given when it was registered. -/
theorem retire_insert (hring : ring.CurrentListed) (h : ring.find? id = none) (pair : KeyPair) :
    (ring.add ⟨id, .active, .ofPair pair⟩).retire id
      = .ok (ring.add ⟨id, .retired, .ofPair pair⟩) := by
  have hrecords : (ring.records.map fun r =>
      if r.id = id then (⟨r.id, .retired, r.material⟩ : KeyRecord) else r) = ring.records :=
    (List.map_congr_left fun r hr => if_neg (ne_of_find?_eq_none h hr)).trans (List.map_id _)
  have hcurrent : (if some (ring.current.getD id) = some id then none
      else some (ring.current.getD id)) = ring.current := by
    cases hc : ring.current with
    | none => exact if_pos rfl
    | some c =>
      refine if_neg fun heq => hring c hc ?_
      rwa [show c = id from Option.some.inj heq]
  rw [add_of_signs ⟨rfl, rfl⟩, add_of_not_signs (KeyRecord.not_signs_retired _ _), retire,
    find?_add_self h]
  dsimp only
  rw [List.map_append, hrecords, List.map_singleton, if_pos rfl, hcurrent]

theorem insert_eq (h : ring.find? id = none) (pair : KeyPair) :
    ring.insert id pair
      = .ok (⟨id, .active, pair.publicKey⟩, ring.add ⟨id, .active, .ofPair pair⟩) := by
  rw [insert, h, add_of_signs ⟨rfl, rfl⟩]
  rfl

/-- Whatever its status, a key is registered as one record under a name that is not taken. -/
theorem insertMaterial_eq (hring : ring.CurrentListed) (h : ring.find? id = none)
    (status : KeyStatus) (m : KeyMaterial) :
    ring.insertMaterial id status m = .ok (ring.add ⟨id, status, m⟩) := by
  cases m with
  | publicOnly key =>
    rw [add_of_not_signs (KeyRecord.not_signs_publicOnly _ _ _), insertMaterial, insertPublic, h]
    rfl
  | pair pair key heq =>
    subst heq
    rw [insertMaterial, insert_eq h]
    cases status with
    | active => rfl
    | retired => exact retire_insert hring h pair

theorem insertMaterial_of_registered (h : ring.find? id = some r) (status : KeyStatus)
    (m : KeyMaterial) : ring.insertMaterial id status m = .error (.duplicate id) := by
  cases m with
  | publicOnly key =>
    rw [insertMaterial, insertPublic, h]
    rfl
  | pair pair key heq =>
    rw [insertMaterial, insert_of_registered ⟨r, h⟩]
    rfl

theorem insertMaterial_eq_ok_iff (hring : ring.CurrentListed) {status : KeyStatus}
    {m : KeyMaterial} : ring.insertMaterial id status m = .ok ring' ↔
      ring.find? id = none ∧ ring.add ⟨id, status, m⟩ = ring' := by
  cases h : ring.find? id with
  | some r =>
    rw [insertMaterial_of_registered h]
    exact ⟨nofun, nofun⟩
  | none => rw [insertMaterial_eq hring h, Except.ok.injEq, and_iff_right rfl]

/-! Many records. -/

theorem foldl_add (rs : List KeyRecord) (ring : KeyRing) : rs.foldl add ring =
    ⟨ring.records ++ rs, ring.current.or ((rs.find? fun r => r.Signs).map KeyRecord.id)⟩ := by
  induction rs generalizing ring with
  | nil => simp
  | cons r rs ih =>
    rw [List.foldl_cons, ih]
    unfold add
    dsimp only
    rw [List.append_assoc, List.singleton_append, List.find?_cons, Option.or_assoc]
    by_cases h : r.Signs <;> simp [h]

/-- The records have names of their own, which the ring does not have. -/
def Fresh (ring : KeyRing) (rs : List KeyRecord) : Prop :=
  (∀ r ∈ rs, ring.find? r.id = none) ∧ (rs.map KeyRecord.id).Nodup

theorem fresh_cons_iff : ring.Fresh (r :: rs) ↔ ring.find? r.id = none ∧ (ring.add r).Fresh rs := by
  have hadd (s : KeyRecord) :
      (ring.add r).find? s.id = none ↔ ring.find? s.id = none ∧ s.id ≠ r.id := by
    rw [add, find?_append, Option.or_eq_none_iff, ite_eq_right_iff, ne_comm]
    simp
  unfold Fresh
  simp only [List.forall_mem_cons, List.map_cons, List.nodup_cons, List.mem_map, hadd]
  constructor
  · rintro ⟨⟨hnew, hold⟩, hne, hnodup⟩
    exact ⟨hnew, fun s hs => ⟨hold s hs, fun heq => hne ⟨s, hs, heq⟩⟩, hnodup⟩
  · rintro ⟨hnew, hboth, hnodup⟩
    exact ⟨⟨hnew, fun s hs => (hboth s hs).1⟩, fun ⟨s, hs, heq⟩ => (hboth s hs).2 heq, hnodup⟩

theorem find?_eq_some_iff_mem (h : (ring.records.map KeyRecord.id).Nodup) :
    ring.find? id = some r ↔ r ∈ ring.records ∧ r.id = id := by
  constructor
  · intro hr
    exact ⟨List.mem_of_find?_eq_some hr, id_of_find? hr⟩
  · rintro ⟨hr, rfl⟩
    cases hs : ring.find? r.id with
    | none => exact absurd rfl (ne_of_find?_eq_none hs hr)
    | some s =>
      rw [List.inj_on_of_nodup_map h (List.mem_of_find?_eq_some hs) hr (id_of_find? hs)]

theorem exists_signingPair_iff :
    (∃ pair, ring.signingPair id = .ok pair) ↔ ∃ r, ring.find? id = some r ∧ r.Signs := by
  simp only [signingPair_eq_ok_iff, KeyRecord.Signs, Option.isSome_iff_exists]
  constructor
  · rintro ⟨pair, r, hr, hactive, hpair⟩
    exact ⟨r, hr, hactive, pair, hpair⟩
  · rintro ⟨r, hr, hactive, pair, hpair⟩
    exact ⟨pair, r, hr, hactive, hpair⟩

theorem setCurrent_eq_ok_iff : ring.setCurrent id = .ok ring' ↔
    (∃ r, ring.find? id = some r ∧ r.Signs) ∧ ⟨ring.records, some id⟩ = ring' := by
  rw [← exists_signingPair_iff, setCurrent]
  cases ring.signingPair id with
  | error e =>
    constructor
    · intro h
      cases h
    · rintro ⟨⟨_, h⟩, -⟩
      cases h
  | ok pair => rw [Except.ok.injEq, and_iff_right ⟨pair, rfl⟩]

end KeyRing

end Credentials
