import Credentials.Policy.Registry
import Mathlib.Logic.Relation

/-!
# What a policy registry keeps

Every change of a registry keeps each definition up to its status, which does not move back, and a
definition's hash does not depend on its status. In a registry that grew from the empty one each
policy and version stands once, so a definition is found under its own policy and version, and the
current version of a policy is one definition; and every definition in it is proper, so its schema
compiles.
-/

namespace Credentials

/-- What registration checks of a definition. -/
structure PolicyDefinition.Proper (d : PolicyDefinition) : Prop where
  version : d.version.number ≠ 0
  circuit : ¬ Text.isAllBlank d.circuitId = true
  lifetime : ¬ (d.lifetime = 0 ∨ maxLifetime < d.lifetime.toNat)
  compatible : d.version ∉ d.compatible
  schema : ∃ s, PublicSignalsSchema.compile d.signalsSchema = some s

theorem PolicyDefinition.validate_eq_ok_iff {d : PolicyDefinition} :
    d.validate = .ok () ↔ d.Proper := by
  unfold validate
  constructor
  · intro h
    split at h
    · cases h
    · next hversion =>
      split at h
      · cases h
      · next hcircuit =>
        split at h
        · cases h
        · next hlifetime =>
          split at h
          · cases h
          · next hcompatible =>
            split at h
            · cases h
            · next schema hschema =>
              exact ⟨hversion, hcircuit, hlifetime, hcompatible, schema, hschema⟩
  · rintro ⟨hversion, hcircuit, hlifetime, hcompatible, schema, hschema⟩
    rw [if_neg hversion, if_neg hcircuit, if_neg hlifetime, if_neg hcompatible, hschema]

namespace PolicyRegistry

open Relation

variable {r r' : PolicyRegistry} {id : PolicyId} {v : PolicyVersion} {d : PolicyDefinition}

/-! Finding definitions. -/

theorem mem_of_find? (h : r.find? id v = some d) : d ∈ r.definitions :=
  List.mem_of_find?_eq_some h

theorem key_of_find? (h : r.find? id v = some d) : d.id = id ∧ d.version = v := by
  simpa using List.find?_some h

theorem mem_of_highest? {ds : List PolicyDefinition} (h : highest? ds = some d) : d ∈ ds := by
  induction ds generalizing d with
  | nil => cases h
  | cons a ds ih =>
    have hd : d = higher a (highest? ds) := (Option.some.inj h).symm
    cases hbest : highest? ds with
    | none =>
      rw [hbest] at hd
      rw [hd]
      exact List.mem_cons_self
    | some b =>
      rw [hbest, higher] at hd
      rw [hd]
      split
      · exact List.mem_cons_of_mem a (ih hbest)
      · exact List.mem_cons_self

theorem mem_of_current? (h : r.current? id = some d) : d ∈ r.definitions ∧ d.id = id := by
  have hversions : d ∈ r.versionsOf id := by
    unfold current? at h
    split at h
    · next e hactive =>
      cases h
      exact (List.mem_filter.mp (mem_of_highest? hactive)).1
    · exact mem_of_highest? h
  simpa [versionsOf] using hversions

theorem mem_of_get? {version : Option PolicyVersion} (h : r.get? id version = some d) :
    d ∈ r.definitions ∧ d.id = id := by
  cases version with
  | none => exact mem_of_current? h
  | some v => exact ⟨mem_of_find? h, (key_of_find? h).1⟩

/-! Changes. -/

/-- One change of a registry. -/
inductive Change (r r' : PolicyRegistry) : Prop where
  | register {d : PolicyDefinition} : r.register d = .ok r' → Change r r'
  | setStatus {id : PolicyId} {v : PolicyVersion} {s : PolicyStatus} :
      r.setStatus id v s = .ok r' → Change r r'

theorem register_eq_ok_iff : r.register d = .ok r' ↔
    d.validate = .ok () ∧ r.find? d.id d.version = none ∧ r' = ⟨r.definitions ++ [d]⟩ := by
  unfold register
  cases hvalid : d.validate with
  | error e => simp
  | ok _ =>
    cases hfind : r.find? d.id d.version with
    | some e => simp
    | none => simp [eq_comm]

theorem setStatus_eq_ok_iff {s : PolicyStatus} : r.setStatus id v s = .ok r' ↔
    ∃ d, r.find? id v = some d ∧ d.status.mayBecome s = true ∧
      r' = ⟨r.definitions.map fun e =>
        if e.id = id ∧ e.version = v then { e with status := s } else e⟩ := by
  unfold setStatus
  cases hfind : r.find? id v with
  | none => simp
  | some d =>
    dsimp only
    split
    · next hmay =>
      constructor
      · intro h
        cases h
        exact ⟨d, rfl, hmay, rfl⟩
      · rintro ⟨_, _, _, rfl⟩
        rfl
    · next hmay =>
      constructor
      · intro h
        cases h
      · rintro ⟨_, hd, hmay', _⟩
        cases hd
        exact absurd hmay' hmay

/-- Rewriting definitions under their policies and versions rewrites what is found. -/
theorem find?_map {p : PolicyDefinition → PolicyDefinition}
    (hp : ∀ e, (p e).id = e.id ∧ (p e).version = e.version) (id : PolicyId) (v : PolicyVersion) :
    find? ⟨r.definitions.map p⟩ id v = (r.find? id v).map p := by
  simp only [find?, List.find?_map, Function.comp_def, (hp _).1, (hp _).2]

theorem key_setStatus (id : PolicyId) (v : PolicyVersion) (s : PolicyStatus)
    (e : PolicyDefinition) :
    (if e.id = id ∧ e.version = v then { e with status := s } else e).id = e.id ∧
      (if e.id = id ∧ e.version = v then { e with status := s } else e).version = e.version := by
  split <;> exact ⟨rfl, rfl⟩

theorem find?_of_register (h : r.register d = .ok r') :
    r'.find? d.id d.version = some d := by
  obtain ⟨_, hnone, rfl⟩ := register_eq_ok_iff.mp h
  rw [find?, List.find?_append, ← find?, hnone]
  simp

theorem find?_of_setStatus {s : PolicyStatus} (h : r.setStatus id v s = .ok r')
    (hd : r.find? id v = some d) : r'.find? id v = some { d with status := s } := by
  obtain ⟨_, _, _, rfl⟩ := setStatus_eq_ok_iff.mp h
  rw [find?_map (key_setStatus id v s), hd, Option.map_some, if_pos (key_of_find? hd)]

/-- Nothing else is found otherwise than before. -/
theorem find?_of_setStatus_other {s : PolicyStatus} {i : PolicyId} {n : PolicyVersion}
    (h : r.setStatus id v s = .ok r') (hkey : ¬ (id = i ∧ v = n)) :
    r'.find? i n = r.find? i n := by
  obtain ⟨_, _, _, rfl⟩ := setStatus_eq_ok_iff.mp h
  rw [find?_map (key_setStatus id v s)]
  cases hd : r.find? i n with
  | none => rfl
  | some d =>
    obtain ⟨rfl, rfl⟩ := key_of_find? hd
    rw [Option.map_some, if_neg fun hd' => hkey ⟨hd'.1.symm, hd'.2.symm⟩]

/-- A definition is kept up to its status, which does not move back. -/
theorem find?_of_change (h : Change r r') (hd : r.find? id v = some d) :
    ∃ s, r'.find? id v = some { d with status := s } ∧ d.status.stage ≤ s.stage := by
  cases h with
  | register h =>
    obtain ⟨_, _, rfl⟩ := register_eq_ok_iff.mp h
    refine ⟨d.status, ?_, Nat.le_refl _⟩
    rw [find?, List.find?_append, ← find?, hd]
    rfl
  | @setStatus id' v' s h =>
    obtain ⟨e, he, hmay, rfl⟩ := setStatus_eq_ok_iff.mp h
    rw [find?_map (key_setStatus id' v' s), hd, Option.map_some]
    by_cases hkey : d.id = id' ∧ d.version = v'
    · obtain ⟨rfl, rfl⟩ := key_of_find? hd
      obtain ⟨rfl, rfl⟩ := hkey
      obtain rfl : d = e := Option.eq_some_unique hd he
      have hstage := PolicyStatus.stage_lt_of_mayBecome hmay
      exact ⟨s, congrArg some (if_pos ⟨rfl, rfl⟩), Nat.le_of_lt hstage⟩
    · exact ⟨d.status, congrArg some (if_neg hkey), Nat.le_refl _⟩

theorem find?_of_changes (h : ReflTransGen Change r r') (hd : r.find? id v = some d) :
    ∃ s, r'.find? id v = some { d with status := s } ∧ d.status.stage ≤ s.stage := by
  induction h with
  | refl => exact ⟨d.status, hd, Nat.le_refl _⟩
  | tail _ hchange ih =>
    obtain ⟨s, hs, hle⟩ := ih
    obtain ⟨t, ht, hle'⟩ := find?_of_change hchange hs
    exact ⟨t, ht, Nat.le_trans hle hle'⟩

/-! Definitions that stand once. -/

/-- Every definition is found under its own policy and version. -/
def Unique (r : PolicyRegistry) : Prop := ∀ d ∈ r.definitions, r.find? d.id d.version = some d

theorem unique_empty : Unique empty := by
  intro d hd
  cases hd

theorem unique_of_change (h : Change r r') (hr : r.Unique) : r'.Unique := by
  intro d hd
  cases h with
  | register h =>
    obtain ⟨_, _, rfl⟩ := register_eq_ok_iff.mp h
    rcases List.mem_append.mp hd with hd | hd
    · rw [find?, List.find?_append, ← find?, hr d hd, Option.some_or]
    · obtain rfl := List.mem_singleton.mp hd
      exact find?_of_register h
  | @setStatus id' v' s h =>
    obtain ⟨_, _, _, rfl⟩ := setStatus_eq_ok_iff.mp h
    obtain ⟨e, he, rfl⟩ := List.mem_map.mp hd
    obtain ⟨hid, hversion⟩ := key_setStatus id' v' s e
    rw [find?_map (key_setStatus id' v' s), hid, hversion, hr e he, Option.map_some]

theorem unique_of_changes (h : ReflTransGen Change r r') (hr : r.Unique) : r'.Unique := by
  induction h with
  | refl => exact hr
  | tail _ hchange ih => exact unique_of_change hchange ih

/-! Proper definitions. -/

/-- Every definition would pass the checks of its registration again. -/
def AllProper (r : PolicyRegistry) : Prop := ∀ d ∈ r.definitions, d.Proper

theorem allProper_empty : AllProper empty := by
  intro d hd
  cases hd

theorem allProper_of_change (h : Change r r') (hr : r.AllProper) : r'.AllProper := by
  intro d hd
  cases h with
  | register h =>
    obtain ⟨hvalid, _, rfl⟩ := register_eq_ok_iff.mp h
    rcases List.mem_append.mp hd with hd | hd
    · exact hr d hd
    · obtain rfl := List.mem_singleton.mp hd
      exact PolicyDefinition.validate_eq_ok_iff.mp hvalid
  | setStatus h =>
    obtain ⟨_, _, _, rfl⟩ := setStatus_eq_ok_iff.mp h
    obtain ⟨e, he, rfl⟩ := List.mem_map.mp hd
    -- a status is no part of what is checked
    split
    · exact ⟨(hr e he).version, (hr e he).circuit, (hr e he).lifetime, (hr e he).compatible,
        (hr e he).schema⟩
    · exact hr e he

theorem allProper_of_changes (h : ReflTransGen Change r r') (hr : r.AllProper) : r'.AllProper := by
  induction h with
  | refl => exact hr
  | tail _ hchange ih => exact allProper_of_change hchange ih

/-! The current version. -/

/-- A definition with the greatest version number among some. -/
def IsHighest (ds : List PolicyDefinition) (d : PolicyDefinition) : Prop :=
  d ∈ ds ∧ ∀ e ∈ ds, e.version.number ≤ d.version.number

/-- The highest active version of a policy or, if none is active, the highest of all. -/
def IsCurrent (r : PolicyRegistry) (id : PolicyId) (d : PolicyDefinition) : Prop :=
  IsHighest ((r.versionsOf id).filter fun e => e.status = .active) d ∨
    (∀ e ∈ r.versionsOf id, e.status ≠ .active) ∧ IsHighest (r.versionsOf id) d

theorem highest?_eq_none_iff {ds : List PolicyDefinition} : highest? ds = none ↔ ds = [] := by
  cases ds <;> simp [highest?]

theorem le_highest? {ds : List PolicyDefinition} (h : highest? ds = some d) :
    ∀ e ∈ ds, e.version.number ≤ d.version.number := by
  induction ds generalizing d with
  | nil => exact fun _ he => absurd he List.not_mem_nil
  | cons a ds ih =>
    have hd : d = higher a (highest? ds) := (Option.some.inj h).symm
    cases hbest : highest? ds with
    | none =>
      rw [hbest] at hd
      rw [highest?_eq_none_iff.mp hbest, List.forall_mem_singleton, hd]
      exact UInt32.le_refl _
    | some b =>
      rw [hbest, higher] at hd
      have hle := ih hbest
      split at hd
      · next hlt =>
        subst hd
        exact List.forall_mem_cons.mpr ⟨UInt32.le_of_lt hlt, hle⟩
      · next hnot =>
        subst hd
        have hb := UInt32.not_lt.mp hnot
        exact List.forall_mem_cons.mpr
          ⟨UInt32.le_refl _, fun e he => UInt32.le_trans (hle e he) hb⟩

/-- Among definitions with different versions there is at most one highest. -/
theorem highest?_eq_some_iff {ds : List PolicyDefinition}
    (hds : ∀ d ∈ ds, ∀ e ∈ ds, d.version = e.version → d = e) :
    highest? ds = some d ↔ IsHighest ds d := by
  refine ⟨fun h => ⟨mem_of_highest? h, le_highest? h⟩, fun ⟨hmem, hle⟩ => ?_⟩
  cases hbest : highest? ds with
  | none =>
    rw [highest?_eq_none_iff.mp hbest] at hmem
    cases hmem
  | some b =>
    have hb := mem_of_highest? hbest
    have hnumber := UInt32.le_antisymm (hle b hb) (le_highest? hbest d hmem)
    rw [hds b hb d hmem (congrArg PolicyVersion.mk hnumber)]

theorem mem_versionsOf_iff : d ∈ r.versionsOf id ↔ d ∈ r.definitions ∧ d.id = id := by
  simp [versionsOf]

theorem Unique.eq_of_version (hr : r.Unique) {e : PolicyDefinition} (hd : d ∈ r.versionsOf id)
    (he : e ∈ r.versionsOf id) (h : d.version = e.version) : d = e := by
  obtain ⟨hmem, rfl⟩ := mem_versionsOf_iff.mp hd
  obtain ⟨he, hid⟩ := mem_versionsOf_iff.mp he
  have hfind := hr e he
  rw [hid, ← h] at hfind
  exact Option.eq_some_unique (hr d hmem) hfind

theorem current?_eq_some_iff (hr : r.Unique) : r.current? id = some d ↔ r.IsCurrent id d := by
  have hall : ∀ d ∈ r.versionsOf id, ∀ e ∈ r.versionsOf id, d.version = e.version → d = e :=
    fun d hd e he => hr.eq_of_version hd he
  have hactive : ∀ d ∈ (r.versionsOf id).filter fun e => e.status = .active,
      ∀ e ∈ (r.versionsOf id).filter fun e => e.status = .active, d.version = e.version → d = e :=
    fun d hd e he => hall d (List.mem_filter.mp hd).1 e (List.mem_filter.mp he).1
  unfold current? IsCurrent
  rw [← highest?_eq_some_iff hall, ← highest?_eq_some_iff hactive]
  cases hbest : highest? ((r.versionsOf id).filter fun e => e.status = .active) with
  | some b =>
    have hb := List.mem_filter.mp (mem_of_highest? hbest)
    refine ⟨Or.inl, fun h => h.resolve_right fun ⟨hnone, _⟩ => ?_⟩
    exact hnone b hb.1 (of_decide_eq_true hb.2)
  | none =>
    have hnone : ∀ e ∈ r.versionsOf id, e.status ≠ .active := by
      simpa using List.filter_eq_nil_iff.mp (highest?_eq_none_iff.mp hbest)
    exact ⟨fun h => Or.inr ⟨hnone, h⟩, fun h => (h.resolve_left nofun).2⟩

theorem current?_eq_none_iff : r.current? id = none ↔ ∀ d ∈ r.definitions, d.id ≠ id := by
  have hversions : highest? (r.versionsOf id) = none ↔ ∀ d ∈ r.definitions, d.id ≠ id := by
    rw [highest?_eq_none_iff, versionsOf, List.filter_eq_nil_iff]
    simp
  unfold current?
  split
  · next b hbest =>
    refine ⟨nofun, fun h => ?_⟩
    have hb := mem_versionsOf_iff.mp (List.mem_filter.mp (mem_of_highest? hbest)).1
    exact absurd hb.2 (h b hb.1)
  · exact hversions

end PolicyRegistry
end Credentials
