import Credentials.Proofs.Policy.Binding

/-!
# Registering a draft

A draft leaves the current version what it was as long as the policy has an active version or a
higher one. Where no version is active, the highest one is current whatever its status. A draft above
all others then takes that place, and the versions that it lists as compatible are the ones that
count.
-/

namespace Credentials

namespace PolicyRegistry

variable {r r' : PolicyRegistry} {id : PolicyId} {n : PolicyVersion} {d e : PolicyDefinition}
  {pinned : Option PolicyVersion} {c : Credential}

/-- The policy has versions, but none is active, and all are lower than the definition. -/
structure Overtaken (r : PolicyRegistry) (d : PolicyDefinition) : Prop where
  known : ∃ e ∈ r.definitions, e.id = d.id
  inactive : ∀ e ∈ r.definitions, e.id = d.id → e.status ≠ .active
  lower : ∀ e ∈ r.definitions, e.id = d.id → e.version.number < d.version.number

/-! Look-ups after a registration. -/

section Register

variable (h : r.register d = .ok r')

include h

theorem find?_register (id : PolicyId) (n : PolicyVersion) : r'.find? id n =
    (r.find? id n).or (if d.id = id ∧ d.version = n then some d else none) := by
  obtain ⟨_, _, rfl⟩ := register_eq_ok_iff.mp h
  by_cases hkey : d.id = id ∧ d.version = n <;> simp [find?, hkey]

theorem versionsOf_register : r'.versionsOf d.id = r.versionsOf d.id ++ [d] := by
  obtain ⟨_, _, rfl⟩ := register_eq_ok_iff.mp h
  simp [versionsOf]

theorem versionsOf_register_of_ne (hid : d.id ≠ id) : r'.versionsOf id = r.versionsOf id := by
  obtain ⟨_, _, rfl⟩ := register_eq_ok_iff.mp h
  simp [versionsOf, hid]

theorem current?_register_of_ne (hid : d.id ≠ id) : r'.current? id = r.current? id := by
  unfold current?
  rw [versionsOf_register_of_ne h hid]

end Register

/-! The current version. -/

theorem current?_eq_none (hr : r.Unique) (hnone : ∀ n, r.find? id n = none) :
    r.current? id = none := by
  rw [Option.eq_none_iff_forall_ne_some]
  intro p hp
  obtain ⟨hmem, rfl⟩ := mem_of_current? hp
  have hfound := hr p hmem
  rw [hnone] at hfound
  cases hfound

theorem current?_of_offers (h : r.Offers id pinned e) : ∃ p, r.current? id = some p := by
  cases h with
  | current hp => exact ⟨_, hp⟩
  | pinned hp => exact ⟨_, hp⟩
  | compatible hp _ _ _ => exact ⟨_, hp⟩

theorem isHighest_append_iff {ds : List PolicyDefinition}
    (h : ∃ x ∈ ds, d.version.number < x.version.number) :
    IsHighest (ds ++ [d]) e ↔ IsHighest ds e := by
  obtain ⟨x, hx, hlt⟩ := h
  constructor
  · rintro ⟨hmem, hle⟩
    refine ⟨?_, fun y hy => hle y (List.mem_append_left _ hy)⟩
    rcases List.mem_append.mp hmem with hmem | hmem
    · exact hmem
    · obtain rfl := List.mem_singleton.mp hmem
      exact absurd (hle x (List.mem_append_left _ hx)) (UInt32.not_le.mpr hlt)
  · rintro ⟨hmem, hle⟩
    refine ⟨List.mem_append_left _ hmem, List.forall_mem_append.mpr ⟨hle, ?_⟩⟩
    exact List.forall_mem_singleton.mpr (UInt32.le_of_lt (UInt32.lt_of_lt_of_le hlt (hle x hx)))

section Draft

variable (h : r.register d = .ok r') (hr : r.Unique) (hr' : r'.Unique) (hdraft : d.status = .draft)

include h hr hr' hdraft

/-- Another version stays the current one. -/
theorem current?_register (hstays : (∃ x ∈ r.versionsOf d.id, x.status = .active) ∨
    ∃ x ∈ r.versionsOf d.id, d.version.number < x.version.number) :
    r'.current? d.id = r.current? d.id := by
  have hactives : (r.versionsOf d.id ++ [d]).filter (fun x => x.status = .active)
      = (r.versionsOf d.id).filter fun x => x.status = .active := by simp [hdraft]
  have hnone : (∀ x ∈ r.versionsOf d.id ++ [d], x.status ≠ .active) ↔
      ∀ x ∈ r.versionsOf d.id, x.status ≠ .active := by
    rw [List.forall_mem_append, List.forall_mem_singleton]
    exact and_iff_left (by simp [hdraft])
  refine Option.ext fun e => ?_
  rw [current?_eq_some_iff hr', current?_eq_some_iff hr, IsCurrent, IsCurrent,
    versionsOf_register h, hactives, hnone]
  refine or_congr_right (and_congr_right fun hinactive => ?_)
  rcases hstays with ⟨x, hx, hactive⟩ | hhigher
  · exact absurd hactive (hinactive x hx)
  · exact isHighest_append_iff hhigher

omit hr in
/-- The draft becomes the current version. -/
theorem current?_register_of_lowest (hinactive : ∀ x ∈ r.versionsOf d.id, x.status ≠ .active)
    (hlower : ∀ x ∈ r.versionsOf d.id, x.version.number ≤ d.version.number) :
    r'.current? d.id = some d := by
  rw [current?_eq_some_iff hr', IsCurrent, versionsOf_register h]
  refine .inr ⟨?_, List.mem_append_right _ (List.mem_singleton.mpr rfl), ?_⟩
  · exact List.forall_mem_append.mpr ⟨hinactive, List.forall_mem_singleton.mpr (by simp [hdraft])⟩
  · exact List.forall_mem_append.mpr ⟨hlower, List.forall_mem_singleton.mpr (UInt32.le_refl _)⟩

omit hr in
theorem current?_register_of_overtaken (hovertaken : r.Overtaken d) :
    r'.current? d.id = some d := by
  refine current?_register_of_lowest h hr' hdraft (fun x hx => ?_) fun x hx => ?_
  · obtain ⟨hmem, hid⟩ := mem_versionsOf_iff.mp hx
    exact hovertaken.inactive x hmem hid
  · obtain ⟨hmem, hid⟩ := mem_versionsOf_iff.mp hx
    exact UInt32.le_of_lt (hovertaken.lower x hmem hid)

/-- A draft leaves the current version alone, or is the first version of its policy, or stands above
versions none of which is active. -/
theorem current?_register_cases :
    (∀ id, r'.current? id = r.current? id) ∨
      (r'.current? d.id = some d ∧ ((∀ n, r.find? d.id n = none) ∨ r.Overtaken d)) := by
  by_cases hstays : (∃ x ∈ r.versionsOf d.id, x.status = .active) ∨
    ∃ x ∈ r.versionsOf d.id, d.version.number < x.version.number
  · left
    intro id
    by_cases hid : d.id = id
    · subst hid
      exact current?_register h hr hr' hdraft hstays
    · exact current?_register_of_ne h hid
  · right
    rw [not_or] at hstays
    obtain ⟨hactive, hhigher⟩ := hstays
    have hinactive : ∀ x ∈ r.versionsOf d.id, x.status ≠ .active :=
      fun x hx hstatus => hactive ⟨x, hx, hstatus⟩
    have hlower : ∀ x ∈ r.versionsOf d.id, x.version.number ≤ d.version.number :=
      fun x hx => UInt32.not_lt.mp fun hlt => hhigher ⟨x, hx, hlt⟩
    refine ⟨current?_register_of_lowest h hr' hdraft hinactive hlower, ?_⟩
    by_cases hknown : ∃ x ∈ r.definitions, x.id = d.id
    · refine .inr ⟨hknown, fun x hx hid => ?_, fun x hx hid => ?_⟩
      · exact hinactive x (mem_versionsOf_iff.mpr ⟨hx, hid⟩)
      · refine UInt32.lt_of_le_of_ne (hlower x (mem_versionsOf_iff.mpr ⟨hx, hid⟩)) fun heq => ?_
        -- two versions of one number are one version, and the draft's was free
        have hversion : x.version = d.version := congrArg PolicyVersion.mk heq
        have hfound := hr x hx
        rw [hid, hversion, (register_eq_ok_iff.mp h).2.1] at hfound
        cases hfound
    · left
      intro n
      rw [Option.eq_none_iff_forall_ne_some]
      intro x hx
      exact hknown ⟨x, mem_of_find? hx, (key_of_find? hx).1⟩

end Draft

/-! What a registration does to binding and to resolution. -/

section Register

variable (h : r.register d = .ok r')

include h

theorem find?_register_eq_some_iff (hne : e ≠ d) :
    r'.find? id n = some e ↔ r.find? id n = some e := by
  rw [find?_register h]
  cases r.find? id n with
  | some x => rw [Option.some_or]
  | none =>
    rw [Option.none_or]
    split
    · exact iff_of_false (fun heq => hne (Option.some.inj heq).symm) nofun
    · exact Iff.rfl

theorem notMem_compatible : d.version ∉ d.compatible :=
  (PolicyDefinition.validate_eq_ok_iff.mp (register_eq_ok_iff.mp h).1).compatible

theorem binds_register_of_current (hcurrent : r'.current? c.policyId = r.current? c.policyId)
    (hhash : Hex.lowercase c.policyHash ≠ Hex.lowercase d.hash) : r'.Binds c ↔ r.Binds c := by
  unfold Binds
  refine exists_congr fun p => exists_congr fun e => ?_
  rw [hcurrent]
  refine and_congr_right fun _ => ?_
  by_cases hne : e = d
  · subst hne
    exact iff_of_false (fun hb => hhash hb.2.2.symm) fun hb => hhash hb.2.2.symm
  · simp only [find?_register_eq_some_iff h hne]

/-- Under a draft, the versions count that it lists. -/
theorem binds_register_of_draft (hcurrent : r'.current? d.id = some d) (hid : c.policyId = d.id)
    (hhash : Hex.lowercase c.policyHash ≠ Hex.lowercase d.hash) : r'.Binds c ↔
      ∃ n ∈ d.compatible, ∃ e, r.find? d.id n = some e ∧ e.status ≠ .retired ∧
        Hex.lowercase e.hash = Hex.lowercase c.policyHash := by
  unfold Binds
  rw [hid, hcurrent]
  constructor
  · rintro ⟨p, e, hp, he, hstatus, hsame⟩
    obtain rfl := Option.some.inj hp
    have hne : e ≠ d := by
      rintro rfl
      exact hhash hsame.symm
    obtain ⟨n, hn, hfind⟩ := he.resolve_left hne
    exact ⟨n, hn, e, (find?_register_eq_some_iff h hne).mp hfind, hstatus, hsame⟩
  · rintro ⟨n, hn, e, hfind, hstatus, hsame⟩
    have hne : e ≠ d := by
      rintro rfl
      exact hhash hsame.symm
    exact ⟨d, e, rfl, .inr ⟨n, hn, (find?_register_eq_some_iff h hne).mpr hfind⟩, hstatus, hsame⟩

theorem offers_register_of_current (hcurrent : r'.current? id = r.current? id) (hne : e ≠ d) :
    r'.Offers id pinned e ↔ r.Offers id pinned e := by
  constructor
  · intro hoffers
    cases hoffers with
    | current hp => exact .current (hcurrent ▸ hp)
    | pinned hp => exact .pinned (hcurrent ▸ hp)
    | compatible hp hn hmem hfind =>
      exact .compatible (hcurrent ▸ hp) hn hmem ((find?_register_eq_some_iff h hne).mp hfind)
  · intro hoffers
    cases hoffers with
    | current hp => exact .current (hcurrent.trans hp)
    | pinned hp => exact .pinned (hcurrent.trans hp)
    | compatible hp hn hmem hfind =>
      exact .compatible (hcurrent.trans hp) hn hmem ((find?_register_eq_some_iff h hne).mpr hfind)

/-- Under a draft, the versions are offered that it lists, and only to those who pin them. -/
theorem offers_register_of_draft (hcurrent : r'.current? d.id = some d) (hne : e ≠ d) :
    r'.Offers d.id pinned e ↔
      ∃ n ∈ d.compatible, pinned = some n ∧ r.find? d.id n = some e := by
  constructor
  · intro hoffers
    cases hoffers with
    | current hp => exact absurd (Option.some.inj (hp.symm.trans hcurrent)) hne
    | pinned hp => exact absurd (Option.some.inj (hp.symm.trans hcurrent)) hne
    | @compatible p _ n hp _ hmem hfind =>
      obtain rfl := Option.some.inj (hcurrent.symm.trans hp)
      exact ⟨n, hmem, rfl, (find?_register_eq_some_iff h hne).mp hfind⟩
  · rintro ⟨n, hmem, rfl, hfind⟩
    refine .compatible hcurrent ?_ hmem ((find?_register_eq_some_iff h hne).mpr hfind)
    rintro rfl
    exact notMem_compatible h hmem

end Register

section Register

variable (h : r.register d = .ok r') (hr : r.Unique) (hr' : r'.Unique) (hdraft : d.status = .draft)
  (hfresh : ¬ r.Overtaken d)

include h hr hr' hdraft hfresh

/-- Binding is as before, unless the hash is that of the draft. -/
theorem binds_register (hhash : Hex.lowercase c.policyHash ≠ Hex.lowercase d.hash) :
    r'.Binds c ↔ r.Binds c := by
  rcases current?_register_cases h hr hr' hdraft with hsame | ⟨hcurrent, hunknown⟩
  · exact binds_register_of_current h (hsame _) hhash
  · by_cases hid : d.id = c.policyId
    · have hnone := hunknown.resolve_right hfresh
      rw [binds_register_of_draft h hcurrent hid.symm hhash]
      refine iff_of_false (fun ⟨n, _, e, hfind, _⟩ => ?_) fun ⟨p, e, hp, _⟩ => ?_
      · rw [hnone] at hfind
        cases hfind
      · rw [← hid, current?_eq_none hr hnone] at hp
        cases hp
    · exact binds_register_of_current h (current?_register_of_ne h hid) hhash

/-- All versions but the draft are offered as before. -/
theorem offers_register (hne : e ≠ d) : r'.Offers id pinned e ↔ r.Offers id pinned e := by
  rcases current?_register_cases h hr hr' hdraft with hsame | ⟨hcurrent, hunknown⟩
  · exact offers_register_of_current h (hsame id) hne
  · by_cases hid : d.id = id
    · subst hid
      have hnone := hunknown.resolve_right hfresh
      rw [offers_register_of_draft h hcurrent hne]
      refine iff_of_false (fun ⟨n, _, _, hfind⟩ => ?_) fun hoffers => ?_
      · rw [hnone] at hfind
        cases hfind
      · obtain ⟨p, hp⟩ := current?_of_offers hoffers
        rw [current?_eq_none hr hnone] at hp
        cases hp
    · exact offers_register_of_current h (current?_register_of_ne h hid) hne

end Register

end PolicyRegistry

end Credentials
