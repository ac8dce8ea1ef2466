import Credentials.Proofs.Policy.Log
import Credentials.Proofs.Policy.Registration
import Mathlib

/-!
# The registry as a map of maps

The definitions can be kept in a map from policies to maps from versions to definitions, in the order
of their numbers. A registration opens the entry of its policy before it knows whether the version is
taken, and a status is written where the definition stands. What is put in is put under a policy and
a version, not under what the definition says of itself; still every definition is found under its
own, and the map answers every call and every question as the list of definitions does.
-/

namespace Credentials

/-! Orders of keys. -/

theorem lawfulEqCmp_compareOn {α β : Type} [Ord β] [Std.LawfulEqOrd β] {f : α → β}
    (hf : Function.Injective f) : Std.LawfulEqCmp (compareOn f) where
  compare_self := Std.ReflOrd.compare_self
  eq_of_compare h := hf (Std.LawfulEqOrd.eq_of_compare h)

theorem PolicyId.name_injective : Function.Injective PolicyId.name := by
  intro a b h
  cases a
  exact congrArg PolicyId.mk h

theorem PolicyVersion.number_injective : Function.Injective PolicyVersion.number := by
  intro v w h
  cases v
  exact congrArg PolicyVersion.mk h

instance : Ord PolicyId := ⟨compareOn PolicyId.name⟩

instance : Ord PolicyVersion := ⟨compareOn PolicyVersion.number⟩

instance : Std.TransOrd PolicyId := inferInstanceAs (Std.TransCmp (compareOn PolicyId.name))

instance : Std.TransOrd PolicyVersion :=
  inferInstanceAs (Std.TransCmp (compareOn PolicyVersion.number))

instance : Std.LawfulEqOrd PolicyId := lawfulEqCmp_compareOn PolicyId.name_injective

instance : Std.LawfulEqOrd PolicyVersion := lawfulEqCmp_compareOn PolicyVersion.number_injective

/-- The versions of one policy. -/
abbrev PolicyVersions : Type := Std.TreeMap PolicyVersion PolicyDefinition

structure PolicyStore where
  entries : Std.TreeMap PolicyId PolicyVersions

/-- The definitions from the lowest version to the highest. -/
def PolicyVersions.ascending (vs : PolicyVersions) : List PolicyDefinition :=
  vs.toList.map Prod.snd

namespace PolicyStore

open PolicyRegistry (Call Records IsHighest highest? higher)

def empty : PolicyStore := ⟨∅⟩

def find? (s : PolicyStore) (id : PolicyId) (v : PolicyVersion) : Option PolicyDefinition :=
  s.entries[id]?.bind fun vs => vs[v]?

/-- The highest active version is the first one from above. -/
def get? (s : PolicyStore) (id : PolicyId) : Option PolicyVersion → Option PolicyDefinition
  | some v => s.find? id v
  | none => s.entries[id]?.bind fun vs =>
    (vs.ascending.reverse.find? fun d => d.status = .active).or vs.ascending.getLast?

def size (s : PolicyStore) : Nat := (s.entries.toList.map fun e => e.2.size).sum

def register (s : PolicyStore) (d : PolicyDefinition) : Except RegistryError Unit × PolicyStore :=
  match d.validate with
  | .error e => (.error (.invalidDefinition e), s)
  | .ok () =>
    let vs := s.entries.getD d.id ∅
    if d.version ∈ vs then
      (.error (.duplicateVersion d.id d.version), ⟨s.entries.insert d.id vs⟩)
    else (.ok (), ⟨s.entries.insert d.id (vs.insert d.version d)⟩)

def setStatus (s : PolicyStore) (id : PolicyId) (v : PolicyVersion) (status : PolicyStatus) :
    Except RegistryError Unit × PolicyStore :=
  match s.entries[id]? with
  | none => (.error (.notFound id), s)
  | some vs =>
    match vs[v]? with
    | none => (.error (.notFound id), s)
    | some d =>
      if d.status.mayBecome status then
        (.ok (), ⟨s.entries.insert id (vs.insert v { d with status := status })⟩)
      else (.error (.invalidTransition d.status status), s)

def answer (s : PolicyStore) : Call → Except RegistryError Unit × PolicyStore
  | .register d => s.register d
  | .setStatus id v status => s.setStatus id v status

/-- The store after some calls, with what a call that fails has written. -/
def after : List Call → PolicyStore → PolicyStore
  | [], s => s
  | c :: calls, s => after calls (s.answer c).2

variable {s : PolicyStore} {r : PolicyRegistry} {id i : PolicyId} {v n : PolicyVersion}
  {d : PolicyDefinition} {vs : PolicyVersions}

/-! Finding what was put. -/

theorem find?_insert (s : PolicyStore) (id : PolicyId) (vs : PolicyVersions) (i : PolicyId)
    (n : PolicyVersion) :
    find? ⟨s.entries.insert id vs⟩ i n = if id = i then vs[n]? else s.find? i n := by
  unfold find?
  rw [Std.TreeMap.getElem?_insert]
  by_cases h : id = i
  · rw [if_pos (Std.LawfulEqOrd.compare_eq_iff_eq.mpr h), if_pos h, Option.bind_some]
  · rw [if_neg (mt Std.LawfulEqOrd.compare_eq_iff_eq.mp h), if_neg h]

theorem getElem?_insert (vs : PolicyVersions) (v : PolicyVersion) (d : PolicyDefinition)
    (n : PolicyVersion) : (vs.insert v d)[n]? = if v = n then some d else vs[n]? := by
  rw [Std.TreeMap.getElem?_insert]
  by_cases h : v = n
  · rw [if_pos (Std.LawfulEqOrd.compare_eq_iff_eq.mpr h), if_pos h]
  · rw [if_neg (mt Std.LawfulEqOrd.compare_eq_iff_eq.mp h), if_neg h]

/-- Putting a definition under a policy and a version changes what is found there, and only there. -/
theorem find?_put (h : ∀ n, vs[n]? = s.find? id n) (v : PolicyVersion) (d : PolicyDefinition)
    (i : PolicyId) (n : PolicyVersion) :
    find? ⟨s.entries.insert id (vs.insert v d)⟩ i n =
      if id = i ∧ v = n then some d else s.find? i n := by
  rw [find?_insert, getElem?_insert, h n]
  by_cases hid : id = i
  · subst hid
    simp only [if_true, true_and]
  · simp only [hid, if_false, false_and]

theorem getD_entry (s : PolicyStore) (id : PolicyId) (n : PolicyVersion) :
    (s.entries.getD id ∅)[n]? = s.find? id n := by
  rw [Std.TreeMap.getD_eq_getD_getElem?, find?]
  cases s.entries[id]? with
  | none => exact Std.TreeMap.getElem?_emptyc
  | some vs => rfl

theorem find?_of_entry (h : s.entries[id]? = some vs) (n : PolicyVersion) :
    vs[n]? = s.find? id n := by
  rw [find?, h, Option.bind_some]

/-- All definitions, policy by policy. -/
def definitions (s : PolicyStore) : List PolicyDefinition :=
  s.entries.toList.flatMap fun e => e.2.ascending

/-! The highest version of some. -/

/-- The highest definition depends on what there is, not on its order. -/
theorem highest?_congr {ds es : List PolicyDefinition} (h : ∀ d, d ∈ ds ↔ d ∈ es)
    (hds : ∀ d ∈ ds, ∀ e ∈ ds, d.version = e.version → d = e) : highest? ds = highest? es := by
  have hes : ∀ d ∈ es, ∀ e ∈ es, d.version = e.version → d = e := fun d hd e he =>
    hds d ((h d).mpr hd) e ((h e).mpr he)
  ext d
  simp only [PolicyRegistry.highest?_eq_some_iff hds, PolicyRegistry.highest?_eq_some_iff hes,
    IsHighest, h]

theorem highest?_of_ascending {ds : List PolicyDefinition}
    (h : ds.Pairwise fun d e => d.version.number < e.version.number) :
    highest? ds = ds.getLast? := by
  induction ds with
  | nil => rfl
  | cons d ds ih =>
    obtain ⟨hlow, hascending⟩ := List.pairwise_cons.mp h
    have hhighest : highest? (d :: ds) = some (higher d (highest? ds)) := rfl
    rw [hhighest, ih hascending, List.getLast?_cons]
    cases hlast : ds.getLast? with
    | none => rfl
    | some e =>
      have hlt := hlow e (List.mem_of_getLast? hlast)
      exact congrArg some (if_pos hlt)

/-! The map stands for the list. -/

/-- The map finds what the list of definitions finds. -/
structure Stores (s : PolicyStore) (r : PolicyRegistry) : Prop where
  find : ∀ id v, s.find? id v = r.find? id v
  unique : r.Unique

namespace Stores

theorem empty : Stores .empty .empty where
  find id v := by
    have hentry : (∅ : Std.TreeMap PolicyId PolicyVersions)[id]? = none :=
      Std.TreeMap.getElem?_emptyc
    rw [find?, PolicyStore.empty, hentry]
    rfl
  unique := PolicyRegistry.unique_empty

/-- A registration that finds the version taken has opened an entry that was there. -/
theorem register (h : Stores s r) (d : PolicyDefinition) :
    (s.register d).1 = (r.register d).map (fun _ => ()) ∧
      ∀ i n, (s.register d).2.find? i n = ((r.register d).toOption.getD r).find? i n := by
  cases hvalid : d.validate with
  | error e =>
    have hs : s.register d = (.error (.invalidDefinition e), s) := by
      rw [PolicyStore.register, hvalid]
    have hr : r.register d = .error (.invalidDefinition e) := by
      rw [PolicyRegistry.register, hvalid]
    rw [hs, hr]
    exact ⟨rfl, h.find⟩
  | ok _ =>
    have hentry := getD_entry s d.id
    have htaken : d.version ∈ s.entries.getD d.id ∅ ↔ (r.find? d.id d.version).isSome = true := by
      rw [Std.TreeMap.mem_iff_isSome_getElem?, hentry, h.find]
    cases hfind : r.find? d.id d.version with
    | some e =>
      have hmem : d.version ∈ s.entries.getD d.id ∅ := by rw [htaken, hfind, Option.isSome_some]
      have hs : s.register d = (.error (.duplicateVersion d.id d.version),
          ⟨s.entries.insert d.id (s.entries.getD d.id ∅)⟩) := by
        rw [PolicyStore.register, hvalid]
        exact if_pos hmem
      have hr : r.register d = .error (.duplicateVersion d.id d.version) := by
        rw [PolicyRegistry.register, hvalid, hfind]
      rw [hs, hr]
      refine ⟨rfl, fun i n => ?_⟩
      rw [find?_insert, hentry]
      split
      · next hid =>
        subst hid
        exact h.find _ _
      · exact h.find i n
    | none =>
      have hmem : d.version ∉ s.entries.getD d.id ∅ := by
        rw [htaken, hfind]
        exact nofun
      have hs : s.register d = (.ok (),
          ⟨s.entries.insert d.id ((s.entries.getD d.id ∅).insert d.version d)⟩) := by
        rw [PolicyStore.register, hvalid]
        exact if_neg hmem
      have hr : r.register d = .ok ⟨r.definitions ++ [d]⟩ := by
        rw [PolicyRegistry.register, hvalid, hfind]
      rw [hs, hr]
      refine ⟨rfl, fun i n => ?_⟩
      rw [find?_put hentry, h.find]
      refine Eq.trans ?_ (PolicyRegistry.find?_register hr i n).symm
      by_cases hkey : d.id = i ∧ d.version = n
      · obtain ⟨rfl, rfl⟩ := hkey
        rw [hfind, Option.none_or]
      · rw [if_neg hkey, if_neg hkey, Option.or_none]

/-- A status is written where the definition stands. -/
theorem setStatus (h : Stores s r) (id : PolicyId) (v : PolicyVersion) (status : PolicyStatus) :
    (s.setStatus id v status).1 = (r.setStatus id v status).map (fun _ => ()) ∧
      ∀ i n, (s.setStatus id v status).2.find? i n =
        ((r.setStatus id v status).toOption.getD r).find? i n := by
  cases hfind : r.find? id v with
  | none =>
    have hs : s.setStatus id v status = (.error (.notFound id), s) := by
      rw [← h.find, find?] at hfind
      rw [PolicyStore.setStatus]
      cases hentry : s.entries[id]? with
      | none => rfl
      | some vs =>
        rw [hentry, Option.bind_some] at hfind
        simp only [hfind]
    have hr : r.setStatus id v status = .error (.notFound id) := by
      rw [PolicyRegistry.setStatus, hfind]
    rw [hs, hr]
    exact ⟨rfl, h.find⟩
  | some d =>
    have hstored := hfind
    rw [← h.find, find?, Option.bind_eq_some_iff] at hstored
    obtain ⟨vs, hentry, hd⟩ := hstored
    by_cases hmay : d.status.mayBecome status = true
    · have hs : s.setStatus id v status =
          (.ok (), ⟨s.entries.insert id (vs.insert v { d with status := status })⟩) := by
        simp only [PolicyStore.setStatus, hentry, hd, if_pos hmay]
      obtain ⟨r', hr⟩ : ∃ r', r.setStatus id v status = .ok r' :=
        ⟨_, PolicyRegistry.setStatus_eq_ok_iff.mpr ⟨d, hfind, hmay, rfl⟩⟩
      rw [hs, hr]
      refine ⟨rfl, fun i n => ?_⟩
      rw [find?_put (find?_of_entry hentry), h.find]
      by_cases hkey : id = i ∧ v = n
      · obtain ⟨rfl, rfl⟩ := hkey
        rw [if_pos ⟨rfl, rfl⟩]
        exact (PolicyRegistry.find?_of_setStatus hr hfind).symm
      · rw [if_neg hkey]
        exact (PolicyRegistry.find?_of_setStatus_other hr hkey).symm
    · have hs : s.setStatus id v status = (.error (.invalidTransition d.status status), s) := by
        simp only [PolicyStore.setStatus, hentry, hd, if_neg hmay]
      have hr : r.setStatus id v status = .error (.invalidTransition d.status status) := by
        rw [PolicyRegistry.setStatus, hfind]
        exact if_neg hmay
      rw [hs, hr]
      exact ⟨rfl, h.find⟩

theorem after_singleton (c : Call) (r : PolicyRegistry) :
    PolicyRegistry.after [c] r = (c.answer r).toOption.getD r := by
  rw [PolicyRegistry.after]
  cases c.answer r <;> rfl

theorem answer (h : Stores s r) (c : Call) :
    (s.answer c).1 = (c.answer r).map (fun _ => ()) ∧
      Stores (s.answer c).2 (PolicyRegistry.after [c] r) := by
  have hunique := PolicyRegistry.unique_of_changes (PolicyRegistry.changes_after [c] r) h.unique
  rw [after_singleton] at hunique ⊢
  cases c with
  | register d => exact ⟨(h.register d).1, (h.register d).2, hunique⟩
  | setStatus id v status =>
    exact ⟨(h.setStatus id v status).1, (h.setStatus id v status).2, hunique⟩

theorem after (h : Stores s r) (calls : List Call) :
    Stores (after calls s) (PolicyRegistry.after calls r) := by
  induction calls generalizing s r with
  | nil => exact h
  | cons c calls ih =>
    rw [← List.singleton_append, PolicyRegistry.after_append]
    exact ih (h.answer c).2

/-! The versions of a policy. -/

theorem mem_ascending_iff (h : Stores s r) (hentry : s.entries[id]? = some vs) :
    d ∈ vs.ascending ↔ d ∈ r.versionsOf id := by
  rw [PolicyRegistry.mem_versionsOf_iff, PolicyVersions.ascending, List.mem_map]
  constructor
  · rintro ⟨⟨n, _⟩, hmem, rfl⟩
    have hfind := Std.TreeMap.mem_toList_iff_getElem?_eq_some.mp hmem
    rw [find?_of_entry hentry, h.find] at hfind
    exact ⟨PolicyRegistry.mem_of_find? hfind, (PolicyRegistry.key_of_find? hfind).1⟩
  · rintro ⟨hmem, rfl⟩
    refine ⟨(d.version, d), Std.TreeMap.mem_toList_iff_getElem?_eq_some.mpr ?_, rfl⟩
    rw [find?_of_entry hentry, h.find]
    exact h.unique d hmem

theorem version_of_mem_toList (h : Stores s r) (hentry : s.entries[id]? = some vs)
    (hmem : (n, d) ∈ vs.toList) : d.version = n := by
  have hfind := Std.TreeMap.mem_toList_iff_getElem?_eq_some.mp hmem
  rw [find?_of_entry hentry, h.find] at hfind
  exact (PolicyRegistry.key_of_find? hfind).2

theorem ascending_pairwise (h : Stores s r) (hentry : s.entries[id]? = some vs) :
    vs.ascending.Pairwise fun d e => d.version.number < e.version.number := by
  rw [PolicyVersions.ascending, List.pairwise_map]
  refine Std.TreeMap.ordered_keys_toList.imp_of_mem fun {x y} hx hy hlt => ?_
  rw [h.version_of_mem_toList hentry hx, h.version_of_mem_toList hentry hy]
  exact Std.compare_eq_lt.mp hlt

/-- The current version is looked for from above among the versions in ascending order. -/
theorem current (h : Stores s r) (id : PolicyId) : s.get? id none = r.get? id none := by
  rw [get?, PolicyRegistry.get?]
  cases hentry : s.entries[id]? with
  | none =>
    refine Eq.symm (PolicyRegistry.current?_eq_none_iff.mpr ?_)
    rintro d hd rfl
    have hfind := h.unique d hd
    rw [← h.find, find?, hentry] at hfind
    cases hfind
  | some vs =>
    have hascending := h.ascending_pairwise hentry
    have hversions (p : PolicyDefinition → Bool) :
        highest? ((r.versionsOf id).filter p) = (vs.ascending.filter p).getLast? := by
      rw [← highest?_of_ascending (hascending.filter p)]
      refine highest?_congr (fun d => ?_) fun d hd e he hversion => ?_
      · rw [List.mem_filter, List.mem_filter, h.mem_ascending_iff hentry]
      · exact h.unique.eq_of_version (List.mem_filter.mp hd).1 (List.mem_filter.mp he).1 hversion
    have hall := hversions fun _ => true
    rw [List.filter_true, List.filter_true] at hall
    rw [PolicyRegistry.current?, hversions, hall, Option.bind_some, ← List.head?_filter,
      List.filter_reverse, List.head?_reverse]
    cases (vs.ascending.filter fun d => d.status = .active).getLast? <;> rfl

theorem get (h : Stores s r) (id : PolicyId) (version : Option PolicyVersion) :
    s.get? id version = r.get? id version := by
  cases version with
  | none => exact h.current id
  | some v => exact h.find id v

/-! All definitions. -/

theorem mem_definitions_iff (h : Stores s r) : d ∈ s.definitions ↔ d ∈ r.definitions := by
  rw [definitions, List.mem_flatMap]
  constructor
  · rintro ⟨⟨id, vs⟩, hentry, hd⟩
    have hvs := Std.TreeMap.mem_toList_iff_getElem?_eq_some.mp hentry
    exact (PolicyRegistry.mem_versionsOf_iff.mp ((h.mem_ascending_iff hvs).mp hd)).1
  · intro hd
    have hfind := h.unique d hd
    rw [← h.find, find?, Option.bind_eq_some_iff] at hfind
    obtain ⟨vs, hvs, _⟩ := hfind
    refine ⟨(d.id, vs), Std.TreeMap.mem_toList_iff_getElem?_eq_some.mpr hvs, ?_⟩
    exact (h.mem_ascending_iff hvs).mpr (PolicyRegistry.mem_versionsOf_iff.mpr ⟨hd, rfl⟩)

/-- No definition stands twice: entries are of different policies, versions in one are ascending. -/
theorem nodup_definitions (h : Stores s r) : s.definitions.Nodup := by
  rw [definitions, List.nodup_flatMap]
  constructor
  · rintro ⟨id, vs⟩ hentry
    have hvs := Std.TreeMap.mem_toList_iff_getElem?_eq_some.mp hentry
    apply (h.ascending_pairwise hvs).imp
    rintro d e hlt rfl
    exact UInt32.lt_irrefl _ hlt
  · apply Std.TreeMap.distinct_keys_toList.imp_of_mem
    rintro ⟨id, vs⟩ ⟨id', vs'⟩ hentry hentry' hne d hd hd'
    have hvs := Std.TreeMap.mem_toList_iff_getElem?_eq_some.mp hentry
    have hvs' := Std.TreeMap.mem_toList_iff_getElem?_eq_some.mp hentry'
    have hid := (PolicyRegistry.mem_versionsOf_iff.mp ((h.mem_ascending_iff hvs).mp hd)).2
    have hid' := (PolicyRegistry.mem_versionsOf_iff.mp ((h.mem_ascending_iff hvs').mp hd')).2
    exact hne (Std.LawfulEqOrd.compare_eq_iff_eq.mpr (hid.symm.trans hid'))

theorem size (h : Stores s r) (hr : r.definitions.Nodup) : s.size = r.size := by
  have hperm : s.definitions.Perm r.definitions :=
    (List.perm_ext_iff_of_nodup h.nodup_definitions hr).mpr fun _ => h.mem_definitions_iff
  rw [PolicyRegistry.size, ← hperm.length_eq, definitions, List.length_flatMap, PolicyStore.size]
  simp only [PolicyVersions.ascending, List.length_map, Std.TreeMap.length_toList]

end Stores

/-- A registry whose definitions sit under their own policies and versions, and which answers what is
asked of it as the list of definitions does. -/
structure Mirrors (s : PolicyStore) (r : PolicyRegistry) : Prop where
  own : ∀ id v d, s.find? id v = some d → d.id = id ∧ d.version = v
  get : ∀ id version, s.get? id version = r.get? id version
  size : s.size = r.size
  answer : ∀ c, (s.answer c).1 = (c.answer r).map fun _ => ()

/-- After any calls the map of maps mirrors the list of definitions. -/
theorem mirrors_after (calls : List Call) :
    (after calls .empty).Mirrors (PolicyRegistry.after calls .empty) := by
  have h := Stores.empty.after calls
  exact
    { own := fun id v d hd => PolicyRegistry.key_of_find? ((h.find id v).symm.trans hd)
      get := h.get
      size := h.size (Records.empty.after calls).nodup
      answer := fun c => (h.answer c).1 }

end PolicyStore
end Credentials
