import Credentials.Proofs.Policy.Registry
import Mathlib.Data.List.Chain

/-!
# A registry is a log

The calls that succeed, in their order, are a log; a later call adds to it at the end or leaves it
as it is. The log says everything that a registry holds and answers: the definitions as they were
registered, each with the last status that it was given.
-/

namespace Credentials

namespace PolicyStatus

/-- A step on the way from draft over active and deprecated to retired, or the leap to retired. -/
def Advances (s t : PolicyStatus) : Prop :=
  t.stage = s.stage + 1 ∨ s ≠ .retired ∧ t = .retired

theorem mayBecome_iff_advances {s t : PolicyStatus} : s.mayBecome t = true ↔ s.Advances t := by
  unfold Advances
  cases s <;> cases t <;> decide

end PolicyStatus

namespace PolicyRegistry

open Relation

/-! Calls. -/

inductive Call where
  | register (d : PolicyDefinition)
  | setStatus (id : PolicyId) (v : PolicyVersion) (s : PolicyStatus)

def Call.answer (r : PolicyRegistry) : Call → Except RegistryError PolicyRegistry
  | .register d => r.register d
  | .setStatus id v s => r.setStatus id v s

/-- The registry after some calls; a call that fails leaves it as it was. -/
def after : List Call → PolicyRegistry → PolicyRegistry
  | [], r => r
  | c :: calls, r =>
    match c.answer r with
    | .ok r' => after calls r'
    | .error _ => after calls r

/-- The calls that succeed, in their order. -/
def succeeded : List Call → PolicyRegistry → List Call
  | [], _ => []
  | c :: calls, r =>
    match c.answer r with
    | .ok r' => c :: succeeded calls r'
    | .error _ => succeeded calls r

variable {r r' : PolicyRegistry} {id : PolicyId} {v : PolicyVersion} {d : PolicyDefinition}
  {log : List Call}

theorem change_of_answer {c : Call} (h : c.answer r = .ok r') : Change r r' := by
  cases c with
  | register d => exact .register h
  | setStatus id v s => exact .setStatus h

theorem changes_after (calls : List Call) (r : PolicyRegistry) :
    ReflTransGen Change r (after calls r) := by
  induction calls generalizing r with
  | nil => exact .refl
  | cons c calls ih =>
    rw [after]
    split
    · next h => exact (ReflTransGen.single (change_of_answer h)).trans (ih _)
    · exact ih r

theorem after_append (calls more : List Call) (r : PolicyRegistry) :
    after (calls ++ more) r = after more (after calls r) := by
  induction calls generalizing r with
  | nil => rfl
  | cons c calls ih =>
    rw [List.cons_append, after, after]
    cases c.answer r with
    | ok r' => exact ih r'
    | error e => exact ih r

theorem succeeded_append (calls more : List Call) (r : PolicyRegistry) :
    succeeded (calls ++ more) r = succeeded calls r ++ succeeded more (after calls r) := by
  induction calls generalizing r with
  | nil => rfl
  | cons c calls ih =>
    rw [List.cons_append, succeeded, succeeded, after]
    cases c.answer r with
    | ok r' => exact congrArg (c :: ·) (ih r')
    | error e => exact ih r

/-! Reading a log. -/

/-- The definitions that a log registers, as they were given. -/
def registered (log : List Call) : List PolicyDefinition :=
  log.filterMap fun
    | .register d => some d
    | .setStatus _ _ _ => none

/-- The statuses that a log gives to a version, in their order. -/
def moves (log : List Call) (id : PolicyId) (v : PolicyVersion) : List PolicyStatus :=
  log.filterMap fun
    | .register _ => none
    | .setStatus i n s => if i = id ∧ n = v then some s else none

/-- A definition with the last status that a log gives it. -/
def latest (log : List Call) (d : PolicyDefinition) : PolicyDefinition :=
  { d with status := (moves log d.id d.version).getLast?.getD d.status }

/-- A definition of exactly this version among those that a log registers. -/
def logged? (log : List Call) (id : PolicyId) (v : PolicyVersion) : Option PolicyDefinition :=
  find? ⟨registered log⟩ id v

theorem registered_register (log : List Call) (d : PolicyDefinition) :
    registered (log ++ [.register d]) = registered log ++ [d] := by
  simp [registered]

theorem registered_setStatus (log : List Call) (id : PolicyId) (v : PolicyVersion)
    (s : PolicyStatus) : registered (log ++ [.setStatus id v s]) = registered log := by
  simp [registered]

theorem moves_register (log : List Call) (d : PolicyDefinition) (id : PolicyId)
    (v : PolicyVersion) : moves (log ++ [.register d]) id v = moves log id v := by
  simp [moves]

theorem moves_setStatus_self (log : List Call) (id : PolicyId) (v : PolicyVersion)
    (s : PolicyStatus) : moves (log ++ [.setStatus id v s]) id v = moves log id v ++ [s] := by
  simp [moves]

theorem moves_setStatus_other {i : PolicyId} {n : PolicyVersion} (h : ¬ (i = id ∧ n = v))
    (log : List Call) (s : PolicyStatus) :
    moves (log ++ [.setStatus i n s]) id v = moves log id v := by
  simp [moves, h]

theorem latest_register (log : List Call) (d : PolicyDefinition) :
    latest (log ++ [.register d]) = latest log := by
  funext e
  rw [latest, latest, moves_register]

/-- A further status is given to the definition of its version alone. -/
theorem latest_setStatus (log : List Call) (id : PolicyId) (v : PolicyVersion) (s : PolicyStatus)
    (d : PolicyDefinition) : latest (log ++ [.setStatus id v s]) d =
      if d.id = id ∧ d.version = v then { latest log d with status := s } else latest log d := by
  split
  · next h =>
    obtain ⟨rfl, rfl⟩ := h
    rw [latest, moves_setStatus_self, List.getLast?_concat]
    rfl
  · next h =>
    have hother : ¬ (id = d.id ∧ v = d.version) := fun hkey => h ⟨hkey.1.symm, hkey.2.symm⟩
    rw [latest, latest, moves_setStatus_other hother]

theorem latest_of_unmoved (h : moves log d.id d.version = []) : latest log d = d := by
  rw [latest, h]
  rfl

theorem mem_of_logged? (h : logged? log id v = some d) :
    d ∈ registered log ∧ d.id = id ∧ d.version = v :=
  ⟨mem_of_find? h, key_of_find? h⟩

/-- Where no version stands twice, a definition is found under its own policy and version. -/
theorem find?_of_pairwise {ds : List PolicyDefinition}
    (h : ds.Pairwise fun d e => ¬ (d.id = e.id ∧ d.version = e.version)) (hd : d ∈ ds) :
    find? ⟨ds⟩ d.id d.version = some d := by
  induction ds with
  | nil => cases hd
  | cons e ds ih =>
    obtain ⟨hhead, htail⟩ := List.pairwise_cons.mp h
    rcases List.mem_cons.mp hd with rfl | hd
    · exact List.find?_cons_of_pos (by simp)
    · exact (List.find?_cons_of_neg (by simpa using hhead d hd)).trans (ih htail hd)

/-- A registry that holds what a log says. -/
structure Records (log : List Call) (r : PolicyRegistry) : Prop where
  definitions : r.definitions = (registered log).map (latest log)
  once : (registered log).Pairwise fun d e => ¬ (d.id = e.id ∧ d.version = e.version)
  valid : ∀ d ∈ registered log, d.validate = .ok ()
  unmoved : ∀ id v, logged? log id v = none → moves log id v = []
  forward : ∀ d ∈ registered log,
    (d.status :: moves log d.id d.version).IsChain PolicyStatus.Advances

namespace Records

theorem find? (h : Records log r) (id : PolicyId) (v : PolicyVersion) :
    r.find? id v = (logged? log id v).map (latest log) := by
  have hlog : r = ⟨(registered log).map (latest log)⟩ := by
    cases r
    exact congrArg PolicyRegistry.mk h.definitions
  rw [hlog]
  exact find?_map (r := ⟨registered log⟩) (p := latest log) (fun _ => ⟨rfl, rfl⟩) id v

theorem find?_eq_none_iff (h : Records log r) :
    r.find? id v = none ↔ logged? log id v = none := by
  rw [h.find?, Option.map_eq_none_iff]

theorem empty : Records [] .empty where
  definitions := rfl
  once := .nil
  valid := fun _ hd => nomatch hd
  unmoved := fun _ _ _ => rfl
  forward := fun _ hd => nomatch hd

theorem nodup (h : Records log r) : r.definitions.Nodup := by
  rw [h.definitions, List.Nodup, List.pairwise_map]
  apply h.once.imp
  intro d e hne heq
  have hid : (latest log d).id = (latest log e).id := congrArg PolicyDefinition.id heq
  have hversion : (latest log d).version = (latest log e).version :=
    congrArg PolicyDefinition.version heq
  exact hne ⟨hid, hversion⟩

theorem register (h : Records log r) (hr : r.register d = .ok r') :
    Records (log ++ [.register d]) r' := by
  obtain ⟨hvalid, hnone, rfl⟩ := register_eq_ok_iff.mp hr
  have hentry := h.find?_eq_none_iff.mp hnone
  have hunmoved := h.unmoved _ _ hentry
  refine
    { definitions := ?_
      once := ?_
      valid := ?_
      unmoved := fun id v hid => ?_
      forward := ?_ }
  · rw [registered_register, latest_register, List.map_append, ← h.definitions, List.map_singleton,
      latest_of_unmoved hunmoved]
  · rw [registered_register, List.pairwise_append]
    refine ⟨h.once, List.pairwise_singleton _ _, fun e he d' hd' hkey => ?_⟩
    obtain rfl := List.mem_singleton.mp hd'
    exact absurd (decide_eq_true hkey) (List.find?_eq_none.mp hentry e he)
  · rw [registered_register]
    intro e he
    rcases List.mem_append.mp he with he | he
    · exact h.valid e he
    · obtain rfl := List.mem_singleton.mp he
      exact hvalid
  -- what is not registered now was not registered before
  · rw [moves_register]
    rw [logged?, registered_register, PolicyRegistry.find?, List.find?_append,
      Option.or_eq_none_iff] at hid
    exact h.unmoved id v hid.1
  · rw [registered_register]
    intro e he
    rw [moves_register]
    rcases List.mem_append.mp he with he | he
    · exact h.forward e he
    · obtain rfl := List.mem_singleton.mp he
      rw [hunmoved]
      exact .singleton _

theorem setStatus {s : PolicyStatus} (h : Records log r) (hr : r.setStatus id v s = .ok r') :
    Records (log ++ [.setStatus id v s]) r' := by
  obtain ⟨e, hfind, hmay, rfl⟩ := setStatus_eq_ok_iff.mp hr
  rw [h.find?] at hfind
  obtain ⟨d₀, hentry, rfl⟩ := Option.map_eq_some_iff.mp hfind
  obtain ⟨hd₀, hid, hversion⟩ := mem_of_logged? hentry
  refine
    { definitions := ?_
      once := ?_
      valid := ?_
      unmoved := fun i n hin => ?_
      forward := fun d hd => ?_ }
  · rw [registered_setStatus, h.definitions, List.map_map]
    refine List.map_congr_left fun d _ => ?_
    rw [latest_setStatus]
    rfl
  · rw [registered_setStatus]
    exact h.once
  · rw [registered_setStatus]
    exact h.valid
  -- the moved version is in the log, so an unregistered one is another
  · rw [logged?, registered_setStatus] at hin
    have hother : ¬ (id = i ∧ v = n) := by
      rintro ⟨rfl, rfl⟩
      rw [logged?, hin] at hentry
      cases hentry
    rw [moves_setStatus_other hother]
    exact h.unmoved i n hin
  · rw [registered_setStatus] at hd
    have hchain := h.forward d hd
    by_cases hkey : id = d.id ∧ v = d.version
    · obtain ⟨rfl, rfl⟩ := hkey
      obtain rfl : d = d₀ := Option.eq_some_unique (find?_of_pairwise h.once hd) hentry
      rw [moves_setStatus_self, ← List.cons_append]
      refine hchain.append (.singleton s) fun x hx y hy => ?_
      rw [List.getLast?_cons] at hx
      cases hx
      cases hy
      exact PolicyStatus.mayBecome_iff_advances.mp hmay
    · rw [moves_setStatus_other hkey]
      exact hchain

/-- The log of the calls that succeed says what the registry holds after all calls. -/
theorem after (h : Records log r) (calls : List Call) :
    Records (log ++ succeeded calls r) (PolicyRegistry.after calls r) := by
  induction calls generalizing log r with
  | nil =>
    rw [succeeded, List.append_nil]
    exact h
  | cons c calls ih =>
    rw [succeeded, PolicyRegistry.after]
    cases hc : c.answer r with
    | error e => exact ih h
    | ok r' =>
      have hnext : Records (log ++ [c]) r' := by
        cases c with
        | register d => exact h.register hc
        | setStatus id v s => exact h.setStatus hc
      have hall := ih hnext
      rw [List.append_assoc] at hall
      exact hall

end Records

/-! What a log says. -/

/-- A call that a log leaves room for: a valid definition under a policy and version that are not
registered yet, or a move on from the last status of a registered version. -/
def Admits (log : List Call) : Call → Prop
  | .register d => d.validate = .ok () ∧ logged? log d.id d.version = none
  | .setStatus id v s => ∃ d, logged? log id v = some d ∧ (latest log d).status.Advances s

/-- What a registry answers in terms of its log. -/
structure Follows (log : List Call) (r : PolicyRegistry) : Prop extends Records log r where
  size : r.size = (registered log).length
  own : ∀ d ∈ r.definitions, r.get? d.id (some d.version) = some d
  version : ∀ id v, r.get? id (some v) = (logged? log id v).map (latest log)
  current : ∀ id d, r.get? id none = some d ↔ r.IsCurrent id d
  unknown : ∀ id, r.get? id none = none ↔ ∀ d ∈ registered log, d.id ≠ id
  succeeds : ∀ c, (∃ r', Call.answer r c = .ok r') ↔ Admits log c

theorem Records.answer_iff (h : Records log r) (c : Call) :
    (∃ r', c.answer r = .ok r') ↔ Admits log c := by
  cases c with
  | register d =>
    rw [Admits, ← h.find?_eq_none_iff]
    constructor
    · rintro ⟨r', hr⟩
      obtain ⟨hvalid, hnone, _⟩ := register_eq_ok_iff.mp hr
      exact ⟨hvalid, hnone⟩
    · rintro ⟨hvalid, hnone⟩
      exact ⟨_, register_eq_ok_iff.mpr ⟨hvalid, hnone, rfl⟩⟩
  | setStatus id v s =>
    constructor
    · rintro ⟨r', hr⟩
      obtain ⟨e, hfind, hmay, _⟩ := setStatus_eq_ok_iff.mp hr
      rw [h.find?] at hfind
      obtain ⟨d, hd, rfl⟩ := Option.map_eq_some_iff.mp hfind
      exact ⟨d, hd, PolicyStatus.mayBecome_iff_advances.mp hmay⟩
    · rintro ⟨d, hd, hadvances⟩
      have hfind : r.find? id v = some (latest log d) := by rw [h.find?, hd, Option.map_some]
      have hmay := PolicyStatus.mayBecome_iff_advances.mpr hadvances
      exact ⟨_, setStatus_eq_ok_iff.mpr ⟨_, hfind, hmay, rfl⟩⟩

theorem Records.follows (h : Records log r) (hr : r.Unique) : Follows log r := by
  refine
    { toRecords := h
      size := ?_
      own := hr
      version := h.find?
      current := fun id d => current?_eq_some_iff hr
      unknown := fun id => ?_
      succeeds := h.answer_iff }
  · rw [PolicyRegistry.size, h.definitions, List.length_map]
  · rw [get?, current?_eq_none_iff, h.definitions, List.forall_mem_map]
    rfl

/-- After any calls a registry follows the log of those that succeeded. Whatever is called next,
this log is only added to, and a definition stays up to a status that does not move back. -/
theorem after_follows_log (calls more : List Call) :
    Follows (succeeded calls .empty) (after calls .empty) ∧
      succeeded (calls ++ more) .empty
        = succeeded calls .empty ++ succeeded more (after calls .empty) ∧
      ∀ id v d, (after calls .empty).get? id (some v) = some d →
        ∃ s, (after (calls ++ more) .empty).get? id (some v) = some { d with status := s } ∧
          d.status.stage ≤ s.stage ∧ { d with status := s }.hash = d.hash := by
  have hunique := unique_of_changes (changes_after calls .empty) unique_empty
  refine ⟨(Records.empty.after calls).follows hunique, succeeded_append calls more .empty,
    fun id v d hd => ?_⟩
  rw [after_append]
  obtain ⟨s, hs, hle⟩ := find?_of_changes (changes_after more (after calls .empty)) hd
  exact ⟨s, hs, hle, rfl⟩

end PolicyRegistry
end Credentials
