import Credentials.Collaborators
import Credentials.Proofs.Step

/-!
# Counted calls

A world can keep a record of the calls that are made on it, and a signal can be made to fire after a
number of them. A step that heeds such a signal does nothing else than without it until then, makes
no further call, and says that it was cancelled if there was one left to make. What heeds the signal
is put together from guarded calls.
-/

namespace Credentials

/-- A world with a record of calls. -/
structure Traced (W : Type) where
  world : W
  calls : Nat
  /-- whether a collaborator said that it was cancelled -/
  reported : Bool

def Traced.start {W : Type} (w : W) : Traced W := ⟨w, 0, false⟩

namespace Surroundings

variable {W : Type}

/-- What a run sees of a traced world; from `limit` calls on, if there is a limit, the signal has
fired. -/
def traced (s : Surroundings W) (limit : Option Nat) : Surroundings (Traced W) where
  cancelled t := s.cancelled t.world || limit.any (· ≤ t.calls)
  now t := s.now t.world

theorem cancelled_traced_none (s : Surroundings W) (t : Traced W) :
    (s.traced none).cancelled t = s.cancelled t.world := Bool.or_false _

theorem cancelled_traced_some (s : Surroundings W) (n : Nat) (t : Traced W) :
    (s.traced (some n)).cancelled t = (s.cancelled t.world || decide (n ≤ t.calls)) := rfl

end Surroundings

namespace Step

variable {W ε ε' α β : Type}

def reports [DecidableEq ε] (cause : ε) : Except ε α → Bool
  | .ok _ => false
  | .error e => e = cause

/-- A collaborator's step as one call; `cause` is how it says that it was cancelled. -/
def traced [DecidableEq ε] (cause : ε) (s : Step W ε α) : Step (Traced W) ε α := fun t =>
  ((s t.world).1, ⟨(s t.world).2, t.calls + 1, t.reported || reports cause (s t.world).1⟩)

/-- The step with its answer put differently. -/
def mapAnswer (k : Except ε α → Except ε' β) (s : Step W ε α) : Step W ε' β := fun w =>
  (k (s w).1, (s w).2)

theorem reports_iff [DecidableEq ε] {cause : ε} {r : Except ε α} :
    reports cause r = true ↔ r = .error cause := by
  cases r <;> simp [reports]

end Step

open Step

section Heeds

variable {W ε ε' α β : Type}

/-- How a step ends when the signal fires after `n` calls, next to how it ends without. -/
inductive Stops (cause : ε) (n : Nat) (fired calm : Except ε α × Traced W) : Prop where
  | undisturbed (same : fired = calm) (calls : calm.2.calls ≤ n)
  | interrupted (further : n ≤ calm.2.calls) (answer : fired.1 = .error cause)
      (calls : fired.2.calls = n)

/-- The steps `f` do the same as `s` as long as no signal fires, and heed one that fires when there
were at least `room` calls to go. A cancellation that a collaborator reports becomes the answer. -/
structure Heeds (room : Nat) (cause : ε) (s : Step W ε α)
    (f : Option Nat → Step (Traced W) ε α) : Prop where
  same : ∀ t, s t.world = ((f none t).1, (f none t).2.world)
  counts : ∀ t, t.calls ≤ (f none t).2.calls
  stops : ∀ n t, t.calls + room ≤ n → Stops cause n (f (some n) t) (f none t)
  passes : ∀ limit t, t.reported = false → (f limit t).2.reported = true →
    (f limit t).1 = .error cause

namespace Heeds

variable {room : Nat} {cause : ε} {cause' : ε'} {s : Step W ε α}
  {f : Option Nat → Step (Traced W) ε α}

/-! Steps without calls. -/

/-- What only looks at the world has nothing to heed. -/
theorem look (k : W → Except ε α) :
    Heeds 0 cause (fun w => (k w, w)) fun _ t => (k t.world, t) where
  same _ := rfl
  counts t := Nat.le_refl t.calls
  stops _ _ hn := .undisturbed rfl hn
  passes _ _ hreported h := absurd (hreported.symm.trans h) Bool.false_ne_true

theorem ofExcept (r : Except ε α) :
    Heeds 0 cause (Step.ofExcept r : Step W ε α) fun _ => Step.ofExcept r :=
  look fun _ => r

theorem pure (a : α) : Heeds 0 cause (Pure.pure a : Step W ε α) fun _ => Pure.pure a :=
  look fun _ => .ok a

theorem throw (e : ε) :
    Heeds 0 cause (MonadExcept.throw e : Step W ε α) fun _ => MonadExcept.throw e :=
  look fun _ => .error e

/-! Calls. -/

/-- A call by itself is made whether the signal has fired or not. -/
theorem call [DecidableEq ε] (cause : ε) (s : Step W ε α) :
    Heeds 1 cause s fun _ => s.traced cause where
  same _ := rfl
  counts t := Nat.le_succ t.calls
  stops _ _ hn := .undisturbed rfl hn
  passes _ t hreported h := by
    change (t.reported || reports cause (s t.world).1) = true at h
    rw [hreported, Bool.false_or] at h
    exact reports_iff.mp h

theorem weaken (h : Heeds 0 cause s f) : Heeds 1 cause s f :=
  { h with stops := fun n t hn => h.stops n t (Nat.le_of_succ_le hn) }

/-- Guarded, a call is not made once the signal has fired. -/
theorem guarded (h : Heeds 1 cause s f) (u : Surroundings W) :
    Heeds 0 cause (u.guarded cause s) fun limit => (u.traced limit).guarded cause (f limit) := by
  have hcalm : ∀ t, (u.traced none).guarded cause (f none) t
      = if u.cancelled t.world then (.error cause, t) else f none t := by
    intro t
    rw [Surroundings.guarded, Step.guarded, u.cancelled_traced_none]
  refine ⟨fun t => ?_, fun t => ?_, fun n t hn => ?_, fun limit t hreported => ?_⟩
  · rw [hcalm]
    unfold Surroundings.guarded Step.guarded
    split
    · rfl
    · exact h.same t
  · rw [hcalm]
    split
    · exact Nat.le_refl _
    · exact h.counts t
  · have hfired : (u.traced (some n)).guarded cause (f (some n)) t
        = if u.cancelled t.world = true ∨ n ≤ t.calls then (.error cause, t) else f (some n) t := by
      simp [Surroundings.guarded, Step.guarded, u.cancelled_traced_some]
    rw [hcalm, hfired]
    -- with its own signal the run stops at once, whatever the limit is
    by_cases hsignal : u.cancelled t.world = true
    · rw [if_pos hsignal, if_pos (.inl hsignal)]
      exact .undisturbed rfl hn
    rw [if_neg hsignal]
    -- `h` needs room for the call, which is there unless the limit is reached
    by_cases hlimit : n ≤ t.calls
    · rw [if_pos (.inr hlimit)]
      exact .interrupted (Nat.le_trans hlimit (h.counts t)) rfl (Nat.le_antisymm hn hlimit)
    · rw [if_neg (not_or.mpr ⟨hsignal, hlimit⟩)]
      exact h.stops n t (Nat.lt_of_not_le hlimit)
  · unfold Surroundings.guarded Step.guarded
    split
    · exact fun hafter => absurd (hreported.symm.trans hafter) Bool.false_ne_true
    · exact h.passes limit t hreported

theorem check (u : Surroundings W) :
    Heeds 0 cause (u.check cause) fun limit => (u.traced limit).check cause :=
  (pure ()).weaken.guarded u

/-! Putting steps together. -/

theorem mapAnswer (h : Heeds room cause s f) {k : Except ε α → Except ε' β}
    (hk : k (.error cause) = .error cause') :
    Heeds room cause' (s.mapAnswer k) fun limit => (f limit).mapAnswer k where
  same t := by
    unfold Step.mapAnswer
    rw [h.same t]
  counts := h.counts
  stops n t hn := by
    rcases h.stops n t hn with ⟨hsame, hcalls⟩ | ⟨hfurther, hanswer, hcalls⟩
    · refine .undisturbed ?_ hcalls
      unfold Step.mapAnswer
      rw [hsame]
    · refine .interrupted hfurther ?_ hcalls
      unfold Step.mapAnswer
      rw [hanswer, hk]
  passes limit t hreported hafter := by
    unfold Step.mapAnswer
    rw [h.passes limit t hreported hafter, hk]

theorem mapError (h : Heeds room cause s f) {g : ε → ε'} (hg : g cause = cause') :
    Heeds room cause' (s.mapError g) fun limit => (f limit).mapError g :=
  h.mapAnswer (k := fun r => r.mapError g) (congrArg Except.error hg)

/-- A collaborator's step under guard, its failures put differently. -/
theorem ask [DecidableEq ε] (u : Surroundings W) (s : Step W ε α) {g : ε → ε'}
    (hg : g cause = cause') : Heeds 0 cause' (u.guarded cause' (s.mapError g))
      fun limit => (u.traced limit).guarded cause' ((s.traced cause).mapError g) :=
  ((call cause s).mapError hg).guarded u

theorem timed {g : Instant → Step W ε β} {g' : Instant → Option Nat → Step (Traced W) ε β}
    (hg : ∀ now, Heeds room cause (g now) (g' now)) (u : Surroundings W) :
    Heeds room cause (u.time >>= g)
      fun limit => (u.traced limit).time >>= fun now => g' now limit where
  same t := (hg (u.now t.world)).same t
  counts t := (hg (u.now t.world)).counts t
  stops n t := (hg (u.now t.world)).stops n t
  passes limit t := (hg (u.now t.world)).passes limit t

theorem bind {g : α → Step W ε β} {g' : α → Option Nat → Step (Traced W) ε β}
    (h : Heeds room cause s f) (hg : ∀ a, Heeds 0 cause (g a) (g' a)) :
    Heeds room cause (s >>= g) fun limit => f limit >>= fun a => g' a limit := by
  have hmore : ∀ t, (f none t).2.calls ≤ ((f none >>= fun a => g' a none) t).2.calls := by
    intro t
    rw [bind_apply]
    cases f none t with
    | mk r u =>
      cases r with
      | error e => exact Nat.le_refl _
      | ok a => exact (hg a).counts u
  refine ⟨fun t => ?_, fun t => Nat.le_trans (h.counts t) (hmore t), fun n t hn => ?_,
    fun limit t hreported => ?_⟩
  · rw [bind_apply, bind_apply, h.same t]
    cases f none t with
    | mk r u =>
      cases r with
      | error e => rfl
      | ok a => exact (hg a).same u
  · rcases h.stops n t hn with ⟨hsame, hcalls⟩ | ⟨hfurther, hanswer, hcalls⟩
    · rw [bind_apply, bind_apply, hsame]
      cases hf : f none t with
      | mk r u =>
        rw [hf] at hcalls
        cases r with
        | error e => exact .undisturbed rfl hcalls
        | ok a => exact (hg a).stops n u hcalls
    · -- the first part was interrupted, and the second can only have made more calls
      have hbind : (f (some n) >>= fun a => g' a (some n)) t = (.error cause, (f (some n) t).2) :=
        bind_of_error (Prod.ext hanswer rfl)
      rw [hbind]
      exact .interrupted (Nat.le_trans hfurther (hmore t)) rfl hcalls
  · have hpasses := h.passes limit t hreported
    rw [bind_apply]
    cases hf : f limit t with
    | mk r u =>
      rw [hf] at hpasses
      cases r with
      | error e =>
        intro hu
        cases hpasses hu
        rfl
      | ok a =>
        refine (hg a).passes limit u ?_
        cases hu : u.reported with
        | false => rfl
        | true => cases hpasses hu

end Heeds

/-! Whole operations. -/

/-- An operation `s` that the signal of `u` cancels, with its counted runs `f`. Once the signal has
fired it does nothing. If the signal fires in between, the next call is not made and the operation
was cancelled. So it was if a collaborator says so. -/
structure Cancellable (u : Surroundings W) (cause : ε) (s : Step W ε α)
    (f : Option Nat → Step (Traced W) ε α) : Prop where
  absorbed : ∀ w, u.cancelled w = true → s w = (.error cause, w)
  same : ∀ w, s w = ((f none (.start w)).1, (f none (.start w)).2.world)
  interrupted : ∀ n w, n < (f none (.start w)).2.calls →
    (f (some n) (.start w)).1 = .error cause ∧ (f (some n) (.start w)).2.calls = n
  undisturbed : ∀ n w, (f none (.start w)).2.calls < n → f (some n) (.start w) = f none (.start w)
  reported : ∀ limit w, (f limit (.start w)).2.reported = true →
    (f limit (.start w)).1 = .error cause

variable {room : Nat} {cause : ε} {s : Step W ε α} {f : Option Nat → Step (Traced W) ε α}

theorem check_bind (u : Surroundings W) (s : Step W ε α) :
    (u.check cause >>= fun _ => s) = u.guarded cause s := by
  funext w
  rw [bind_apply]
  unfold Surroundings.check Step.check Surroundings.guarded Step.guarded
  cases u.cancelled w <;> rfl

/-- A look at the signal makes cancellable what heeds it from then on. -/
theorem Heeds.cancellable (h : Heeds 1 cause s f) (u : Surroundings W) :
    Cancellable u cause (u.check cause >>= fun _ => s)
      fun limit => (u.traced limit).check cause >>= fun _ => f limit := by
  simp only [check_bind]
  have hwhole := h.guarded u
  refine
    { absorbed := fun w hw => guarded_of_cancelled hw _ _
      same := fun w => hwhole.same (.start w)
      interrupted := fun n w hn => ?_
      undisturbed := fun n w hn => ?_
      reported := fun limit w => hwhole.passes limit (.start w) rfl }
  · rcases hwhole.stops n (.start w) (Nat.zero_le n) with ⟨-, hcalls⟩ | ⟨-, hanswer, hcalls⟩
    · exact absurd hn (Nat.not_lt_of_le hcalls)
    · exact ⟨hanswer, hcalls⟩
  · rcases hwhole.stops n (.start w) (Nat.zero_le n) with ⟨hsame, -⟩ | ⟨hfurther, -, -⟩
    · exact hsame
    · exact absurd hn (Nat.not_lt_of_le hfurther)

end Heeds
end Credentials
