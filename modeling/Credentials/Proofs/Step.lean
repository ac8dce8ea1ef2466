import Credentials.Signal

/-!
# Steps one after the other

What two steps in sequence do, and steps that leave the world as it is.
-/

namespace Credentials

theorem except_bind_eq_ok_iff {ε α β : Type} {x : Except ε α} {f : α → Except ε β} {b : β} :
    (x >>= f) = .ok b ↔ ∃ a, x = .ok a ∧ f a = .ok b := by
  cases x <;> simp [bind, Except.bind]

theorem except_bind_eq_error_iff {ε α β : Type} {x : Except ε α} {f : α → Except ε β} {e : ε} :
    (x >>= f) = .error e ↔ x = .error e ∨ ∃ a, x = .ok a ∧ f a = .error e := by
  cases x <;> simp [bind, Except.bind]

theorem except_map_eq_ok_iff {ε α β : Type} {x : Except ε α} {f : α → β} {b : β} :
    x.map f = .ok b ↔ ∃ a, x = .ok a ∧ f a = b := by
  cases x <;> simp [Except.map]

theorem except_map_eq_error_iff {ε α β : Type} {x : Except ε α} {f : α → β} {e : ε} :
    x.map f = .error e ↔ x = .error e := by
  cases x <;> simp [Except.map]

@[simp]
theorem mapError_ok {ε ε' α : Type} (f : ε → ε') (a : α) :
    (Except.ok a : Except ε α).mapError f = .ok a := rfl

@[simp]
theorem mapError_error {ε ε' α : Type} (f : ε → ε') (e : ε) :
    (Except.error e : Except ε α).mapError f = .error (f e) := rfl

theorem mapError_eq_ok_iff {ε ε' α : Type} {x : Except ε α} {f : ε → ε'} {a : α} :
    x.mapError f = .ok a ↔ x = .ok a := by
  cases x <;> simp

theorem toOption_eq_some_iff {ε α : Type} {r : Except ε α} {a : α} :
    r.toOption = some a ↔ r = .ok a := by
  cases r <;> simp [Except.toOption]

namespace Step

variable {W ε ε' α β : Type}

/-! Sequences. -/

theorem bind_apply (s : Step W ε α) (f : α → Step W ε β) (w : W) :
    (s >>= f) w = match s w with
      | (.ok a, v) => f a v
      | (.error e, v) => (.error e, v) := by
  change ExceptT.bindCont f (s w).1 (s w).2 = _
  cases s w with
  | mk r v => cases r <;> rfl

theorem bind_of_ok {s : Step W ε α} {f : α → Step W ε β} {w v : W} {a : α}
    (h : s w = (.ok a, v)) : (s >>= f) w = f a v := by
  rw [bind_apply, h]

theorem bind_of_error {s : Step W ε α} {f : α → Step W ε β} {w v : W} {e : ε}
    (h : s w = (.error e, v)) : (s >>= f) w = (.error e, v) := by
  rw [bind_apply, h]

/-- The answer of a sequence whose first part is known. -/
theorem bind_fst {s : Step W ε α} {f : α → Step W ε β} {w v : W} {r : Except ε α}
    (h : s w = (r, v)) : ((s >>= f) w).1 = r >>= fun a => (f a v).1 := by
  rw [bind_apply, h]
  cases r <;> rfl

theorem ofExcept_of_ok {r : Except ε α} {a : α} (h : r = .ok a) (w : W) :
    (ofExcept r : Step W ε α) w = (.ok a, w) := by
  rw [h]
  rfl

theorem bind_ofExcept_ok (a : α) (f : α → Step W ε β) :
    ((ofExcept (.ok a) : Step W ε α) >>= f) = f a := by
  funext w
  exact bind_of_ok rfl

theorem ofExcept_of_error {r : Except ε α} {e : ε} (h : r = .error e) (w : W) :
    (ofExcept r : Step W ε α) w = (.error e, w) := by
  rw [h]
  rfl

theorem pure_apply (a : α) (w : W) : (pure a : Step W ε α) w = (.ok a, w) := rfl

theorem guarded_of_not_cancelled {cancelled : W → Bool} {w : W} (h : cancelled w = false)
    (cause : ε) (s : Step W ε α) : guarded cancelled cause s w = s w := by
  rw [guarded, h]
  rfl

theorem guarded_of_cancelled {cancelled : W → Bool} {w : W} (h : cancelled w = true)
    (cause : ε) (s : Step W ε α) : guarded cancelled cause s w = (.error cause, w) := by
  rw [guarded, h]
  rfl

theorem check_of_not_cancelled {cancelled : W → Bool} {w : W} (h : cancelled w = false)
    (cause : ε) : check cancelled cause w = (.ok (), w) := by
  rw [check, h]
  rfl

theorem mapError_of_ok {f : ε → ε'} {s : Step W ε α} {w v : W} {a : α} (h : s w = (.ok a, v)) :
    mapError f s w = (.ok a, v) := by
  rw [mapError, h]
  rfl

/-! Steps that leave the world as it is. -/

/-- A step that only looks. -/
def Looks (s : Step W ε α) : Prop := ∀ w, (s w).2 = w

theorem looks_bind {s : Step W ε α} {f : α → Step W ε β} (hs : s.Looks) (hf : ∀ a, (f a).Looks) :
    Looks (s >>= f) := by
  intro w
  have hw := hs w
  rw [bind_apply]
  split
  · next a v h =>
    rw [h] at hw
    rw [hf a v]
    exact hw
  · next e v h =>
    rw [h] at hw
    exact hw

theorem looks_pure (a : α) : Looks (pure a : Step W ε α) := fun _ => rfl

theorem looks_throw (e : ε) : Looks (throw e : Step W ε α) := fun _ => rfl

theorem looks_ofExcept (r : Except ε α) : Looks (ofExcept r : Step W ε α) := fun _ => rfl

theorem looks_look (f : W → α) : Looks (look f : Step W ε α) := fun _ => rfl

theorem looks_check (cancelled : W → Bool) (cause : ε) : Looks (check cancelled cause) := by
  intro w
  unfold check
  split <;> rfl

theorem looks_guarded (cancelled : W → Bool) (cause : ε) {s : Step W ε α} (hs : s.Looks) :
    Looks (guarded cancelled cause s) := by
  intro w
  unfold guarded
  split
  · rfl
  · exact hs w

theorem looks_mapError (f : ε → ε') {s : Step W ε α} (hs : s.Looks) : Looks (mapError f s) :=
  fun w => hs w

end Step
end Credentials
