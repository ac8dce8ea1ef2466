import Credentials.Proofs.Step

/-!
# Checks in their order

A computation that makes several checks ends with a report of the first that does not pass, and
gives a result exactly if all of them pass.
-/

namespace Credentials

variable {ι ε α β γ : Type} {passes : ι → Prop} {reports : ι → ε → Prop} {is js : List ι} {i j : ι}

/-- The first check of a list that does not pass. -/
inductive FirstFailing (passes : ι → Prop) : List ι → ι → Prop where
  | here {i : ι} {is : List ι} : ¬ passes i → FirstFailing passes (i :: is) i
  | later {i j : ι} {is : List ι} : passes j → FirstFailing passes is i →
      FirstFailing passes (j :: is) i

theorem not_firstFailing_nil : ¬ FirstFailing passes [] i := nofun

theorem firstFailing_cons_iff : FirstFailing passes (j :: is) i ↔
    ¬ passes j ∧ i = j ∨ passes j ∧ FirstFailing passes is i := by
  constructor
  · intro h
    cases h with
    | here hj => exact Or.inl ⟨hj, rfl⟩
    | later hj his => exact Or.inr ⟨hj, his⟩
  · rintro (⟨hj, rfl⟩ | ⟨hj, his⟩)
    · exact .here hj
    · exact .later hj his

theorem firstFailing_append_iff : FirstFailing passes (is ++ js) i ↔
    FirstFailing passes is i ∨ (∀ j ∈ is, passes j) ∧ FirstFailing passes js i := by
  induction is with
  | nil => simp [not_firstFailing_nil]
  | cons k is ih =>
    rw [List.cons_append, firstFailing_cons_iff, firstFailing_cons_iff, ih, List.forall_mem_cons,
      and_or_left, or_assoc, and_assoc]

/-- The checks of a list are made in their order, and the first that fails is reported. -/
structure MakesChecks (passes : ι → Prop) (reports : ι → ε → Prop) (is : List ι)
    (x : Except ε α) : Prop where
  isOk_iff : (∃ a, x = .ok a) ↔ ∀ i ∈ is, passes i
  error_iff : ∀ e, x = .error e ↔ ∃ i, FirstFailing passes is i ∧ reports i e

namespace MakesChecks

variable {x : Except ε α}

theorem ok (a : α) : MakesChecks passes reports [] (.ok a) := by
  refine ⟨iff_of_true ⟨a, rfl⟩ (List.forall_mem_nil _), fun e => ?_⟩
  exact iff_of_false nofun fun ⟨i, hi, _⟩ => not_firstFailing_nil hi

theorem passed (hi : passes i) (h : MakesChecks passes reports is x) :
    MakesChecks passes reports (i :: is) x := by
  constructor
  · rw [h.isOk_iff, List.forall_mem_cons]
    exact ⟨fun his => ⟨hi, his⟩, fun his => his.2⟩
  · intro e
    simp only [h.error_iff, firstFailing_cons_iff, hi, not_true, false_and, true_and, false_or]

theorem failed {e : ε} (hi : ¬ passes i) (he : reports i e) (honly : ∀ e', reports i e' → e = e') :
    MakesChecks passes reports (i :: is) (.error e : Except ε α) := by
  have hreports : ∀ e', reports i e' ↔ e = e' := fun e' => ⟨honly e', fun h => h ▸ he⟩
  constructor
  · exact iff_of_false nofun fun his => hi (his i List.mem_cons_self)
  · intro e'
    simp [firstFailing_cons_iff, hi, hreports]

/-- One check, of which at most one report is made. -/
theorem single (hpass : passes i → ∃ a, x = .ok a)
    (hfail : ¬ passes i → ∃ e, x = .error e ∧ reports i e)
    (honly : ∀ e e', reports i e → reports i e' → e = e') :
    MakesChecks passes reports [i] x := by
  by_cases hi : passes i
  · obtain ⟨a, rfl⟩ := hpass hi
    exact passed hi (ok a)
  · obtain ⟨e, rfl, he⟩ := hfail hi
    exact failed hi he fun e' => honly e e' he

/-- The same where the report is a function of the check. -/
theorem single_of_eq {report : ι → ε} (hpass : passes i → ∃ a, x = .ok a)
    (hfail : ¬ passes i → x = .error (report i)) :
    MakesChecks passes (fun i e => report i = e) [i] x :=
  single hpass (fun h => ⟨report i, hfail h, rfl⟩) fun _ _ he he' => he.symm.trans he'

/-- The checks of what follows are made only if all checks before have passed. -/
theorem bind {f : α → Except ε β} (h : MakesChecks passes reports is x)
    (hf : ∀ a, x = .ok a → MakesChecks passes reports js (f a)) :
    MakesChecks passes reports (is ++ js) (x >>= f) := by
  constructor
  · simp only [except_bind_eq_ok_iff, List.forall_mem_append, ← h.isOk_iff]
    constructor
    · rintro ⟨b, a, ha, hb⟩
      exact ⟨⟨a, ha⟩, (hf a ha).isOk_iff.mp ⟨b, hb⟩⟩
    · rintro ⟨⟨a, ha⟩, hjs⟩
      obtain ⟨b, hb⟩ := (hf a ha).isOk_iff.mpr hjs
      exact ⟨b, a, ha, hb⟩
  · intro e
    rw [except_bind_eq_error_iff]
    constructor
    · rintro (hx | ⟨a, ha, he⟩)
      · obtain ⟨i, hi, hreports⟩ := (h.error_iff e).mp hx
        exact ⟨i, firstFailing_append_iff.mpr (Or.inl hi), hreports⟩
      · obtain ⟨i, hi, hreports⟩ := ((hf a ha).error_iff e).mp he
        exact ⟨i, firstFailing_append_iff.mpr (Or.inr ⟨h.isOk_iff.mp ⟨a, ha⟩, hi⟩), hreports⟩
    · rintro ⟨i, hi, hreports⟩
      rcases firstFailing_append_iff.mp hi with hi | ⟨hall, hi⟩
      · exact Or.inl ((h.error_iff e).mpr ⟨i, hi, hreports⟩)
      · obtain ⟨a, ha⟩ := h.isOk_iff.mpr hall
        exact Or.inr ⟨a, ha, ((hf a ha).error_iff e).mpr ⟨i, hi, hreports⟩⟩

/-- The same where the first part is itself a sequence. -/
theorem bind_bind {y : α → Except ε β} {f : β → Except ε γ}
    (h : MakesChecks passes reports is (x >>= y))
    (hf : ∀ b, (x >>= y) = .ok b → MakesChecks passes reports js (f b)) :
    MakesChecks passes reports (is ++ js) (x >>= fun a => y a >>= f) := by
  rw [← bind_assoc]
  exact h.bind hf

end MakesChecks
end Credentials
