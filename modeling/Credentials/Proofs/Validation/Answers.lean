import Credentials.Proofs.Payload
import Credentials.Proofs.Step
import Credentials.Validator

/-!
# What validators answer in any world

Directories may answer as they like and change the world while they do. Even so a validator calls a
token valid only with its credential, under the key that the token names.
-/

namespace Credentials

variable {W : Type}

namespace Step

variable {ε ε' α β : Type}

theorem bind_eq_ok {s : Step W ε α} {f : α → Step W ε β} {w u : W} {b : β}
    (h : (s >>= f) w = (.ok b, u)) : ∃ a v, s w = (.ok a, v) ∧ f a v = (.ok b, u) := by
  rw [bind_apply] at h
  split at h
  · next a v hs => exact ⟨a, v, hs, h⟩
  · cases h

theorem eq_ok_of_ofExcept {r : Except ε α} {w u : W} {a : α}
    (h : (ofExcept r : Step W ε α) w = (.ok a, u)) : r = .ok a :=
  congrArg Prod.fst h

/-! Steps whose failures are of one sort. -/

/-- Wherever it starts, the step fails for causes with a property alone. -/
def FailsWith (P : ε → Prop) (s : Step W ε α) : Prop := ∀ w e u, s w = (.error e, u) → P e

variable {P : ε → Prop}

theorem failsWith_pure (a : α) : FailsWith P (pure a : Step W ε α) := by
  intro w e u h
  cases h

theorem failsWith_throw {e : ε} (he : P e) : FailsWith P (throw e : Step W ε α) := by
  intro w e' u h
  cases h
  exact he

theorem failsWith_ofExcept {r : Except ε α} (hr : ∀ e, r = .error e → P e) :
    FailsWith P (ofExcept r : Step W ε α) := by
  intro w e u h
  exact hr e (congrArg Prod.fst h)

theorem failsWith_bind {s : Step W ε α} {f : α → Step W ε β} (hs : s.FailsWith P)
    (hf : ∀ a, (f a).FailsWith P) : FailsWith P (s >>= f) := by
  intro w e u h
  rw [bind_apply] at h
  split at h
  · next a v _ => exact hf a v e u h
  · next e' v hfirst =>
    cases h
    exact hs w _ _ hfirst

theorem failsWith_guarded {cancelled : W → Bool} {cause : ε} (hcause : P cause)
    {s : Step W ε α} (hs : s.FailsWith P) : FailsWith P (guarded cancelled cause s) := by
  intro w e u h
  unfold guarded at h
  split at h
  · cases h
    exact hcause
  · exact hs w e u h

theorem failsWith_mapError {f : ε' → ε} (hf : ∀ e, P (f e)) (s : Step W ε' α) :
    FailsWith P (mapError f s) := by
  intro w e u h
  unfold mapError at h
  cases hs : s w with
  | mk r v =>
    rw [hs] at h
    cases r with
    | ok a => cases h
    | error e' =>
      cases h
      exact hf e'

end Step

/-! What a validator says, whatever its directories answer. -/

/-- A stop that does not call the token valid. -/
def Stop.Adverse : Stop → Prop
  | .refused r => r.reason ≠ .valid
  | .cancelled => True

namespace Validator

variable {v : Validator W}

theorem adverse_ofKeyService (id : KeyId) (e : KeyServiceError) :
    (Stop.ofKeyService id e).Adverse := by
  cases e <;> first | exact trivial | exact nofun

theorem adverse_ofRegistry (id : KeyId) (e : RegistryError) : (Stop.ofRegistry id e).Adverse := by
  cases e <;> first | exact trivial | exact nofun

theorem adverse_ofClaim {α : Type} {x : Except ClaimProblem α} {id : KeyId} {e : Stop}
    (h : x.mapError (Stop.ofClaim id) = .error e) : e.Adverse := by
  cases x with
  | error cause =>
    cases h
    cases cause <;> exact nofun
  | ok a => cases h

theorem adverse_named (s : String) {e : Stop} (h : named s = .error e) : e.Adverse := by
  unfold named at h
  split at h
  · cases h
    exact nofun
  · split at h
    · cases h
      exact nofun
    · cases h

theorem adverse_checkTimes {skew : Nat} {now : Instant} {id : KeyId} {t : Times} {e : Stop}
    (h : checkTimes skew now id t = .error e) : e.Adverse := by
  unfold checkTimes at h
  split at h
  · cases h
    exact nofun
  · split at h
    · cases h
      exact nofun
    · split at h
      · cases h
        exact nofun
      · cases h

theorem adverse_content {skew : Nat} {now : Instant} {t : Token} {k : IssuerKey} {id : KeyId}
    {e : Stop} (h : content skew now t k id = .error e) : e.Adverse := by
  unfold content at h
  split at h
  · cases h
    exact nofun
  · rcases except_bind_eq_error_iff.mp h with htimes | ⟨times, -, h⟩
    · exact adverse_ofClaim htimes
    · rcases except_bind_eq_error_iff.mp h with hcheck | ⟨-, -, hpayload⟩
      · exact adverse_checkTimes hcheck
      · exact adverse_ofClaim hpayload

theorem failsWith_key (v : Validator W) (id : KeyId) : (v.key id).FailsWith Stop.Adverse := by
  unfold key
  refine Step.failsWith_bind (Step.failsWith_guarded trivial
    (Step.failsWith_mapError (adverse_ofKeyService id) _)) fun found => ?_
  cases found with
  | none => exact Step.failsWith_throw nofun
  | some k =>
    dsimp only
    split
    · exact Step.failsWith_throw nofun
    · exact Step.failsWith_pure k

theorem failsWith_versions (v : Validator W) (policies : PolicyDirectory W) (id : KeyId)
    (p : PolicyId) (ns : List PolicyVersion) :
    (v.versions policies id p ns).FailsWith Stop.Adverse := by
  induction ns with
  | nil => exact Step.failsWith_pure []
  | cons n ns ih =>
    unfold versions
    refine Step.failsWith_bind (Step.failsWith_guarded trivial
      (Step.failsWith_mapError (adverse_ofRegistry id) _)) fun found => ?_
    exact Step.failsWith_bind ih fun rest => Step.failsWith_pure _

theorem failsWith_bind (v : Validator W) (policies : PolicyDirectory W) (id : KeyId)
    (c : Credential) : (v.bind policies id c).FailsWith Stop.Adverse := by
  unfold bind
  refine Step.failsWith_bind (Step.failsWith_guarded trivial
    (Step.failsWith_mapError (adverse_ofRegistry id) _)) fun current => ?_
  cases current with
  | none => exact Step.failsWith_throw nofun
  | some p =>
    refine Step.failsWith_bind (failsWith_versions v policies id c.policyId p.compatible)
      fun others => ?_
    split
    · exact Step.failsWith_pure ()
    · exact Step.failsWith_throw nofun

theorem failsWith_run (v : Validator W) (token : String) (now : Instant) :
    (v.run token now).FailsWith Stop.Adverse := by
  unfold run
  refine Step.failsWith_bind (Step.failsWith_ofExcept fun e => adverse_named token) fun p => ?_
  refine Step.failsWith_bind (failsWith_key v p.2) fun k => ?_
  refine Step.failsWith_bind (Step.failsWith_ofExcept fun e => adverse_content) fun c => ?_
  cases v.policies with
  | none => exact Step.failsWith_pure _
  | some policies =>
    exact Step.failsWith_bind (failsWith_bind v policies p.2 c) fun _ => Step.failsWith_pure _

theorem named_eq_ok {token : String} {t : Token} {id : KeyId} (h : named token = .ok (t, id)) :
    Token.decode token = .ok t ∧ t.keyId? = some id := by
  unfold named at h
  split at h
  · cases h
  · next hdecode =>
    split at h
    · cases h
    · next hkey =>
      cases h
      exact ⟨hdecode, hkey⟩

theorem content_eq_ok {skew : Nat} {now : Instant} {t : Token} {k : IssuerKey} {id : KeyId}
    {c : Credential} (h : content skew now t k id = .ok c) :
    Credential.ofPayload t.payload id = .ok c := by
  unfold content at h
  split at h
  · cases h
  · obtain ⟨_, _, h⟩ := except_bind_eq_ok_iff.mp h
    obtain ⟨_, _, h⟩ := except_bind_eq_ok_iff.mp h
    exact mapError_eq_ok_iff.mp h

/-- What passes is the credential in the token, under the key that the token names. -/
theorem run_eq_ok {token : String} {now : Instant} {id : KeyId} {c : Credential} {w u : W}
    (h : v.run token now w = (.ok (id, c), u)) : ∃ t, Token.decode token = .ok t ∧
      t.keyId? = some id ∧ Credential.ofPayload t.payload id = .ok c := by
  unfold run at h
  obtain ⟨⟨t, k⟩, w₁, hnamed, h⟩ := Step.bind_eq_ok h
  obtain ⟨key, w₂, _, h⟩ := Step.bind_eq_ok h
  obtain ⟨c', w₃, hcontent, h⟩ := Step.bind_eq_ok h
  have hlast : k = id ∧ c' = c := by
    cases hpolicies : v.policies with
    | none =>
      rw [hpolicies] at h
      cases h
      exact ⟨rfl, rfl⟩
    | some policies =>
      rw [hpolicies] at h
      obtain ⟨_, _, _, h⟩ := Step.bind_eq_ok h
      cases h
      exact ⟨rfl, rfl⟩
  obtain ⟨rfl, rfl⟩ := hlast
  obtain ⟨hdecode, hid⟩ := named_eq_ok (Step.eq_ok_of_ofExcept hnamed)
  exact ⟨t, hdecode, hid, content_eq_ok (Step.eq_ok_of_ofExcept hcontent)⟩

/-- A validator that calls a token valid hands out its credential, with the key the token names. -/
theorem validate_valid {token : String} {r : Validation} {w u : W}
    (h : v.validate token w = (.ok r, u)) (hvalid : r.isValid = true) :
    ∃ t c, Token.decode token = .ok t ∧ t.keyId? = some c.keyId ∧ r.credential = some c := by
  unfold validate at h
  obtain ⟨_, w₁, _, h⟩ := Step.bind_eq_ok h
  obtain ⟨now, w₂, _, h⟩ := Step.bind_eq_ok h
  split at h
  · next id c u' hrun =>
    cases h
    obtain ⟨t, hdecode, hid, hpayload⟩ := run_eq_ok hrun
    have hkey := (Credential.ofPayload_eq_ok_iff.mp hpayload).key
    exact ⟨t, c, hdecode, by rw [hid, hkey], rfl⟩
  · next refusal u' hrun =>
    cases h
    have hadverse : refusal.reason ≠ .valid := failsWith_run v token now w₂ _ _ hrun
    exact absurd (of_decide_eq_true hvalid) hadverse
  · cases h

end Validator
end Credentials
