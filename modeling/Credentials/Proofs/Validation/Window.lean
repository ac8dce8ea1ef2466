import Credentials.Proofs.Issuance.Acceptance
import Credentials.Proofs.Time.Clock

/-!
# The window of a token

The times at which a token is accepted form one interval, or there are none. Where the interval
begins and ends is told by the token and the allowed skew alone; so a token whose interval has
passed is not accepted again, whatever becomes of the keys and the policies, unless the clock is
moved back.
-/

namespace Credentials

/-- The times that are read from a token. -/
def Token.HasTimes (token : String) (τ : Validator.Times) : Prop :=
  ∃ t, Token.decode token = .ok t ∧ Validator.times t.payload = .ok τ

theorem Token.HasTimes.unique {token : String} {τ τ' : Validator.Times} (h : HasTimes token τ)
    (h' : HasTimes token τ') : τ = τ' := by
  obtain ⟨t, ht, hτ⟩ := h
  obtain ⟨t', ht', hτ'⟩ := h'
  obtain rfl := Except.ok.inj (ht.symm.trans ht')
  exact Except.ok.inj (hτ.symm.trans hτ')

namespace Validator.Times

variable {τ : Validator.Times} {skew : Nat} {t : Instant}

/-- The first second of the interval. -/
def opens (τ : Validator.Times) (skew : Nat) : Int :=
  match τ.notBefore with
  | none => τ.issuedAt.epoch - skew
  | some s => max (τ.issuedAt.epoch - skew) s.epoch

/-- The last second of the interval. -/
def closes (τ : Validator.Times) (skew : Nat) : Int :=
  min (τ.issuedAt.epoch + skew) (τ.expiresAt.epoch - 1)

def Within (τ : Validator.Times) (skew : Nat) (t : Instant) : Prop :=
  τ.opens skew ≤ t.epoch ∧ t.epoch ≤ τ.closes skew

theorem opens_le_iff :
    τ.opens skew ≤ t.epoch ↔ τ.issuedAt.epoch - skew ≤ t.epoch ∧ ∀ s ∈ τ.notBefore, s ≤ t := by
  unfold opens
  cases τ.notBefore with
  | none => simp
  | some s =>
    have hstart : (∀ u ∈ some s, u ≤ t) ↔ s.epoch ≤ t.epoch := by
      simp only [Option.mem_some_iff, forall_eq']
      exact Iff.rfl
    rw [hstart]
    exact Int.max_le

/-- The three comparisons of a validator describe the interval. -/
theorem within_iff : τ.Within skew t ↔
    (t.since τ.issuedAt).natAbs ≤ skew ∧ t < τ.expiresAt ∧ ∀ s ∈ τ.notBefore, s ≤ t := by
  have hskew : (t.since τ.issuedAt).natAbs ≤ skew ↔
      τ.issuedAt.epoch - skew ≤ t.epoch ∧ t.epoch ≤ τ.issuedAt.epoch + skew := by
    unfold Instant.since
    omega
  have hexpiry : t < τ.expiresAt ↔ t.epoch ≤ τ.expiresAt.epoch - 1 := Int.le_sub_one_iff.symm
  rw [Within, opens_le_iff, closes, Int.le_min, hskew, hexpiry]
  constructor
  · rintro ⟨⟨hfrom, hstart⟩, huntil, hlast⟩
    exact ⟨⟨hfrom, huntil⟩, hlast, hstart⟩
  · rintro ⟨⟨hfrom, huntil⟩, hlast, hstart⟩
    exact ⟨⟨hfrom, hstart⟩, huntil, hlast⟩

end Validator.Times

namespace Situation

open Validator

variable {s : Situation} {t : Token} {id : KeyId} {k : IssuerKey} {c : Credential}

theorem Accepts.hasTimes (h : s.Accepts t id k c) : ∃ τ, Token.HasTimes s.token τ ∧
    Validator.times t.payload = .ok τ := by
  obtain ⟨iat, hiat, _⟩ := h.issued
  obtain ⟨exp, hexp, _⟩ := h.expires
  obtain ⟨nbf, hnbf, _⟩ := h.starts
  have hτ := times_eq_ok_iff (τ := ⟨iat, exp, nbf⟩).mpr ⟨hiat, hexp, hnbf⟩
  exact ⟨_, ⟨t, h.decodes, hτ⟩, hτ⟩

theorem Accepts.within (h : s.Accepts t id k c) {τ : Times}
    (hτ : Validator.times t.payload = .ok τ) : τ.Within s.skew s.now := by
  obtain ⟨hiat, hexp, hnbf⟩ := times_eq_ok_iff.mp hτ
  obtain ⟨iat, hiat', hskew⟩ := h.issued
  obtain ⟨exp, hexp', hlt⟩ := h.expires
  obtain ⟨nbf, hnbf', hstart⟩ := h.starts
  obtain rfl := Except.ok.inj (hiat.symm.trans hiat')
  obtain rfl := Except.ok.inj (hexp.symm.trans hexp')
  obtain rfl := Except.ok.inj (hnbf.symm.trans hnbf')
  exact Times.within_iff.mpr ⟨hskew, hlt, hstart⟩

/-- A token that is accepted at one time is accepted at any other time of the interval. -/
theorem Accepts.of_within (h : s.Accepts t id k c) {τ : Times}
    (hτ : Validator.times t.payload = .ok τ) {now : Instant} (hnow : τ.Within s.skew now) :
    { s with now := now }.Accepts t id k c := by
  obtain ⟨hiat, hexp, hnbf⟩ := times_eq_ok_iff.mp hτ
  obtain ⟨hskew, hlt, hstart⟩ := Times.within_iff.mp hnow
  exact
    { decodes := h.decodes
      names := h.names
      known := h.known
      active := h.active
      algorithm := h.algorithm
      signed := h.signed
      issued := ⟨_, hiat, hskew⟩
      expires := ⟨_, hexp, hlt⟩
      starts := ⟨_, hnbf, hstart⟩
      content := h.content
      bound := h.bound }

end Situation

namespace World

open Validator

variable {w : World} {skew : Nat} {binds : Bool} {token : String} {τ : Times}

/-- The token is found to be valid in this world. -/
def Admits (w : World) (skew : Nat) (binds : Bool) (token : String) : Prop :=
  ∃ r v, (validator skew binds).validate token w = (.ok r, v) ∧ r.isValid = true

theorem cancelled_setClock (w : World) (t : Instant) : (w.setClock t).cancelled = w.cancelled := rfl

theorem situation_setClock (w : World) (t : Instant) (skew : Nat) (binds : Bool) (token : String) :
    (w.setClock t).situation skew binds token
      = { w.situation skew binds token with now := t } := by
  rw [situation, situation, setClock, Clock.now_set]

theorem not_cancelled_of_admits (h : w.Admits skew binds token) : w.cancelled = false := by
  obtain ⟨r, v, hr, _⟩ := h
  cases hw : w.cancelled with
  | false => rfl
  | true =>
    rw [validate_of_cancelled hw] at hr
    cases hr

theorem admits_iff (hw : w.cancelled = false) : w.Admits skew binds token ↔
    ∃ t id k c, (w.situation skew binds token).Accepts t id k c := by
  constructor
  · rintro ⟨r, v, hr, hvalid⟩
    obtain rfl : v = w := by
      have hv := looks_validate skew binds token w
      rw [hr] at hv
      exact hv
    obtain ⟨t, id, k, c, haccepts, _⟩ := (validate_valid_iff hw).mp ⟨hr, hvalid⟩
    exact ⟨t, id, k, c, haccepts⟩
  · rintro ⟨t, id, k, c, haccepts⟩
    exact ⟨_, _, validate_of_accepts hw haccepts, rfl⟩

theorem hasTimes_of_admits (h : w.Admits skew binds token) : ∃ τ, Token.HasTimes token τ := by
  obtain ⟨t, id, k, c, haccepts⟩ := (admits_iff (not_cancelled_of_admits h)).mp h
  obtain ⟨τ, hτ, _⟩ := haccepts.hasTimes
  exact ⟨τ, hτ⟩

theorem within_of_admits (hτ : Token.HasTimes token τ) (h : w.Admits skew binds token) :
    τ.Within skew w.clock.now := by
  obtain ⟨t, id, k, c, haccepts⟩ := (admits_iff (not_cancelled_of_admits h)).mp h
  obtain ⟨t', ht', htimes⟩ := hτ
  obtain rfl := Except.ok.inj (haccepts.decodes.symm.trans ht')
  exact haccepts.within htimes

/-- A token that is found valid at one time is found valid exactly during its interval. -/
theorem admits_setClock_iff (hτ : Token.HasTimes token τ) {t₀ : Instant}
    (h : (w.setClock t₀).Admits skew binds token) (t : Instant) :
    (w.setClock t).Admits skew binds token ↔ τ.Within skew t := by
  have hw := not_cancelled_of_admits h
  rw [cancelled_setClock] at hw
  have hcancelled : ∀ u, (w.setClock u).cancelled = false := fun u =>
    (cancelled_setClock w u).trans hw
  constructor
  · intro ht
    have hwithin := within_of_admits hτ ht
    rwa [setClock, Clock.now_set] at hwithin
  · intro ht
    obtain ⟨u, id, k, c, haccepts⟩ := (admits_iff (hcancelled t₀)).mp h
    obtain ⟨u', hu', htimes⟩ := hτ
    obtain rfl := Except.ok.inj (haccepts.decodes.symm.trans hu')
    have hlater := haccepts.of_within htimes ht
    apply (admits_iff (hcancelled t)).mpr
    rw [situation_setClock] at hlater ⊢
    exact ⟨_, _, _, _, hlater⟩

/-! Runs. -/

/-- A run in which no operation moves the clock back. -/
inductive Forward : List Operation → World → Prop where
  | nil (w : World) : Forward [] w
  | cons {op : Operation} {ops : List Operation} {w : World} :
      w.clock.now ≤ (op.apply w).clock.now → Forward ops (op.apply w) → Forward (op :: ops) w

theorem Forward.now_le {ops : List Operation} (h : Forward ops w) :
    w.clock.now ≤ (run ops w).clock.now := by
  induction h with
  | nil w => exact Int.le_refl _
  | cons hop _ ih => exact Int.le_trans hop ih

/-- The times at which a token is found valid are one interval, or there are none; and once the
interval has passed, the token is not found valid again as long as the clock is not moved back. -/
theorem acceptance_window (skew : Nat) (token : String) :
    (∀ (w : World) binds, w.Admits skew binds token → ∃ τ, Token.HasTimes token τ) ∧
    ∀ τ, Token.HasTimes token τ →
      (∀ (w : World) binds, (∀ t, ¬ (w.setClock t).Admits skew binds token) ∨
        ∀ t, (w.setClock t).Admits skew binds token ↔
          τ.opens skew ≤ t.epoch ∧ t.epoch ≤ τ.closes skew) ∧
      ∀ (w : World) ops binds, Forward ops w → τ.closes skew < w.clock.now.epoch →
        ¬ (run ops w).Admits skew binds token := by
  refine ⟨fun w binds => hasTimes_of_admits, fun τ hτ => ⟨fun w binds => ?_, ?_⟩⟩
  · by_cases h : ∃ t, (w.setClock t).Admits skew binds token
    · obtain ⟨t₀, h⟩ := h
      exact Or.inr (admits_setClock_iff hτ h)
    · exact Or.inl fun t ht => h ⟨t, ht⟩
  · intro w ops binds hforward hclosed h
    have hlast := (within_of_admits hτ h).2
    have hnow : w.clock.now.epoch ≤ (run ops w).clock.now.epoch := hforward.now_le
    omega

/-! A token that is found valid a minute after its issuance, and at no time after its interval. -/

theorem hasTimes_flaggedToken : Token.HasTimes flaggedToken ⟨sampleTime, sampleExpiry, none⟩ := by
  refine ⟨_, accepts_flagged.decodes, Situation.times_eq_ok_iff.mpr ?_⟩
  have hcarries := Credential.carries_toPayload (sampleCredential flaggedClaims)
  exact ⟨Credential.requiredInstant_of_get? hcarries.issued,
    Credential.requiredInstant_of_get? hcarries.expires, Credential.optionalInstant_nbf _⟩

theorem admits_flaggedToken : (run sampleLater sampleWorld).Admits 300 true flaggedToken :=
  (admits_iff rfl).mpr ⟨_, _, _, _, accepts_flagged⟩

/-- Five minutes and a second after issuance. -/
def overdueTime : Instant := ⟨1700000301, by decide, by decide⟩

/-- It is found valid for five minutes on either side of its issuance. Once they have passed, neither
a new key nor another status of the policy brings it back. -/
theorem acceptance_window_sample :
    (∀ t, ((run sampleLater sampleWorld).setClock t).Admits 300 true flaggedToken ↔
      1699999700 ≤ t.epoch ∧ t.epoch ≤ 1700000300) ∧
    ¬ (run sampleLater (sampleWorld.setClock overdueTime)).Admits 300 true flaggedToken := by
  obtain ⟨hreads, hwindow⟩ := acceptance_window 300 flaggedToken
  obtain ⟨τ, hτ⟩ := hreads _ true admits_flaggedToken
  obtain rfl := hτ.unique hasTimes_flaggedToken
  obtain ⟨hinterval, hlast⟩ := hwindow _ hτ
  constructor
  · cases hinterval (run sampleLater sampleWorld) true with
    | inl hnever => exact absurd admits_flaggedToken (hnever ⟨1700000060, by decide, by decide⟩)
    | inr hopen => exact hopen
  · apply hlast _ _ true ?_ (by decide)
    refine .cons (Int.le_refl _) (.cons (Int.le_refl _) (.cons ?_ (.nil _)))
    decide

end World
end Credentials
