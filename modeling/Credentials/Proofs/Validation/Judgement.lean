import Credentials.Proofs.Policy.Hash
import Credentials.Proofs.Time.Clock
import Credentials.Proofs.Token
import Credentials.Proofs.Validation.Stages
import Credentials.Proofs.World.Run

/-!
# Validation judges

The checks of a validator are taken one group after the other. Each group either passes the stages
it stands for, or refuses the token for the first stage that fails.
-/

namespace Credentials

/-! Seconds in words: no two instants are so far apart that a word could not hold it. -/

namespace Seconds

variable {t s : Instant}

theorem toInt_ofNat (secs : Nat) : (ofNat secs).toInt = min (secs : Int) Int64.maxValue.toInt := by
  have hleast : Int64.minValue.toInt ≤ secs := by
    rw [Int64.toInt_minValue]
    omega
  rw [ofNat, Int64.ofIntClamp, dif_pos hleast]
  split
  · next hle =>
    rw [Int64.toInt_ofIntLE, Int.min_eq_left hle]
  · next hgt => exact (Int.min_eq_right (Int.le_of_not_le hgt)).symm

theorem toInt_magnitude_since (t s : Instant) :
    (magnitude (since t s)).toInt = (t.since s).natAbs := by
  have hbound : (t.since s).natAbs < 2 ^ 63 := by
    have ht := t.le_greatest
    have ht' := t.least_le
    have hs := s.le_greatest
    have hs' := s.least_le
    unfold Instant.since
    omega
  rw [magnitude, toInt_since]
  apply Int64.toInt_ofIntClamp
  · rw [Int64.toInt_minValue]
    omega
  · rw [Int64.toInt_maxValue]
    omega

theorem ofNat_lt_magnitude_iff (skew : Nat) (t s : Instant) :
    ofNat skew < magnitude (since t s) ↔ skew < (t.since s).natAbs := by
  have hword := (magnitude (since t s)).toInt_le
  rw [toInt_magnitude_since] at hword
  rw [Int64.lt_iff_toInt_lt, toInt_ofNat, toInt_magnitude_since]
  omega

end Seconds

namespace Situation

variable {s : Situation}

/-- The token is refused for the first stage that fails. -/
def Refuses (s : Situation) (r : Refusal) : Prop :=
  ∃ stage, s.FailsFirst stage ∧ s.Gives stage r.reason

/-- All stages up to a number pass. -/
def PassesTo (s : Situation) (n : Nat) : Prop := ∀ stage : Stage, stage.number ≤ n → s.Passes stage

theorem passesTo_zero : s.PassesTo 0 := by
  intro stage h
  cases stage <;> cases h

theorem PassesTo.succ {n : Nat} (h : s.PassesTo n) (stage : Stage) (hnumber : stage.number = n + 1)
    (hstage : s.Passes stage) : s.PassesTo (n + 1) := by
  intro e he
  rcases Nat.lt_or_eq_of_le he with hlt | heq
  · exact h e (Nat.le_of_lt_succ hlt)
  · rwa [number_injective (heq.trans hnumber.symm)]

theorem PassesTo.failsFirst {n : Nat} (h : s.PassesTo n) {stage : Stage}
    (hnumber : stage.number = n + 1) (hstage : ¬ s.Passes stage) : s.FailsFirst stage :=
  ⟨hstage, fun e he => h e (by omega)⟩

theorem passesTo_eleven (h : s.PassesTo 11) : ∀ stage, s.Passes stage := by
  intro stage
  apply h
  cases stage <;> decide

/-! The token and its key. -/

theorem named_cases (s : Situation) :
    (∃ t id, Validator.named s.token = .ok (t, id) ∧ s.token? = some t ∧ s.keyId? = some id ∧
      s.PassesTo 2) ∨
      ∃ r, Validator.named s.token = .error (.refused r) ∧ s.Refuses r := by
  unfold Validator.named
  cases hdecode : Token.decode s.token with
  | error e =>
    right
    refine ⟨_, rfl, .decoding, passesTo_zero.failsFirst rfl ?_, rfl⟩
    rintro ⟨t, ht⟩
    rw [toOption_eq_some_iff.mp ht] at hdecode
    cases hdecode
  | ok t =>
    have ht : s.token? = some t := toOption_eq_some_iff.mpr hdecode
    have hone : s.PassesTo 1 := passesTo_zero.succ .decoding rfl ⟨t, ht⟩
    dsimp only
    cases hid : t.keyId? with
    | none =>
      right
      refine ⟨_, rfl, .keyNamed, hone.failsFirst rfl ?_, rfl⟩
      rintro ⟨id, hkey⟩
      rw [keyId?_eq ht, hid] at hkey
      cases hkey
    | some id =>
      left
      have hkey : s.keyId? = some id := (keyId?_eq ht).trans hid
      exact ⟨t, id, rfl, ht, hkey, hone.succ .keyNamed rfl ⟨id, hkey⟩⟩

/-! The content of the token. -/

section Content

variable {t : Token} {id : KeyId} {k : IssuerKey}

theorem signature?_eq_some_iff {sig : Signature} :
    t.signature? = some sig ↔ sig.bytes = t.signature := by
  unfold Token.signature? Signature.ofBytes
  split
  · next h =>
    simp only [toOption_eq_some_iff, Except.ok.injEq]
    constructor
    · rintro rfl
      rfl
    · intro hb
      cases sig
      cases hb
      rfl
  · next h =>
    simp only [toOption_eq_some_iff, reduceCtorEq, false_iff]
    intro hb
    exact h (hb ▸ sig.length_eq)

theorem isSignedBy_iff {k : PublicKey} : t.isSignedBy k = true ↔ t.Signed k := by
  have hok {r : Except KeyError Unit} : r.isOk = true ↔ r = .ok () := by
    cases r <;> simp [Except.isOk, Except.toBool]
  unfold Token.isSignedBy Token.Signed
  rw [Token.trySigningInput_eq]
  constructor
  · intro h
    split at h
    · next a sig ha hsig =>
      rw [Bool.and_eq_true, decide_eq_true_eq] at h
      obtain ⟨rfl, hverify⟩ := h
      exact ⟨ha, sig, signature?_eq_some_iff.mp hsig, hok.mp hverify⟩
    · cases h
  · rintro ⟨ha, sig, hsig, hverify⟩
    rw [ha, signature?_eq_some_iff.mpr hsig]
    simp only [decide_true, Bool.true_and]
    exact hok.mpr hverify

theorem times_eq_ok_iff {p : Json.Members} {τ : Validator.Times} :
    Validator.times p = .ok τ ↔ Claim.requiredInstant p "iat" = .ok τ.issuedAt ∧
      Claim.requiredInstant p "exp" = .ok τ.expiresAt ∧
      Claim.optionalInstant p "nbf" = .ok τ.notBefore := by
  unfold Validator.times
  simp only [except_bind_eq_ok_iff]
  constructor
  · rintro ⟨iat, hiat, exp, hexp, nbf, hnbf, h⟩
    cases h
    exact ⟨hiat, hexp, hnbf⟩
  · rintro ⟨hiat, hexp, hnbf⟩
    exact ⟨_, hiat, _, hexp, _, hnbf, rfl⟩

theorem ofClaim_eq (id : KeyId) (e : ClaimProblem) :
    ∃ message, Stop.ofClaim id e = .refused ⟨e.reason, message, some id⟩ := by
  cases e <;> exact ⟨_, rfl⟩

theorem instant_not_lt {a b : Instant} : ¬ a < b ↔ b ≤ a := Int.not_lt

theorem instant_not_le {a b : Instant} : ¬ a ≤ b ↔ b < a := Int.not_le

theorem checkTimes_cases (id : KeyId) {τ : Validator.Times} (hiat : s.issuedAt? = some τ.issuedAt)
    (hexp : s.expiresAt? = some τ.expiresAt) (hnbf : s.notBefore? = some τ.notBefore)
    (hsix : s.PassesTo 6) :
    (Validator.checkTimes s.skew s.now id τ = .ok () ∧ s.PassesTo 9) ∨
      ∃ r, Validator.checkTimes s.skew s.now id τ = .error (.refused r) ∧ s.Refuses r := by
  unfold Validator.checkTimes
  simp only [Seconds.ofNat_lt_magnitude_iff]
  by_cases hskew : s.skew < (s.now.since τ.issuedAt).natAbs
  · right
    rw [if_pos hskew]
    refine ⟨_, rfl, .skew, hsix.failsFirst rfl ?_, rfl⟩
    rintro ⟨iat, hiat', hle⟩
    obtain rfl : τ.issuedAt = iat := Option.eq_some_unique hiat hiat'
    exact absurd hskew (Nat.not_lt.mpr hle)
  · rw [if_neg hskew]
    have hseven := hsix.succ .skew rfl ⟨_, hiat, Nat.not_lt.mp hskew⟩
    by_cases hstart : τ.notBefore.any (s.now < ·) = true
    · right
      rw [if_pos hstart]
      refine ⟨_, rfl, .start, hseven.failsFirst rfl ?_, rfl⟩
      rintro ⟨nbf, hnbf', hle⟩
      obtain rfl : τ.notBefore = nbf := Option.eq_some_unique hnbf hnbf'
      obtain ⟨n, hn, hlt⟩ := (Option.any_eq_true _ _).mp hstart
      exact instant_not_lt.mpr (hle n hn) (of_decide_eq_true hlt)
    · rw [if_neg hstart]
      have height := hseven.succ .start rfl ⟨_, hnbf, fun n hn => instant_not_lt.mp fun hlt =>
        hstart ((Option.any_eq_true _ _).mpr ⟨n, hn, decide_eq_true hlt⟩)⟩
      by_cases hexpired : τ.expiresAt ≤ s.now
      · right
        rw [if_pos hexpired]
        refine ⟨_, rfl, .expiry, height.failsFirst rfl ?_, rfl⟩
        rintro ⟨exp, hexp', hlt⟩
        obtain rfl : τ.expiresAt = exp := Option.eq_some_unique hexp hexp'
        exact instant_not_le.mpr hlt hexpired
      · left
        rw [if_neg hexpired]
        exact ⟨rfl, height.succ .expiry rfl ⟨_, hexp, instant_not_le.mp hexpired⟩⟩

theorem times_cases (id : KeyId) (ht : s.token? = some t) (hfive : s.PassesTo 5) :
    (∃ τ, (Validator.times t.payload).mapError (Stop.ofClaim id) = .ok τ ∧
      s.issuedAt? = some τ.issuedAt ∧ s.expiresAt? = some τ.expiresAt ∧
      s.notBefore? = some τ.notBefore ∧ s.PassesTo 6) ∨
      ∃ r, (Validator.times t.payload).mapError (Stop.ofClaim id) = .error (.refused r) ∧
        s.Refuses r := by
  cases hτ : Validator.times t.payload with
  | error e =>
    right
    obtain ⟨message, he⟩ := ofClaim_eq id e
    refine ⟨_, congrArg Except.error he, .times, hfive.failsFirst rfl ?_, t, e, ht, hτ, rfl⟩
    rintro ⟨iat, exp, nbf, hiat, hexp, hnbf⟩
    rw [issuedAt?_eq ht, toOption_eq_some_iff] at hiat
    rw [expiresAt?_eq ht, toOption_eq_some_iff] at hexp
    rw [notBefore?_eq ht, toOption_eq_some_iff] at hnbf
    have hok := times_eq_ok_iff (τ := ⟨iat, exp, nbf⟩).mpr ⟨hiat, hexp, hnbf⟩
    rw [hτ] at hok
    cases hok
  | ok τ =>
    left
    obtain ⟨hiat, hexp, hnbf⟩ := times_eq_ok_iff.mp hτ
    have hiat' := (issuedAt?_eq ht).trans (toOption_eq_some_iff.mpr hiat)
    have hexp' := (expiresAt?_eq ht).trans (toOption_eq_some_iff.mpr hexp)
    have hnbf' := (notBefore?_eq ht).trans (toOption_eq_some_iff.mpr hnbf)
    exact ⟨τ, rfl, hiat', hexp', hnbf', hfive.succ .times rfl ⟨_, _, _, hiat', hexp', hnbf'⟩⟩

theorem ofPayload_cases (ht : s.token? = some t) (hid : s.keyId? = some id)
    (hnine : s.PassesTo 9) :
    (∃ c, (Credential.ofPayload t.payload id).mapError (Stop.ofClaim id) = .ok c ∧
      s.credential? = some c ∧ s.PassesTo 10) ∨
      ∃ r, (Credential.ofPayload t.payload id).mapError (Stop.ofClaim id) = .error (.refused r) ∧
        s.Refuses r := by
  cases hc : Credential.ofPayload t.payload id with
  | error e =>
    right
    obtain ⟨message, he⟩ := ofClaim_eq id e
    refine ⟨_, congrArg Except.error he, .content, hnine.failsFirst rfl ?_,
      t, id, e, ht, hid, hc, rfl⟩
    rintro ⟨c, hc'⟩
    rw [credential?_eq ht hid, hc] at hc'
    cases hc'
  | ok c =>
    left
    have hc' := (credential?_eq ht hid).trans (toOption_eq_some_iff.mpr hc)
    exact ⟨c, rfl, hc', hnine.succ .content rfl ⟨c, hc'⟩⟩

theorem content_cases (ht : s.token? = some t) (hid : s.keyId? = some id) (hk : s.key? = some k)
    (hfour : s.PassesTo 4) :
    (∃ c, Validator.content s.skew s.now t k id = .ok c ∧ s.credential? = some c ∧
      s.PassesTo 10) ∨
      ∃ r, Validator.content s.skew s.now t k id = .error (.refused r) ∧ s.Refuses r := by
  unfold Validator.content
  by_cases hsigned : t.isSignedBy k.publicKey = true
  case neg =>
    right
    rw [if_pos (by simpa using hsigned)]
    refine ⟨_, rfl, .signature, hfour.failsFirst rfl ?_, rfl⟩
    rintro ⟨t', k', ht', hk', hs⟩
    obtain rfl : t' = t := Option.eq_some_unique ht' ht
    obtain rfl : k' = k := Option.eq_some_unique hk' hk
    exact hsigned (isSignedBy_iff.mpr hs)
  rw [if_neg (by simpa using hsigned)]
  have hfive := hfour.succ .signature rfl ⟨t, k, ht, hk, isSignedBy_iff.mp hsigned⟩
  rcases times_cases id ht hfive with ⟨τ, hτ, hiat, hexp, hnbf, hsix⟩ | ⟨r, hτ, hrefuses⟩
  case inr =>
    rw [hτ]
    exact Or.inr ⟨r, rfl, hrefuses⟩
  rw [hτ]
  rcases checkTimes_cases id hiat hexp hnbf hsix with ⟨hcheck, hnine⟩ | ⟨r, hcheck, hrefuses⟩
  case inr => exact Or.inr ⟨r, by simp only [bind, Except.bind, hcheck], hrefuses⟩
  rcases ofPayload_cases ht hid hnine with ⟨c, hc, hcredential, hten⟩ | ⟨r, hc, hrefuses⟩
  · exact Or.inl ⟨c, by simp only [bind, Except.bind, hcheck, hc], hcredential, hten⟩
  · exact Or.inr ⟨r, by simp only [bind, Except.bind, hcheck, hc], hrefuses⟩

end Content

end Situation

namespace World

open Situation

variable {w : World}

/-- What a validation in a world goes by. -/
def situation (w : World) (skew : Nat) (binds : Bool) (token : String) : Situation :=
  ⟨token, w.keys, if binds then some w.policies else none, w.clock.now, skew⟩

/-! The look-ups. -/

theorem key_eq (hw : w.cancelled = false) (skew : Nat) (binds : Bool) (id : KeyId) :
    (validator skew binds).key id w = match w.keys.view? id with
      | none => (.error (.because .unknownKey "unknown signing key" id), w)
      | some k =>
        if k.isRetired then (.error (.because .retiredKeyUsed "signing key retired" id), w)
        else (.ok k, w) := by
  have hfind := guarded_look hw Stop.cancelled (Stop.ofKeyService id) .cancelled
    fun w => w.keys.view? id
  unfold Validator.key
  refine (Step.bind_of_ok hfind).trans ?_
  cases w.keys.view? id with
  | none => rfl
  | some k =>
    dsimp only
    split <;> rfl

theorem versions_eq (hw : w.cancelled = false) (skew : Nat) (binds : Bool) (id : KeyId)
    (p : PolicyId) (ns : List PolicyVersion) :
    (validator skew binds).versions policyDirectory id p ns w
      = (.ok (ns.filterMap (w.policies.find? p)), w) := by
  induction ns with
  | nil => rfl
  | cons n ns ih =>
    have hfind := guarded_look hw Stop.cancelled (Stop.ofRegistry id) .cancelled
      fun w => w.policies.get? p (some n)
    unfold Validator.versions
    refine (Step.bind_of_ok hfind).trans ((Step.bind_of_ok ih).trans ?_)
    rw [PolicyRegistry.get?, Step.pure_apply]
    cases hn : w.policies.find? p n <;> simp [hn]

theorem bind_eq (hw : w.cancelled = false) (skew : Nat) (binds : Bool) (id : KeyId)
    (c : Credential) :
    (validator skew binds).bind policyDirectory id c w = match w.policies.current? c.policyId with
      | none => (.error (.because .policyNotFound "policy not found" id), w)
      | some p =>
        if Validator.isBound c.policyHash
            (p.compatible.filterMap (w.policies.find? c.policyId) ++ [p]) then (.ok (), w)
        else (.error (.because .policyHashMismatch "policy hash mismatch" id), w) := by
  have hcurrent := guarded_look hw Stop.cancelled (Stop.ofRegistry id) .cancelled
    fun w => w.policies.get? c.policyId none
  unfold Validator.bind
  refine (Step.bind_of_ok hcurrent).trans ?_
  rw [PolicyRegistry.get?]
  cases w.policies.current? c.policyId with
  | none => rfl
  | some p =>
    refine (Step.bind_of_ok (versions_eq hw skew binds id c.policyId p.compatible)).trans ?_
    dsimp only
    split <;> rfl

/-- The candidates of a validator are the current version and the versions compatible with it. -/
theorem isBound_iff {r : PolicyRegistry} {c : Credential} {p : PolicyDefinition}
    (hp : r.current? c.policyId = some p) :
    Validator.isBound c.policyHash (p.compatible.filterMap (r.find? c.policyId) ++ [p]) = true ↔
      r.Binds c := by
  unfold Validator.isBound PolicyRegistry.Binds
  simp only [PolicyDefinition.hasHash_eq, Hex.agree, List.any_eq_true, List.mem_append, List.mem_filterMap, List.mem_singleton,
    Bool.and_eq_true, decide_eq_true_eq, beq_iff_eq]
  constructor
  · rintro ⟨d, hd, hstatus, hhash⟩
    exact ⟨p, d, hp, hd.symm, hstatus, hhash⟩
  · rintro ⟨p', d, hp', hd, hstatus, hhash⟩
    obtain rfl : p' = p := Option.eq_some_unique hp' hp
    exact ⟨d, hd.symm, hstatus, hhash⟩

/-! The checks in sequence. -/

section Run

variable {skew : Nat} {binds : Bool} {token : String}

theorem key_cases (hw : w.cancelled = false) {id : KeyId}
    (hid : (w.situation skew binds token).keyId? = some id)
    (htwo : (w.situation skew binds token).PassesTo 2) :
    (∃ k, (validator skew binds).key id w = (.ok k, w) ∧
      (w.situation skew binds token).key? = some k ∧
      (w.situation skew binds token).PassesTo 4) ∨
      ∃ r, (validator skew binds).key id w = (.error (.refused r), w) ∧
        (w.situation skew binds token).Refuses r := by
  rw [key_eq hw]
  have hkey : (w.situation skew binds token).key? = w.keys.view? id := key?_eq hid
  cases hview : w.keys.view? id with
  | none =>
    right
    refine ⟨_, rfl, .keyKnown, htwo.failsFirst rfl ?_, rfl⟩
    rintro ⟨k, hk⟩
    rw [hkey, hview] at hk
    cases hk
  | some k =>
    have hk := hkey.trans hview
    have hthree := htwo.succ .keyKnown rfl ⟨k, hk⟩
    by_cases hretired : k.isRetired = true
    · right
      refine ⟨_, if_pos hretired, .keyActive, hthree.failsFirst rfl ?_, rfl⟩
      rintro ⟨k', hk', hactive⟩
      obtain rfl : k' = k := Option.eq_some_unique hk' hk
      rw [IssuerKey.isRetired, hactive] at hretired
      cases hretired
    · left
      have hactive : k.status = .active := by
        cases hstatus : k.status with
        | active => rfl
        | retired => exact absurd (decide_eq_true hstatus) hretired
      exact ⟨k, if_neg hretired, hk, hthree.succ .keyActive rfl ⟨k, hk, hactive⟩⟩

theorem bind_cases (hw : w.cancelled = false) (id : KeyId) {c : Credential}
    (hc : (w.situation skew true token).credential? = some c)
    (hten : (w.situation skew true token).PassesTo 10) :
    ((validator skew true).bind policyDirectory id c w = (.ok (), w) ∧
      (w.situation skew true token).PassesTo 11) ∨
      ∃ r, (validator skew true).bind policyDirectory id c w = (.error (.refused r), w) ∧
        (w.situation skew true token).Refuses r := by
  have hpolicies : (w.situation skew true token).policies = some w.policies := rfl
  have hpasses : (w.situation skew true token).Passes .binding ↔ w.policies.Binds c := by
    constructor
    · intro h
      obtain ⟨c', hc', hbinds⟩ := h w.policies hpolicies
      obtain rfl : c' = c := Option.eq_some_unique hc' hc
      exact hbinds
    · intro h r hr
      cases hr
      exact ⟨c, hc, h⟩
  rw [bind_eq hw]
  cases hcurrent : w.policies.current? c.policyId with
  | none =>
    right
    refine ⟨_, rfl, .binding, hten.failsFirst rfl ?_, w.policies, c, hpolicies, hc, ?_⟩
    · rw [hpasses]
      rintro ⟨p, d, hp, _⟩
      rw [hcurrent] at hp
      cases hp
    · rw [if_pos hcurrent]
  | some p =>
    by_cases hbound : Validator.isBound c.policyHash
        (p.compatible.filterMap (w.policies.find? c.policyId) ++ [p]) = true
    · left
      refine ⟨if_pos hbound, hten.succ .binding rfl ?_⟩
      exact hpasses.mpr ((isBound_iff hcurrent).mp hbound)
    · right
      refine ⟨_, if_neg hbound, .binding, hten.failsFirst rfl ?_, w.policies, c, hpolicies, hc, ?_⟩
      · rw [hpasses, ← isBound_iff hcurrent]
        exact hbound
      · rw [if_neg (by rw [hcurrent]; simp)]

/-- A run of the checks accepts a token that passes all stages, or refuses it for the first stage
that fails. -/
theorem run_cases (hw : w.cancelled = false) (skew : Nat) (binds : Bool) (token : String) :
    (∃ id c, (validator skew binds).run token w.clock.now w = (.ok (id, c), w) ∧
      (w.situation skew binds token).keyId? = some id ∧
      (w.situation skew binds token).credential? = some c ∧
      ∀ stage, (w.situation skew binds token).Passes stage) ∨
      ∃ r, (validator skew binds).run token w.clock.now w = (.error (.refused r), w) ∧
        (w.situation skew binds token).Refuses r := by
  unfold Validator.run
  rcases named_cases (w.situation skew binds token) with
    ⟨t, id, hnamed, ht, hid, htwo⟩ | ⟨r, hnamed, hrefuses⟩
  case inr => exact Or.inr ⟨r, Step.bind_of_error (Step.ofExcept_of_error hnamed w), hrefuses⟩
  have hfirst := Step.ofExcept_of_ok (r := Validator.named token) hnamed w
  rw [Step.bind_of_ok hfirst]
  dsimp only
  rcases key_cases hw hid htwo with ⟨k, hkey, hk, hfour⟩ | ⟨r, hkey, hrefuses⟩
  case inr => exact Or.inr ⟨r, Step.bind_of_error hkey, hrefuses⟩
  rw [Step.bind_of_ok hkey]
  rcases content_cases ht hid hk hfour with ⟨c, hcontent, hc, hten⟩ | ⟨r, hcontent, hrefuses⟩
  case inr => exact Or.inr ⟨r, Step.bind_of_error (Step.ofExcept_of_error hcontent w), hrefuses⟩
  have hthird := Step.ofExcept_of_ok
    (r := Validator.content (validator skew binds).skew w.clock.now t k id) hcontent w
  rw [Step.bind_of_ok hthird]
  cases binds with
  | false =>
    left
    refine ⟨id, c, rfl, hid, hc, passesTo_eleven (hten.succ .binding rfl ?_)⟩
    intro r hr
    cases hr
  | true =>
    rcases bind_cases hw id hc hten with ⟨hbind, heleven⟩ | ⟨r, hbind, hrefuses⟩
    · left
      exact ⟨id, c, Step.bind_of_ok hbind, hid, hc, passesTo_eleven heleven⟩
    · exact Or.inr ⟨r, Step.bind_of_error hbind, hrefuses⟩

end Run

theorem validate_of_cancelled (hw : w.cancelled = true) (skew : Nat) (binds : Bool)
    (token : String) : (validator skew binds).validate token w = (.error .mk, w) := by
  refine Step.bind_of_error ?_
  exact if_pos hw

/-- Without a signal, validation answers for all stages together or for the first that fails. -/
theorem exists_validation (hw : w.cancelled = false) (skew : Nat) (binds : Bool)
    (token : String) : ∃ v, (validator skew binds).validate token w = (.ok v, w) ∧
      (w.situation skew binds token).Judges v := by
  have hcheck : (validator skew binds).check Cancelled.mk w = (.ok (), w) :=
    if_neg (by rw [Bool.not_eq_true]; exact hw)
  have htime : (validator skew binds).time (ε := Cancelled) w = (.ok w.clock.now, w) := rfl
  unfold Validator.validate
  rw [Step.bind_of_ok hcheck, Step.bind_of_ok htime]
  rcases run_cases hw skew binds token with
    ⟨id, c, hrun, hid, hc, hall⟩ | ⟨r, hrun, hrefuses⟩
  · rw [hrun]
    refine ⟨_, rfl, ⟨by simp [Validation.isValid], fun _ => ⟨hall, ?_⟩, fun h => by cases h⟩⟩
    obtain ⟨t, id', k, c', haccepts⟩ := passes_all_iff.mp hall
    have ht := toOption_eq_some_iff.mpr haccepts.decodes
    obtain rfl : id' = id := Option.eq_some_unique ((keyId?_eq ht).trans haccepts.names) hid
    have hc' := (credential?_eq ht hid).trans (toOption_eq_some_iff.mpr haccepts.content)
    obtain rfl : c' = c := Option.eq_some_unique hc' hc
    exact ⟨t, id', k, c', haccepts, rfl⟩
  · rw [hrun]
    obtain ⟨stage, hfirst, hgives⟩ := hrefuses
    have hreason := gives_ne_valid hgives
    refine ⟨_, rfl, ⟨?_, fun h => ?_, fun _ => ⟨rfl, rfl, stage, hfirst, hgives⟩⟩⟩
    · simp [Validation.isValid, hreason]
    · exact absurd (of_decide_eq_true h) hreason

/-- Validation fails only when it was cancelled; otherwise it answers for all stages together, or
for the first stage that fails. -/
theorem validate_judges (w : World) (skew : Nat) (binds : Bool) (token : String) :
    (w.cancelled = true ∧ (validator skew binds).validate token w = (.error .mk, w)) ∨
      w.cancelled = false ∧ ∃ v, (validator skew binds).validate token w = (.ok v, w) ∧
        (w.situation skew binds token).Judges v := by
  cases hw : w.cancelled with
  | true => exact .inl ⟨rfl, validate_of_cancelled hw skew binds token⟩
  | false => exact .inr ⟨rfl, exists_validation hw skew binds token⟩

/-- A token that is what an accepted token has to be is accepted, with its credential. -/
theorem validate_of_accepts (hw : w.cancelled = false) {skew : Nat} {binds : Bool} {token : String}
    {t : Token} {id : KeyId} {k : IssuerKey} {c : Credential}
    (h : (w.situation skew binds token).Accepts t id k c) :
    (validator skew binds).validate token w
      = (.ok ⟨.valid, none, some id, some c, w.clock.now⟩, w) := by
  obtain ⟨v, hv, hjudges⟩ := exists_validation hw skew binds token
  have hvalid : v.isValid = true := by
    rw [← Bool.not_eq_false]
    intro hinvalid
    obtain ⟨_, _, stage, hfirst, _⟩ := hjudges.refused hinvalid
    exact hfirst.1 (passes_all_iff.mpr ⟨t, id, k, c, h⟩ stage)
  obtain ⟨_, t', id', k', c', h', rfl⟩ := hjudges.accepted hvalid
  obtain rfl : t' = t := Except.ok.inj (h'.decodes.symm.trans h.decodes)
  obtain rfl : id' = id := Option.eq_some_unique h'.names h.names
  obtain rfl : c' = c := Except.ok.inj (h'.content.symm.trans h.content)
  exact hv

/-- The tokens that are accepted are those that pass all stages. -/
theorem validate_valid_iff (hw : w.cancelled = false) {skew : Nat} {binds : Bool} {token : String}
    {r : Validation} :
    ((validator skew binds).validate token w = (.ok r, w) ∧ r.isValid = true) ↔
      ∃ t id k c, (w.situation skew binds token).Accepts t id k c ∧
        r = ⟨.valid, none, some id, some c, w.clock.now⟩ := by
  constructor
  · rintro ⟨hr, hvalid⟩
    obtain ⟨v, hv, hjudges⟩ := exists_validation hw skew binds token
    obtain rfl := Except.ok.inj (congrArg Prod.fst (hv.symm.trans hr))
    exact (hjudges.accepted hvalid).2
  · rintro ⟨t, id, k, c, haccepts, rfl⟩
    exact ⟨validate_of_accepts hw haccepts, rfl⟩

/-- A token is refused for the first stage that fails. -/
theorem validate_of_failsFirst (hw : w.cancelled = false) {skew : Nat} {binds : Bool}
    {token : String} {stage : Stage} (h : (w.situation skew binds token).FailsFirst stage) :
    ∃ v, (validator skew binds).validate token w = (.ok v, w) ∧ v.isValid = false ∧
      v.credential = none ∧ (w.situation skew binds token).Gives stage v.reason := by
  obtain ⟨v, hv, hjudges⟩ := exists_validation hw skew binds token
  have hinvalid : v.isValid = false := by
    rw [← Bool.not_eq_true]
    intro hvalid
    exact h.1 ((hjudges.accepted hvalid).1 stage)
  obtain ⟨hnone, _, stage', hfirst, hgives⟩ := hjudges.refused hinvalid
  obtain rfl := hfirst.unique h
  exact ⟨v, hv, hinvalid, hnone, hgives⟩

/-- A token that cannot be decoded is malformed. -/
theorem validate_of_decode_error (hw : w.cancelled = false) {token : String} {e : TokenError}
    (h : Token.decode token = .error e) (skew : Nat) (binds : Bool) :
    ∃ v, (validator skew binds).validate token w = (.ok v, w) ∧ v.isValid = false ∧
      v.credential = none ∧ v.reason = .malformedToken := by
  have hfirst : (w.situation skew binds token).FailsFirst .decoding := by
    refine passesTo_zero.failsFirst rfl ?_
    rintro ⟨t, ht⟩
    have hdecode : Token.decode token = .ok t := toOption_eq_some_iff.mp ht
    rw [h] at hdecode
    cases hdecode
  exact validate_of_failsFirst hw hfirst

end World
end Credentials
