import Credentials.Presentation.Credential
import Credentials.Proofs.Issuance.Issue
import Credentials.Proofs.Token
import Credentials.Proofs.Validation.Judgement

/-!
# Retirement is for good

A key that was retired in some run is out of use in every world that the run reaches later: nothing
makes it current, signs with it or registers it anew, and no token that names it is accepted.
-/

namespace Credentials

namespace World

variable {k : KeyId} {w v : World}

/-- An operation that succeeds in retiring a key, or in registering it as retired. -/
inductive Retires (k : KeyId) (w v : World) : Prop where
  | retire : World.retireKey k w = (.ok (), v) → Retires k w v
  | register {key : PublicKey} {view : IssuerKey} :
      World.insertPublicKey k key .retired w = (.ok view, v) → Retires k w v

/-- A key that is of no use any more. -/
structure OutOfUse (w : World) (k : KeyId) : Prop where
  retired : ∃ key, w.keys.view? k = some key ∧ key.status = .retired
  not_current : w.keys.current ≠ some k ∧ ∀ key, w.keys.currentKey? = some key → key.id ≠ k
  sign : ∀ c, signer k c w = (.error (.retired k), w)
  setCurrent : setCurrentKey k w = (.error (.retired k), w)
  insert : ∀ pair, insertKey k pair w = (.error (.duplicate k), w)
  insertPublic : ∀ key status, insertPublicKey k key status w = (.error (.duplicate k), w)
  rotate : ∀ pair, rotateKey k pair w = (.error (.duplicate k), w)
  issue : ∀ id q issued u, issuer.issue id q w = (.ok issued, u) →
    issued.credential.keyId ≠ k ∧
      ∀ t, Token.decode issued.token = .ok t → t.keyId? ≠ some k
  validate : ∀ token t, Token.decode token = .ok t → t.keyId? = some k → ∀ skew binds,
    ∃ r, (validator skew binds).validate token w = (.ok r, w) ∧ r.isValid = false ∧
      r.credential = none ∧ r.reason = .retiredKeyUsed
  verify : ∀ token t, Token.decode token = .ok t → t.keyId? = some k →
    ∀ skew binds expectedType flag presentation,
      CredentialVerifier.token? presentation = some token →
      CredentialVerifier.verify ⟨validator skew binds, expectedType, flag⟩ presentation w
        = (.ok (.reject .credential [.credentialInvalid, .retiredKeyUsed]), w)

theorem retired_of_retires (h : Retires k w v) : v.keys.Retired k := by
  cases h with
  | retire h =>
    have hring := keyStep_eq_ok h
    cases hretire : w.keys.retire k with
    | error e =>
      rw [hretire] at hring
      cases hring
    | ok ring =>
      rw [hretire] at hring
      cases hring
      exact KeyRing.retired_of_retire hretire
  | register h => exact KeyRing.retired_of_insertPublic (keyStep_eq_ok h)

theorem later_of_retires (h : Retires k w v) : ∃ op : Operation, v = op.apply w := by
  cases h with
  | retire h => exact ⟨.retireKey k, (congrArg Prod.snd h).symm⟩
  | register h => exact ⟨.insertPublicKey k _ .retired, (congrArg Prod.snd h).symm⟩

/-! Worlds in which the key is retired. -/

section Retired

variable (hw : w.cancelled = false) (hcurrent : w.keys.CurrentSigns) (hk : w.keys.Retired k)

include hcurrent hk in
theorem id_ne_of_currentKey? {key : IssuerKey} (h : w.keys.currentKey? = some key) :
    key.id ≠ k := by
  rintro rfl
  exact KeyRing.current_ne_of_retired hcurrent hk (KeyRing.current_of_currentKey? h).1

include hw hk in
theorem signer_of_retired (c : Canonical) : signer k c w = (.error (.retired k), w) := by
  rw [signer_eq hw, KeyRing.sign_of_retired hk]

include hk in
theorem setCurrentKey_of_retired : setCurrentKey k w = (.error (.retired k), w) := by
  apply keyStep_of_error
  rw [KeyRing.setCurrent_of_retired hk]
  rfl

include hk in
theorem insertKey_of_retired (pair : KeyPair) :
    insertKey k pair w = (.error (.duplicate k), w) :=
  keyStep_of_error (KeyRing.insert_of_retired hk pair)

include hw hcurrent hk in
/-- No token is issued under a retired key. -/
theorem issue_of_retired {id : CredentialId} {q : IssueRequest} {issued : IssuedCredential}
    {u : World} (h : issuer.issue id q w = (.ok issued, u)) :
    issued.credential.keyId ≠ k ∧
      ∀ t, Token.decode issued.token = .ok t → t.keyId? ≠ some k := by
  obtain ⟨_, p, key, expiry, s, hissues, rfl⟩ := (issue_eq_ok_iff hw).mp h
  have hne := id_ne_of_currentKey? hcurrent hk hissues.key
  refine ⟨hne, fun t ht hid => hne ?_⟩
  exact (Token.keyId?_of_decode_encode ht hid).symm

include hw hk in
/-- A token that names a retired key is refused before its signature is looked at. -/
theorem validate_of_retired {token : String} {t : Token} (ht : Token.decode token = .ok t)
    (hid : t.keyId? = some k) (skew : Nat) (binds : Bool) :
    ∃ r, (validator skew binds).validate token w = (.ok r, w) ∧ r.isValid = false ∧
      r.credential = none ∧ r.reason = .retiredKeyUsed := by
  have htoken : (w.situation skew binds token).token? = some t :=
    toOption_eq_some_iff.mpr ht
  have hname := (Situation.keyId?_eq htoken).trans hid
  obtain ⟨key, hview, hretired⟩ := KeyRing.view?_of_retired hk
  have hkey : (w.situation skew binds token).key? = some key :=
    (Situation.key?_eq hname).trans hview
  have hthree : (w.situation skew binds token).PassesTo 3 :=
    ((Situation.passesTo_zero.succ .decoding rfl ⟨t, htoken⟩).succ .keyNamed rfl
      ⟨k, hname⟩).succ .keyKnown rfl ⟨key, hkey⟩
  have hfirst : (w.situation skew binds token).FailsFirst .keyActive := by
    refine hthree.failsFirst rfl ?_
    rintro ⟨key', hkey', hactive⟩
    obtain rfl : key' = key := Option.eq_some_unique hkey' hkey
    rw [IssuerKey.isRetired, hactive] at hretired
    cases hretired
  exact validate_of_failsFirst hw hfirst

end Retired

theorem judge_of_retired (verifier : CredentialVerifier World) {r : Validation}
    (hinvalid : r.isValid = false) (hreason : r.reason = .retiredKeyUsed) :
    verifier.judge r = .ok (.reject .credential [.credentialInvalid, .retiredKeyUsed]) := by
  unfold CredentialVerifier.judge
  rw [hinvalid, hreason]
  rfl

theorem outOfUse_of_retired (hw : w.cancelled = false) (hcurrent : w.keys.CurrentSigns)
    (hk : w.keys.Retired k) : w.OutOfUse k := by
  obtain ⟨key, hview, hretired⟩ := KeyRing.view?_of_retired hk
  refine
    { retired := ⟨key, hview, of_decide_eq_true hretired⟩
      not_current := ⟨KeyRing.current_ne_of_retired hcurrent hk,
        fun key => id_ne_of_currentKey? hcurrent hk⟩
      sign := signer_of_retired hw hk
      setCurrent := setCurrentKey_of_retired hk
      insert := insertKey_of_retired hk
      insertPublic := fun key status =>
        keyStep_of_error (KeyRing.insertPublic_of_retired hk key status)
      rotate := fun pair => Step.bind_of_error (insertKey_of_retired hk pair)
      issue := fun id q issued u => issue_of_retired hw hcurrent hk
      validate := fun token t ht hid => validate_of_retired hw hk ht hid
      verify := fun token t ht hid skew binds expectedType flag presentation htoken => ?_ }
  obtain ⟨r, hr, hinvalid, _, hreason⟩ := validate_of_retired hw hk ht hid skew binds
  rw [CredentialVerifier.verify, htoken]
  refine (Step.bind_of_ok (Step.mapError_of_ok hr)).trans ?_
  rw [judge_of_retired _ hinvalid hreason]
  rfl

/-- A key that was retired in a run stays out of use in whatever the run does next. -/
theorem outOfUse_run (now : Instant) (before after : List Operation)
    (h : Retires k (run before (initial now)) v) : (run after v).OutOfUse k := by
  obtain ⟨op, hop⟩ := later_of_retires h
  have hreached : Reached (run after v) := by
    rw [hop]
    exact ((Reached.run ⟨now, [], rfl⟩ before).run [op]).run after
  have hretired := KeyRing.retired_of_changes (Later.run after v).keys (retired_of_retires h)
  exact outOfUse_of_retired hreached.not_cancelled hreached.currentSigns hretired

/-- The first key of a ring is retired, and an attempt is made to make it current again. -/
theorem outOfUse_first_key :
    (run [.setCurrentKey ⟨"k1"⟩, .advanceClock 60]
      (retireKey ⟨"k1"⟩ (run [.insertKey ⟨"k1"⟩ ⟨List.replicate 32 7, rfl⟩]
        (initial ⟨1700000000, by decide, by decide⟩))).2).OutOfUse ⟨"k1"⟩ :=
  outOfUse_run ⟨1700000000, by decide, by decide⟩
    [.insertKey ⟨"k1"⟩ ⟨List.replicate 32 7, rfl⟩] [.setCurrentKey ⟨"k1"⟩, .advanceClock 60]
    (.retire (Prod.ext rfl rfl))

end World
end Credentials
