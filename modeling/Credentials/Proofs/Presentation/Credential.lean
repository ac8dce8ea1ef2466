import Credentials.Proofs.Issuance.Acceptance
import Credentials.Proofs.Presentation.Normalization
import Credentials.Proofs.Validation.Answers
import Credentials.Proofs.Validation.Judgement

/-!
# What is found about the presentation of a credential

A presentation of a credential is judged by what is found first: that it holds no token, that the
validator turns the token away, that the credential is of another type, or that its flag is not
literally true. It is accepted if none of this is found, and then the key that the token names is
given as the issuer. Nothing has to be known of the directories that the validator asks.
-/

namespace Credentials

namespace CredentialVerifier

variable {W : Type} {v : CredentialVerifier W} {p : Json} {s : String} {c : Credential} {w u : W}
  {reasons : List Reason} {issuer : Option String}

/-- The presentation is an object whose member `credential` is the string. -/
def Presents (p : Json) (s : String) : Prop :=
  ∃ ms, p = .object ms ∧ Json.get? ms "credential" = some (.string s)

/-- The validator accepts the token, and the credential is the one that it holds. -/
def Accepts (v : CredentialVerifier W) (s : String) (w : W) (c : Credential) (u : W) : Prop :=
  ∃ r, v.validator.validate s w = (.ok r, u) ∧ r.isValid = true ∧ r.credential = some c

/-- The claims of the credential say that it is of the expected type. -/
def OfType (v : CredentialVerifier W) (c : Credential) : Prop :=
  Json.get? c.claims "credentialType" = some (.string v.expectedType)

/-- The flag is true, and not some other value. -/
def Flagged (v : CredentialVerifier W) (c : Credential) : Prop :=
  Json.get? c.claims v.flag = some (.bool true)

/-- The codes for what is found first about a presentation, the issuer if nothing is found, and the
world in which the validator leaves off. -/
inductive Finds (v : CredentialVerifier W) (p : Json) (w : W) :
    List Reason → Option String → W → Prop where
  | malformed : (∀ s, ¬ Presents p s) → Finds v p w [.malformedPresentation] none w
  | failed {s : String} {r : Validation} {u : W} : Presents p s →
      v.validator.validate s w = (.ok r, u) → r.reason = .internalError →
      Finds v p w [.internalError] none u
  | refused {s : String} {r : Validation} {u : W} : Presents p s →
      v.validator.validate s w = (.ok r, u) → r.isValid = false → r.reason ≠ .internalError →
      Finds v p w [.credentialInvalid, r.reason] none u
  | otherType {s : String} {c : Credential} {u : W} : Presents p s → v.Accepts s w c u →
      ¬ v.OfType c → Finds v p w [.policyMismatch] none u
  | notFlagged {s : String} {c : Credential} {u : W} : Presents p s → v.Accepts s w c u →
      v.OfType c → ¬ v.Flagged c → Finds v p w [.attributeNotMet] none u
  | accepted {s : String} {c : Credential} {u : W} {t : Token} {k : KeyId} : Presents p s →
      v.Accepts s w c u → v.OfType c → v.Flagged c → Token.decode s = .ok t →
      t.keyId? = some k → Finds v p w [.valid] (some k.name) u

/-! What the checks of the verifier mean. -/

theorem asString?_eq_some_iff {j : Json} : j.asString? = some s ↔ j = .string s := by
  cases j <;> simp [Json.asString?]

theorem asObject?_eq_some_iff {j : Json} {ms : Json.Members} :
    j.asObject? = some ms ↔ j = .object ms := by
  cases j <;> simp [Json.asObject?]

theorem token?_eq_some_iff : token? p = some s ↔ Presents p s := by
  simp only [token?, Presents, Option.bind_eq_some_iff, asString?_eq_some_iff,
    asObject?_eq_some_iff]
  constructor
  · rintro ⟨_, ⟨ms, rfl, hget⟩, rfl⟩
    exact ⟨ms, rfl, hget⟩
  · rintro ⟨ms, rfl, hget⟩
    exact ⟨_, ⟨ms, rfl, hget⟩, rfl⟩

theorem token?_eq_none_iff : token? p = none ↔ ∀ s, ¬ Presents p s := by
  simp only [Option.eq_none_iff_forall_ne_some, ne_eq, token?_eq_some_iff]

theorem hasType_iff : v.hasType c = true ↔ v.OfType c := by
  simp only [hasType, OfType, beq_iff_eq, Option.bind_eq_some_iff, asString?_eq_some_iff,
    exists_eq_right]

theorem hasFlag_iff : v.hasFlag c = true ↔ v.Flagged c := by
  unfold hasFlag Flagged
  split
  · next h => exact iff_of_true rfl h
  · next h => exact iff_of_false nofun fun heq => h heq

/-! Verdicts. -/

theorem verify_of_no_token (h : token? p = none) :
    v.verify p w = (.ok (reject [.malformedPresentation]), w) := by
  rw [verify, h]
  rfl

theorem verify_of_validated {r : Validation} (h : token? p = some s)
    (hvalidate : v.validator.validate s w = (.ok r, u)) : v.verify p w = (v.judge r, u) := by
  rw [verify, h]
  exact Step.bind_of_ok (Step.mapError_of_ok hvalidate)

theorem verify_of_interrupted {cause : Cancelled} (h : token? p = some s)
    (hvalidate : v.validator.validate s w = (.error cause, u)) :
    v.verify p w = (.error .cancelled, u) := by
  rw [verify, h]
  refine Step.bind_of_error ?_
  rw [Step.mapError, hvalidate]
  rfl

theorem judge_of_invalid {r : Validation} (h : r.isValid = false) : v.judge r =
    if r.reason = .internalError then .error (.dependency "credential validation failed internally")
    else .ok (reject [.credentialInvalid, r.reason]) := by
  rw [judge, h]

theorem judge_of_valid {r : Validation} (h : r.isValid = true) (hc : r.credential = some c) :
    v.judge r = if !v.hasType c then .ok (reject [.policyMismatch])
      else if !v.hasFlag c then .ok (reject [.attributeNotMet])
      else .ok (.accept .credential (some c.keyId.name)) := by
  rw [judge, h, hc]

/-- The result that says what was found. -/
def result (reasons : List Reason) (issuer : Option String) (now : Instant) : VerificationResult :=
  ⟨decide (reasons = [.valid]), reasons, some "legacy-vc", issuer, now⟩

theorem answer_of_finds (h : v.Finds p w reasons issuer u) (now : Instant) :
    Engine.answer .credential now (v.verify p w).1 = .ok (result reasons issuer now) ∧
      (v.verify p w).2 = u := by
  cases h with
  | malformed hnone =>
    rw [verify_of_no_token (token?_eq_none_iff.mpr hnone)]
    exact ⟨rfl, rfl⟩
  | failed hp hr hreason =>
    have hinvalid : Validation.isValid _ = false := decide_eq_false (by rw [hreason]; exact nofun)
    rw [verify_of_validated (token?_eq_some_iff.mpr hp) hr, judge_of_invalid hinvalid,
      if_pos hreason]
    exact ⟨rfl, rfl⟩
  | refused hp hr hinvalid hreason =>
    rw [verify_of_validated (token?_eq_some_iff.mpr hp) hr, judge_of_invalid hinvalid,
      if_neg hreason]
    exact ⟨rfl, rfl⟩
  | otherType hp haccepts htype =>
    obtain ⟨r, hr, hvalid, hc⟩ := haccepts
    rw [verify_of_validated (token?_eq_some_iff.mpr hp) hr, judge_of_valid hvalid hc,
      if_pos (by simpa using mt hasType_iff.mp htype)]
    exact ⟨rfl, rfl⟩
  | notFlagged hp haccepts htype hflag =>
    obtain ⟨r, hr, hvalid, hc⟩ := haccepts
    rw [verify_of_validated (token?_eq_some_iff.mpr hp) hr, judge_of_valid hvalid hc,
      if_neg (by simp [hasType_iff.mpr htype]), if_pos (by simpa using mt hasFlag_iff.mp hflag)]
    exact ⟨rfl, rfl⟩
  | @accepted s c u t k hp haccepts htype hflag hdecode hkey =>
    obtain ⟨r, hr, hvalid, hc⟩ := haccepts
    obtain ⟨t', c', hdecode', hkey', hc'⟩ := Validator.validate_valid hr hvalid
    obtain rfl : c' = c := Option.eq_some_unique hc' hc
    obtain rfl : t' = t := Except.ok.inj (hdecode'.symm.trans hdecode)
    obtain rfl : c'.keyId = k := Option.eq_some_unique hkey' hkey
    rw [verify_of_validated (token?_eq_some_iff.mpr hp) hr, judge_of_valid hvalid hc,
      if_neg (by simp [hasType_iff.mpr htype]), if_neg (by simp [hasFlag_iff.mpr hflag])]
    exact ⟨rfl, rfl⟩

/-- Unless the validator was stopped, something is found. -/
theorem finds_or_interrupted (v : CredentialVerifier W) (p : Json) (w : W) :
    (∃ reasons issuer u, v.Finds p w reasons issuer u) ∨
      ∃ s cause u, Presents p s ∧ v.validator.validate s w = (.error cause, u) ∧
        v.verify p w = (.error .cancelled, u) := by
  cases htoken : token? p with
  | none => exact .inl ⟨_, _, _, .malformed (token?_eq_none_iff.mp htoken)⟩
  | some s =>
    have hp := token?_eq_some_iff.mp htoken
    cases hvalidate : v.validator.validate s w with
    | mk answer u =>
      cases answer with
      | error cause =>
        exact .inr ⟨s, cause, u, hp, hvalidate, verify_of_interrupted htoken hvalidate⟩
      | ok r =>
        left
        by_cases hvalid : r.isValid = true
        · obtain ⟨t, c, hdecode, hkey, hc⟩ := Validator.validate_valid hvalidate hvalid
          have haccepts : v.Accepts s w c u := ⟨r, hvalidate, hvalid, hc⟩
          by_cases htype : v.OfType c
          · by_cases hflag : v.Flagged c
            · exact ⟨_, _, _, .accepted hp haccepts htype hflag hdecode hkey⟩
            · exact ⟨_, _, _, .notFlagged hp haccepts htype hflag⟩
          · exact ⟨_, _, _, .otherType hp haccepts htype⟩
        · by_cases hreason : r.reason = .internalError
          · exact ⟨_, _, _, .failed hp hvalidate hreason⟩
          · exact ⟨_, _, _, .refused hp hvalidate (Bool.eq_false_iff.mpr hvalid) hreason⟩

/-- A validator that only looks leaves off where it began. -/
theorem Finds.world_eq (h : v.Finds p w reasons issuer u)
    (hlooks : ∀ s, (v.validator.validate s).Looks) : u = w := by
  have hworld {s : String} {r : Validation} (hr : v.validator.validate s w = (.ok r, u)) :
      u = w := by
    have hw := hlooks s w
    rwa [hr] at hw
  cases h with
  | malformed _ => rfl
  | failed _ hr _ => exact hworld hr
  | refused _ hr _ _ => exact hworld hr
  | otherType _ haccepts _ =>
    obtain ⟨_, hr, _⟩ := haccepts
    exact hworld hr
  | notFlagged _ haccepts _ _ =>
    obtain ⟨_, hr, _⟩ := haccepts
    exact hworld hr
  | accepted _ haccepts _ _ _ _ =>
    obtain ⟨_, hr, _⟩ := haccepts
    exact hworld hr

/-- The presentation of a credential that is accepted, of the type, and flagged. -/
theorem finds_valid_iff : (∃ issuer, v.Finds p w [.valid] issuer u) ↔
    ∃ s c, Presents p s ∧ v.Accepts s w c u ∧ v.OfType c ∧ v.Flagged c := by
  constructor
  · rintro ⟨issuer, h⟩
    cases h with
    | accepted hp haccepts htype hflag hdecode hkey => exact ⟨_, _, hp, haccepts, htype, hflag⟩
  · rintro ⟨s, c, hp, ⟨r, hr, hvalid, hc⟩, htype, hflag⟩
    obtain ⟨t, c', hdecode, hkey, hc'⟩ := Validator.validate_valid hr hvalid
    exact ⟨_, .accepted hp ⟨r, hr, hvalid, hc⟩ htype hflag hdecode hkey⟩

end CredentialVerifier

namespace Engine

open CredentialVerifier

variable {W : Type} {e : Engine W} {v : CredentialVerifier W} {p : Json} {w u : W}

/-- The request that presents a credential. -/
def credentialRequest (p : Json) : VerificationRequest := ⟨some "legacy-vc", p⟩

theorem supports_credentialRequest (he : e.verifier? .credential = some v.verifier) :
    e.Supports (credentialRequest p) .credential v.verifier := ⟨rfl, he⟩

/-- What is found is answered, unless the signal fires meanwhile. -/
theorem verify_of_finds (he : e.verifier? .credential = some v.verifier)
    (hw : e.cancelled w = false) {reasons : List Reason} {issuer : Option String}
    (h : v.Finds p w reasons issuer u) : e.verify (credentialRequest p) w =
      if e.cancelled u then (.error .mk, u) else (.ok (result reasons issuer (e.now w)), u) := by
  obtain ⟨hanswer, hworld⟩ := answer_of_finds h (e.now w)
  have hverify : v.verifier.verify p w = ((v.verify p w).1, u) := Prod.ext rfl hworld
  rw [verify_of_supports hw (supports_credentialRequest he)]
  cases hu : e.cancelled u with
  | true =>
    rw [credentialRequest, dispatch_of_signal hverify hu]
    rfl
  | false =>
    rw [credentialRequest, dispatch_of_no_signal hverify hu]
    exact congrArg (·, u) hanswer

theorem verify_of_interrupted (he : e.verifier? .credential = some v.verifier)
    (hw : e.cancelled w = false) (h : v.verify p w = (.error .cancelled, u)) :
    e.verify (credentialRequest p) w = (.error .mk, u) := by
  have hverify : v.verifier.verify p w = (.error .cancelled, u) := h
  rw [verify_of_supports hw (supports_credentialRequest he)]
  cases hu : e.cancelled u with
  | true => rw [credentialRequest, dispatch_of_signal hverify hu]
  | false =>
    rw [credentialRequest, dispatch_of_no_signal hverify hu]
    rfl

theorem verify_credential_eq_ok_iff (he : e.verifier? .credential = some v.verifier)
    {r : VerificationResult} : e.verify (credentialRequest p) w = (.ok r, u) ↔
      e.cancelled w = false ∧ e.cancelled u = false ∧ ∃ reasons issuer,
        v.Finds p w reasons issuer u ∧ r = result reasons issuer (e.now w) := by
  constructor
  · intro h
    have hw : e.cancelled w = false := (verify_eq_ok h).1
    rcases finds_or_interrupted v p w with ⟨reasons, issuer, u', hfinds⟩ | ⟨_, _, u', _, _, hstop⟩
    · rw [verify_of_finds he hw hfinds] at h
      split at h
      · cases h
      · next hu =>
        cases h
        exact ⟨hw, Bool.eq_false_iff.mpr hu, _, _, hfinds, rfl⟩
    · rw [verify_of_interrupted he hw hstop] at h
      cases h
  · rintro ⟨hw, hu, reasons, issuer, hfinds, rfl⟩
    rw [verify_of_finds he hw hfinds, hu]
    rfl

/-- What an engine makes of a presentation for a verifier of credentials. -/
structure JudgesCredential (e : Engine W) (v : CredentialVerifier W) (p : Json) (w : W) :
    Prop where
  answer_iff : ∀ r u, e.verify (credentialRequest p) w = (.ok r, u) ↔
    e.cancelled w = false ∧ e.cancelled u = false ∧ ∃ reasons issuer,
      v.Finds p w reasons issuer u ∧ r = result reasons issuer (e.now w)
  valid_iff : ∀ u, (∃ r, e.verify (credentialRequest p) w = (.ok r, u) ∧ r.valid = true) ↔
    e.cancelled w = false ∧ e.cancelled u = false ∧
      ∃ s c, Presents p s ∧ v.Accepts s w c u ∧ v.OfType c ∧ v.Flagged c
  interrupted : ∀ cause u, e.verify (credentialRequest p) w = (.error cause, u) →
    e.cancelled w = true ∨ e.cancelled u = true ∨
      ∃ s, Presents p s ∧ v.validator.validate s w = (.error cause, u)

theorem judgesCredential (he : e.verifier? .credential = some v.verifier) (p : Json) (w : W) :
    e.JudgesCredential v p w where
  answer_iff _ _ := verify_credential_eq_ok_iff he
  valid_iff u := by
    rw [← finds_valid_iff]
    constructor
    · rintro ⟨r, hr, hvalid⟩
      obtain ⟨hw, hu, reasons, issuer, hfinds, rfl⟩ := (verify_credential_eq_ok_iff he).mp hr
      obtain rfl : reasons = [.valid] := of_decide_eq_true hvalid
      exact ⟨hw, hu, issuer, hfinds⟩
    · rintro ⟨hw, hu, issuer, hfinds⟩
      exact ⟨_, (verify_credential_eq_ok_iff he).mpr ⟨hw, hu, _, _, hfinds, rfl⟩, rfl⟩
  interrupted cause u h := by
    cases hw : e.cancelled w with
    | true => exact .inl rfl
    | false =>
      right
      rcases finds_or_interrupted v p w with
        ⟨reasons, issuer, u', hfinds⟩ | ⟨s, cause', u', hp, hvalidate, hstop⟩
      · left
        rw [verify_of_finds he hw hfinds] at h
        split at h
        · next hu =>
          cases h
          exact hu
        · cases h
      · right
        rw [verify_of_interrupted he hw hstop] at h
        cases h
        exact ⟨s, hp, hvalidate⟩

end Engine

namespace World

open CredentialVerifier Engine

variable {w : World} {e : Engine World} {p : Json} {skew : Nat} {binds : Bool}
  {expectedType flag : String}

theorem accepts_iff (hw : w.cancelled = false) {s : String} {c : Credential} :
    CredentialVerifier.Accepts ⟨validator skew binds, expectedType, flag⟩ s w c w ↔
      ∃ t id k, (w.situation skew binds s).Accepts t id k c := by
  constructor
  · rintro ⟨r, hr, hvalid, hc⟩
    obtain ⟨t, id, k, c', haccepts, rfl⟩ := (validate_valid_iff hw).mp ⟨hr, hvalid⟩
    obtain rfl := Option.some.inj hc
    exact ⟨t, id, k, haccepts⟩
  · rintro ⟨t, id, k, haccepts⟩
    exact ⟨_, validate_of_accepts hw haccepts, rfl, rfl⟩

/-- There is an answer, and it is valid exactly for a token that passes all stages, with a credential
of the type whose flag is true. -/
def AnswersCredential (w : World) (e : Engine World) (skew : Nat) (binds : Bool)
    (expectedType flag : String) (p : Json) : Prop :=
  ∃ r, e.verify (credentialRequest p) w = (.ok r, w) ∧ (r.valid = true ↔
    ∃ s t id k c, Presents p s ∧ (w.situation skew binds s).Accepts t id k c ∧
      Json.get? c.claims "credentialType" = some (.string expectedType) ∧
      Json.get? c.claims flag = some (.bool true))

theorem answersCredential (hw : w.cancelled = false)
    (hsurroundings : e.toSurroundings = surroundings)
    (he : e.verifier? .credential
      = some (CredentialVerifier.verifier ⟨validator skew binds, expectedType, flag⟩)) :
    w.AnswersCredential e skew binds expectedType flag p := by
  have hsignal : e.cancelled w = false := by rwa [hsurroundings]
  rcases finds_or_interrupted ⟨validator skew binds, expectedType, flag⟩ p w with
    ⟨reasons, issuer, u, hfinds⟩ | ⟨s, cause, u, _, hvalidate, _⟩
  · obtain rfl := hfinds.world_eq (looks_validate skew binds)
    have hr := (verify_credential_eq_ok_iff he).mpr ⟨hsignal, hsignal, _, _, hfinds, rfl⟩
    refine ⟨_, hr, ?_⟩
    have hvalid := (judgesCredential he p u).valid_iff u
    simp only [hsignal, true_and, accepts_iff hw] at hvalid
    constructor
    · intro h
      obtain ⟨s, c, hp, ⟨t, id, k, haccepts⟩, htype, hflag⟩ := hvalid.mp ⟨_, hr, h⟩
      exact ⟨s, t, id, k, c, hp, haccepts, htype, hflag⟩
    · rintro ⟨s, t, id, k, c, hp, haccepts, htype, hflag⟩
      obtain ⟨r, hr', h⟩ := hvalid.mpr ⟨s, c, hp, ⟨t, id, k, haccepts⟩, htype, hflag⟩
      rw [hr] at hr'
      cases hr'
      exact h
  · obtain ⟨r, hr, _⟩ := exists_validation hw skew binds s
    rw [hr] at hvalidate
    cases hvalidate

end World

/-- With any validator, exactly what is found first is answered to the presentation of a credential.
It is valid exactly for a token that is accepted, with a credential of the type whose flag is true;
in memory these are the tokens that pass all stages, and an answer is always given. -/
theorem credential_presentations :
    (∀ {W : Type} (e : Engine W) (v : CredentialVerifier W) (p : Json) (w : W),
      e.verifier? .credential = some v.verifier → e.JudgesCredential v p w) ∧
    ∀ (e : Engine World) (skew : Nat) (binds : Bool) (expectedType flag : String) (p : Json)
      (w : World), e.toSurroundings = World.surroundings →
      e.verifier? .credential
        = some (CredentialVerifier.verifier ⟨World.validator skew binds, expectedType, flag⟩) →
      w.cancelled = false → w.AnswersCredential e skew binds expectedType flag p :=
  ⟨fun _ _ p w he => Engine.judgesCredential he p w,
    fun _ _ _ _ _ _ _ hsurroundings he hw => World.answersCredential hw hsurroundings he⟩

/-! A credential of the type whose flag is true, and a text that is no token. -/

namespace World

def ageVerifier : CredentialVerifier World := ⟨validator 300 true, "AgeOver18", "satisfied"⟩

def ageEngine : Engine World := engine.register ageVerifier.verifier

def presenting (token : String) : Json := .object [("credential", .string token)]

theorem presents_presenting (token : String) :
    CredentialVerifier.Presents (presenting token) token := ⟨_, rfl, rfl⟩

/-- The validator accepts the first, and its key is given as the issuer; it refuses the other. -/
theorem credential_presentations_sample :
    ageEngine.verify (Engine.credentialRequest (presenting flaggedToken))
        (run sampleLater sampleWorld) =
      (.ok ⟨true, [.valid], some "legacy-vc", some "k1", (run sampleLater sampleWorld).clock.now⟩,
        run sampleLater sampleWorld) ∧
    ageEngine.verify (Engine.credentialRequest (presenting "a")) (run sampleLater sampleWorld) =
      (.ok ⟨false, [.credentialInvalid, .malformedToken], some "legacy-vc", none,
        (run sampleLater sampleWorld).clock.now⟩, run sampleLater sampleWorld) := by
  obtain ⟨hjudges, hanswers⟩ := credential_presentations
  constructor
  · obtain ⟨r, hr, hvalid⟩ := hanswers ageEngine 300 true "AgeOver18" "satisfied"
      (presenting flaggedToken) (run sampleLater sampleWorld) rfl rfl rfl
    have hr_valid : r.valid = true :=
      hvalid.mpr ⟨_, _, _, _, _, presents_presenting _, accepts_flagged, rfl, rfl⟩
    obtain ⟨_, _, reasons, issuer, hfinds, rfl⟩ :=
      ((hjudges ageEngine ageVerifier _ _ rfl).answer_iff _ _).mp hr
    obtain rfl : reasons = [.valid] := of_decide_eq_true hr_valid
    cases hfinds with
    | accepted hp _ _ _ hdecode hkey =>
      obtain ⟨_, hobject, hget⟩ := hp
      cases hobject
      cases hget
      obtain rfl := Except.ok.inj (hdecode.symm.trans accepts_flagged.decodes)
      rw [Token.keyId?_headerFor] at hkey
      cases hkey
      exact hr
  · refine ((hjudges ageEngine ageVerifier _ _ rfl).answer_iff _ _).mpr
      ⟨rfl, rfl, [.credentialInvalid, .malformedToken], none, ?_, rfl⟩
    have hvalidate : ageVerifier.validator.validate "a" (run sampleLater sampleWorld) =
        (.ok _, _) := rfl
    exact .refused (presents_presenting "a") hvalidate rfl (by decide)

end World
end Credentials
