import Credentials.Proofs.Checks
import Credentials.Proofs.Issuance.Acceptance
import Credentials.Proofs.Time.Text
import Credentials.Proofs.World.Failures

/-!
# The period of validity

A credential is issued for a period that is not empty: from the time of the clock to the end that is
asked for, or to the end of the policy's lifetime, which is added exactly or not at all. What speaks
against a request is looked at in one order, and the first of it is the answer.
-/

namespace Credentials

/-- What is looked at when a credential is asked for. -/
inductive IssueCheck where
  | policyFound
  | policyActive
  | keyPresent
  | expiry
  | start

/-- In this order. -/
def IssueCheck.all : List IssueCheck := [.policyFound, .policyActive, .keyPresent, .expiry, .start]

namespace IssueRequest

variable {q : IssueRequest} {id : CredentialId} {p : PolicyDefinition}
  {found : Option PolicyDefinition} {current : Option IssuerKey} {now expiry : Instant}
  {sign : KeyId → Canonical → Except KeyServiceError Signature}

/-! Ends and starts. -/

/-- An end of validity: the one that is asked for if it is later than now, and otherwise the one
that is exactly the lifetime of the policy away. -/
inductive Ends (q : IssueRequest) (p : PolicyDefinition) (now : Instant) : Instant → Prop where
  | asked {e : Instant} : q.expiry = some e → now < e → Ends q p now e
  | lifetime {e : Instant} : q.expiry = none → e.epoch = now.epoch + p.lifetime.toNat →
      Ends q p now e

def StartsWithin (q : IssueRequest) (now expiry : Instant) : Prop :=
  ∀ s ∈ q.notBefore, now ≤ s ∧ s < expiry

theorem lifetimeSecs_of_proper (hp : p.Proper) : (p.lifetimeSecs : Int) = p.lifetime.toNat := by
  have hle : p.lifetime.toNat ≤ PolicyDefinition.maxLifetime :=
    Nat.not_lt.mp fun hlt => hp.lifetime (Or.inr hlt)
  rw [PolicyDefinition.lifetimeSecs, Nat.min_eq_left hle]

theorem expiresAt_eq_ok_iff (hp : p.Proper) :
    q.expiresAt p now = .ok expiry ↔ q.Ends p now expiry := by
  unfold expiresAt
  constructor
  · intro h
    split at h
    · next e he =>
      split at h
      · next hlt =>
        cases h
        exact .asked he hlt
      · cases h
    · next hnone =>
      split at h
      · next e hadd =>
        cases h
        refine .lifetime hnone ?_
        rw [Instant.add?_eq_some_iff.mp hadd, lifetimeSecs_of_proper hp]
      · cases h
  · intro h
    cases h with
    | asked he hlt =>
      rw [he]
      exact if_pos hlt
    | lifetime hnone hepoch =>
      have hadd : now.add? p.lifetimeSecs = some expiry := by
        rw [Instant.add?_eq_some_iff, hepoch, lifetimeSecs_of_proper hp]
      rw [hnone]
      simp only [hadd]

theorem Ends.unique (hp : p.Proper) {e : Instant} (h : q.Ends p now expiry) (he : q.Ends p now e) :
    expiry = e :=
  Except.ok.inj (((expiresAt_eq_ok_iff hp).mpr h).symm.trans ((expiresAt_eq_ok_iff hp).mpr he))

/-- No end of validity is reached at once, since no lifetime is zero. -/
theorem Ends.now_lt (hp : p.Proper) (h : q.Ends p now expiry) : now < expiry := by
  cases h with
  | asked _ hlt => exact hlt
  | lifetime _ hepoch =>
    have hne : p.lifetime.toNat ≠ 0 := by
      intro hzero
      exact hp.lifetime (Or.inl (UInt64.toNat_inj.mp hzero))
    change now.epoch < expiry.epoch
    omega

theorem checkStart_eq_ok_iff : q.checkStart now expiry = .ok () ↔ q.StartsWithin now expiry := by
  unfold checkStart StartsWithin
  cases q.notBefore with
  | none => simp
  | some s =>
    have hnow : s < now ↔ ¬ now ≤ s := Int.not_le.symm
    have hexpiry : expiry ≤ s ↔ ¬ s < expiry := Int.not_lt.symm
    dsimp only
    split
    · next hlt => simp [hnow.mp hlt]
    · next hge =>
      split
      · next hle => simp [hexpiry.mp hle]
      · next hlt => simp [not_imp_comm.mp hnow.mpr hge, not_imp_comm.mp hexpiry.mpr hlt]

/-! Checks. -/

/-- What each check asks for, of the policy that is found, the current key and the time. -/
inductive Passes (q : IssueRequest) (found : Option PolicyDefinition) (current : Option IssuerKey)
    (now : Instant) : IssueCheck → Prop where
  | policyFound {p : PolicyDefinition} : found = some p → Passes q found current now .policyFound
  | policyActive {p : PolicyDefinition} : found = some p → p.status = .active →
      Passes q found current now .policyActive
  | keyPresent {k : IssuerKey} : current = some k → k.isRetired = false →
      Passes q found current now .keyPresent
  | expiry {p : PolicyDefinition} {e : Instant} : found = some p → q.Ends p now e →
      Passes q found current now .expiry
  | start {p : PolicyDefinition} {e : Instant} : found = some p → q.Ends p now e →
      q.StartsWithin now e → Passes q found current now .start

/-- What is answered when a check is the first to fail. -/
inductive Reports (q : IssueRequest) (found : Option PolicyDefinition) (now : Instant) :
    IssueCheck → IssuanceError → Prop where
  | policyFound : Reports q found now .policyFound (.policyNotFound q.policyId)
  | policyActive {p : PolicyDefinition} : found = some p →
      Reports q found now .policyActive (.policyInactive p.id p.status)
  | keyPresent : Reports q found now .keyPresent .noSigningKey
  | expiryNotAfter {e : Instant} : q.expiry = some e →
      Reports q found now .expiry (.expiryNotAfter e now)
  | expiryOverflows : q.expiry = none → Reports q found now .expiry .expiryOverflows
  | notBeforePrecedes {s : Instant} : q.notBefore = some s → s < now →
      Reports q found now .start (.notBeforePrecedes s now)
  | notBeforeReaches {p : PolicyDefinition} {s e : Instant} : q.notBefore = some s → now ≤ s →
      found = some p → q.Ends p now e → Reports q found now .start (.notBeforeReaches s e)

theorem Reports.unique (hfound : ∀ p ∈ found, p.Proper) {check : IssueCheck} {e e' : IssuanceError}
    (h : q.Reports found now check e) (h' : q.Reports found now check e') : e = e' := by
  cases h with
  | policyFound => cases h'; rfl
  | keyPresent => cases h'; rfl
  | policyActive hp =>
    cases h' with
    | policyActive hp' => rw [Option.some.inj (hp.symm.trans hp')]
  | expiryNotAfter he =>
    cases h' with
    | expiryNotAfter he' => rw [Option.some.inj (he.symm.trans he')]
    | expiryOverflows hnone => cases he.symm.trans hnone
  | expiryOverflows hnone =>
    cases h' with
    | expiryNotAfter he => cases he.symm.trans hnone
    | expiryOverflows _ => rfl
  | notBeforePrecedes hs hlt =>
    cases h' with
    | notBeforePrecedes hs' _ => rw [Option.some.inj (hs.symm.trans hs')]
    | notBeforeReaches hs' hle _ _ =>
      obtain rfl := Option.some.inj (hs.symm.trans hs')
      exact absurd hlt (Int.not_lt.mpr hle)
  | notBeforeReaches hs hle hp hends =>
    cases h' with
    | notBeforePrecedes hs' hlt =>
      obtain rfl := Option.some.inj (hs.symm.trans hs')
      exact absurd hlt (Int.not_lt.mpr hle)
    | notBeforeReaches hs' _ hp' hends' =>
      obtain rfl := Option.some.inj (hp.symm.trans hp')
      rw [Option.some.inj (hs.symm.trans hs'), hends.unique (hfound _ hp) hends']

theorem reports_of_checkKey {e : IssuanceError} (h : checkKey current = .error e) :
    q.Reports found now .keyPresent e := by
  unfold checkKey at h
  split at h
  · cases h
    exact .keyPresent
  · split at h
    · cases h
      exact .keyPresent
    · cases h

theorem reports_of_expiresAt {e : IssuanceError} (h : q.expiresAt p now = .error e) :
    q.Reports found now .expiry e := by
  unfold expiresAt at h
  split at h
  · next he =>
    split at h
    · cases h
    · cases h
      exact .expiryNotAfter he
  · next hnone =>
    split at h
    · cases h
    · cases h
      exact .expiryOverflows hnone

theorem reports_of_checkStart (hfound : found = some p) (hends : q.Ends p now expiry)
    {e : IssuanceError} (h : q.checkStart now expiry = .error e) :
    q.Reports found now .start e := by
  unfold checkStart at h
  split at h
  · cases h
  · next hs =>
    split at h
    · next hlt =>
      cases h
      exact .notBeforePrecedes hs hlt
    · next hge =>
      split at h
      · cases h
        exact .notBeforeReaches hs (Int.not_lt.mp hge) hfound hends
      · cases h

/-- Some checks of a request are made in their order. -/
def Checks {α : Type} (q : IssueRequest) (found : Option PolicyDefinition)
    (current : Option IssuerKey) (now : Instant) (checks : List IssueCheck)
    (x : Except IssuanceError α) : Prop :=
  MakesChecks (q.Passes found current now) (q.Reports found now) checks x

/-- One check that is settled by a function of its own. -/
theorem checks_single {α : Type} {x : Except IssuanceError α} {check : IssueCheck}
    (hfound : ∀ p ∈ found, p.Proper)
    (hpass : (∃ a, x = .ok a) ↔ q.Passes found current now check)
    (hfail : ∀ e, x = .error e → q.Reports found now check e) :
    q.Checks found current now [check] x := by
  refine MakesChecks.single hpass.mpr (fun h => ?_) fun _ _ => Reports.unique hfound
  cases x with
  | ok a => exact absurd (hpass.mp ⟨a, rfl⟩) h
  | error e => exact ⟨e, rfl, hfail e rfl⟩

theorem checks_checkPolicy (hfound : ∀ p ∈ found, p.Proper) :
    q.Checks found current now [.policyFound, .policyActive] (q.checkPolicy found) := by
  unfold checkPolicy
  split
  · refine MakesChecks.failed (fun h => ?_) .policyFound fun _ => Reports.unique hfound .policyFound
    cases h with
    | policyFound hp => cases hp
  · next p =>
    refine MakesChecks.passed (.policyFound rfl) ?_
    split
    · next hactive => exact MakesChecks.passed (.policyActive rfl hactive) (.ok p)
    · next hinactive =>
      refine MakesChecks.failed (fun h => ?_) (.policyActive rfl) fun _ =>
        Reports.unique hfound (.policyActive rfl)
      cases h with
      | policyActive hp hactive =>
        cases hp
        exact hinactive hactive

theorem checks_checkKey (hfound : ∀ p ∈ found, p.Proper) :
    q.Checks found current now [.keyPresent] (checkKey current) := by
  refine checks_single hfound ?_ fun _ => reports_of_checkKey
  simp only [checkKey_eq_ok_iff]
  constructor
  · rintro ⟨k, hk, husable⟩
    exact .keyPresent hk husable
  · intro h
    cases h with
    | keyPresent hk husable => exact ⟨_, hk, husable⟩

section Found

variable (hfound : ∀ p ∈ found, p.Proper) (hp : found = some p)
include hfound hp

theorem checks_expiresAt : q.Checks found current now [.expiry] (q.expiresAt p now) := by
  have hproper := hfound p hp
  refine checks_single hfound ?_ fun _ => reports_of_expiresAt
  simp only [expiresAt_eq_ok_iff hproper]
  constructor
  · rintro ⟨e, hends⟩
    exact .expiry hp hends
  · intro h
    cases h with
    | expiry hp' hends =>
      obtain rfl := Option.some.inj (hp.symm.trans hp')
      exact ⟨_, hends⟩

theorem checks_checkStart (hends : q.Ends p now expiry) :
    q.Checks found current now [.start] (q.checkStart now expiry) := by
  have hproper := hfound p hp
  refine checks_single hfound ?_ fun _ => reports_of_checkStart hp hends
  constructor
  · rintro ⟨⟨⟩, h⟩
    exact .start hp hends (checkStart_eq_ok_iff.mp h)
  · intro h
    cases h with
    | start hp' hends' hstart =>
      obtain rfl := Option.some.inj (hp.symm.trans hp')
      rw [hends'.unique hproper hends] at hstart
      exact ⟨(), checkStart_eq_ok_iff.mpr hstart⟩

end Found

/-- All checks of a request, as long as the current key signs. -/
theorem checks_outcome (hfound : ∀ p ∈ found, p.Proper)
    (hsign : ∀ k ∈ current, ∀ c, ∃ s, sign k.id c = .ok s) :
    q.Checks found current now IssueCheck.all (q.outcome id found current now sign) := by
  refine MakesChecks.bind (checks_checkPolicy hfound) fun p hpolicy => ?_
  have hp := (checkPolicy_eq_ok_iff.mp hpolicy).1
  refine MakesChecks.bind (checks_checkKey hfound) fun k hkey => ?_
  refine MakesChecks.bind (checks_expiresAt hfound hp) fun expiry hexpiry => ?_
  have hends := (expiresAt_eq_ok_iff (hfound p hp)).mp hexpiry
  refine MakesChecks.bind (checks_checkStart hfound hp hends) fun _ _ => ?_
  obtain ⟨s, hs⟩ := hsign k (checkKey_eq_ok_iff.mp hkey).1 (Token.signingInput
    (Token.headerFor k.id) (q.credential id p k.id now expiry).toPayload)
  rw [hs]
  exact MakesChecks.ok _

/-- The period of validity of a credential that was issued under a policy at a time. -/
structure ValidFrom (q : IssueRequest) (p : PolicyDefinition) (now : Instant) (c : Credential) :
    Prop where
  issued : c.issuedAt = now
  lasts : c.issuedAt < c.expiresAt
  asked : ∀ e ∈ q.expiry, c.expiresAt = e
  lifetime : q.expiry = none → c.expiresAt.epoch = c.issuedAt.epoch + p.lifetime.toNat
  start : c.notBefore = q.notBefore
  starts : ∀ s ∈ c.notBefore, c.issuedAt ≤ s ∧ s < c.expiresAt

theorem validFrom_credential (hp : p.Proper) (hends : q.Ends p now expiry)
    (hstart : q.StartsWithin now expiry) (k : KeyId) :
    q.ValidFrom p now (q.credential id p k now expiry) where
  issued := rfl
  lasts := hends.now_lt hp
  asked := by
    intro e he
    cases hends with
    | asked he' _ => exact Option.some.inj (he'.symm.trans he)
    | lifetime hnone _ =>
      rw [hnone] at he
      cases he
  lifetime := by
    intro hnone
    cases hends with
    | asked he _ =>
      rw [hnone] at he
      cases he
    | lifetime _ hepoch => exact hepoch
  start := rfl
  starts := hstart

end IssueRequest

namespace World

variable {w : World}

/-- Validity periods in reachable worlds: what is issued is valid for the exact period, and
otherwise the first check that fails is reported, be it a lifetime that ends after the last
instant. -/
theorem issue_validity (hw : Reached w) (id : CredentialId) (q : IssueRequest) :
    (∀ issued v, issuer.issue id q w = (.ok issued, v) →
      ∃ p, w.policies.get? q.policyId q.version = some p ∧
        q.ValidFrom p w.clock.now issued.credential) ∧
    q.Checks (w.policies.get? q.policyId q.version) w.keys.currentKey? w.clock.now
      IssueCheck.all (issuer.issue id q w).1 ∧
    (∀ p k, w.policies.get? q.policyId q.version = some p → p.status = .active →
      w.keys.currentKey? = some k → q.expiry = none →
      Instant.greatest.epoch < w.clock.now.epoch + p.lifetime.toNat →
      (issuer.issue id q w).1 = .error .expiryOverflows) := by
  have hsettled := hw.settled
  have hchecks : q.Checks (w.policies.get? q.policyId q.version) w.keys.currentKey? w.clock.now
      IssueCheck.all (issuer.issue id q w).1 := by
    rw [issue_eq hw.not_cancelled]
    exact IssueRequest.checks_outcome (fun _ hp => hsettled.proper hp) fun _ hk => hsettled.signs hk
  refine ⟨fun issued v h => ?_, hchecks, fun p k hp hactive hk hnone hlate => ?_⟩
  · obtain ⟨-, p, k, expiry, s, hissues, rfl⟩ := (issue_eq_ok_iff hw.not_cancelled).mp h
    have hproper := hsettled.proper hissues.policy
    refine ⟨p, hissues.policy, IssueRequest.validFrom_credential hproper ?_ ?_ k.id⟩
    · exact (IssueRequest.expiresAt_eq_ok_iff hproper).mp hissues.expires
    · exact IssueRequest.checkStart_eq_ok_iff.mp hissues.starts
  · refine (hchecks.error_iff _).mpr ⟨.expiry, ?_, .expiryOverflows hnone⟩
    refine .later (.policyFound hp) (.later (.policyActive hp hactive)
      (.later (.keyPresent hk (currentKey?_isRetired hk)) (.here fun h => ?_)))
    cases h with
    | expiry hfound hends =>
      obtain rfl := Option.some.inj (hp.symm.trans hfound)
      cases hends with
      | asked he _ =>
        rw [hnone] at he
        cases he
      | lifetime _ hepoch =>
        have hgreatest := Instant.le_greatest ‹Instant›
        rw [hepoch] at hgreatest
        exact absurd hlate (Int.not_lt.mpr hgreatest)

/-- At the last instant a lifetime overflows; before that it is added. -/
theorem issue_validity_sample : Reached sampleWorld ∧
    (∃ issued, issuer.issue ⟨Uuid.nil⟩ (sampleRequest []) sampleWorld = (.ok issued, sampleWorld) ∧
      (sampleRequest []).ValidFrom samplePolicy sampleTime issued.credential) ∧
    (issuer.issue ⟨Uuid.nil⟩ (sampleRequest []) (sampleWorld.setClock .greatest)).1
      = .error .expiryOverflows := by
  refine ⟨reached_sampleWorld, ?_, ?_⟩
  · obtain ⟨issued, hissue, _, _⟩ := issue_sampleRequest []
    obtain ⟨hvalid, _, _⟩ := issue_validity reached_sampleWorld ⟨Uuid.nil⟩ (sampleRequest [])
    obtain ⟨p, hp, hvalid⟩ := hvalid issued _ hissue
    obtain rfl : p = samplePolicy := Option.eq_some_unique hp rfl
    exact ⟨issued, hissue, hvalid⟩
  · have hreached : Reached (sampleWorld.setClock .greatest) :=
      reached_sampleWorld.run [.setClock .greatest]
    obtain ⟨_, _, hoverflow⟩ := issue_validity hreached ⟨Uuid.nil⟩ (sampleRequest [])
    exact hoverflow samplePolicy sampleKey rfl rfl rfl rfl (by decide)

end World
end Credentials
