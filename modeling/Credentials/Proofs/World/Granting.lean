import Credentials.Proofs.Cancellation.Operations
import Credentials.Proofs.Validation.Answers

/-!
# Granting no more than another world

Two sorts of worlds are related, and what the collaborators in the one answer, if they answer well at
all, those in the other answer too. Then what is issued, validated or verified in the one is issued,
validated or verified in the other. So a collaborator that fails, or that says there is nothing,
grants nothing.
-/

namespace Credentials

variable {W W' ε ε' α β : Type}

/-- The answers of `s'` that count are also given by `s` in the related worlds. -/
def Grants (R : W' → W → Prop) (counts : α → Prop) (s' : Step W' ε α) (s : Step W ε α) : Prop :=
  ∀ w' w a u', R w' w → s' w' = (.ok a, u') → counts a → ∃ u, s w = (.ok a, u) ∧ R u' u

/-- All answers of `s'` count. -/
abbrev GrantsAll (R : W' → W → Prop) (s' : Step W' ε α) (s : Step W ε α) : Prop :=
  Grants R (fun _ => True) s' s

/-- In related worlds it is the same time, and a signal that has fired in the one has fired in the
other. -/
structure Surroundings.Shows (R : W' → W → Prop) (v' : Surroundings W') (v : Surroundings W) :
    Prop where
  signal : ∀ w' w, R w' w → v'.cancelled w' = false → v.cancelled w = false
  now : ∀ w' w, R w' w → v'.now w' = v.now w

namespace Grants

variable {R : W' → W → Prop} {counts : α → Prop} {counts' : β → Prop} {s' : Step W' ε α}
  {s : Step W ε α} {v' : Surroundings W'} {v : Surroundings W}

theorem ofExcept (r : Except ε α) :
    Grants R counts (Step.ofExcept r : Step W' ε α) (Step.ofExcept r) := by
  intro w' w a u' hw h _
  cases h
  exact ⟨w, rfl, hw⟩

theorem pure (a : α) : Grants R counts (Pure.pure a : Step W' ε α) (Pure.pure a) :=
  ofExcept (.ok a)

theorem throw (e : ε) (s : Step W ε α) :
    Grants R counts (MonadExcept.throw e : Step W' ε α) s := by
  intro w' w a u' _ h
  cases h

theorem time (hv : v'.Shows R v) :
    GrantsAll R (v'.time : Step W' ε Instant) (v.time : Step W ε Instant) := by
  intro w' w a u' hw h _
  cases h
  rw [hv.now w' w hw]
  exact ⟨w, rfl, hw⟩

theorem guarded (h : Grants R counts s' s) (hv : v'.Shows R v) (cause : ε) :
    Grants R counts (v'.guarded cause s') (v.guarded cause s) := by
  intro w' w a u' hw hs ha
  unfold Surroundings.guarded at hs ⊢
  cases hsignal : v'.cancelled w' with
  | true =>
    rw [Step.guarded_of_cancelled hsignal] at hs
    cases hs
  | false =>
    rw [Step.guarded_of_not_cancelled hsignal] at hs
    rw [Step.guarded_of_not_cancelled (hv.signal w' w hw hsignal)]
    exact h w' w a u' hw hs ha

theorem check (hv : v'.Shows R v) (cause : ε) :
    GrantsAll R (v'.check cause) (v.check cause) :=
  (pure ()).guarded hv cause

/-- What is concluded from an answer counts only if that answer did. -/
theorem bind {g' : α → Step W' ε β} {g : α → Step W ε β} (h : Grants R counts s' s)
    (hg : ∀ a, Grants R counts' (g' a) (g a))
    (hcounts : ∀ a w' b u', g' a w' = (.ok b, u') → counts' b → counts a) :
    Grants R counts' (s' >>= g') (s >>= g) := by
  intro w' w b u' hw hs hb
  obtain ⟨a, v', ha, hrest⟩ := Step.bind_eq_ok hs
  obtain ⟨v, hv, hrelated⟩ := h w' w a v' hw ha (hcounts a v' b u' hrest hb)
  obtain ⟨u, hu, hend⟩ := hg a v' v b u' hrelated hrest hb
  exact ⟨u, (Step.bind_of_ok hv).trans hu, hend⟩

theorem bind_all {g' : α → Step W' ε β} {g : α → Step W ε β} (h : GrantsAll R s' s)
    (hg : ∀ a, Grants R counts' (g' a) (g a)) : Grants R counts' (s' >>= g') (s >>= g) :=
  h.bind hg fun _ _ _ _ _ _ => trivial

/-- The answer put differently: what counts then comes from an answer that counted. -/
theorem mapAnswer {k : Except ε α → Except ε' β} {P : ε → Prop} (h : Grants R counts s' s)
    (hs' : s'.FailsWith P) (herror : ∀ e b, P e → k (.error e) = .ok b → ¬ counts' b)
    (hok : ∀ a b, k (.ok a) = .ok b → counts' b → counts a) :
    Grants R counts' (s'.mapAnswer k) (s.mapAnswer k) := by
  intro w' w b u' hw hk hb
  unfold Step.mapAnswer at hk ⊢
  cases hrun : s' w' with
  | mk r v' =>
    rw [hrun] at hk
    obtain ⟨hkr, rfl⟩ := Prod.mk.inj hk
    cases r with
    | error e => exact absurd hb (herror e b (hs' w' e v' hrun) hkr)
    | ok a =>
      obtain ⟨u, hu, hend⟩ := h w' w a v' hw hrun (hok a b hkr hb)
      refine ⟨u, ?_, hend⟩
      rw [hu]
      exact Prod.ext hkr rfl

theorem mapError (h : Grants R counts s' s) (f : ε → ε') :
    Grants R counts (s'.mapError f) (s.mapError f) := by
  have hany : s'.FailsWith fun _ => True := fun _ _ _ _ => trivial
  refine h.mapAnswer (k := fun r => r.mapError f) hany ?_ ?_
  · intro e b _ hk
    cases hk
  · intro a b hk hb
    cases hk
    exact hb

end Grants

variable {R : W' → W → Prop}

/-! Issuing. -/

namespace Issuer

structure Backed (R : W' → W → Prop) (i' : Issuer W') (i : Issuer W) : Prop where
  shows : i'.toSurroundings.Shows R i.toSurroundings
  policies : ∀ id version, GrantsAll R (i'.policies id version) (i.policies id version)
  /-- a key that is said to be retired does not count -/
  current : Grants R (fun found => ∃ k, found = some k ∧ k.isRetired = false) i'.keys.current
    i.keys.current
  signer : ∀ id input, GrantsAll R (i'.signer id input) (i.signer id input)

variable {i' : Issuer W'} {i : Issuer W}

theorem grants_policy (h : Backed R i' i) (q : IssueRequest) :
    GrantsAll R (i'.policy q) (i.policy q) := by
  unfold policy
  refine .bind_all (((h.policies _ _).mapError _).guarded h.shows _) fun found => ?_
  cases found with
  | none => exact .throw _ _
  | some p =>
    dsimp only
    split
    · exact .pure p
    · exact .throw _ _

theorem grants_key (h : Backed R i' i) : GrantsAll R i'.key i.key := by
  unfold key
  refine .bind ((h.current.mapError _).guarded h.shows _) (fun found => ?_) ?_
  · cases found with
    | none => exact .throw _ _
    | some k =>
      dsimp only
      split
      · exact .throw _ _
      · exact .pure k
  · intro found w' k u' hk _
    cases found with
    | none => cases hk
    | some k₀ =>
      dsimp only at hk
      split at hk
      · cases hk
      · next hactive => exact ⟨k₀, rfl, Bool.eq_false_iff.mpr hactive⟩

/-- What is issued with such collaborators is issued in the other world. -/
theorem grants_issue (h : Backed R i' i) (id : CredentialId) (q : IssueRequest) :
    GrantsAll R (i'.issue id q) (i.issue id q) := by
  unfold issue
  refine .bind_all (.check h.shows _) fun _ => ?_
  refine .bind_all (grants_policy h q) fun p => ?_
  refine .bind_all (grants_key h) fun k => ?_
  refine .bind_all (.time h.shows) fun now => ?_
  refine .bind_all (.ofExcept _) fun expiry => ?_
  refine .bind_all (.ofExcept _) fun _ => ?_
  refine .bind_all (.ofExcept _) fun policyHash => ?_
  refine .bind_all (.ofExcept _) fun input => ?_
  refine .bind_all (((h.signer _ _).mapError _).guarded h.shows _) fun signature => ?_
  refine .bind_all (.ofExcept _) fun token => ?_
  exact .bind_all (.ofExcept _) fun hash => .pure _

end Issuer

/-! Validating. -/

namespace Validator

structure Backed (R : W' → W → Prop) (v' : Validator W') (v : Validator W) : Prop where
  shows : v'.toSurroundings.Shows R v.toSurroundings
  find : ∀ id, GrantsAll R (v'.keys.find id) (v.keys.find id)
  policies : Option.Rel (fun d' d => ∀ id version, GrantsAll R (d' id version) (d id version))
    v'.policies v.policies
  skew : v'.skew = v.skew

variable {v' : Validator W'} {v : Validator W}

theorem grants_key (h : Backed R v' v) (id : KeyId) : GrantsAll R (v'.key id) (v.key id) := by
  unfold key
  refine .bind_all (((h.find id).mapError _).guarded h.shows _) fun found => ?_
  cases found with
  | none => exact .throw _ _
  | some k =>
    dsimp only
    split
    · exact .throw _ _
    · exact .pure k

section Policies

variable {policies' : PolicyDirectory W'} {policies : PolicyDirectory W}
  (hpolicies : ∀ id version, GrantsAll R (policies' id version) (policies id version))

include hpolicies

theorem grants_versions (h : Backed R v' v) (id : KeyId) (p : PolicyId) (ns : List PolicyVersion) :
    GrantsAll R (v'.versions policies' id p ns) (v.versions policies id p ns) := by
  induction ns with
  | nil => exact .pure []
  | cons n ns ih =>
    unfold versions
    refine .bind_all (((hpolicies _ _).mapError _).guarded h.shows _) fun found => ?_
    exact .bind_all ih fun rest => .pure _

theorem grants_bind (h : Backed R v' v) (id : KeyId) (c : Credential) :
    GrantsAll R (v'.bind policies' id c) (v.bind policies id c) := by
  unfold bind
  refine .bind_all (((hpolicies _ _).mapError _).guarded h.shows _) fun current => ?_
  cases current with
  | none => exact .throw _ _
  | some p =>
    refine .bind_all (grants_versions hpolicies h id c.policyId p.compatible) fun others => ?_
    split
    · exact .pure ()
    · exact .throw _ _

end Policies

theorem grants_run (h : Backed R v' v) (token : String) (now : Instant) :
    GrantsAll R (v'.run token now) (v.run token now) := by
  unfold run
  rw [h.skew]
  refine .bind_all (.ofExcept _) fun named => ?_
  refine .bind_all (grants_key h named.2) fun k => ?_
  refine .bind_all (.ofExcept _) fun c => ?_
  have hpolicies := h.policies
  revert hpolicies
  cases v'.policies with
  | none =>
    cases v.policies with
    | none => exact fun _ => .pure _
    | some policies => exact nofun
  | some policies' =>
    cases v.policies with
    | none => exact nofun
    | some policies =>
      rintro ⟨hpolicies⟩
      exact .bind_all (grants_bind hpolicies h named.2 c) fun _ => .pure _

/-- A token that is valid with such collaborators is valid in the other world. -/
theorem grants_validate (h : Backed R v' v) (token : String) :
    Grants R (fun r => r.isValid = true) (v'.validate token) (v.validate token) := by
  simp only [validate_eq]
  refine .bind_all (.check h.shows _) fun _ => ?_
  refine .bind_all (.time h.shows) fun now => ?_
  refine (grants_run h token now).mapAnswer (failsWith_run v' token now) ?_ ?_
  · intro e r he hr
    cases e with
    | refused refusal =>
      cases hr
      exact fun hvalid => he (of_decide_eq_true hvalid)
    | cancelled => cases hr
  · intro _ _ _ _
    exact trivial

end Validator

/-! Verifying the presentation of a credential. -/

namespace CredentialVerifier

theorem isValid_of_judge {v : CredentialVerifier W} {r : Validation} {verdict : Verdict}
    (h : v.judge r = .ok verdict) (hvalid : verdict.isValid = true) : r.isValid = true := by
  unfold judge at h
  split at h
  · assumption
  · assumption
  · split at h
    · cases h
    · cases h
      simp [reject, Verdict.reject, Verdict.isValid] at hvalid

theorem grants_verify {v' : Validator W'} {v : Validator W} (h : v'.Backed R v)
    (expectedType flag : String) (presentation : Json) :
    Grants R (fun verdict => verdict.isValid = true)
      (CredentialVerifier.verify ⟨v', expectedType, flag⟩ presentation)
      (CredentialVerifier.verify ⟨v, expectedType, flag⟩ presentation) := by
  unfold verify
  cases token? presentation with
  | none => exact .pure _
  | some token =>
    refine .bind ((Validator.grants_validate h token).mapError _) (fun r => .ofExcept _) ?_
    intro r w' verdict u' hr hvalid
    exact isValid_of_judge (Step.eq_ok_of_ofExcept hr) hvalid

end CredentialVerifier

/-! Verifying zero-knowledge presentations. -/

namespace ZeroKnowledgeVerifier

structure Backed (R : W' → W → Prop) (v' : ZeroKnowledgeVerifier W')
    (v : ZeroKnowledgeVerifier W) : Prop where
  shows : v'.toSurroundings.Shows R v.toSurroundings
  policies : ∀ id version, GrantsAll R (v'.policies id version) (v.policies id version)
  proofs : ∀ q, GrantsAll R (v'.proofs q) (v.proofs q)
  settings : v'.settings = v.settings

variable {v' : ZeroKnowledgeVerifier W'} {v : ZeroKnowledgeVerifier W}

/-- A stop that does not call the presentation valid. -/
def Stop.Adverse (e : Stop) : Prop := e ≠ .rejected .valid

theorem Rejects.adverse {e : Stop} (h : Rejects e) : e.Adverse := by
  obtain ⟨reason, hmem, rfl⟩ := h
  intro heq
  cases heq
  exact absurd hmem (by decide)

theorem failsWith_lookup (v : ZeroKnowledgeVerifier W) (id : PolicyId)
    (version : Option PolicyVersion) : (v.lookup id version).FailsWith Stop.Adverse := by
  rw [lookup_eq_mapAnswer]
  refine Step.failsWith_guarded nofun ?_
  intro w e u h
  have hfound : found (v.policies id version w).1 = .error e := congrArg Prod.fst h
  cases hr : (v.policies id version w).1 with
  | ok d =>
    rw [hr] at hfound
    cases hfound
  | error cause =>
    rw [hr] at hfound
    cases cause <;> cases hfound <;> exact nofun

theorem failsWith_resolve (v : ZeroKnowledgeVerifier W) (id : PolicyId)
    (pinned : Option PolicyVersion) : (v.resolve id pinned).FailsWith Stop.Adverse := by
  have husable (d : PolicyDefinition) :
      (Step.ofExcept (usable d) : Step W Stop PolicyDefinition).FailsWith Stop.Adverse :=
    Step.failsWith_ofExcept fun e he => (usable_eq_error he).adverse
  unfold resolve
  refine Step.failsWith_bind (failsWith_lookup v id none) fun current => ?_
  cases current with
  | none => exact Step.failsWith_throw nofun
  | some d =>
    cases pinned with
    | none => exact husable d
    | some n =>
      dsimp only
      split
      · exact husable d
      · split
        · refine Step.failsWith_bind (failsWith_lookup v id (some n)) fun other => ?_
          cases other with
          | none => exact Step.failsWith_throw nofun
          | some d' => exact husable d'
        · exact Step.failsWith_throw nofun

theorem failsWith_run (v : ZeroKnowledgeVerifier W) (presentation : Json) :
    (v.run presentation).FailsWith Stop.Adverse := by
  have hask (d : PolicyDefinition) (p : ZeroKnowledgePresentation) (proof : Bytes)
      (commitment : String) : (Step.ofExcept (request d p proof commitment) >>= fun q =>
        v.guarded (.failed .cancelled) ((v.proofs q).mapError ofProofService)).FailsWith
          Stop.Adverse := by
    refine Step.failsWith_bind (Step.failsWith_ofExcept fun e he => ?_) fun q => ?_
    · rcases request_eq_error he with hrejects | ⟨_, _, rfl⟩
      · exact hrejects.adverse
      · exact nofun
    · have hproofs (e : ProofServiceError) : (ofProofService e).Adverse := ofProofService_ne_valid e
      exact Step.failsWith_guarded nofun (Step.failsWith_mapError hproofs _)
  unfold run
  refine Step.failsWith_bind (Step.failsWith_ofExcept fun e he => (opened_eq_error he).adverse)
    fun opened => ?_
  have htime : (v.time : Step W Stop Instant).FailsWith Stop.Adverse := fun _ _ _ h => nomatch h
  refine Step.failsWith_bind htime fun now => ?_
  dsimp only
  split
  · exact Step.failsWith_bind (Step.failsWith_throw nofun) fun _ =>
      Step.failsWith_bind (failsWith_resolve v _ _) fun d => hask d _ _ _
  · exact Step.failsWith_bind (failsWith_resolve v _ _) fun d => hask d _ _ _

/-- A policy that is said not to be there does not count. -/
theorem grants_lookup (h : Backed R v' v) (id : PolicyId) (version : Option PolicyVersion) :
    Grants R (fun found => found ≠ none) (v'.lookup id version) (v.lookup id version) := by
  have hany : (v'.policies id version).FailsWith fun _ => True := fun _ _ _ _ => trivial
  simp only [lookup_eq_mapAnswer]
  refine Grants.guarded ((h.policies id version).mapAnswer hany ?_ ?_) h.shows _
  · intro e d _ hd
    cases e with
    | notFound _ =>
      cases hd
      exact fun hne => hne rfl
    | _ => cases hd
  · intro _ _ _ _
    exact trivial

theorem grants_resolve (h : Backed R v' v) (id : PolicyId) (pinned : Option PolicyVersion) :
    GrantsAll R (v'.resolve id pinned) (v.resolve id pinned) := by
  unfold resolve
  refine .bind (grants_lookup h id none) (fun current => ?_) ?_
  · cases current with
    | none => exact .throw _ _
    | some d =>
      cases pinned with
      | none => exact .ofExcept _
      | some n =>
        dsimp only
        split
        · exact .ofExcept _
        · split
          · refine .bind (grants_lookup h id (some n)) (fun other => ?_) ?_
            · cases other with
              | none => exact .throw _ _
              | some d' => exact .ofExcept _
            · rintro other w' d' u' hother _ rfl
              cases hother
          · exact .throw _ _
  · rintro current w' d u' hcurrent _ rfl
    cases hcurrent

theorem grants_run (h : Backed R v' v) (presentation : Json) :
    GrantsAll R (v'.run presentation) (v.run presentation) := by
  have hopened : v'.opened presentation = v.opened presentation := by
    unfold opened
    rw [h.settings]
  have hask (d : PolicyDefinition) (p : ZeroKnowledgePresentation) (proof : Bytes)
      (commitment : String) : GrantsAll R (Step.ofExcept (request d p proof commitment) >>= fun q =>
        v'.guarded (.failed .cancelled) ((v'.proofs q).mapError ofProofService))
        (Step.ofExcept (request d p proof commitment) >>= fun q =>
          v.guarded (.failed .cancelled) ((v.proofs q).mapError ofProofService)) := by
    exact .bind_all (.ofExcept _) fun q => ((h.proofs q).mapError _).guarded h.shows _
  unfold run
  rw [hopened]
  refine .bind_all (.ofExcept _) fun opened => ?_
  refine .bind_all (.time h.shows) fun now => ?_
  dsimp only
  split
  · exact .bind_all (.throw _ _) fun _ => .bind_all (grants_resolve h _ _) fun d => hask d _ _ _
  · exact .bind_all (grants_resolve h _ _) fun d => hask d _ _ _

theorem grants_verify (h : Backed R v' v) (presentation : Json) :
    Grants R (fun verdict => verdict.isValid = true) (v'.verify presentation)
      (v.verify presentation) := by
  have heq : ∀ {X : Type} (x : ZeroKnowledgeVerifier X),
      x.verify presentation = (x.run presentation).mapAnswer conclusion :=
    fun x => funext fun w => x.verify_eq presentation w
  simp only [heq]
  refine (grants_run h presentation).mapAnswer (failsWith_run v' presentation) ?_ ?_
  · intro e verdict he hverdict hvalid
    have hwrong : (Except.error e : Except Stop Bool) ≠ .error (.rejected .valid) :=
      fun heq => he (Except.error.inj heq)
    cases (accepted_conclusion_iff hwrong).mp ⟨verdict, hverdict, hvalid⟩
  · intro _ _ _ _
    exact trivial

end ZeroKnowledgeVerifier

/-! Verifying with an engine. -/

/-- Verifiers of one kind, the one of which calls nothing valid that the other does not. -/
structure Verifier.Backed (R : W' → W → Prop) (v' : Verifier W') (v : Verifier W) : Prop where
  kind : v'.kind = v.kind
  verify : ∀ presentation, Grants R (fun verdict => verdict.isValid = true)
    (v'.verify presentation) (v.verify presentation)

namespace Engine

structure Backed (R : W' → W → Prop) (e' : Engine W') (e : Engine W) : Prop where
  shows : e'.toSurroundings.Shows R e.toSurroundings
  verifiers : ∀ k, Option.Rel (Verifier.Backed R) (e'.verifier? k) (e.verifier? k)

variable {e' : Engine W'} {e : Engine W}

theorem grants_dispatch (h : Backed R e' e) {v' : Verifier W'} {v : Verifier W}
    (hv : v'.Backed R v) (presentation : Json) (now : Instant) :
    Grants R (fun r => r.valid = true) (e'.dispatch v' presentation now)
      (e.dispatch v presentation now) := by
  have hany : (v'.verify presentation).FailsWith fun _ => True := fun _ _ _ _ => trivial
  have hanswer : Grants R (fun r => r.valid = true)
      ((v'.verify presentation).mapAnswer (answer v'.kind now))
      ((v.verify presentation).mapAnswer (answer v'.kind now)) := by
    refine (hv.verify presentation).mapAnswer hany ?_ ?_
    · intro cause r _ hr
      cases cause <;> cases hr <;> exact Bool.false_ne_true
    · intro verdict r hr hvalid
      cases hr
      exact hvalid
  rw [dispatch_eq, dispatch_eq, ← hv.kind]
  refine hanswer.bind (fun r => .bind_all (.check h.shows _) fun _ => .pure r) ?_
  intro r w' b u' hlast hvalid
  obtain ⟨_, _, _, hr⟩ := Step.bind_eq_ok hlast
  cases hr
  exact hvalid

/-- A presentation that is valid for an engine with such verifiers is valid in the other world. -/
theorem grants_verify (h : Backed R e' e) (q : VerificationRequest) :
    Grants R (fun r => r.valid = true) (e'.verify q) (e.verify q) := by
  unfold verify
  refine .bind_all (.check h.shows _) fun _ => ?_
  refine .bind_all (.time h.shows) fun now => ?_
  split
  · exact .pure _
  · exact .pure _
  · next name _ _ =>
    cases PresentationKind.ofName? name with
    | none => exact .pure _
    | some k =>
      simp only [Option.bind_some]
      have hk := h.verifiers k
      revert hk
      cases e'.verifier? k with
      | none =>
        cases e.verifier? k with
        | none => exact fun _ => .pure _
        | some v => exact nofun
      | some v' =>
        cases e.verifier? k with
        | none => exact nofun
        | some v =>
          rintro ⟨hv⟩
          exact grants_dispatch h hv q.presentation now

end Engine
end Credentials
