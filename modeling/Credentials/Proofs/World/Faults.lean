import Credentials.Fault
import Credentials.Proofs.Key.Ring
import Credentials.Proofs.Presentation.Normalization
import Credentials.Proofs.World.Granting
import Credentials.Proofs.World.Run

/-!
# Faults grant nothing

Whatever faults the collaborators of a world have, what is issued, validated or verified among them
is issued, validated or verified without them: a fault takes an answer away, or lets the signal fire.
Where no collaborator that is asked is at fault, nothing is taken away either.
-/

namespace Credentials

theorem optionRel_mono {α β : Type} {P Q : α → β → Prop} (h : ∀ a b, P a b → Q a b)
    {x : Option α} {y : Option β} (hxy : Option.Rel P x y) : Option.Rel Q x y := by
  cases hxy with
  | none => exact .none
  | some hab => exact .some (h _ _ hab)

/-! Verifiers and engines over both sorts of worlds. -/

inductive Verifier.Counterpart : Verifier FaultyWorld → Verifier World → Prop where
  | credential (skew : Nat) (binds : Bool) (expectedType flag : String) :
      Counterpart (CredentialVerifier.verifier ⟨FaultyWorld.validator skew binds, expectedType, flag⟩)
        (CredentialVerifier.verifier ⟨World.validator skew binds, expectedType, flag⟩)
  | zeroKnowledge (settings : ZeroKnowledgeSettings) :
      Counterpart (FaultyWorld.zeroKnowledgeVerifier settings).verifier
        (World.zeroKnowledgeVerifier settings).verifier

theorem Verifier.Counterpart.kind_eq {v' : Verifier FaultyWorld} {v : Verifier World}
    (h : Counterpart v' v) : v'.kind = v.kind := by
  cases h <;> rfl

namespace Engine

/-- Engines with the same verifiers, among faults and without them. -/
structure Counterpart (e' : Engine FaultyWorld) (e : Engine World) : Prop where
  faulty : e'.toSurroundings = FaultyWorld.surroundings
  plain : e.toSurroundings = World.surroundings
  verifiers : ∀ k, Option.Rel Verifier.Counterpart (e'.verifier? k) (e.verifier? k)

theorem verifier?_register {W : Type} (e : Engine W) (v : Verifier W) (k : PresentationKind) :
    (e.register v).verifier? k = if v.kind = k then some v else e.verifier? k := by
  let chosen (n : PresentationKind) : Option (Verifier W) :=
    if v.kind = n then some v else e.verifier? n
  have hkind {n : PresentationKind} {u : Verifier W} (h : chosen n = some u) : u.kind = n := by
    simp only [chosen] at h
    split at h
    · next hn =>
      cases h
      exact hn
    · exact kind_of_verifier? h
  -- only under `k` itself is a verifier of that kind
  have hfound (n : PresentationKind) :
      ((chosen n).any fun u => u.kind = k) = (decide (n = k) && (chosen k).isSome) := by
    cases hn : chosen n with
    | none =>
      by_cases hnk : n = k
      · rw [← hnk, hn]
        simp
      · simp [hnk]
    | some u =>
      rw [Option.any_some, hkind hn]
      by_cases hnk : n = k
      · rw [← hnk, hn]
        simp
      · simp [hnk]
  have hregister : (e.register v).verifier? k =
      (PresentationKind.all.filterMap chosen).find? fun u => u.kind = k := rfl
  rw [hregister, List.find?_filterMap]
  simp only [hfound]
  change _ = chosen k
  cases hk : chosen k with
  | none => cases k <;> rfl
  | some u => cases k <;> exact hk

theorem counterpart_engine : Counterpart FaultyWorld.engine World.engine where
  faulty := rfl
  plain := rfl
  verifiers _ := .none

theorem Counterpart.register {e' : Engine FaultyWorld} {e : Engine World} (h : Counterpart e' e)
    {v' : Verifier FaultyWorld} {v : Verifier World} (hv : v'.Counterpart v) :
    Counterpart (e'.register v') (e.register v) where
  faulty := h.faulty
  plain := h.plain
  verifiers k := by
    rw [verifier?_register, verifier?_register, hv.kind_eq]
    split
    · exact .some hv
    · exact h.verifiers k

end Engine

namespace FaultyWorld

variable {ε α : Type} {f g : FaultyWorld} {w : World}

/-! Faults and the world behind them. -/

/-- The world behind the faults, in which the signal may have fired meanwhile. -/
def Shadows (f : FaultyWorld) (w : World) : Prop := f.world = w ∨ f.world = w.cancel

theorem Shadows.eq (h : Shadows f w) (hf : f.world.cancelled = false) : f.world = w := by
  rcases h with h | h
  · exact h
  · rw [h] at hf
    cases hf

theorem shows_shadows : surroundings.Shows Shadows World.surroundings where
  signal f w hw hf := by
    rw [← hw.eq hf]
    exact hf
  now f w hw := by
    change f.world.clock.now = w.clock.now
    rcases hw with hw | hw
    · rw [hw]
    · rw [hw]
      rfl

section Calls

variable {counts : α → Prop} {cause : ε} {step : Step World ε α}

theorem inside_apply (s : Step World ε α) (f : FaultyWorld) :
    inside s f = ((s f.world).1, { f with world := (s f.world).2 }) := rfl

/-- A guarded call answers nothing once the signal has fired. -/
theorem Shadows.eq_of_guarded {a : α} (hw : Shadows f w)
    (h : (World.surroundings.guarded cause step f.world).1 = .ok a) : f.world = w := by
  cases hf : f.world.cancelled with
  | false => exact hw.eq hf
  | true =>
    have hsignal : World.surroundings.cancelled f.world = true := hf
    rw [Surroundings.guarded, Step.guarded_of_cancelled hsignal] at h
    cases h

theorem grants_inside (cause : ε) (step : Step World ε α) :
    Grants Shadows counts (inside (World.surroundings.guarded cause step))
      (World.surroundings.guarded cause step) := by
  intro f w a g hw h _
  obtain ⟨ha, rfl⟩ := Prod.mk.inj h
  have heq := hw.eq_of_guarded ha
  have hend := congrArg (fun w => (World.surroundings.guarded cause step w).2) heq
  rw [heq] at ha
  exact ⟨_, Prod.ext ha rfl, .inl hend⟩

theorem grants_thenCancel (cause : ε) (step : Step World ε α) :
    Grants Shadows counts (thenCancel (World.surroundings.guarded cause step))
      (World.surroundings.guarded cause step) := by
  intro f w a g hw h _
  obtain ⟨ha, rfl⟩ := Prod.mk.inj h
  have hanswer : (World.surroundings.guarded cause step f.world).1 = .ok a := ha
  have heq := hw.eq_of_guarded hanswer
  have hend := congrArg (fun w => (World.surroundings.guarded cause step w).2.cancel) heq
  rw [heq] at hanswer
  exact ⟨_, Prod.ext hanswer rfl, .inr hend⟩

/-- A call at fault is the call itself, the call with the signal after it, or what replaces it. -/
theorem grants_call (target : FaultTarget) (cause : ε) (step : Step World ε α)
    {replaced : Fault → Option (Step FaultyWorld ε α)}
    (hreplaced : ∀ fault s', replaced fault = some s' →
      Grants Shadows counts s' (World.surroundings.guarded cause step)) :
    Grants Shadows counts (call target (World.surroundings.guarded cause step) replaced)
      (World.surroundings.guarded cause step) := by
  intro f w a g hw h hcounts
  unfold call at h
  split at h
  · exact grants_inside cause step f w a g hw h hcounts
  · exact grants_thenCancel cause step f w a g hw h hcounts
  · next fault _ _ =>
    cases hfault : replaced fault with
    | none =>
      rw [hfault] at h
      exact grants_inside cause step f w a g hw h hcounts
    | some s' =>
      rw [hfault] at h
      exact hreplaced fault s' hfault f w a g hw h hcounts

theorem grants_failing {e : ε} {s' : Step FaultyWorld ε α} {s : Step World ε α}
    (h : failing e = some s') : Grants Shadows counts s' s := by
  cases h
  exact .throw e s

end Calls

/-! The collaborators. -/

theorem grants_policyDirectory (id : PolicyId) (version : Option PolicyVersion) :
    GrantsAll Shadows (policyDirectory id version) (World.policyDirectory id version) := by
  refine grants_call _ _ _ fun fault s' hs' => ?_
  split at hs'
  · exact grants_failing hs'
  · exact grants_failing hs'
  · cases hs'

theorem grants_find (id : KeyId) :
    GrantsAll Shadows (keyDirectory.find id) (World.keyDirectory.find id) := by
  refine grants_call _ _ _ fun fault s' hs' => ?_
  split at hs'
  · exact grants_failing hs'
  · cases hs'

/-- A key that is said to be retired does not count. -/
theorem grants_current :
    Grants Shadows (fun found => ∃ k, found = some k ∧ k.isRetired = false) keyDirectory.current
      World.keyDirectory.current := by
  refine grants_call _ _ _ fun fault s' hs' => ?_
  split at hs'
  · exact grants_failing hs'
  · cases hs'
    rintro f w a g _ h ⟨k, rfl, hk⟩
    obtain ⟨found, _, _, hfound⟩ := Step.bind_eq_ok h
    cases found with
    | none => cases hfound
    | some key =>
      cases hfound
      cases hk
  · cases hs'

/-- Once a key is retired, or if there is no such key, nothing is signed with it. -/
theorem sign_after_retire (id : KeyId) (c : Canonical) (w : World) :
    ∃ e, (World.retireKey id w).2.keys.sign id c = .error e := by
  cases hretire : w.keys.retire id with
  | ok ring =>
    have hstep : World.retireKey id w = (.ok (), { w with keys := ring }) :=
      World.keyStep_of_ok (by rw [hretire]; rfl)
    rw [hstep]
    exact ⟨_, KeyRing.sign_of_retired (KeyRing.retired_of_retire hretire) c⟩
  | error e =>
    have hstep : World.retireKey id w = (.error e, w) :=
      World.keyStep_of_error (by rw [hretire]; rfl)
    rw [hstep]
    cases hsign : w.keys.sign id c with
    | error e => exact ⟨e, rfl⟩
    | ok s =>
      obtain ⟨_, hpair, _⟩ := KeyRing.sign_eq_ok_iff.mp hsign
      obtain ⟨r, hr, _⟩ := KeyRing.signingPair_eq_ok_iff.mp hpair
      rw [KeyRing.retire, hr] at hretire
      cases hretire

theorem grants_signer (id : KeyId) (c : Canonical) :
    GrantsAll Shadows (signer id c) (World.signer id c) := by
  refine grants_call _ _ _ fun fault s' hs' => ?_
  split at hs'
  · exact grants_failing hs'
  · cases hs'
    intro f w s g _ h _
    obtain ⟨e, he⟩ := sign_after_retire id c f.world
    have hanswer : (World.signer id c (World.retireKey id f.world).2).1 = .ok s :=
      congrArg Prod.fst h
    unfold World.signer Surroundings.guarded Step.guarded at hanswer
    split at hanswer
    · cases hanswer
    · have hsign : (World.retireKey id f.world).2.keys.sign id c = .ok s := hanswer
      rw [he] at hsign
      cases hsign
  · cases hs'

theorem grants_proofService (q : ProofRequest) :
    GrantsAll Shadows (proofService q) (World.proofService q) := by
  refine grants_call _ _ _ fun fault s' hs' => ?_
  split at hs'
  · exact grants_failing hs'
  · exact grants_failing hs'
  · exact grants_failing hs'
  · exact grants_failing hs'
  · cases hs'

/-! What is granted among faults. -/

theorem backed_issuer : Issuer.Backed Shadows issuer World.issuer where
  shows := shows_shadows
  policies := grants_policyDirectory
  current := grants_current
  signer := grants_signer

theorem backed_validator (skew : Nat) (binds : Bool) :
    (validator skew binds).Backed Shadows (World.validator skew binds) where
  shows := shows_shadows
  find := grants_find
  policies := by
    cases binds with
    | false => exact .none
    | true => exact .some grants_policyDirectory
  skew := rfl

theorem backed_zeroKnowledgeVerifier (settings : ZeroKnowledgeSettings) :
    (zeroKnowledgeVerifier settings).Backed Shadows (World.zeroKnowledgeVerifier settings) where
  shows := shows_shadows
  policies := grants_policyDirectory
  proofs := grants_proofService
  settings := rfl

theorem backed_of_counterpart {v' : Verifier FaultyWorld} {v : Verifier World}
    (h : v'.Counterpart v) : v'.Backed Shadows v := by
  cases h with
  | credential skew binds expectedType flag =>
    exact ⟨rfl, CredentialVerifier.grants_verify (backed_validator skew binds) expectedType flag⟩
  | zeroKnowledge settings =>
    exact ⟨rfl, ZeroKnowledgeVerifier.grants_verify (backed_zeroKnowledgeVerifier settings)⟩

theorem backed_engine {e' : Engine FaultyWorld} {e : Engine World} (h : e'.Counterpart e) :
    e'.Backed Shadows e where
  shows := by
    rw [h.faulty, h.plain]
    exact shows_shadows
  verifiers k := optionRel_mono (fun _ _ => backed_of_counterpart) (h.verifiers k)

theorem issue_without_faults (id : CredentialId) (q : IssueRequest) {issued : IssuedCredential}
    (h : issuer.issue id q f = (.ok issued, g)) :
    ∃ u, World.issuer.issue id q f.world = (.ok issued, u) := by
  obtain ⟨u, hu, _⟩ :=
    Issuer.grants_issue backed_issuer id q f f.world issued g (.inl rfl) h trivial
  exact ⟨u, hu⟩

theorem validate_without_faults (skew : Nat) (binds : Bool) {token : String} {r : Validation}
    (h : (validator skew binds).validate token f = (.ok r, g)) (hr : r.isValid = true) :
    ∃ u, (World.validator skew binds).validate token f.world = (.ok r, u) := by
  obtain ⟨u, hu, _⟩ :=
    Validator.grants_validate (backed_validator skew binds) token f f.world r g (.inl rfl) h hr
  exact ⟨u, hu⟩

theorem verify_without_faults {e' : Engine FaultyWorld} {e : Engine World} (he : e'.Counterpart e)
    {q : VerificationRequest} {r : VerificationResult} (h : e'.verify q f = (.ok r, g))
    (hr : r.valid = true) : ∃ u, e.verify q f.world = (.ok r, u) := by
  obtain ⟨u, hu, _⟩ :=
    Engine.grants_verify (backed_engine he) q f f.world r g (.inl rfl) h hr
  exact ⟨u, hu⟩

/-! What is granted where nothing that is asked is at fault. -/

/-- The world behind, if none of these collaborators is at fault. -/
def Faultless (asked : List FaultTarget) (w : World) (f : FaultyWorld) : Prop :=
  f.world = w ∧ ∀ t ∈ asked, f.fault? t = none

section Faultless

variable {asked : List FaultTarget} {counts : α → Prop}

theorem shows_faultless : World.surroundings.Shows (Faultless asked) surroundings where
  signal w f hf hw := by
    obtain ⟨rfl, _⟩ := hf
    exact hw
  now w f hf := by
    obtain ⟨rfl, _⟩ := hf
    rfl

/-- A call that is not at fault is the call itself. -/
theorem grants_faultless_call {target : FaultTarget} (ht : target ∈ asked) (s : Step World ε α)
    (replaced : Fault → Option (Step FaultyWorld ε α)) :
    Grants (Faultless asked) counts s (call target s replaced) := by
  intro w f a u hf h _
  obtain ⟨rfl, hnone⟩ := hf
  refine ⟨{ f with world := u }, ?_, rfl, hnone⟩
  rw [call, hnone target ht]
  change inside s f = _
  rw [inside_apply, h]

theorem grants_faultless_policies (hcurrent : .currentPolicy ∈ asked)
    (hpinned : .pinnedPolicy ∈ asked) (id : PolicyId) (version : Option PolicyVersion) :
    GrantsAll (Faultless asked) (World.policyDirectory id version) (policyDirectory id version) := by
  apply grants_faultless_call
  split
  · exact hpinned
  · exact hcurrent

/-- Whom issuing asks. -/
def issuing : List FaultTarget := [.currentKey, .signer, .currentPolicy, .pinnedPolicy]

/-- Whom validating and verifying ask. -/
def verifying : List FaultTarget := [.key, .currentPolicy, .pinnedPolicy, .proofs]

theorem backed_faultless_issuer : Issuer.Backed (Faultless issuing) World.issuer issuer where
  shows := shows_faultless
  policies := grants_faultless_policies (by decide) (by decide)
  current := grants_faultless_call (by decide) _ _
  signer _ _ := grants_faultless_call (by decide) _ _

theorem backed_faultless_validator (skew : Nat) (binds : Bool) :
    (World.validator skew binds).Backed (Faultless verifying) (validator skew binds) where
  shows := shows_faultless
  find _ := grants_faultless_call (by decide) _ _
  policies := by
    cases binds with
    | false => exact .none
    | true => exact .some (grants_faultless_policies (by decide) (by decide))
  skew := rfl

theorem backed_faultless_zeroKnowledgeVerifier (settings : ZeroKnowledgeSettings) :
    (World.zeroKnowledgeVerifier settings).Backed (Faultless verifying)
      (zeroKnowledgeVerifier settings) where
  shows := shows_faultless
  policies := grants_faultless_policies (by decide) (by decide)
  proofs _ := grants_faultless_call (by decide) _ _
  settings := rfl

theorem backed_faultless_engine {e' : Engine FaultyWorld} {e : Engine World}
    (h : e'.Counterpart e) : e.Backed (Faultless verifying) e' where
  shows := by
    rw [h.faulty, h.plain]
    exact shows_faultless
  verifiers k := by
    have hk := h.verifiers k
    revert hk
    cases e'.verifier? k with
    | none =>
      cases e.verifier? k with
      | none => exact fun _ => .none
      | some v => exact nofun
    | some v' =>
      cases e.verifier? k with
      | none => exact nofun
      | some v =>
        rintro ⟨hv⟩
        refine .some ⟨hv.kind_eq.symm, ?_⟩
        cases hv with
        | credential skew binds expectedType flag =>
          exact CredentialVerifier.grants_verify (backed_faultless_validator skew binds) _ _
        | zeroKnowledge settings =>
          exact ZeroKnowledgeVerifier.grants_verify
            (backed_faultless_zeroKnowledgeVerifier settings)

end Faultless

theorem issue_iff_of_faultless (hf : ∀ t ∈ issuing, f.fault? t = none) (id : CredentialId)
    (q : IssueRequest) (issued : IssuedCredential) :
    (∃ g, issuer.issue id q f = (.ok issued, g)) ↔
      ∃ u, World.issuer.issue id q f.world = (.ok issued, u) := by
  constructor
  · rintro ⟨g, h⟩
    exact issue_without_faults id q h
  · rintro ⟨u, h⟩
    obtain ⟨g, hg, _⟩ :=
      Issuer.grants_issue backed_faultless_issuer id q f.world f issued u ⟨rfl, hf⟩ h trivial
    exact ⟨g, hg⟩

theorem validate_iff_of_faultless (hf : ∀ t ∈ verifying, f.fault? t = none) (skew : Nat)
    (binds : Bool) (token : String) {r : Validation} (hr : r.isValid = true) :
    (∃ g, (validator skew binds).validate token f = (.ok r, g)) ↔
      ∃ u, (World.validator skew binds).validate token f.world = (.ok r, u) := by
  constructor
  · rintro ⟨g, h⟩
    exact validate_without_faults skew binds h hr
  · rintro ⟨u, h⟩
    obtain ⟨g, hg, _⟩ := Validator.grants_validate (backed_faultless_validator skew binds) token
      f.world f r u ⟨rfl, hf⟩ h hr
    exact ⟨g, hg⟩

theorem verify_iff_of_faultless (hf : ∀ t ∈ verifying, f.fault? t = none)
    {e' : Engine FaultyWorld} {e : Engine World} (he : e'.Counterpart e)
    (q : VerificationRequest) {r : VerificationResult} (hr : r.valid = true) :
    (∃ g, e'.verify q f = (.ok r, g)) ↔ ∃ u, e.verify q f.world = (.ok r, u) := by
  constructor
  · rintro ⟨g, h⟩
    exact verify_without_faults he h hr
  · rintro ⟨u, h⟩
    obtain ⟨g, hg, _⟩ :=
      Engine.grants_verify (backed_faultless_engine he) q f.world f r u ⟨rfl, hf⟩ h hr
    exact ⟨g, hg⟩

end FaultyWorld
end Credentials
