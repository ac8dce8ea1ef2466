import Credentials.Proofs.Policy.Registration

/-!
# A draft at work

Registering a draft disturbs nobody as long as its policy has an active version or a higher one:
tokens and presentations are accepted as before, except for tokens with the hash of the draft itself,
which may be bound to it. Where no version is active, a draft above all others becomes the current
version, and what is accepted under its policy is decided anew.
-/

namespace Credentials

namespace World

open ZeroKnowledgePresentation ZeroKnowledgeVerifier

variable {w v : World} {r' : PolicyRegistry} {d : PolicyDefinition} {skew : Nat} {token : String}
  {r : Validation} {settings : ZeroKnowledgeSettings} {service : ProofService World}
  {presentation : Json}

/-! Tokens. -/

/-- A validator that binds policies accepts the token with this result. -/
def AcceptsToken (w : World) (skew : Nat) (token : String) (r : Validation) : Prop :=
  (validator skew true).validate token w = (.ok r, w) ∧ r.isValid = true

/-- A validator that does not look at policies accepts the token with this result. -/
def AcceptsUnbound (w : World) (skew : Nat) (token : String) (r : Validation) : Prop :=
  (validator skew false).validate token w = (.ok r, w) ∧ r.isValid = true

/-- A token with a hash of a policy in it, whatever the case of its letters. -/
def CarriesHash (token : String) (hash : String) : Prop :=
  ∃ t text, Token.decode token = .ok t ∧
    Json.get? t.payload "policyHash" = some (.string text) ∧ Hex.lowercase text = Hex.lowercase hash

theorem acceptsToken_iff (hw : w.cancelled = false) : w.AcceptsToken skew token r ↔
    w.AcceptsUnbound skew token r ∧ ∀ c ∈ r.credential, w.policies.Binds c := by
  unfold AcceptsToken AcceptsUnbound
  rw [validate_valid_iff hw, validate_valid_iff hw]
  constructor
  · rintro ⟨t, id, k, c, haccepts, rfl⟩
    refine ⟨⟨t, id, k, c, { haccepts with bound := nofun }, rfl⟩, ?_⟩
    intro c' hc
    obtain rfl := Option.some.inj hc
    exact haccepts.bound w.policies rfl
  · rintro ⟨⟨t, id, k, c, haccepts, rfl⟩, hbinds⟩
    refine ⟨t, id, k, c, { haccepts with bound := fun p hp => ?_ }, rfl⟩
    obtain rfl := Option.some.inj hp
    exact hbinds c rfl

theorem acceptsUnbound_policies_iff (hw : w.cancelled = false) :
    AcceptsUnbound { w with policies := r' } skew token r ↔ w.AcceptsUnbound skew token r := by
  unfold AcceptsUnbound
  rw [validate_valid_iff hw, validate_valid_iff (w := { w with policies := r' }) hw]
  exact Iff.rfl

/-- Two registries give one verdict on a token if they bind the same credential. -/
theorem acceptsToken_policies_iff (hw : w.cancelled = false)
    (hbinds : w.AcceptsUnbound skew token r → ∀ c ∈ r.credential,
      (r'.Binds c ↔ w.policies.Binds c)) :
    AcceptsToken { w with policies := r' } skew token r ↔ w.AcceptsToken skew token r := by
  rw [acceptsToken_iff hw, acceptsToken_iff (w := { w with policies := r' }) hw,
    acceptsUnbound_policies_iff hw]
  exact and_congr_right fun hunbound => forall₂_congr (hbinds hunbound)

/-- The hash in the credential is the one in the token. -/
theorem policyHash_ne_of_not_carriesHash (hw : w.cancelled = false)
    (h : w.AcceptsUnbound skew token r) {hash : String} (hcarries : ¬ CarriesHash token hash)
    {c : Credential} (hc : r.credential = some c) :
    Hex.lowercase c.policyHash ≠ Hex.lowercase hash := by
  obtain ⟨t, id, k, c', haccepts, rfl⟩ := (validate_valid_iff hw).mp h
  obtain rfl := Option.some.inj hc
  intro hhash
  have hpayload := (Credential.ofPayload_eq_ok_iff.mp haccepts.content).hash
  exact hcarries ⟨t, c'.policyHash, haccepts.decodes,
    Credential.requiredText_eq_ok_iff.mp hpayload, hhash⟩

/-! Presentations. -/

theorem accepted_iff_warrants (hw : w.cancelled = false) :
    Accepted ((verifierAsking settings service).verify presentation w).1 ↔ ∃ p e proof,
      Warrants settings.challengeKey w.policies w.clock.now presentation p e proof ∧
        (service (asked settings.challengeKey p e proof) w).1 = .ok true := by
  rw [accepted_iff]
  constructor
  · rintro ⟨q, hdemand, hservice⟩
    obtain ⟨_, p, e, proof, hwarrants, rfl⟩ := demand_eq_ok_iff.mp hdemand
    exact ⟨p, e, proof, hwarrants, hservice⟩
  · rintro ⟨p, e, proof, hwarrants, hservice⟩
    exact ⟨_, demand_eq_ok_iff.mpr ⟨hw, p, e, proof, hwarrants, rfl⟩, hservice⟩

/-- A proof service whose answers do not depend on the registry. -/
def BlindToPolicies (service : ProofService World) : Prop :=
  ∀ q w r, (service q { w with policies := r }).1 = (service q w).1

theorem blindToPolicies_proofService : BlindToPolicies proofService := by
  intro q w r
  rcases Bool.eq_false_or_eq_true w.cancelled with hw | hw
  · have hsignal : surroundings.cancelled w = true := hw
    have hsignal' : surroundings.cancelled { w with policies := r } = true := hw
    unfold proofService Surroundings.guarded
    rw [Step.guarded_of_cancelled hsignal, Step.guarded_of_cancelled hsignal']
  · rw [proofService_eq hw, proofService_eq (w := { w with policies := r }) hw]

theorem accepted_iff_warrants_of_blind (hw : w.cancelled = false)
    (hservice : BlindToPolicies service) (r' : PolicyRegistry) :
    Accepted ((verifierAsking settings service).verify presentation { w with policies := r' }).1 ↔
      ∃ p e proof, Warrants settings.challengeKey r' w.clock.now presentation p e proof ∧
        (service (asked settings.challengeKey p e proof) w).1 = .ok true := by
  rw [accepted_iff_warrants (w := { w with policies := r' }) hw]
  refine exists_congr fun p => exists_congr fun e => exists_congr fun proof => ?_
  rw [hservice]

/-- Two registries give one verdict if they offer the same versions for proofs. -/
theorem accepted_policies_iff (hw : w.cancelled = false) (hservice : BlindToPolicies service)
    (hoffers : ∀ p e, Json.readJson ofWritten? presentation = some p →
      e.status = .active ∨ e.status = .deprecated →
        (r'.Offers p.challenge.policyId p.version e ↔
          w.policies.Offers p.challenge.policyId p.version e)) :
    Accepted ((verifierAsking settings service).verify presentation { w with policies := r' }).1 ↔
      Accepted ((verifierAsking settings service).verify presentation w).1 := by
  rw [accepted_iff_warrants_of_blind hw hservice, accepted_iff_warrants hw]
  refine exists_congr fun p => exists_congr fun e => exists_congr fun proof =>
    and_congr_left fun _ => ⟨fun h => ?_, fun h => ?_⟩
  · exact { h with offered := (hoffers p e h.reads h.usable).mp h.offered }
  · exact { h with offered := (hoffers p e h.reads h.usable).mpr h.offered }

theorem ne_of_usable {e : PolicyDefinition} (hdraft : d.status = .draft)
    (husable : e.status = .active ∨ e.status = .deprecated) : e ≠ d := by
  rintro rfl
  rw [hdraft] at husable
  exact husable.elim nofun nofun

/-- A version stands for itself in the registry that holds nothing else. -/
theorem offers_singleton {e e' : PolicyDefinition} {n : PolicyVersion} (hversion : e.version = n) :
    PolicyRegistry.Offers ⟨[e]⟩ e.id (some n) e' ↔ e' = e := by
  subst hversion
  have hcurrent : PolicyRegistry.current? ⟨[e]⟩ e.id = some e := by
    by_cases hactive : e.status = .active
    · simp [PolicyRegistry.current?, PolicyRegistry.versionsOf, PolicyRegistry.highest?,
        PolicyRegistry.higher, hactive]
    · simp [PolicyRegistry.current?, PolicyRegistry.versionsOf, PolicyRegistry.highest?,
        PolicyRegistry.higher, hactive]
  constructor
  · intro h
    exact List.mem_singleton.mp (PolicyRegistry.mem_of_offers h)
  · rintro rfl
    exact .pinned hcurrent

/-! A registration. -/

/-- Two worlds accept the same presentations, and the same tokens but for those with a hash. -/
structure AcceptsLike (v w : World) (hash : String) : Prop where
  token : ∀ skew token r, ¬ CarriesHash token hash →
    (v.AcceptsToken skew token r ↔ w.AcceptsToken skew token r)
  presentation : ∀ settings service presentation, BlindToPolicies service →
    (Accepted ((verifierAsking settings service).verify presentation v).1 ↔
      Accepted ((verifierAsking settings service).verify presentation w).1)

/-- A world in which a definition has become the current version of its policy. Its own policy is
judged by the versions that it lists, and every other policy as before. -/
structure AcceptsUnder (v w : World) (d : PolicyDefinition) : Prop where
  token : ∀ skew token r, ¬ CarriesHash token d.hash → (∀ c ∈ r.credential, c.policyId ≠ d.id) →
    (v.AcceptsToken skew token r ↔ w.AcceptsToken skew token r)
  ownToken : ∀ skew token r, ¬ CarriesHash token d.hash →
    (∀ c ∈ r.credential, c.policyId = d.id) → (v.AcceptsToken skew token r ↔
      w.AcceptsUnbound skew token r ∧ ∀ c ∈ r.credential, ∃ n ∈ d.compatible, ∃ e,
        w.policies.find? d.id n = some e ∧ e.status ≠ .retired ∧
          Hex.lowercase e.hash = Hex.lowercase c.policyHash)
  presentation : ∀ settings service presentation, BlindToPolicies service →
    (∀ p, Json.readJson ofWritten? presentation = some p → p.challenge.policyId ≠ d.id) →
    (Accepted ((verifierAsking settings service).verify presentation v).1 ↔
      Accepted ((verifierAsking settings service).verify presentation w).1)
  ownPresentation : ∀ settings service presentation p, BlindToPolicies service →
    Json.readJson ofWritten? presentation = some p → p.challenge.policyId = d.id →
    (Accepted ((verifierAsking settings service).verify presentation v).1 ↔
      ∃ n ∈ d.compatible, ∃ e, w.policies.find? d.id n = some e ∧ p.version = some n ∧
        Accepted ((verifierAsking settings service).verify presentation
          { w with policies := ⟨[e]⟩ }).1)

section Register

variable (hw : Reached w) (h : w.policies.register d = .ok r') (hdraft : d.status = .draft)

include hw h hdraft

theorem acceptsLike_register (hfresh : ¬ w.policies.Overtaken d) :
    AcceptsLike { w with policies := r' } w d.hash := by
  have hunique := PolicyRegistry.unique_of_change (.register h) hw.unique
  constructor
  · intro skew token r hcarries
    refine acceptsToken_policies_iff hw.not_cancelled fun hunbound c hc => ?_
    have hhash := policyHash_ne_of_not_carriesHash hw.not_cancelled hunbound hcarries hc
    exact PolicyRegistry.binds_register h hw.unique hunique hdraft hfresh hhash
  · intro settings service presentation hservice
    refine accepted_policies_iff hw.not_cancelled hservice fun p e _ husable => ?_
    have hne := ne_of_usable hdraft husable
    exact PolicyRegistry.offers_register h hw.unique hunique hdraft hfresh hne

/-- Under a draft, a presentation is accepted by the version that it pins and the draft lists. -/
theorem accepted_own_register (hcurrent : r'.current? d.id = some d)
    (hservice : BlindToPolicies service) {p : ZeroKnowledgePresentation}
    (hp : Json.readJson ofWritten? presentation = some p) (hown : p.challenge.policyId = d.id) :
    Accepted ((verifierAsking settings service).verify presentation { w with policies := r' }).1 ↔
      ∃ n ∈ d.compatible, ∃ e, w.policies.find? d.id n = some e ∧ p.version = some n ∧
        Accepted ((verifierAsking settings service).verify presentation
          { w with policies := ⟨[e]⟩ }).1 := by
  have hoffers {e : PolicyDefinition} (husable : e.status = .active ∨ e.status = .deprecated) :
      r'.Offers p.challenge.policyId p.version e ↔
        ∃ n ∈ d.compatible, p.version = some n ∧ w.policies.find? d.id n = some e := by
    rw [hown]
    exact PolicyRegistry.offers_register_of_draft h hcurrent (ne_of_usable hdraft husable)
  rw [accepted_iff_warrants_of_blind hw.not_cancelled hservice]
  constructor
  · rintro ⟨p', e, proof, hwarrants, hanswer⟩
    obtain rfl := Option.some.inj (hwarrants.reads.symm.trans hp)
    obtain ⟨n, hn, hpinned, hfind⟩ := (hoffers hwarrants.usable).mp hwarrants.offered
    obtain ⟨hid, hversion⟩ := PolicyRegistry.key_of_find? hfind
    refine ⟨n, hn, e, hfind, hpinned, ?_⟩
    refine (accepted_iff_warrants_of_blind hw.not_cancelled hservice ⟨[e]⟩).mpr
      ⟨p', e, proof, { hwarrants with offered := ?_ }, hanswer⟩
    rw [hown, hpinned, ← hid]
    exact (offers_singleton hversion).mpr rfl
  · rintro ⟨n, hn, e, hfind, hpinned, haccepted⟩
    obtain ⟨p', e', proof, hwarrants, hanswer⟩ :=
      (accepted_iff_warrants_of_blind hw.not_cancelled hservice ⟨[e]⟩).mp haccepted
    obtain rfl := Option.some.inj (hwarrants.reads.symm.trans hp)
    obtain ⟨hid, hversion⟩ := PolicyRegistry.key_of_find? hfind
    have hoffered := hwarrants.offered
    rw [hown, hpinned, ← hid] at hoffered
    -- alone in its registry, the version can only be accepted as itself
    obtain rfl := (offers_singleton hversion).mp hoffered
    refine ⟨p', e', proof, { hwarrants with offered := ?_ }, hanswer⟩
    exact (hoffers hwarrants.usable).mpr ⟨n, hn, hpinned, hfind⟩

theorem acceptsUnder_register (hovertaken : w.policies.Overtaken d) :
    AcceptsUnder { w with policies := r' } w d := by
  have hunique := PolicyRegistry.unique_of_change (.register h) hw.unique
  have hcurrent := PolicyRegistry.current?_register_of_overtaken h hunique hdraft hovertaken
  constructor
  case token =>
    intro skew token r hcarries hother
    refine acceptsToken_policies_iff hw.not_cancelled fun hunbound c hc => ?_
    have hhash := policyHash_ne_of_not_carriesHash hw.not_cancelled hunbound hcarries hc
    have hkept := PolicyRegistry.current?_register_of_ne h (hother c hc).symm
    exact PolicyRegistry.binds_register_of_current h hkept hhash
  case ownToken =>
    intro skew token r hcarries hown
    rw [acceptsToken_iff (w := { w with policies := r' }) hw.not_cancelled,
      acceptsUnbound_policies_iff hw.not_cancelled]
    refine and_congr_right fun hunbound => forall_congr' fun c => forall_congr' fun hc => ?_
    have hhash := policyHash_ne_of_not_carriesHash hw.not_cancelled hunbound hcarries hc
    exact PolicyRegistry.binds_register_of_draft h hcurrent (hown c hc) hhash
  case presentation =>
    intro settings service presentation hservice hother
    refine accepted_policies_iff hw.not_cancelled hservice fun p e hp husable => ?_
    have hkept := PolicyRegistry.current?_register_of_ne h (hother p hp).symm
    exact PolicyRegistry.offers_register_of_current h hkept (ne_of_usable hdraft husable)
  case ownPresentation =>
    intro settings service presentation p hservice hp hown
    exact accepted_own_register hw h hdraft hcurrent hservice hp hown

end Register

/-- A draft is registered, and all is accepted as before, except for tokens with its own hash; but
above versions none of which is active it becomes the current version. -/
theorem register_draft (hw : Reached w) (hvalid : d.validate = .ok ()) (hdraft : d.status = .draft)
    (hnew : w.policies.find? d.id d.version = none) :
    ∃ v, registerPolicy d w = (.ok (), v) ∧
      v = { w with policies := ⟨w.policies.definitions ++ [d]⟩ } ∧
      (¬ w.policies.Overtaken d → v.AcceptsLike w d.hash) ∧
      (w.policies.Overtaken d → v.AcceptsUnder w d) := by
  have h : w.policies.register d = .ok ⟨w.policies.definitions ++ [d]⟩ :=
    PolicyRegistry.register_eq_ok_iff.mpr ⟨hvalid, hnew, rfl⟩
  refine ⟨_, ?_, rfl, acceptsLike_register hw h hdraft, acceptsUnder_register hw h hdraft⟩
  rw [registerPolicy, registryStep, h]

/-! A small world with a draft of a second version. -/

def sampleDraft : PolicyDefinition := { samplePolicy with version := ⟨2⟩, status := .draft }

/-- A presentation without a pin, under the first version of the sample policy. -/
def unpinned (issued : IssuedChallenge) : ZeroKnowledgePresentation :=
  honest issued samplePolicy none issued.commitment samplePolicy.hash none

/-- It is accepted as long as the first version is current. -/
theorem accepted_unpinned (hw : w.cancelled = false) (hnow : w.clock.now = sampleTime)
    {s : PolicyStatus}
    (hcurrent : w.policies.current? ⟨"p1"⟩ = some { samplePolicy with status := s })
    (husable : s = .active ∨ s = .deprecated) : ∃ issued,
    sampleChallenges.issue sampleTime Uuid.nil (List.replicate 32 0) ⟨"p1"⟩ none = .ok issued ∧
      Json.readJson ofWritten? (unpinned issued).json = some (unpinned issued) ∧
      Accepted ((verifierAsking sampleSettings proofService).verify (unpinned issued).json w).1 := by
  have hissue : sampleChallenges.issue sampleTime Uuid.nil (List.replicate 32 0) ⟨"p1"⟩ none =
    .ok _ := ChallengeIssuer.issue_of_add? rfl _ _ _ _
  obtain ⟨hissued, hexpires⟩ := ChallengeIssuer.plain_of_issue hissue (by decide) (by decide)
    (by decide)
  have hlast : sampleTime < Instant.mk 1700000300 (by decide) (by decide) := by decide
  rw [← hnow] at hlast
  have hkey : sampleChallenges.key = sampleSettings.challengeKey := rfl
  have hwarrants := warrants_honest hkey hissue hissued hexpires hlast (.current hcurrent) husable
    (admits_samplePolicy _ _ none) rfl rfl
  exact ⟨_, hissue, hwarrants.reads, _,
    congrArg Prod.fst (verify_of_warrants hw hwarrants rfl), rfl⟩

theorem register_draft_sample : ∃ v issued,
    registerPolicy sampleDraft sampleWorld = (.ok (), v) ∧
    v.AcceptsLike sampleWorld sampleDraft.hash ∧
    Accepted ((verifierAsking sampleSettings proofService).verify (unpinned issued).json v).1 := by
  obtain ⟨v, hregister, _, hlike, _⟩ := register_draft reached_sampleWorld (d := sampleDraft) rfl
    rfl rfl
  have hfresh : ¬ sampleWorld.policies.Overtaken sampleDraft := fun hovertaken =>
    hovertaken.inactive samplePolicy (List.mem_singleton.mpr rfl) rfl rfl
  obtain ⟨issued, _, _, haccepted⟩ :=
    accepted_unpinned (w := sampleWorld) rfl rfl (s := .active) rfl (.inl rfl)
  refine ⟨v, issued, hregister, hlike hfresh, ?_⟩
  exact ((hlike hfresh).presentation _ _ _ blindToPolicies_proofService).mpr haccepted

def sampleDeprecated : World :=
  run [.registerPolicy { samplePolicy with status := .deprecated }] (initial sampleTime)

/-- There the draft becomes the current version, and a presentation that has nothing to do with it
is turned away. -/
theorem draft_turns_away : Reached sampleDeprecated ∧ sampleDraft.validate = .ok () ∧
    sampleDraft.status = .draft ∧
    sampleDeprecated.policies.find? sampleDraft.id sampleDraft.version = none ∧
    ∃ v issued, registerPolicy sampleDraft sampleDeprecated = (.ok (), v) ∧
      Json.readJson ofWritten? (unpinned issued).json = some (unpinned issued) ∧
      (unpinned issued).version ≠ some sampleDraft.version ∧
      Hex.lowercase (unpinned issued).declared.policyHash ≠ Hex.lowercase sampleDraft.hash ∧
      Accepted ((zeroKnowledgeVerifier sampleSettings).verify (unpinned issued).json
        sampleDeprecated).1 ∧
      ¬ Accepted ((zeroKnowledgeVerifier sampleSettings).verify (unpinned issued).json v).1 := by
  obtain ⟨issued, hissue, hreads, haccepted⟩ :=
    accepted_unpinned (w := sampleDeprecated) rfl rfl (s := .deprecated) rfl (.inr rfl)
  obtain ⟨_, _, hchallenge, _⟩ := ChallengeIssuer.issue_eq_ok_iff.mp hissue
  refine ⟨⟨sampleTime, _, rfl⟩, rfl, rfl, rfl, _, issued, rfl, hreads, nofun, ?_, haccepted, ?_⟩
  · have hne : sha256 samplePolicy.hashInput.bytes ≠ sha256 sampleDraft.hashInput.bytes := by
      decide +kernel
    intro h
    exact hne (Canonical.sha256_eq_of_hash h)
  · intro hafter
    obtain ⟨p, e, proof, hwarrants, _⟩ := (accepted_iff_warrants
      (w := (registerPolicy sampleDraft sampleDeprecated).2) rfl).mp hafter
    obtain rfl := Option.some.inj (hwarrants.reads.symm.trans hreads)
    have hcurrent : (registerPolicy sampleDraft sampleDeprecated).2.policies.current?
        (unpinned issued).challenge.policyId = some sampleDraft := by
      rw [unpinned, honest, hchallenge]
      rfl
    -- without a pin the current version is the only one on offer
    cases hwarrants.offered with
    | current hp =>
      exact ne_of_usable (d := sampleDraft) rfl hwarrants.usable
        (Option.some.inj (hp.symm.trans hcurrent))

end World
end Credentials
