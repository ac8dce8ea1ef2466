import Credentials.Proofs.Issuance.Acceptance
import Credentials.Proofs.Policy.Hash
import Credentials.Proofs.Presentation.Recorded

/-!
# Retired versions are out of use for good

A version of a policy that was retired in some run is out of use in every world that the run reaches
later, whatever becomes of the other versions: nothing is issued under it, no token with its hash is
accepted by a validator that binds policies, and no presentation with its hash by a verifier of
proofs. Other versions do not share its hash unless SHA-256 collides on what is hashed.
-/

namespace Credentials

/-! Hashes in a registry. -/

namespace PolicyRegistry

variable {r : PolicyRegistry} {a b : PolicyDefinition}

/-- A registry whose schemas were read from documents and on whose definitions SHA-256 does not
collide. -/
structure Hashable (r : PolicyRegistry) : Prop where
  lexical : ∀ a ∈ r.definitions, a.signalsSchema.Lexical
  collision_free : ∀ a ∈ r.definitions, ∀ b ∈ r.definitions,
    sha256 a.hashInput.bytes = sha256 b.hashInput.bytes → a.hashInput.bytes = b.hashInput.bytes

theorem eq_of_hash (hunique : r.Unique) (h : r.Hashable) (ha : a ∈ r.definitions)
    (hb : b ∈ r.definitions) (hhash : Hex.lowercase a.hash = Hex.lowercase b.hash) : a = b := by
  have hcontent := PolicyDefinition.sameContent_of_hash (h.lexical a ha).literal (h.lexical b hb).literal
    (h.collision_free a ha b hb) hhash
  have hfound := hunique a ha
  rw [hcontent.id, hcontent.version, hunique b hb] at hfound
  exact (Option.some.inj hfound).symm

/-- A credential is bound to a definition that is not retired and has its hash. -/
theorem exists_of_binds {c : Credential} (h : r.Binds c) : ∃ d ∈ r.definitions,
    d.status ≠ .retired ∧ Hex.lowercase d.hash = Hex.lowercase c.policyHash := by
  obtain ⟨p, d, hp, hd | ⟨v, _, hd⟩, hstatus, hhash⟩ := h
  · exact ⟨d, hd ▸ (mem_of_current? hp).1, hstatus, hhash⟩
  · exact ⟨d, mem_of_find? hd, hstatus, hhash⟩

end PolicyRegistry

theorem PolicyStatus.eq_retired_of_stage_le {s : PolicyStatus}
    (h : PolicyStatus.retired.stage ≤ s.stage) : s = .retired := by
  cases s
  all_goals first | rfl | exact absurd h (by decide)

namespace World

variable {w v : World} {id : PolicyId} {version : PolicyVersion} {hash : String}

/-- An operation that succeeds in retiring a version, or in registering it as retired. -/
inductive RetiresPolicy (id : PolicyId) (version : PolicyVersion) (hash : String) (w v : World) :
    Prop where
  | setStatus {d : PolicyDefinition} : w.policies.find? id version = some d → d.hash = hash →
      setPolicyStatus id version .retired w = (.ok (), v) → RetiresPolicy id version hash w v
  | register {d : PolicyDefinition} : d.id = id → d.version = version → d.hash = hash →
      d.status = .retired → registerPolicy d w = (.ok (), v) → RetiresPolicy id version hash w v

/-- A version that is of no use any more. -/
structure PolicyOutOfUse (w : World) (id : PolicyId) (version : PolicyVersion) (hash : String) :
    Prop where
  retired : ∃ d, w.policies.find? id version = some d ∧ d.status = .retired ∧ d.hash = hash
  pinned : ∀ cid q, q.policyId = id → q.version = some version → ∀ issued u,
    issuer.issue cid q w ≠ (.ok issued, u)
  issue : ∀ cid q issued u, issuer.issue cid q w = (.ok issued, u) →
    ∃ e, w.policies.get? q.policyId q.version = some e ∧ issued.credential.policyHash = e.hash ∧
      ¬ (e.id = id ∧ e.version = version) ∧ Hex.lowercase e.hash ≠ Hex.lowercase hash
  validate : ∀ token t text, Token.decode token = .ok t →
    Json.get? t.payload "policyHash" = some (.string text) →
    Hex.lowercase text = Hex.lowercase hash → ∀ skew r u,
      (validator skew true).validate token w = (.ok r, u) → r.isValid = false
  verify : ∀ presentation p,
    Json.readJson ZeroKnowledgePresentation.ofWritten? presentation = some p →
    Hex.lowercase p.declared.policyHash = Hex.lowercase hash → ∀ settings service,
      ¬ ZeroKnowledgeVerifier.Accepted ((verifierAsking settings service).verify presentation w).1

/-! A retired version in a world. -/

section Retired

variable {d : PolicyDefinition} (hunique : w.policies.Unique) (h : w.policies.Hashable)
  (hd : w.policies.find? id version = some d) (hretired : d.status = .retired)

include hunique h hd hretired

/-- No definition that is not retired has the hash of a retired one. -/
theorem hash_ne_of_retired {e : PolicyDefinition} (he : e ∈ w.policies.definitions)
    (hstatus : e.status ≠ .retired) : Hex.lowercase e.hash ≠ Hex.lowercase d.hash := by
  intro hhash
  obtain rfl := PolicyRegistry.eq_of_hash hunique h he (PolicyRegistry.mem_of_find? hd) hhash
  exact hstatus hretired

theorem issue_of_retiredPolicy (hw : w.cancelled = false) {cid : CredentialId} {q : IssueRequest}
    {issued : IssuedCredential} (hissue : issuer.issue cid q w = (.ok issued, v)) :
    ∃ e, w.policies.get? q.policyId q.version = some e ∧ issued.credential.policyHash = e.hash ∧
      ¬ (e.id = id ∧ e.version = version) ∧ Hex.lowercase e.hash ≠ Hex.lowercase d.hash := by
  obtain ⟨_, e, k, expiry, s, hissues, rfl⟩ := (issue_eq_ok_iff hw).mp hissue
  have he := (PolicyRegistry.mem_of_get? hissues.policy).1
  have hne := hash_ne_of_retired hunique h hd hretired he (by rw [hissues.active]; decide)
  refine ⟨e, hissues.policy, rfl, ?_, hne⟩
  rintro ⟨rfl, rfl⟩
  rw [hunique e he] at hd
  exact hne (by rw [Option.some.inj hd])

theorem validate_of_retiredPolicy {token text : String} {t : Token}
    (ht : Token.decode token = .ok t)
    (htext : Json.get? t.payload "policyHash" = some (.string text))
    (hhash : Hex.lowercase text = Hex.lowercase d.hash) {skew : Nat} {r : Validation}
    (hr : (validator skew true).validate token w = (.ok r, v)) : r.isValid = false := by
  cases hw : w.cancelled with
  | true =>
    rw [validate_of_cancelled hw] at hr
    cases hr
  | false =>
    obtain ⟨r', hr', hjudges⟩ := exists_validation hw skew true token
    obtain rfl := Except.ok.inj (congrArg Prod.fst (hr'.symm.trans hr))
    refine Bool.not_eq_true _ ▸ fun hvalid => ?_
    obtain ⟨_, t', id', k, c, haccepts, _⟩ := hjudges.accepted hvalid
    obtain rfl : t = t' := Except.ok.inj (ht.symm.trans haccepts.decodes)
    have hpayload := (Credential.ofPayload_eq_ok_iff.mp haccepts.content).hash
    rw [Credential.requiredText_eq_ok_iff.mpr htext] at hpayload
    obtain ⟨e, he, hstatus, hbound⟩ :=
      PolicyRegistry.exists_of_binds (haccepts.bound w.policies rfl)
    refine hash_ne_of_retired hunique h hd hretired he hstatus ?_
    rw [hbound, ← Except.ok.inj hpayload, hhash]

theorem verify_of_retiredPolicy {presentation : Json} {p : ZeroKnowledgePresentation}
    (hp : Json.readJson ZeroKnowledgePresentation.ofWritten? presentation = some p)
    (hhash : Hex.lowercase p.declared.policyHash = Hex.lowercase d.hash)
    (settings : ZeroKnowledgeSettings) (service : ProofService World) :
    ¬ ZeroKnowledgeVerifier.Accepted
      ((verifierAsking settings service).verify presentation w).1 := by
  rw [accepted_iff]
  rintro ⟨q, hdemand, _⟩
  obtain ⟨_, p', e, proof, hwarrants, _⟩ := ZeroKnowledgeVerifier.demand_eq_ok_iff.mp hdemand
  obtain rfl := Option.eq_some_unique hp hwarrants.reads
  have he := PolicyRegistry.mem_of_offers hwarrants.offered
  refine hash_ne_of_retired hunique h hd hretired he ?_ (hwarrants.hash.trans hhash)
  rcases hwarrants.usable with hs | hs
  · rw [hs]
    decide
  · rw [hs]
    decide

end Retired

/-! Retirement in a run. -/

theorem registryStep_eq_ok {f : PolicyRegistry → Except RegistryError PolicyRegistry}
    (h : registryStep f w = (.ok (), v)) : f w.policies = .ok v.policies := by
  unfold registryStep at h
  split at h
  · next hf =>
    cases h
    exact hf
  · cases h

theorem retired_of_retiresPolicy (h : RetiresPolicy id version hash w v) :
    ∃ d, v.policies.find? id version = some d ∧ d.status = .retired ∧ d.hash = hash := by
  cases h with
  | @setStatus d hd hhash hset =>
    have hfound := PolicyRegistry.find?_of_setStatus (registryStep_eq_ok hset) hd
    exact ⟨_, hfound, rfl, hhash⟩
  | @register d hid hversion hhash hstatus hregister =>
    have hfound := PolicyRegistry.find?_of_register (registryStep_eq_ok hregister)
    rw [hid, hversion] at hfound
    exact ⟨d, hfound, hstatus, hhash⟩

theorem reached_of_retiresPolicy (h : RetiresPolicy id version hash w v) (hw : Reached w) :
    Reached v := by
  cases h with
  | setStatus _ _ hset =>
    have hv := hw.run [.setPolicyStatus id version .retired]
    rwa [run, List.foldl_cons, List.foldl_nil, Operation.apply, hset] at hv
  | @register d _ _ _ _ hregister =>
    have hv := hw.run [.registerPolicy d]
    rwa [run, List.foldl_cons, List.foldl_nil, Operation.apply, hregister] at hv

theorem policyOutOfUse_of_retired (hw : Reached w) (h : w.policies.Hashable)
    {d : PolicyDefinition} (hd : w.policies.find? id version = some d)
    (hretired : d.status = .retired) : w.PolicyOutOfUse id version d.hash where
  retired := ⟨d, hd, hretired, rfl⟩
  pinned := by
    rintro cid q rfl hversion issued u hissue
    obtain ⟨e, he, _, hne, _⟩ :=
      issue_of_retiredPolicy hw.unique h hd hretired hw.not_cancelled hissue
    rw [hversion] at he
    exact hne (PolicyRegistry.key_of_find? he)
  issue := fun cid q issued u hissue =>
    issue_of_retiredPolicy hw.unique h hd hretired hw.not_cancelled hissue
  validate := fun token t text ht htext hhash skew r u hr =>
    validate_of_retiredPolicy hw.unique h hd hretired ht htext hhash hr
  verify := fun presentation p hp hhash settings service =>
    verify_of_retiredPolicy hw.unique h hd hretired hp hhash settings service

/-- A version that was retired in a run stays out of use in whatever the run does next. -/
theorem policyOutOfUse_run (now : Instant) (before after : List Operation)
    (hretires : RetiresPolicy id version hash (run before (initial now)) v)
    (h : (run after v).policies.Hashable) : (run after v).PolicyOutOfUse id version hash := by
  have hv := reached_of_retiresPolicy hretires ⟨now, before, rfl⟩
  obtain ⟨d, hd, hretired, rfl⟩ := retired_of_retiresPolicy hretires
  -- a definition keeps its content, its status only moves on, and nothing is beyond retired
  obtain ⟨s, hs, hle⟩ := PolicyRegistry.find?_of_changes (Later.run after v).policies hd
  rw [hretired] at hle
  have hstatus := PolicyStatus.eq_retired_of_stage_le hle
  have hout := policyOutOfUse_of_retired (hv.run after) h hs hstatus
  exact hout

/-- A second version that takes the credentials of the first. -/
def sampleSuccessor : PolicyDefinition :=
  { samplePolicy with version := ⟨2⟩, compatible := [⟨1⟩] }

/-- A world in which the first version has been retired. -/
def sampleRetired : World :=
  (setPolicyStatus ⟨"p1"⟩ ⟨1⟩ .retired (run [.registerPolicy samplePolicy] (initial sampleTime))).2

/-- The first version is retired, and then a second one lists it as compatible. -/
theorem policyOutOfUse_sample :
    (run [.registerPolicy sampleSuccessor, .advanceClock 60] sampleRetired).PolicyOutOfUse
      ⟨"p1"⟩ ⟨1⟩ samplePolicy.hash := by
  have hne : sha256 samplePolicy.hashInput.bytes ≠ sha256 sampleSuccessor.hashInput.bytes := by
    decide +kernel
  have hall {p : PolicyDefinition → Prop} (hfirst : p { samplePolicy with status := .retired })
      (hsecond : p sampleSuccessor) : ∀ a ∈ [{ samplePolicy with status := .retired },
        sampleSuccessor], p a :=
    List.forall_mem_cons.mpr ⟨hfirst, List.forall_mem_singleton.mpr hsecond⟩
  refine policyOutOfUse_run sampleTime [.registerPolicy samplePolicy]
    [.registerPolicy sampleSuccessor, .advanceClock 60] (.setStatus rfl rfl (Prod.ext rfl rfl)) ?_
  exact
    { lexical := hall (.object nofun) (.object nofun)
      collision_free := hall (hall (fun _ => rfl) fun h => absurd h hne)
        (hall (fun h => absurd h.symm hne) fun _ => rfl) }

end World
end Credentials
