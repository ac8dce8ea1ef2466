import Credentials.Proofs.Policy.Retirement
import Credentials.Proofs.Presentation.Honest

/-!
# One rule of binding, read twice

A validator binds a credential to a policy through the versions that it collects, and a verifier of
proofs resolves the version that a presentation pins. For a registered version that is not a draft
the two agree: a credential with its hash is bound if and only if a presentation that pins it and
declares its hash is resolved to a definition with that hash. A draft that stands as current, or
that the current version lists as compatible, is turned away by the verifier alone.
-/

namespace Credentials

namespace PolicyRegistry

variable {r : PolicyRegistry} {id : PolicyId} {n : PolicyVersion} {d e : PolicyDefinition}

theorem hashable_singleton (h : d.signalsSchema.Lexical) : Hashable ⟨[d]⟩ where
  lexical := List.forall_mem_singleton.mpr h
  collision_free := List.forall_mem_singleton.mpr (List.forall_mem_singleton.mpr fun _ => rfl)

/-- A pin is offered as the definition that is registered under it. -/
theorem find?_of_offers (hunique : r.Unique) (h : r.Offers id (some n) e) :
    r.find? id n = some e := by
  cases h with
  | pinned hcurrent =>
    obtain ⟨hmem, rfl⟩ := mem_of_current? hcurrent
    exact hunique e hmem
  | compatible _ _ _ hfind => exact hfind

theorem offers_iff (hunique : r.Unique) (hd : r.find? id n = some d) :
    r.Offers id (some n) d ↔ ∃ p, r.current? id = some p ∧ (n = p.version ∨ n ∈ p.compatible) := by
  constructor
  · intro h
    cases h with
    | pinned hcurrent => exact ⟨d, hcurrent, .inl rfl⟩
    | compatible hcurrent _ hmem _ => exact ⟨_, hcurrent, .inr hmem⟩
  · rintro ⟨p, hcurrent, hp⟩
    by_cases hn : n = p.version
    · subst hn
      obtain ⟨hmem, rfl⟩ := mem_of_current? hcurrent
      obtain rfl : p = d := Option.eq_some_unique (hunique p hmem) hd
      exact .pinned hcurrent
    · exact .compatible hcurrent hn (hp.resolve_left hn) hd

/-- With the hash of a registered version a credential is bound to this version and to no other. -/
theorem binds_iff_offers (hunique : r.Unique) (h : r.Hashable) (hd : r.find? id n = some d)
    {c : Credential} (hid : c.policyId = id)
    (hhash : Hex.lowercase c.policyHash = Hex.lowercase d.hash) :
    r.Binds c ↔ r.Offers id (some n) d ∧ d.status ≠ .retired := by
  subst hid
  rw [offers_iff hunique hd]
  constructor
  · rintro ⟨p, e, hcurrent, he, hstatus, hsame⟩
    have hmem : e ∈ r.definitions := by
      rcases he with rfl | ⟨v, _, hfind⟩
      · exact (mem_of_current? hcurrent).1
      · exact mem_of_find? hfind
    -- the hash leaves only one definition
    obtain rfl : e = d := eq_of_hash hunique h hmem (mem_of_find? hd) (hsame.trans hhash)
    refine ⟨⟨p, hcurrent, ?_⟩, hstatus⟩
    rcases he with rfl | ⟨v, hv, hfind⟩
    · exact .inl (key_of_find? hd).2.symm
    · rw [← (key_of_find? hd).2, (key_of_find? hfind).2]
      exact .inr hv
  · rintro ⟨⟨p, hcurrent, hp⟩, hstatus⟩
    refine ⟨p, d, hcurrent, ?_, hstatus, hhash.symm⟩
    rcases hp with rfl | hv
    · obtain ⟨hmem, hpolicy⟩ := mem_of_current? hcurrent
      have hfound := hunique p hmem
      rw [hpolicy, hd] at hfound
      exact .inl (Option.some.inj hfound)
    · exact .inr ⟨n, hv, hd⟩

end PolicyRegistry

namespace ZeroKnowledgeVerifier

variable {r : PolicyRegistry} {id : PolicyId} {n : PolicyVersion} {d : PolicyDefinition}

theorem resolved_of_offers {pinned : Option PolicyVersion} (h : r.Offers id pinned d) :
    resolved r id pinned = usable d := by
  unfold resolved
  cases h with
  | current hcurrent => rw [hcurrent]
  | pinned hcurrent =>
    rw [hcurrent]
    exact if_pos rfl
  | compatible hcurrent hne hmem hfind =>
    rw [hcurrent]
    dsimp only
    rw [if_neg hne, if_pos hmem, hfind]

/-- Inactive is the answer for what is offered and is a draft or retired. -/
theorem resolved_eq_inactive_iff (hunique : r.Unique) (hd : r.find? id n = some d) :
    resolved r id (some n) = .error (.rejected .policyInactive) ↔
      r.Offers id (some n) d ∧ (d.status = .draft ∨ d.status = .retired) := by
  by_cases h : r.Offers id (some n) d
  · rw [resolved_of_offers h, usable]
    cases d.status <;> simp [h]
  · rw [iff_false_right fun hoffers => h hoffers.1, resolved]
    rw [PolicyRegistry.offers_iff hunique hd] at h
    cases hcurrent : r.current? id with
    | none => simp
    | some p =>
      have hn : n ≠ p.version := fun hn => h ⟨p, hcurrent, .inl hn⟩
      have hmem : n ∉ p.compatible := fun hmem => h ⟨p, hcurrent, .inr hmem⟩
      simp [hn, hmem]

end ZeroKnowledgeVerifier

namespace World

variable {w : World} {id : PolicyId} {n : PolicyVersion} {d : PolicyDefinition}

/-- The binding stage of a validator lets the credential pass. -/
def BindsCredential (w : World) (skew : Nat) (keyId : KeyId) (c : Credential) : Prop :=
  (validator skew true).bind policyDirectory keyId c w = (.ok (), w)

/-- A verifier resolves the policy of the presentation, to a definition with the hash that the
presentation declares. -/
def ResolvesPresentation (w : World) (settings : ZeroKnowledgeSettings)
    (p : ZeroKnowledgePresentation) : Prop :=
  ∃ d, (zeroKnowledgeVerifier settings).resolve p.challenge.policyId p.version w = (.ok d, w) ∧
    d.hasHash p.declared.policyHash = true

theorem bindsCredential_iff (hw : w.cancelled = false) {skew : Nat} {keyId : KeyId}
    {c : Credential} : w.BindsCredential skew keyId c ↔ w.policies.Binds c := by
  unfold BindsCredential
  rw [bind_eq hw]
  cases hcurrent : w.policies.current? c.policyId with
  | none =>
    refine iff_of_false (fun h => nomatch congrArg Prod.fst h) ?_
    rintro ⟨p, _, hp, _⟩
    rw [hcurrent] at hp
    cases hp
  | some p =>
    dsimp only
    rw [← isBound_iff hcurrent]
    split
    · next hbound => exact iff_of_true rfl hbound
    · next hbound => exact iff_of_false (fun h => nomatch congrArg Prod.fst h) hbound

theorem resolve_eq_resolved (hw : w.cancelled = false) (settings : ZeroKnowledgeSettings)
    (id : PolicyId) (pinned : Option PolicyVersion) :
    (zeroKnowledgeVerifier settings).resolve id pinned w
      = (ZeroKnowledgeVerifier.resolved w.policies id pinned, w) :=
  ZeroKnowledgeVerifier.resolve_eq hw (fun id n => policies_eq hw id n) id pinned

/-- Credentials with the hash of a registered version, and presentations that pin it and declare its
hash, are held to one rule, unless the version is a draft. A draft is never resolved; where a
credential with its hash is bound all the same, the verifier calls its policy inactive. -/
theorem binds_iff_resolves (hw : Reached w) (h : w.policies.Hashable)
    (hd : w.policies.find? id n = some d) {c : Credential} (hid : c.policyId = id)
    (hhash : Hex.lowercase c.policyHash = Hex.lowercase d.hash)
    {p : ZeroKnowledgePresentation} (hpolicy : p.challenge.policyId = id)
    (hpinned : p.version = some n)
    (hdeclared : Hex.lowercase p.declared.policyHash = Hex.lowercase d.hash)
    (skew : Nat) (keyId : KeyId) (settings : ZeroKnowledgeSettings) :
    (d.status ≠ .draft →
      (w.BindsCredential skew keyId c ↔ w.ResolvesPresentation settings p)) ∧
    (d.status = .draft → ¬ w.ResolvesPresentation settings p ∧
      (w.BindsCredential skew keyId c ↔
        (zeroKnowledgeVerifier settings).resolve p.challenge.policyId p.version w
          = (.error (.rejected .policyInactive), w))) := by
  have hbinds : w.BindsCredential skew keyId c ↔
      w.policies.Offers id (some n) d ∧ d.status ≠ .retired :=
    (bindsCredential_iff hw.not_cancelled).trans
      (PolicyRegistry.binds_iff_offers hw.unique h hd hid hhash)
  have hresolve : (zeroKnowledgeVerifier settings).resolve p.challenge.policyId p.version w
      = (ZeroKnowledgeVerifier.resolved w.policies id (some n), w) := by
    rw [hpolicy, hpinned]
    exact resolve_eq_resolved hw.not_cancelled settings id (some n)
  have hresolves : w.ResolvesPresentation settings p ↔ w.policies.Offers id (some n) d ∧
      (d.status = .active ∨ d.status = .deprecated) := by
    unfold ResolvesPresentation
    rw [hresolve]
    constructor
    · rintro ⟨e, he, _⟩
      have hresolved : ZeroKnowledgeVerifier.resolved w.policies id (some n) = .ok e :=
        congrArg Prod.fst he
      have hoffered := ZeroKnowledgeVerifier.resolved_eq_ok_iff.mp hresolved
      have hfound := PolicyRegistry.find?_of_offers hw.unique hoffered.1
      obtain rfl : e = d := Option.eq_some_unique hfound hd
      exact hoffered
    · intro hoffered
      refine ⟨d, congrArg (·, w) (ZeroKnowledgeVerifier.resolved_eq_ok_iff.mpr hoffered), ?_⟩
      exact PolicyDefinition.hasHash_iff.mpr hdeclared.symm
  constructor
  · intro hdraft
    rw [hbinds, hresolves]
    refine and_congr_right fun _ => ?_
    revert hdraft
    cases d.status <;> decide
  · intro hdraft
    rw [hbinds, hresolves, hresolve, Prod.mk.injEq, and_iff_left rfl,
      ZeroKnowledgeVerifier.resolved_eq_inactive_iff hw.unique hd, hdraft]
    exact ⟨fun h => by simp at h, and_congr_right fun _ => by simp⟩

/-- A credential for the first version of the sample policy. -/
def boundCredential (hash : String) : Credential :=
  ⟨⟨Uuid.nil⟩, ⟨"p1"⟩, ⟨"s1"⟩, [], sampleTime, sampleTime, none, ⟨"k1"⟩, none, hash⟩

/-- A presentation that pins the first version of the sample policy. -/
def pinnedPresentation (hash : String) : ZeroKnowledgePresentation :=
  ⟨"", ⟨"", "", ⟨"p1"⟩, none, sampleTime, sampleTime⟩, some ⟨1⟩, ⟨"", hash, none⟩⟩

/-- A deprecated version that is current, for want of an active one. -/
theorem binds_iff_resolves_sample :
    (run sampleLater sampleWorld).BindsCredential 300 ⟨"k1"⟩ (boundCredential samplePolicy.hash) ∧
    (run sampleLater sampleWorld).ResolvesPresentation sampleSettings
      (pinnedPresentation samplePolicy.hash) := by
  have hw : Reached (run sampleLater sampleWorld) := reached_sampleWorld.run sampleLater
  have hd : (run sampleLater sampleWorld).policies.find? ⟨"p1"⟩ ⟨1⟩
      = some { samplePolicy with status := .deprecated } := rfl
  have hbinds : (run sampleLater sampleWorld).BindsCredential 300 ⟨"k1"⟩
      (boundCredential samplePolicy.hash) :=
    (bindsCredential_iff hw.not_cancelled).mpr ⟨_, _, rfl, .inl rfl, by decide, rfl⟩
  have hagree := binds_iff_resolves hw (PolicyRegistry.hashable_singleton (.object nofun)) hd
    (c := boundCredential samplePolicy.hash) rfl rfl (p := pinnedPresentation samplePolicy.hash)
    rfl rfl rfl 300 ⟨"k1"⟩ sampleSettings
  exact ⟨hbinds, (hagree.1 (by decide)).mp hbinds⟩

/-- A world whose one version is still a draft. -/
def sampleDrafted : World :=
  run [.registerPolicy { samplePolicy with status := .draft }] (initial sampleTime)

/-- A credential with the hash of a draft is bound, and a presentation with it is not resolved. -/
theorem draft_bound_unresolved : Reached sampleDrafted ∧ sampleDrafted.policies.Hashable ∧
    sampleDrafted.policies.find? ⟨"p1"⟩ ⟨1⟩ = some { samplePolicy with status := .draft } ∧
    sampleDrafted.BindsCredential 300 ⟨"k1"⟩ (boundCredential samplePolicy.hash) ∧
    ¬ sampleDrafted.ResolvesPresentation sampleSettings (pinnedPresentation samplePolicy.hash) := by
  have hw : Reached sampleDrafted := ⟨sampleTime, _, rfl⟩
  refine ⟨hw, PolicyRegistry.hashable_singleton (.object nofun), rfl, ?_, ?_⟩
  · exact (bindsCredential_iff hw.not_cancelled).mpr ⟨_, _, rfl, .inl rfl, by decide, rfl⟩
  · rintro ⟨d, hd, _⟩
    cases congrArg Prod.fst hd

end World
end Credentials
