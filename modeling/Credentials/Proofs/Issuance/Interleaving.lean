import Credentials.Proofs.Issuance.Acceptance

/-!
# Issuing while others act

An issuer asks three times: for the policy, for the current key and for the signature. Before each of
the three any operations of others may run. Each of their operations holds a lock for as long as it
takes; a rotation that lets go in between is an insertion and, later, a change of the current key.
Whatever they do, a token that comes out was signed by a key that could sign right then, under a
policy that was active when it was read, and neither key nor policy changes its content afterwards.
-/

namespace Credentials

/-- A world with the operations that others still have before them, one batch for each question. -/
structure SharedWorld where
  world : World
  pending : List (List World.Operation)

namespace SharedWorld

variable {ε ε' α : Type}

def surroundings : Surroundings SharedWorld :=
  ⟨fun u => u.world.cancelled, fun u => u.world.clock.now⟩

/-- The step in the world that the next batch leaves behind. -/
def interrupted (step : Step World ε α) : Step SharedWorld ε α := fun u =>
  let (r, w) := step (World.run (u.pending.headD []) u.world)
  (r, ⟨w, u.pending.tail⟩)

def issuer : Issuer SharedWorld :=
  { surroundings with
    policies := fun id n => interrupted (World.policyDirectory id n)
    keys := ⟨interrupted World.keyDirectory.current,
      fun id => interrupted (World.keyDirectory.find id)⟩
    signer := fun k c => interrupted (World.signer k c) }

theorem guarded_interrupted {w : World} (hw : w.cancelled = false) (cause : ε') (f : ε → ε')
    (cause' : ε) {batch : List World.Operation} (rest : List (List World.Operation))
    {step : Step World ε α} {r : Except ε α}
    (hstep : step (World.run batch w) = (r, World.run batch w)) :
    surroundings.guarded cause
        (Step.mapError f (interrupted (World.surroundings.guarded cause' step))) ⟨w, batch :: rest⟩
      = (r.mapError f, ⟨World.run batch w, rest⟩) := by
  have hsignal : surroundings.cancelled ⟨w, batch :: rest⟩ = false := hw
  have hrun : World.surroundings.cancelled (World.run batch w) = false :=
    (World.Later.run batch w).cancelled.trans hw
  have hguarded : World.surroundings.guarded cause' step (World.run batch w)
      = (r, World.run batch w) := (Step.guarded_of_not_cancelled hrun _ _).trans hstep
  refine (Step.guarded_of_not_cancelled hsignal _ _).trans ?_
  unfold Step.mapError interrupted
  dsimp only [List.headD_cons, List.tail_cons]
  rw [hguarded]

end SharedWorld

namespace World

/-- What others do before each of the three questions. -/
structure Schedule where
  beforePolicy : List Operation
  beforeKey : List Operation
  beforeSignature : List Operation

variable {w : World} {s : Schedule} {id : CredentialId} {q : IssueRequest}

namespace Schedule

/-! The worlds in which the three questions are asked. -/

def atPolicy (s : Schedule) (w : World) : World := run s.beforePolicy w

def atKey (s : Schedule) (w : World) : World := run s.beforeKey (s.atPolicy w)

def atSignature (s : Schedule) (w : World) : World := run s.beforeSignature (s.atKey w)

def shared (s : Schedule) (w : World) : SharedWorld :=
  ⟨w, [s.beforePolicy, s.beforeKey, s.beforeSignature]⟩

end Schedule

/-- A rotation is its two sections in a row; the second is left out when the first fails. -/
theorem apply_rotateKey (id : KeyId) (pair : KeyPair) (w : World) :
    ∃ sections, sections <+: [Operation.insertKey id pair, .setCurrentKey id] ∧
      (Operation.rotateKey id pair).apply w = run sections w := by
  rw [Operation.apply, rotateKey, Step.bind_apply]
  split
  · next key v h =>
    refine ⟨[.insertKey id pair, .setCurrentKey id], List.prefix_rfl, ?_⟩
    rw [run, List.foldl_cons, List.foldl_cons, List.foldl_nil, Operation.apply, h, Operation.apply,
      Step.bind_apply]
    split
    · next h' =>
      rw [h']
      rfl
    · next h' => rw [h']
  · next e v h =>
    refine ⟨[.insertKey id pair], ⟨[.setCurrentKey id], rfl⟩, ?_⟩
    rw [run, List.foldl_cons, List.foldl_nil, Operation.apply, h]

theorem issue_shared (hw : w.cancelled = false) (s : Schedule) (id : CredentialId)
    (q : IssueRequest) : (SharedWorld.issuer.issue id q (s.shared w)).1 =
      q.outcome id ((s.atPolicy w).policies.get? q.policyId q.version)
        (s.atKey w).keys.currentKey? (s.atKey w).clock.now (s.atSignature w).keys.sign := by
  have hpolicy : (s.atPolicy w).cancelled = false := (Later.run _ w).cancelled.trans hw
  have hkey : (s.atKey w).cancelled = false := (Later.run _ (s.atPolicy w)).cancelled.trans hpolicy
  have hsignal : SharedWorld.issuer.cancelled (s.shared w) = false := hw
  have hfound : SharedWorld.issuer.guarded IssuanceError.cancelled
      (Step.mapError .ofRegistry (SharedWorld.issuer.policies q.policyId q.version)) (s.shared w)
      = (.ok ((s.atPolicy w).policies.get? q.policyId q.version),
        ⟨s.atPolicy w, [s.beforeKey, s.beforeSignature]⟩) :=
    SharedWorld.guarded_interrupted hw _ _ _ _ rfl
  have hcurrent : SharedWorld.issuer.guarded IssuanceError.cancelled
      (Step.mapError .ofKeyService SharedWorld.issuer.keys.current)
      ⟨s.atPolicy w, [s.beforeKey, s.beforeSignature]⟩
      = (.ok (s.atKey w).keys.currentKey?, ⟨s.atKey w, [s.beforeSignature]⟩) :=
    SharedWorld.guarded_interrupted hpolicy _ _ _ _ rfl
  have hsign (k : KeyId) (c : Canonical) : SharedWorld.issuer.guarded IssuanceError.cancelled
      (Step.mapError .ofKeyService (SharedWorld.issuer.signer k c))
      ⟨s.atKey w, [s.beforeSignature]⟩
      = (((s.atSignature w).keys.sign k c).mapError .ofKeyService, ⟨s.atSignature w, []⟩) :=
    SharedWorld.guarded_interrupted hkey _ _ _ _ rfl
  exact Issuer.issue_fst hsignal hfound hcurrent hsign id

end World

def IssuedCredential.signingInput (i : IssuedCredential) : Canonical :=
  Token.signingInput (Token.headerFor i.credential.keyId) i.credential.toPayload

namespace World

variable {w : World} {s : Schedule} {id : CredentialId} {q : IssueRequest}

/-! The key. -/

/-- The token was signed in this world with the pair that is held there under the key it names, and
from then on the public half of this pair is what is found under that name. -/
structure SignedIn (w : World) (issued : IssuedCredential) (pair : KeyPair) : Prop where
  active : ∃ r, w.keys.find? issued.credential.keyId = some r ∧ r.status = .active ∧
    r.material.keyPair? = some pair
  token : issued.token = Token.encode (Token.headerFor issued.credential.keyId)
    issued.credential.toPayload (pair.sign issued.signingInput)
  found : ∀ later, ∃ key, keyDirectory.find issued.credential.keyId (run later w)
    = (.ok (some key), run later w) ∧ key.publicKey = pair.publicKey
  /-- what holds under the pair's own public key holds under every key that is found -/
  verifies : pair.publicKey.verify issued.signingInput (pair.sign issued.signingInput) = .ok () →
    ∀ later key u, keyDirectory.find issued.credential.keyId (run later w) = (.ok (some key), u) →
      key.publicKey.verify issued.signingInput (pair.sign issued.signingInput) = .ok ()

/-- The policy was active in this world, and its hash stays what it was. -/
structure IssuedUnder (w : World) (q : IssueRequest) (issued : IssuedCredential)
    (d : PolicyDefinition) : Prop where
  found : policyDirectory q.policyId q.version w = (.ok (some d), w)
  active : d.status = .active
  hash : issued.credential.policyHash = d.hash
  kept : ∀ later, ∃ e, policyDirectory d.id (some d.version) (run later w)
    = (.ok (some e), run later w) ∧ e.hash = issued.credential.policyHash

theorem find_of_signingPair (hw : Reached w) {k : KeyId} {pair : KeyPair}
    (h : w.keys.signingPair k = .ok pair) (later : List Operation) :
    ∃ key, keyDirectory.find k (run later w) = (.ok (some key), run later w) ∧
      key.publicKey = pair.publicKey := by
  obtain ⟨r, hr, _, hmaterial⟩ := KeyRing.signingPair_eq_ok_iff.mp h
  obtain ⟨r', hr', hsame, _⟩ := KeyRing.find?_of_changes (Later.run later w).keys hr
  refine ⟨r'.view, ?_, ?_⟩
  · rw [keyDirectory_find_eq (hw.run later).not_cancelled, KeyRing.view?, hr', Option.map_some]
  · rw [KeyRecord.view, hsame]
    exact KeyRing.publicKey_of_keyPair? hmaterial

theorem signedIn_of_sign (hw : Reached w) {p : PolicyDefinition} {k : KeyId}
    {now expiry : Instant} {sig : Signature}
    (h : w.keys.sign k (Token.signingInput (Token.headerFor k)
      (q.credential id p k now expiry).toPayload) = .ok sig) :
    ∃ pair, w.SignedIn (q.issuedUnder id p k now expiry sig) pair := by
  obtain ⟨pair, hpair, hsig⟩ := KeyRing.sign_eq_ok_iff.mp h
  obtain ⟨r, hr, hactive, hmaterial⟩ := KeyRing.signingPair_eq_ok_iff.mp hpair
  refine ⟨pair, ?_⟩
  constructor
  · exact ⟨r, hr, hactive, hmaterial⟩
  · exact congrArg (Token.encode _ _) hsig
  · exact find_of_signingPair hw hpair
  · intro hverify later key u hfind
    obtain ⟨key', hfind', hpublic⟩ := find_of_signingPair hw hpair later
    obtain rfl : key' = key := by
      have hsame := congrArg Prod.fst (hfind'.symm.trans hfind)
      exact Option.some.inj (Except.ok.inj hsame)
    rw [hpublic]
    exact hverify

/-! The policy. -/

theorem issuedUnder_of_get? (hw : Reached w) {d : PolicyDefinition} {k : KeyId}
    {now expiry : Instant} {sig : Signature}
    (hd : w.policies.get? q.policyId q.version = some d) (hactive : d.status = .active) :
    w.IssuedUnder q (q.issuedUnder id d k now expiry sig) d := by
  constructor
  · rw [policies_eq hw.not_cancelled, hd]
  · exact hactive
  · rfl
  · intro later
    obtain ⟨hmem, _⟩ := PolicyRegistry.mem_of_get? hd
    obtain ⟨status, hkept, _⟩ :=
      PolicyRegistry.find?_of_changes (Later.run later w).policies (hw.unique d hmem)
    refine ⟨{ d with status := status }, ?_, rfl⟩
    rw [policies_eq (hw.run later).not_cancelled, PolicyRegistry.get?, hkept]

/-! A key that is retired in between. -/

/-- A registered key is retired once others have retired it, whatever else they do. -/
theorem retired_run {k : KeyId} {ops : List Operation} (h : .retireKey k ∈ ops)
    (hk : ∃ r, w.keys.find? k = some r) : (run ops w).keys.Retired k := by
  -- no operation removes a record, so the key is still there when its turn comes
  induction ops generalizing w with
  | nil => cases h
  | cons op ops ih =>
    rcases List.mem_cons.mp h with rfl | htail
    · obtain ⟨r, hr⟩ := hk
      have hretired : ((Operation.retireKey k).apply w).keys.Retired k := by
        rw [Operation.apply, retireKey, keyStep]
        cases hretire : w.keys.retire k with
        | error e =>
          rw [KeyRing.retire, hr] at hretire
          cases hretire
        | ok ring => exact KeyRing.retired_of_retire hretire
      exact KeyRing.retired_of_changes (Later.run ops _).keys hretired
    · obtain ⟨r, hr⟩ := hk
      obtain ⟨r', hr', _⟩ := KeyRing.find?_of_changes (Later.apply op w).keys hr
      exact ih htail ⟨r', hr'⟩

/-- A token is safe whatever others do in between, and none is issued with a key that was current
when it was looked up and has been retired since. -/
theorem issue_interleaved (hw : Reached w) (s : Schedule) (id : CredentialId) (q : IssueRequest) :
    (∀ issued, (SharedWorld.issuer.issue id q (s.shared w)).1 = .ok issued →
      (∃ pair, (s.atSignature w).SignedIn issued pair) ∧
        ∃ d, (s.atPolicy w).IssuedUnder q issued d) ∧
    ∀ k, (s.atKey w).keys.currentKey? = some k → .retireKey k.id ∈ s.beforeSignature →
      (∀ issued, (SharedWorld.issuer.issue id q (s.shared w)).1 ≠ .ok issued) ∧
        ∀ d expiry, q.ReachesSigning ((s.atPolicy w).policies.get? q.policyId q.version)
          (s.atKey w).keys.currentKey? (s.atKey w).clock.now d k expiry →
          (SharedWorld.issuer.issue id q (s.shared w)).1 = .error (.keyService (.retired k.id)) := by
  have hpolicy : Reached (s.atPolicy w) := hw.run _
  have hsignature : Reached (s.atSignature w) := (hpolicy.run _).run _
  rw [issue_shared hw.not_cancelled]
  constructor
  · intro issued hissued
    obtain ⟨d, k, expiry, sig, hreaches, hsigned, rfl⟩ :=
      IssueRequest.outcome_eq_ok_iff.mp hissued
    constructor
    · exact signedIn_of_sign hsignature hsigned
    · exact ⟨d, issuedUnder_of_get? hpolicy hreaches.policy hreaches.active⟩
  · intro k hk hretire
    obtain ⟨_, r, hr, _⟩ := KeyRing.current_of_currentKey? hk
    have hretired : (s.atSignature w).keys.Retired k.id := retired_run hretire ⟨r, hr⟩
    constructor
    · intro issued hissued
      obtain ⟨d, k', expiry, sig, hreaches, hsigned, rfl⟩ :=
        IssueRequest.outcome_eq_ok_iff.mp hissued
      obtain rfl : k = k' := Option.some.inj (hk.symm.trans hreaches.key)
      rw [KeyRing.sign_of_retired hretired] at hsigned
      cases hsigned
    · intro d expiry hreaches
      rw [IssueRequest.outcome_of_reaches hreaches, KeyRing.sign_of_retired hretired]
      rfl

/-! The small world with its one key, while others replace it. -/

/-- The key is replaced while the signature is asked for, in the two parts of a rotation. -/
def sampleRotation : Schedule :=
  ⟨[], [.insertKey ⟨"k2"⟩ ⟨List.replicate 32 11, rfl⟩],
    [.setCurrentKey ⟨"k2"⟩, .setPolicyStatus ⟨"p1"⟩ ⟨1⟩ .deprecated]⟩

def sampleRetirement : Schedule := ⟨[], [], [.retireKey ⟨"k1"⟩]⟩

def sampleIssued : IssuedCredential :=
  let c := sampleCredential []
  (sampleRequest []).issuedUnder ⟨Uuid.nil⟩ samplePolicy ⟨"k1"⟩ c.issuedAt c.expiresAt
    (samplePair.sign (Token.signingInput (Token.headerFor c.keyId) c.toPayload))

theorem issue_interleaved_sample :
    (SharedWorld.issuer.issue ⟨Uuid.nil⟩ (sampleRequest [])
        (sampleRotation.shared sampleWorld)).1 = .ok sampleIssued ∧
      (sampleRotation.atSignature sampleWorld).SignedIn sampleIssued samplePair ∧
      (∃ d, (sampleRotation.atPolicy sampleWorld).IssuedUnder (sampleRequest []) sampleIssued d) ∧
      (SharedWorld.issuer.issue ⟨Uuid.nil⟩ (sampleRequest [])
        (sampleRetirement.shared sampleWorld)).1 = .error (.keyService (.retired ⟨"k1"⟩)) := by
  have hissued : (SharedWorld.issuer.issue ⟨Uuid.nil⟩ (sampleRequest [])
      (sampleRotation.shared sampleWorld)).1 = .ok sampleIssued := by
    rw [issue_shared reached_sampleWorld.not_cancelled]
    rfl
  obtain ⟨⟨pair, hsigned⟩, hunder⟩ := (issue_interleaved reached_sampleWorld sampleRotation
    ⟨Uuid.nil⟩ (sampleRequest [])).1 sampleIssued hissued
  have hpair : pair = samplePair := by
    obtain ⟨r, hr, _, hmaterial⟩ := hsigned.active
    have hfound : (sampleRotation.atSignature sampleWorld).keys.find? ⟨"k1"⟩
      = some ⟨⟨"k1"⟩, .active, .ofPair samplePair⟩ := rfl
    obtain rfl := Option.eq_some_unique hr hfound
    exact (Option.some.inj hmaterial).symm
  refine ⟨hissued, hpair ▸ hsigned, hunder, ?_⟩
  refine ((issue_interleaved reached_sampleWorld sampleRetirement ⟨Uuid.nil⟩
    (sampleRequest [])).2 sampleKey rfl (List.mem_singleton.mpr rfl)).2 samplePolicy sampleExpiry ?_
  exact ⟨rfl, rfl, rfl, rfl, rfl, rfl⟩

end World
end Credentials
