import Credentials.Proofs.Issuance.Issue
import Credentials.Proofs.Payload
import Credentials.Proofs.Token.Codec
import Credentials.Proofs.Validation.Judgement

/-!
# What is issued is accepted

A token that was issued is validated in a later world. Ring and registry have kept the key and the
policy, so the token is accepted as long as it can be read back, names its key and its signature
holds; it cannot be read back when an object in the claims lists first the name that is kept for
spelled numbers.
-/

namespace Credentials

/-- A request whose names were checked, and whose claims were decoded and leave room for the
payload around them. -/
structure IssueRequest.WellFormed (q : IssueRequest) : Prop where
  policy : ∃ name, PolicyId.ofName name = .ok q.policyId
  subject : ∃ name, SubjectId.ofName name = .ok q.subjectId
  claims : ∃ text, Json.parse text = some (.object q.claims)
  depth : (Json.object q.claims).depth ≤ 126

namespace World

variable {w u : World}

/-- A later world in which nothing speaks against a credential that was issued under a version: its
key is not retired, the times are right, and the version is current or compatible, not retired. -/
structure Upholds (u : World) (c : Credential) (version : PolicyVersion) (skew : Nat)
    (binds : Bool) : Prop where
  key : ¬ u.keys.Retired c.keyId
  skew : (u.clock.now.since c.issuedAt).natAbs ≤ skew
  expiry : u.clock.now < c.expiresAt
  start : ∀ s ∈ c.notBefore, s ≤ u.clock.now
  policy : binds = true → ∃ p d, u.policies.current? c.policyId = some p ∧
    (version = p.version ∨ version ∈ p.compatible) ∧
    u.policies.find? c.policyId version = some d ∧ d.status ≠ .retired

/-- The signature that the key of a credential gives holds under the key itself. -/
def SignatureHolds (w : World) (c : Credential) : Prop :=
  ∀ pair, w.keys.signingPair c.keyId = .ok pair →
    pair.publicKey.verify (Token.signingInput (Token.headerFor c.keyId) c.toPayload)
      (pair.sign (Token.signingInput (Token.headerFor c.keyId) c.toPayload)) = .ok ()

/-! What was issued. -/

section Issued

variable {id : CredentialId} {q : IssueRequest} {p : PolicyDefinition} {k : IssuerKey}
  {expiry : Instant} {s : Signature}

/-- The key that signed, and its pair. -/
theorem Issues.pair (h : w.Issues id q p k expiry s) : ∃ pair,
    w.keys.signingPair k.id = .ok pair ∧ k.publicKey = pair.publicKey ∧
      s = pair.sign (Token.signingInput (Token.headerFor k.id)
        (q.credential id p k.id w.clock.now expiry).toPayload) := by
  obtain ⟨pair, hpair, hs⟩ := KeyRing.sign_eq_ok_iff.mp h.signed
  obtain ⟨r, hr, _, hmaterial⟩ := KeyRing.signingPair_eq_ok_iff.mp hpair
  obtain ⟨_, r', hr', rfl⟩ := KeyRing.current_of_currentKey? h.key
  obtain rfl : r' = r := Option.eq_some_unique hr' hr
  exact ⟨pair, hpair, KeyRing.publicKey_of_keyPair? hmaterial, hs⟩

/-- The key is found again as long as it is not retired. -/
theorem Issues.view? (h : w.Issues id q p k expiry s) (hlater : Later w u)
    (hk : ¬ u.keys.Retired k.id) : u.keys.view? k.id = some k ∧ k.status = .active := by
  obtain ⟨_, r, hr, hview⟩ := KeyRing.current_of_currentKey? h.key
  obtain ⟨r', hr', hmaterial, hstatus⟩ := KeyRing.find?_of_changes hlater.keys hr
  have hactive : r'.status = .active := by
    cases hr'' : r'.status with
    | active => rfl
    | retired => exact absurd ⟨r', hr', hr''⟩ hk
  have hsame : r.status = .active := by
    rcases hstatus with hsame | hretired
    · rw [← hsame, hactive]
    · rw [hactive] at hretired
      cases hretired
  have hid : r'.id = r.id := (KeyRing.id_of_find? hr').trans (KeyRing.id_of_find? hr).symm
  rw [KeyRing.view?, hr', Option.map_some, ← hview]
  refine ⟨congrArg some ?_, hsame⟩
  rw [KeyRecord.view, KeyRecord.view, hid, hmaterial, hactive, hsame]

/-- The registry binds the credential as long as the version is good. -/
theorem Issues.binds (hw : Reached w) (h : w.Issues id q p k expiry s) (hlater : Later w u)
    (hu : Reached u) {skew : Nat} {binds : Bool}
    (hholds : u.Upholds (q.credential id p k.id w.clock.now expiry) p.version skew binds)
    (hbinds : binds = true) :
    u.policies.Binds (q.credential id p k.id w.clock.now expiry) := by
  obtain ⟨hmem, _⟩ := PolicyRegistry.mem_of_get? h.policy
  obtain ⟨status, hkept, _⟩ := PolicyRegistry.find?_of_changes hlater.policies (hw.unique p hmem)
  obtain ⟨cur, d, hcurrent, hversion, hfind, hstatus⟩ := hholds.policy hbinds
  have hd : d = { p with status := status } := Option.eq_some_unique hfind hkept
  have hhash : d.hash = p.hash := by
    rw [hd]
    rfl
  refine ⟨cur, d, hcurrent, ?_, hstatus, congrArg Hex.lowercase hhash⟩
  rcases hversion with hsame | hcompatible
  · left
    obtain ⟨hcur, hid⟩ := PolicyRegistry.mem_of_current? hcurrent
    have hself := hu.unique cur hcur
    rw [hid, ← hsame] at hself
    exact Option.eq_some_unique hfind hself
  · exact Or.inr ⟨p.version, hcompatible, hfind⟩

/-- The token is decoded to the documents that were signed if its claims can be read back and leave
room for the payload around them. -/
theorem decode_issuedBy {text : Bytes} (hclaims : Json.parse text = some (.object q.claims))
    (h : (Json.object q.claims).ReadableWithin 126) :
    Token.decode (w.issuedBy id q p k expiry s).token =
      .ok ⟨Token.headerFor k.id, (q.credential id p k.id w.clock.now expiry).toPayload, s.bytes⟩ :=
  Token.decode_encode s (Token.parse_headerFor k.id)
    (Credential.parse_toPayload (c := q.credential id p k.id w.clock.now expiry) hclaims h)

/-- It is refused for its payload otherwise. -/
theorem decode_issuedBy_eq_error {text : Bytes} (hclaims : Json.parse text = some (.object q.claims))
    (h : ¬ (Json.object q.claims).ReadableWithin 126) :
    Token.decode (w.issuedBy id q p k expiry s).token = .error (.notAnObject .payload) := by
  apply Token.decode_encode_of_unread s (Token.parse_headerFor k.id)
  apply Option.eq_none_iff_forall_ne_some.mpr
  intro v hv
  exact h (Credential.readableWithin_of_parse_toPayload
    (c := q.credential id p k.id w.clock.now expiry) hclaims hv)

/-- The issued token passes every check, with the issued credential. -/
theorem Issues.accepts (hw : Reached w) (h : w.Issues id q p k expiry s) (hlater : Later w u)
    (hu : Reached u) (hq : q.WellFormed) {skew : Nat} {binds : Bool}
    (hholds : u.Upholds (q.credential id p k.id w.clock.now expiry) p.version skew binds)
    (hreadable : Json.Readable (.object q.claims)) (hname : KeyId.ofName k.id.name = .ok k.id)
    (hsignature : w.SignatureHolds (q.credential id p k.id w.clock.now expiry)) :
    (u.situation skew binds (w.issuedBy id q p k expiry s).token).Accepts
      ⟨Token.headerFor k.id, (q.credential id p k.id w.clock.now expiry).toPayload, s.bytes⟩ k.id k
      (q.credential id p k.id w.clock.now expiry) := by
  obtain ⟨_, hpolicyName⟩ := hq.policy
  obtain ⟨_, hsubjectName⟩ := hq.subject
  obtain ⟨text, hclaims⟩ := hq.claims
  obtain ⟨pair, hpair, hpublic, hs⟩ := h.pair
  obtain ⟨hview, hactive⟩ := h.view? hlater hholds.key
  have hpolicy : PolicyId.ofName p.id.name = .ok p.id := by
    rw [(PolicyRegistry.mem_of_get? h.policy).2]
    exact PolicyId.ofName_name hpolicyName
  have hcarries := Credential.carries_toPayload (q.credential id p k.id w.clock.now expiry)
  exact
    { decodes := decode_issuedBy hclaims ⟨hreadable, hq.depth⟩
      names := by rw [Token.keyId?_headerFor, hname]; rfl
      known := hview
      active := hactive
      algorithm := Token.algorithm?_headerFor _ _ _
      signed := by
        refine ⟨s, rfl, ?_⟩
        rw [hpublic, hs]
        exact hsignature pair hpair
      issued := ⟨_, Credential.requiredInstant_of_get? hcarries.issued, hholds.skew⟩
      expires := ⟨_, Credential.requiredInstant_of_get? hcarries.expires, hholds.expiry⟩
      starts := ⟨_, Credential.optionalInstant_nbf _, hholds.start⟩
      content := Credential.ofPayload_toPayload (SubjectId.ofName_name hsubjectName) hpolicy
      bound := fun r hr => by
        cases binds with
        | false => cases hr
        | true =>
          cases hr
          exact h.binds hw hlater hu hholds rfl }

/-- Whatever accepts the issued token, could read it, and saw its signature hold. -/
theorem Issues.of_accepts (h : w.Issues id q p k expiry s) (hlater : Later w u)
    (hq : q.WellFormed) (hk : ¬ u.keys.Retired k.id) {skew : Nat} {binds : Bool} {t : Token}
    {id' : KeyId} {k' : IssuerKey} {c : Credential}
    (haccepts : (u.situation skew binds (w.issuedBy id q p k expiry s).token).Accepts t id' k' c) :
    Json.Readable (.object q.claims) ∧ KeyId.ofName k.id.name = .ok k.id ∧
      w.SignatureHolds (q.credential id p k.id w.clock.now expiry) := by
  obtain ⟨text, hclaims⟩ := hq.claims
  have hreadable : (Json.object q.claims).ReadableWithin 126 := by
    by_contra h
    have hdecodes := haccepts.decodes
    rw [World.situation, decode_issuedBy_eq_error hclaims h] at hdecodes
    cases hdecodes
  have ht : Token.decode (w.issuedBy id q p k expiry s).token = _ :=
    decode_issuedBy hclaims hreadable
  obtain rfl := Except.ok.inj (haccepts.decodes.symm.trans ht)
  have hname := haccepts.names
  rw [Token.keyId?_headerFor] at hname
  have hid := toOption_eq_some_iff.mp hname
  obtain rfl : id' = k.id := KeyId.ofName_eq_ok hid
  obtain ⟨hview, _⟩ := h.view? hlater hk
  obtain rfl : k' = k := Option.eq_some_unique haccepts.known hview
  refine ⟨hreadable.readable, hid, fun pair hpair => ?_⟩
  obtain ⟨pair', hpair', hpublic, hs⟩ := h.pair
  obtain rfl : pair' = pair := Except.ok.inj (hpair'.symm.trans hpair)
  obtain ⟨sig, hsig, hverify⟩ := haccepts.signed
  have hsame : sig = s := by
    cases sig
    cases s
    cases hsig
    rfl
  rw [hsame, hs, hpublic] at hverify
  exact hverify

/-- A token whose claims cannot be read back is malformed. -/
theorem Issues.malformed (hw : w.cancelled = false) (hlater : Later w u) (hq : q.WellFormed)
    (hreadable : ¬ Json.Readable (.object q.claims)) (skew : Nat) (binds : Bool) :
    ∃ v, (validator skew binds).validate (w.issuedBy id q p k expiry s).token u = (.ok v, u) ∧
      v.isValid = false ∧ v.credential = none ∧ v.reason = .malformedToken := by
  obtain ⟨text, hclaims⟩ := hq.claims
  have hu : u.cancelled = false := hlater.cancelled.trans hw
  exact validate_of_decode_error hu
    (decode_issuedBy_eq_error hclaims fun h => hreadable h.readable) skew binds

end Issued

/-- An issued token is accepted with the issued credential exactly if its claims can be read back,
its key has a proper name and its signature holds. -/
theorem validate_issued_iff (hw : Reached w) {id : CredentialId} {q : IssueRequest}
    (hq : q.WellFormed) {issued : IssuedCredential} {v : World}
    (hissue : issuer.issue id q w = (.ok issued, v)) {p : PolicyDefinition}
    (hp : w.policies.get? q.policyId q.version = some p) (later : List Operation) {skew : Nat}
    {binds : Bool} (hholds : (run later v).Upholds issued.credential p.version skew binds) :
    issued.hash = issued.credential.hash ∧
      ((validator skew binds).validate issued.token (run later v)
        = (.ok ⟨.valid, none, some issued.credential.keyId, some issued.credential,
          (run later v).clock.now⟩, run later v) ↔
        Json.Readable (.object q.claims) ∧
          KeyId.ofName issued.credential.keyId.name = .ok issued.credential.keyId ∧
          w.SignatureHolds issued.credential) ∧
      (¬ Json.Readable (.object q.claims) →
        ∃ r, (validator skew binds).validate issued.token (run later v) = (.ok r, run later v) ∧
          r.isValid = false ∧ r.credential = none ∧ r.reason = .malformedToken) := by
  obtain ⟨rfl, p', k, expiry, s, hissues, rfl⟩ := (issue_eq_ok_iff hw.not_cancelled).mp hissue
  obtain rfl : p' = p := Option.eq_some_unique hissues.policy hp
  have hlater := Later.run later v
  have hu := hw.run later
  refine ⟨rfl, ⟨fun hvalid => ?_, fun ⟨hreadable, hname, hsignature⟩ => ?_⟩,
    fun hreadable => Issues.malformed hw.not_cancelled hlater hq hreadable skew binds⟩
  · obtain ⟨t, id', k', c, haccepts, _⟩ := (validate_valid_iff hu.not_cancelled).mp ⟨hvalid, rfl⟩
    exact hissues.of_accepts hlater hq hholds.key haccepts
  · exact validate_of_accepts hu.not_cancelled
      (hissues.accepts hw hlater hu hq hholds hreadable hname hsignature)

/-! A world with one policy and one key, and what may happen in it afterwards. -/

def samplePolicy : PolicyDefinition :=
  ⟨⟨"p1"⟩, ⟨1⟩, .active, "c1", "v1", "f1", [], 3600, .object [], none, Json.isLexical_object_nil⟩

def samplePair : KeyPair := ⟨List.replicate 32 7, rfl⟩

def sampleKey : IssuerKey := ⟨⟨"k1"⟩, .active, samplePair.publicKey⟩

def sampleTime : Instant := ⟨1700000000, by decide, by decide⟩

def sampleWorld : World :=
  run [.registerPolicy samplePolicy, .insertKey ⟨"k1"⟩ samplePair] (initial sampleTime)

def sampleLater : List Operation :=
  [.rotateKey ⟨"k2"⟩ ⟨List.replicate 32 9, rfl⟩, .setPolicyStatus ⟨"p1"⟩ ⟨1⟩ .deprecated,
    .advanceClock 60]

def sampleRequest (claims : Json.Members) : IssueRequest :=
  ⟨⟨"p1"⟩, none, ⟨"s1"⟩, claims, none, none, none⟩

theorem reached_sampleWorld : Reached sampleWorld := ⟨sampleTime, _, rfl⟩

def sampleExpiry : Instant := ⟨1700003600, by decide, by decide⟩

def sampleCredential (claims : Json.Members) : Credential :=
  (sampleRequest claims).credential ⟨Uuid.nil⟩ samplePolicy ⟨"k1"⟩ sampleTime sampleExpiry

theorem issues_sampleRequest (claims : Json.Members) :
    sampleWorld.Issues ⟨Uuid.nil⟩ (sampleRequest claims) samplePolicy sampleKey sampleExpiry
      (samplePair.sign (Token.signingInput (Token.headerFor ⟨"k1"⟩)
        (sampleCredential claims).toPayload)) :=
  ⟨rfl, rfl, rfl, rfl, rfl, rfl⟩

theorem upholds_sampleCredential (claims : Json.Members) :
    (run sampleLater sampleWorld).Upholds (sampleCredential claims) ⟨1⟩ 300 true := by
  have hfind : (run sampleLater sampleWorld).keys.find? ⟨"k1"⟩
      = some ⟨⟨"k1"⟩, .active, .ofPair samplePair⟩ := rfl
  have hskew : (60 : Nat) ≤ 300 := by decide
  have hexpiry : (1700000060 : Int) < 1700003600 := by decide
  refine
    { key := ?_
      skew := hskew
      expiry := hexpiry
      start := fun s hs => nomatch hs
      policy := fun _ => ⟨{ samplePolicy with status := .deprecated },
        { samplePolicy with status := .deprecated }, rfl, Or.inl rfl, rfl, by decide⟩ }
  rintro ⟨r, hr, hretired⟩
  obtain rfl := Option.eq_some_unique hr hfind
  cases hretired

/-- Any claims are issued there, and the credential is upheld afterwards. -/
theorem issue_sampleRequest (claims : Json.Members) : ∃ issued,
    issuer.issue ⟨Uuid.nil⟩ (sampleRequest claims) sampleWorld = (.ok issued, sampleWorld) ∧
      issued.credential.keyId = ⟨"k1"⟩ ∧
      (run sampleLater sampleWorld).Upholds issued.credential ⟨1⟩ 300 true :=
  ⟨_, (issue_eq_ok_iff rfl).mpr ⟨rfl, _, _, _, _, issues_sampleRequest claims, rfl⟩, rfl,
    upholds_sampleCredential claims⟩

/-- Claims that are read back are accepted with the credential if its signature holds. -/
theorem validate_issued_sample : ∃ issued,
    issuer.issue ⟨Uuid.nil⟩ (sampleRequest [("a", .number [0x31])]) sampleWorld
      = (.ok issued, sampleWorld) ∧
    ((validator 300 true).validate issued.token (run sampleLater sampleWorld)
      = (.ok ⟨.valid, none, some issued.credential.keyId, some issued.credential,
        (run sampleLater sampleWorld).clock.now⟩, run sampleLater sampleWorld) ↔
      sampleWorld.SignatureHolds issued.credential) := by
  have hq : (sampleRequest [("a", .number [0x31])]).WellFormed :=
    { policy := ⟨"p1", rfl⟩
      subject := ⟨"s1", rfl⟩
      claims := ⟨Bytes.ofText "\x7b\"a\":1\x7d", rfl⟩
      depth := by decide }
  have hreadable : Json.Readable (.object [("a", .number [0x31])]) :=
    .object (by decide) (List.forall_mem_singleton.mpr (.number _))
  obtain ⟨issued, hissue, hkey, hholds⟩ := issue_sampleRequest [("a", .number [0x31])]
  obtain ⟨_, haccepted, _⟩ :=
    validate_issued_iff reached_sampleWorld hq hissue rfl sampleLater hholds
  have hname : KeyId.ofName issued.credential.keyId.name = .ok issued.credential.keyId := by
    rw [hkey]
    rfl
  refine ⟨issued, hissue, haccepted.trans ⟨fun h => h.2.2, fun h => ⟨hreadable, hname, h⟩⟩⟩

/-! A credential with a type and a flag; its one signature is computed. -/

def flaggedClaims : Json.Members :=
  [("credentialType", .string "AgeOver18"), ("satisfied", .bool true)]

def flaggedInput : Canonical :=
  Token.signingInput (Token.headerFor ⟨"k1"⟩) (sampleCredential flaggedClaims).toPayload

def flaggedToken : String :=
  Token.encode (Token.headerFor ⟨"k1"⟩) (sampleCredential flaggedClaims).toPayload
    (samplePair.sign flaggedInput)

theorem wellFormed_flagged : (sampleRequest flaggedClaims).WellFormed where
  policy := ⟨"p1", rfl⟩
  subject := ⟨"s1", rfl⟩
  claims := ⟨Bytes.ofText "\x7b\"credentialType\":\"AgeOver18\",\"satisfied\":true\x7d", rfl⟩
  depth := by decide

theorem readable_flagged : Json.Readable (.object flaggedClaims) := by
  refine .object (by decide) ?_
  exact List.forall_mem_cons.mpr ⟨.string _, List.forall_mem_singleton.mpr (.bool _)⟩

theorem verify_flagged :
    samplePair.publicKey.verify flaggedInput (samplePair.sign flaggedInput) = .ok () := by
  decide +kernel

theorem signatureHolds_flagged : sampleWorld.SignatureHolds (sampleCredential flaggedClaims) := by
  intro pair hpair
  have hsample : sampleWorld.keys.signingPair ⟨"k1"⟩ = .ok samplePair := rfl
  obtain rfl := Except.ok.inj (hsample.symm.trans hpair)
  exact verify_flagged

theorem accepts_flagged : ((run sampleLater sampleWorld).situation 300 true flaggedToken).Accepts
    ⟨Token.headerFor ⟨"k1"⟩, (sampleCredential flaggedClaims).toPayload,
      (samplePair.sign flaggedInput).bytes⟩ ⟨"k1"⟩ sampleKey (sampleCredential flaggedClaims) :=
  (issues_sampleRequest flaggedClaims).accepts reached_sampleWorld (Later.run sampleLater sampleWorld)
    (reached_sampleWorld.run sampleLater) wellFormed_flagged (upholds_sampleCredential flaggedClaims)
    readable_flagged rfl signatureHolds_flagged

/-- The claims of a text that has a member `a` before the name that is kept for spelled numbers. -/
def sampleClaims : Json.Members :=
  [(Bytes.asciiText Json.numberName, .string "5"), ("a", .number [0x31])]

/-- They are issued, but the token is malformed. -/
theorem issued_but_malformed : (sampleRequest sampleClaims).WellFormed ∧ Reached sampleWorld ∧
    ∃ issued,
      issuer.issue ⟨Uuid.nil⟩ (sampleRequest sampleClaims) sampleWorld = (.ok issued, sampleWorld) ∧
      (run sampleLater sampleWorld).Upholds issued.credential samplePolicy.version 300 true ∧
      ∃ r, (validator 300 true).validate issued.token (run sampleLater sampleWorld)
          = (.ok r, run sampleLater sampleWorld) ∧
        r.isValid = false ∧ r.credential = none ∧ r.reason = .malformedToken := by
  have hq : (sampleRequest sampleClaims).WellFormed :=
    { policy := ⟨"p1", rfl⟩
      subject := ⟨"s1", rfl⟩
      claims := ⟨Bytes.ofText "\x7b\"a\":1,\"" ++ Json.numberName ++ Bytes.ofText "\":\"5\"\x7d",
        rfl⟩
      depth := by decide }
  have hreadable : ¬ Json.Readable (.object sampleClaims) := by
    intro h
    cases h with
    | object hhead _ => exact hhead _ rfl rfl
  obtain ⟨issued, hissue, _, hholds⟩ := issue_sampleRequest sampleClaims
  refine ⟨hq, reached_sampleWorld, issued, hissue, hholds, ?_⟩
  obtain ⟨_, p, k, expiry, s, _, rfl⟩ := (issue_eq_ok_iff rfl).mp hissue
  exact Issues.malformed rfl (Later.run sampleLater sampleWorld) hq hreadable 300 true

end World
end Credentials
