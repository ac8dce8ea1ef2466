import Credentials.Proofs.Checks
import Credentials.Proofs.Payload
import Credentials.Proofs.Time.Text

/-!
# Payloads and credentials

Reading a payload and writing it are inverse to each other: a credential is rebuilt from its
payload, and the payload of the credential in a decoded payload is that payload again, less what is
null or unknown and with the identifier in its usual spelling. A payload that holds no credential is
refused for the first claim that cannot be used.
-/

namespace Credentials

open Json

inductive PayloadClaim where
  | jti
  | sub
  | policyId
  | policyHash
  | iat
  | exp
  | nbf
  | deviceTag
  | claims
deriving DecidableEq

namespace PayloadClaim

def name : PayloadClaim → String
  | .jti => "jti"
  | .sub => "sub"
  | .policyId => "policyId"
  | .policyHash => "policyHash"
  | .iat => "iat"
  | .exp => "exp"
  | .nbf => "nbf"
  | .deviceTag => "deviceTag"
  | .claims => "claims"

/-- The claims in the order in which they are looked at. -/
def all : List PayloadClaim :=
  [.jti, .sub, .policyId, .policyHash, .iat, .exp, .nbf, .deviceTag, .claims]

theorem mem_all (claim : PayloadClaim) : claim ∈ all := by cases claim <;> decide

/-- A claim that a payload may leave out. -/
inductive Omissible : PayloadClaim → Prop where
  | nbf : Omissible .nbf
  | deviceTag : Omissible .deviceTag

/-- What is to stand under the name of a claim. -/
def Holds : PayloadClaim → Json → Prop
  | .jti, v => ∃ s id, v = .string s ∧ CredentialId.parse s = .ok id
  | .sub, v => ∃ s id, v = .string s ∧ SubjectId.ofName s = .ok id
  | .policyId, v => ∃ s id, v = .string s ∧ PolicyId.ofName s = .ok id
  | .policyHash, v | .deviceTag, v => ∃ s, v = .string s
  | .iat, v | .exp, v | .nbf, v => ∃ t : Instant, v = .ofInt t.epoch
  | .claims, v => ∃ ms, v = .object ms

/-- What may stand there: null is as good as nothing where a claim may be left out. -/
inductive Usable (claim : PayloadClaim) : Option Json → Prop where
  | value {v : Json} : claim.Holds v → Usable claim (some v)
  | absent : claim.Omissible → Usable claim none
  | null : claim.Omissible → Usable claim (some .null)

theorem usable_iff {claim : PayloadClaim} {v : Option Json} (h : ¬ claim.Omissible) :
    claim.Usable v ↔ ∃ w, v = some w ∧ claim.Holds w := by
  constructor
  · intro husable
    cases husable with
    | value hv => exact ⟨_, rfl, hv⟩
    | absent homissible => exact absurd homissible h
    | null homissible => exact absurd homissible h
  · rintro ⟨w, rfl, hw⟩
    exact .value hw

theorem usable_some_iff {claim : PayloadClaim} {v : Json} (h : claim.Omissible) :
    claim.Usable (some v) ↔ v = .null ∨ claim.Holds v := by
  constructor
  · intro husable
    cases husable with
    | value hv => exact Or.inr hv
    | null _ => exact Or.inl rfl
  · rintro (rfl | hv)
    · exact .null h
    · exact .value hv

/-- What is reported of a claim that is not usable: null counts as absence, but not of the
attributes. -/
def problem (claim : PayloadClaim) : Option Json → ClaimProblem
  | none => .missing claim.name
  | some .null => if claim = .claims then .invalid claim.name else .missing claim.name
  | some _ => .invalid claim.name

/-- A payload that holds something usable under the name of a claim. -/
def UsableIn (payload : Members) (claim : PayloadClaim) : Prop :=
  claim.Usable (get? payload claim.name)

theorem usableIn_iff (payload : Members) {claim : PayloadClaim} (h : ¬ claim.Omissible) :
    UsableIn payload claim ↔ ∃ v, get? payload claim.name = some v ∧ claim.Holds v :=
  usable_iff h

def problemIn (payload : Members) (claim : PayloadClaim) : ClaimProblem :=
  claim.problem (get? payload claim.name)

/-- Some claims of a payload are looked at in their order. -/
def LooksAt {α : Type} (payload : Members) (claims : List PayloadClaim)
    (x : Except ClaimProblem α) : Prop :=
  MakesChecks (UsableIn payload) (fun claim e => problemIn payload claim = e) claims x

end PayloadClaim

namespace Claim

open PayloadClaim

variable {payload : Members} {claim : PayloadClaim}

/-! Reading one claim. -/

theorem present?_eq_none_iff {name : String} :
    present? payload name = none ↔ get? payload name = none ∨ get? payload name = some .null := by
  rw [present?]
  cases get? payload name with
  | none => simp
  | some v => cases v <;> simp [Option.filter, isNull]

theorem present?_of_get? {name : String} {v : Json} (h : get? payload name = some v)
    (hnull : v ≠ .null) : present? payload name = some v := by
  rw [present?, h]
  cases v <;> first | rfl | exact absurd rfl hnull

theorem get?_of_present? {name : String} {v : Json} (h : present? payload name = some v) :
    get? payload name = some v ∧ v ≠ .null := by
  obtain ⟨hget, hnull⟩ := Option.filter_eq_some_iff.mp h
  refine ⟨hget, ?_⟩
  rintro rfl
  cases hnull

theorem problemIn_of_absent (hne : claim ≠ .claims) (h : present? payload claim.name = none) :
    problemIn payload claim = .missing claim.name := by
  rw [problemIn]
  rcases present?_eq_none_iff.mp h with hget | hget
  · rw [hget, problem]
  · rw [hget, problem, if_neg hne]

theorem problemIn_of_present {v : Json} (h : present? payload claim.name = some v) :
    problemIn payload claim = .invalid claim.name := by
  obtain ⟨hget, hnull⟩ := get?_of_present? h
  rw [problemIn, hget]
  cases v <;> first | rfl | exact absurd rfl hnull

theorem requiredText_eq_error (hne : claim ≠ .claims)
    (h : ¬ ∃ s, get? payload claim.name = some (.string s)) :
    requiredText payload claim.name = .error (problemIn payload claim) := by
  unfold requiredText
  split
  · next habsent => rw [problemIn_of_absent hne habsent]
  · next s hs => exact absurd ⟨s, (get?_of_present? hs).1⟩ h
  · next v _ hv => rw [problemIn_of_present hv]

/-- A claim that has to be a text which can be parsed. -/
theorem looksAt_parsed {ε α : Type} {parse : String → Except ε α} (claim : PayloadClaim)
    (hrequired : ¬ claim.Omissible) (hne : claim ≠ .claims)
    (hholds : ∀ v, claim.Holds v ↔ ∃ s a, v = .string s ∧ parse s = .ok a) :
    LooksAt payload [claim]
      (requiredText payload claim.name >>= fun s => parsed claim.name (parse s)) := by
  have husable := usableIn_iff payload hrequired
  simp only [hholds] at husable
  apply MakesChecks.single_of_eq
  · intro h
    obtain ⟨_, hs, s, a, rfl, ha⟩ := husable.mp h
    exact ⟨a, except_bind_eq_ok_iff.mpr
      ⟨s, Credential.requiredText_eq_ok_iff.mpr hs, Credential.parsed_eq_ok_iff.mpr ha⟩⟩
  · intro h
    apply except_bind_eq_error_iff.mpr
    by_cases htext : ∃ s, get? payload claim.name = some (.string s)
    · obtain ⟨s, hs⟩ := htext
      refine Or.inr ⟨s, Credential.requiredText_eq_ok_iff.mpr hs, ?_⟩
      rw [problemIn_of_present (present?_of_get? hs nofun)]
      cases hparse : parse s with
      | ok a => exact absurd (husable.mpr ⟨_, hs, s, a, rfl, hparse⟩) h
      | error e => rfl
    · exact Or.inl (requiredText_eq_error hne htext)

theorem looksAt_requiredText (claim : PayloadClaim) (hrequired : ¬ claim.Omissible)
    (hne : claim ≠ .claims) (hholds : ∀ v, claim.Holds v ↔ ∃ s, v = .string s) :
    LooksAt payload [claim] (requiredText payload claim.name) := by
  have husable := usableIn_iff payload hrequired
  simp only [hholds] at husable
  apply MakesChecks.single_of_eq
  · intro h
    obtain ⟨_, hs, s, rfl⟩ := husable.mp h
    exact ⟨s, Credential.requiredText_eq_ok_iff.mpr hs⟩
  · intro h
    exact requiredText_eq_error hne fun ⟨s, hs⟩ => h (husable.mpr ⟨_, hs, s, rfl⟩)

theorem optionalText_eq_ok_iff {name : String} {tag : Option String} :
    optionalText payload name = .ok tag ↔ present? payload name = tag.map .string := by
  unfold optionalText
  split
  · next h => rw [h]; cases tag <;> simp
  · next s h => rw [h]; cases tag <;> simp [eq_comm]
  · next v hne h =>
    rw [h]
    cases tag with
    | none => simp
    | some s => simpa using fun hv => hne s hv

theorem optionalText_eq_error {name : String} {e : ClaimProblem}
    (h : optionalText payload name = .error e) :
    e = .invalid name ∧ ∃ v, present? payload name = some v := by
  unfold optionalText at h
  split at h
  · cases h
  · cases h
  · next v _ hv =>
    cases h
    exact ⟨rfl, v, hv⟩

theorem optionalInstant_eq_error {name : String} {e : ClaimProblem}
    (h : optionalInstant payload name = .error e) :
    e = .invalid name ∧ ∃ v, present? payload name = some v := by
  unfold optionalInstant at h
  split at h
  · cases h
  · next v hv =>
    split at h
    · cases h
    · cases h
      exact ⟨rfl, v, hv⟩

theorem instant?_eq_some_iff {v : Json} (hv : v.Lexical) {t : Instant} :
    instant? v = some t ↔ v = .ofInt t.epoch := by
  constructor
  · intro h
    cases hv with
    | @number l hl hzero =>
      obtain ⟨i, hi, ht⟩ := Option.bind_eq_some_iff.mp h
      rw [ofInt, Instant.ofEpoch?_eq_some_iff.mp ht, (signed?_eq_some_iff hl hzero).mp hi]
    | _ => cases h
  · rintro rfl
    exact Credential.instant?_ofInt t

section Decoded

variable (hpayload : (Json.object payload).Lexical)
include hpayload

theorem lexical_of_present? {name : String} {v : Json} (h : present? payload name = some v) :
    v.Lexical := by
  cases hpayload with
  | object hvalues => exact hvalues _ (mem_of_get? (get?_of_present? h).1)

theorem optionalInstant_eq_ok_iff {name : String} {time : Option Instant} :
    optionalInstant payload name = .ok time ↔
      present? payload name = time.map fun t => .ofInt t.epoch := by
  unfold optionalInstant
  split
  · next h => rw [h]; cases time <;> simp
  · next v h =>
    have hinstant := fun t => instant?_eq_some_iff (t := t) (lexical_of_present? hpayload h)
    rw [h]
    split
    · next t ht =>
      obtain rfl := (hinstant t).mp ht
      cases time with
      | none => simp
      | some s =>
        rw [Except.ok.injEq, Option.some.injEq, Option.map_some, Option.some.injEq]
        constructor
        · rintro rfl
          rfl
        · intro heq
          rw [(hinstant s).mpr heq] at ht
          exact (Option.some.inj ht).symm
    · next hnone =>
      cases time with
      | none => simp
      | some s =>
        refine iff_of_false nofun fun heq => ?_
        rw [(hinstant s).mpr (Option.some.inj heq)] at hnone
        cases hnone

theorem requiredInstant_eq_ok_iff {name : String} {t : Instant} :
    requiredInstant payload name = .ok t ↔ get? payload name = some (.ofInt t.epoch) := by
  constructor
  · intro h
    unfold requiredInstant at h
    split at h
    · next hoptional =>
      cases h
      exact (get?_of_present? ((optionalInstant_eq_ok_iff hpayload).mp hoptional)).1
    · cases h
    · cases h
  · exact Credential.requiredInstant_of_get?

theorem looksAt_requiredInstant (claim : PayloadClaim) (hrequired : ¬ claim.Omissible)
    (hne : claim ≠ .claims) (hholds : ∀ v, claim.Holds v ↔ ∃ t : Instant, v = .ofInt t.epoch) :
    LooksAt payload [claim] (requiredInstant payload claim.name) := by
  have husable := usableIn_iff payload hrequired
  simp only [hholds] at husable
  apply MakesChecks.single_of_eq
  · intro h
    obtain ⟨_, ht, t, rfl⟩ := husable.mp h
    exact ⟨t, Credential.requiredInstant_of_get? ht⟩
  · intro h
    rw [requiredInstant]
    cases hoptional : optionalInstant payload claim.name with
    | error e =>
      obtain ⟨rfl, v, hv⟩ := optionalInstant_eq_error hoptional
      rw [problemIn_of_present hv]
    | ok time =>
      have hpresent := (optionalInstant_eq_ok_iff hpayload).mp hoptional
      cases time with
      | none => rw [problemIn_of_absent hne hpresent]
      | some t => exact absurd (husable.mpr ⟨_, (get?_of_present? hpresent).1, t, rfl⟩) h

end Decoded

/-- A claim that may be left out. -/
theorem looksAt_omissible {α : Type} {x : Except ClaimProblem (Option α)} {write : α → Json}
    (homissible : Omissible claim)
    (hholds : ∀ v, claim.Holds v ↔ ∃ a, v = write a)
    (hok : ∀ a, x = .ok a ↔ present? payload claim.name = a.map write)
    (herror : ∀ e, x = .error e → e = .invalid claim.name ∧
      ∃ v, present? payload claim.name = some v) :
    LooksAt payload [claim] x := by
  apply MakesChecks.single_of_eq
  · intro h
    cases hpresent : present? payload claim.name with
    | none => exact ⟨none, (hok none).mpr hpresent⟩
    | some v =>
      obtain ⟨hget, hnull⟩ := get?_of_present? hpresent
      rw [UsableIn, hget, usable_some_iff homissible, hholds] at h
      obtain ⟨a, rfl⟩ := h.resolve_left hnull
      exact ⟨some a, (hok (some a)).mpr hpresent⟩
  · intro h
    cases x with
    | error e =>
      obtain ⟨rfl, v, hv⟩ := herror e rfl
      rw [problemIn_of_present hv]
    | ok value =>
      have hpresent := (hok value).mp rfl
      refine absurd ?_ h
      cases value with
      | none =>
        rcases present?_eq_none_iff.mp hpresent with hget | hget
        · rw [UsableIn, hget]
          exact .absent homissible
        · rw [UsableIn, hget]
          exact .null homissible
      | some a =>
        rw [UsableIn, (get?_of_present? hpresent).1]
        exact .value ((hholds _).mpr ⟨a, rfl⟩)

theorem attributes_eq_ok_iff {ms : Members} :
    attributes payload = .ok ms ↔ get? payload "claims" = some (.object ms) := by
  unfold attributes
  split
  · next h => simp [h]
  · next h => simp [h]
  · next v hne h => simpa [h] using fun hv => hne ms hv

theorem looksAt_attributes : LooksAt payload [.claims] (attributes payload) := by
  have hrequired : ¬ Omissible .claims := nofun
  have husable := usableIn_iff payload hrequired
  apply MakesChecks.single_of_eq
  · intro h
    obtain ⟨_, hget, ms, rfl⟩ := husable.mp h
    exact ⟨ms, attributes_eq_ok_iff.mpr hget⟩
  · intro h
    rw [problemIn, name]
    unfold attributes
    split
    · next hget => rw [hget]; rfl
    · next ms hget => exact absurd (husable.mpr ⟨_, hget, ms, rfl⟩) h
    · next v hne hget =>
      rw [hget]
      cases v <;> rfl

end Claim

namespace Credential

open PayloadClaim Claim

variable {c : Credential} {p : Members} {k : KeyId}

/-- The nine claims are looked at in their order, and the first that is not usable is reported. -/
theorem looksAt_ofPayload (hp : (Json.object p).Lexical) (k : KeyId) :
    LooksAt p all (ofPayload p k) := by
  refine (looksAt_parsed .jti nofun nofun fun _ => Iff.rfl).bind_bind fun _ _ => ?_
  refine (looksAt_parsed .sub nofun nofun fun _ => Iff.rfl).bind_bind fun _ _ => ?_
  refine (looksAt_parsed .policyId nofun nofun fun _ => Iff.rfl).bind_bind fun _ _ => ?_
  refine (looksAt_requiredText .policyHash nofun nofun fun _ => Iff.rfl).bind fun _ _ => ?_
  refine (looksAt_requiredInstant hp .iat nofun nofun fun _ => Iff.rfl).bind fun _ _ => ?_
  refine (looksAt_requiredInstant hp .exp nofun nofun fun _ => Iff.rfl).bind fun _ _ => ?_
  refine (looksAt_omissible .nbf (fun _ => Iff.rfl) (fun _ => optionalInstant_eq_ok_iff hp)
    fun _ => optionalInstant_eq_error).bind fun _ _ => ?_
  refine (looksAt_omissible .deviceTag (fun _ => Iff.rfl) (fun _ => optionalText_eq_ok_iff)
    fun _ => optionalText_eq_error).bind fun _ _ => ?_
  exact looksAt_attributes.bind fun _ _ => MakesChecks.ok _

theorem uuid_of_parse {s : String} {id : CredentialId} (h : CredentialId.parse s = .ok id) :
    Uuid.ofText? s = some id.uuid := by
  unfold CredentialId.parse at h
  split at h
  · next hu =>
    cases h
    exact hu
  · cases h

/-- A payload that agrees with a decoded one on the nine claims: the identifier has its usual
spelling, and what is null is left out. -/
structure Agrees (decoded payload : Members) : Prop where
  jti : ∃ s u, get? decoded "jti" = some (.string s) ∧ Uuid.ofText? s = some u ∧
    get? payload "jti" = some (.string u.text)
  claims : get? payload "claims" = get? decoded "claims"
  others : ∀ claim : PayloadClaim, claim ≠ .jti → claim ≠ .claims →
    get? payload claim.name = present? decoded claim.name

theorem present?_of_requiredText {name s : String} (h : requiredText p name = .ok s) :
    present? p name = some (.string s) :=
  present?_of_get? (requiredText_eq_ok_iff.mp h) nofun

theorem present?_of_requiredInstant (hp : (Json.object p).Lexical) {name : String} {t : Instant}
    (h : requiredInstant p name = .ok t) : present? p name = some (.ofInt t.epoch) :=
  present?_of_get? ((requiredInstant_eq_ok_iff hp).mp h) nofun

theorem agrees_toPayload (hp : (Json.object p).Lexical) (h : ofPayload p k = .ok c) :
    Agrees p c.toPayload := by
  have hdecodes := ofPayload_eq_ok_iff.mp h
  have hcarries := carries_toPayload c
  refine ⟨?_, ?_, fun claim hjti hclaims => ?_⟩
  · obtain ⟨s, hs, hid⟩ := hdecodes.id
    exact ⟨s, c.id.uuid, requiredText_eq_ok_iff.mp hs, uuid_of_parse hid, hcarries.id⟩
  · rw [hcarries.claims, attributes_eq_ok_iff.mp hdecodes.claims]
  · cases claim with
    | jti => exact absurd rfl hjti
    | claims => exact absurd rfl hclaims
    | sub =>
      obtain ⟨s, hs, hsubject⟩ := hdecodes.subject
      rw [name, hcarries.subject, present?_of_requiredText hs, eq_mk_of_checkName hsubject]
    | policyId =>
      obtain ⟨s, hs, hpolicy⟩ := hdecodes.policy
      rw [name, hcarries.policy, present?_of_requiredText hs, eq_mk_of_checkName hpolicy]
    | policyHash => rw [name, hcarries.hash, present?_of_requiredText hdecodes.hash]
    | iat => rw [name, hcarries.issued, present?_of_requiredInstant hp hdecodes.issued]
    | exp => rw [name, hcarries.expires, present?_of_requiredInstant hp hdecodes.expires]
    | nbf => rw [name, hcarries.starts, (optionalInstant_eq_ok_iff hp).mp hdecodes.starts]
    | deviceTag => rw [name, hcarries.device, optionalText_eq_ok_iff.mp hdecodes.device]

/-- Nothing but the nine claims is looked at. -/
theorem ofPayload_congr {q : Members}
    (h : ∀ claim : PayloadClaim, get? p claim.name = get? q claim.name) (k : KeyId) :
    ofPayload p k = ofPayload q k := by
  have hjti : get? p "jti" = get? q "jti" := h .jti
  have hsub : get? p "sub" = get? q "sub" := h .sub
  have hpolicy : get? p "policyId" = get? q "policyId" := h .policyId
  have hhash : get? p "policyHash" = get? q "policyHash" := h .policyHash
  have hissued : get? p "iat" = get? q "iat" := h .iat
  have hexpires : get? p "exp" = get? q "exp" := h .exp
  have hstarts : get? p "nbf" = get? q "nbf" := h .nbf
  have hdevice : get? p "deviceTag" = get? q "deviceTag" := h .deviceTag
  have hclaims : get? p "claims" = get? q "claims" := h .claims
  simp only [ofPayload, requiredText, requiredInstant, optionalInstant, optionalText, attributes,
    present?, hjti, hsub, hpolicy, hhash, hissued, hexpires, hstarts, hdevice, hclaims]

/-- Credentials are rebuilt from their payloads. A decoded payload holds a credential exactly if all
its claims are usable; the payload of that credential agrees with it, and otherwise the first claim
that is not usable is reported. -/
theorem payload_inverse (c : Credential) (p : Members) (k : KeyId) :
    (SubjectId.ofName c.subjectId.name = .ok c.subjectId →
      PolicyId.ofName c.policyId.name = .ok c.policyId → ofPayload c.toPayload c.keyId = .ok c) ∧
    (∀ q, (∀ claim : PayloadClaim, get? p claim.name = get? q claim.name) →
      ofPayload p k = ofPayload q k) ∧
    ((Json.object p).Lexical →
      ((∃ d, ofPayload p k = .ok d) ↔ ∀ claim, UsableIn p claim) ∧
      (∀ d, ofPayload p k = .ok d → d.keyId = k ∧ Agrees p d.toPayload) ∧
      ∀ e, ofPayload p k = .error e ↔
        ∃ claim, FirstFailing (UsableIn p) all claim ∧ problemIn p claim = e) := by
  refine ⟨ofPayload_toPayload, fun q h => ofPayload_congr h k, fun hp => ?_⟩
  have hchecks := looksAt_ofPayload hp k
  refine ⟨?_, fun d hd => ?_, hchecks.error_iff⟩
  · rw [hchecks.isOk_iff]
    exact ⟨fun h claim => h claim (mem_all claim), fun h claim _ => h claim⟩
  · exact ⟨(ofPayload_eq_ok_iff.mp hd).key, agrees_toPayload hp hd⟩

/-! A credential, and a payload at fault. -/

def plainCredential : Credential :=
  { id := ⟨Uuid.nil⟩
    policyId := ⟨"p"⟩
    subjectId := ⟨"s"⟩
    claims := [("adult", .bool true)]
    issuedAt := ⟨-1, by decide, by decide⟩
    expiresAt := ⟨60, by decide, by decide⟩
    notBefore := none
    keyId := ⟨"k"⟩
    deviceTag := some "d"
    policyHash := "h" }

def faultyPayload : Members :=
  [("jti", .string "00000000000000000000000000000000"), ("sub", .number [0x35]),
    ("policyId", .null)]

theorem payload_inverse_plain :
    ofPayload plainCredential.toPayload plainCredential.keyId = .ok plainCredential ∧
    ofPayload faultyPayload ⟨"k"⟩ = .error (.invalid "sub") := by
  have hlexical : (Json.object faultyPayload).Lexical := by
    apply Lexical.object
    simp only [faultyPayload, List.forall_mem_cons, List.not_mem_nil, false_imp_iff, implies_true,
      and_true]
    exact ⟨.string _, .number (isLiteral_iff.mp rfl) (by decide), .null⟩
  obtain ⟨hback, _, hfaulty⟩ := payload_inverse plainCredential faultyPayload ⟨"k"⟩
  refine ⟨hback (by decide +kernel) (by decide +kernel), ?_⟩
  apply ((hfaulty hlexical).2.2 _).mpr
  have hjti : UsableIn faultyPayload .jti := .value ⟨_, ⟨Uuid.nil⟩, rfl, rfl⟩
  have hrequired : ¬ Omissible .sub := nofun
  have hsub : ¬ UsableIn faultyPayload .sub := fun h =>
    nomatch (usableIn_iff faultyPayload hrequired).mp h
  exact ⟨.sub, .later hjti (.here hsub), rfl⟩

end Credential
end Credentials
