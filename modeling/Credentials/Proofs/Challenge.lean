import Credentials.Challenge
import Credentials.Proofs.Json.Members
import Credentials.Proofs.Json.Record
import Credentials.Proofs.Json.Serializing
import Credentials.Proofs.Time.Text

/-!
# Challenges on the wire

A challenge is read back from its document, whatever the order of the members, as long as its times
are written with plain years; a time whose year needs a sign cannot be read.
-/

namespace Credentials

open Json (Record Written)

namespace Instant

variable {t : Instant}

theorem ofWritten?_json_eq (t : Instant) :
    ofWritten? t.json.written = (parse t.text).toOption := by
  rw [ofWritten?, json, Json.text?_written, Option.bind_some]

theorem ofWritten?_json (h : t.HasPlainYear) : ofWritten? t.json.written = some t := by
  rw [ofWritten?_json_eq, parse_text h]
  rfl

theorem ofWritten?_json_of_signed (h : ¬ t.HasPlainYear) : ofWritten? t.json.written = none := by
  rw [ofWritten?_json_eq, parse_text_of_signed h]
  rfl

end Instant

namespace Challenge

variable {c : Challenge} {ms : Json.Members}

/-! Members. -/

/-- The members of the document of a challenge, in the order in which they are declared. -/
def members (c : Challenge) : Json.Members :=
  [("challengeId", .string c.id), ("nonce", .string c.nonce), ("policyId", c.policyId.json)]
    ++ Json.optionalOf "audience" .string c.audience
    ++ [("issuedAt", c.issuedAt.json), ("expiresAt", c.expiresAt.json)]

theorem nodup_members (c : Challenge) : (c.members.map Prod.fst).Nodup := by
  unfold members
  cases c.audience with
  | none =>
    change ["challengeId", "nonce", "policyId", "issuedAt", "expiresAt"].Nodup
    decide
  | some s =>
    change ["challengeId", "nonce", "policyId", "audience", "issuedAt", "expiresAt"].Nodup
    decide

theorem literal_members (c : Challenge) : ∀ m ∈ c.members, m.2.Literal := by
  simp only [members, List.forall_mem_append, List.forall_mem_cons, List.not_mem_nil,
    false_imp_iff, implies_true, and_true]
  exact ⟨⟨⟨.string _, .string _, .string _⟩, Json.forall_mem_optionalOf .string c.audience⟩,
    .string _, .string _⟩

theorem exists_perm_members (c : Challenge) :
    ∃ ms : Json.Members, ms.Perm c.members ∧ c.json = .object ms := by
  have hperm : ([("challengeId", .string c.id), ("nonce", .string c.nonce),
      ("policyId", c.policyId.json), ("issuedAt", c.issuedAt.json),
      ("expiresAt", c.expiresAt.json)]
        ++ Json.optionalOf "audience" .string c.audience).Perm c.members := by
    rw [members, List.append_assoc]
    exact .cons _ (.cons _ (.cons _ List.perm_append_comm))
  exact ⟨_, (Json.perm_membersOf (Json.nodup_of_perm hperm c.nodup_members)).trans hperm, rfl⟩

/-! Reading back. -/

/-- What a document of a challenge holds under each name. -/
theorem fields_of_perm (hms : ms.Perm c.members) : ∃ r,
    Record.read ["challengeId", "nonce", "policyId", "audience", "issuedAt", "expiresAt"]
      (Json.object ms).written = some r ∧
    r.get? "challengeId" = some (Json.string c.id).written ∧
    r.get? "nonce" = some (Json.string c.nonce).written ∧
    r.get? "policyId" = some c.policyId.json.written ∧
    r.get? "audience" = (c.audience.map Json.string).map Json.written ∧
    r.get? "issuedAt" = some c.issuedAt.json.written ∧
    r.get? "expiresAt" = some c.expiresAt.json.written := by
  obtain ⟨r, hr, hget⟩ := Record.read_object
    ["challengeId", "nonce", "policyId", "audience", "issuedAt", "expiresAt"]
    (Json.nodup_of_perm hms c.nodup_members)
  refine ⟨r, hr, ?_, ?_, ?_, ?_, ?_, ?_⟩
  all_goals
    rw [hget _ (by decide), Json.get?_of_perm hms c.nodup_members]
    unfold members
    cases c.audience <;> rfl

theorem ofWritten?_of_perm (hms : ms.Perm c.members) (hissued : c.issuedAt.HasPlainYear)
    (hexpires : c.expiresAt.HasPlainYear) : ofWritten? (Json.object ms).written = some c := by
  obtain ⟨r, hr, hid, hnonce, hpolicy, haudience, hfrom, huntil⟩ := fields_of_perm hms
  unfold ofWritten?
  rw [hr]
  simp [Record.required_of_get? hid (Json.text?_written _),
    Record.required_of_get? hnonce (Json.text?_written _),
    Record.required_of_get? hpolicy (PolicyId.ofWritten?_json _),
    Record.required_of_get? hfrom (Instant.ofWritten?_json hissued),
    Record.required_of_get? huntil (Instant.ofWritten?_json hexpires),
    Record.defaulted_optional haudience fun s _ => Json.nullable_text?_written s]

theorem ofWritten?_of_perm_of_signed (hms : ms.Perm c.members)
    (h : ¬ (c.issuedAt.HasPlainYear ∧ c.expiresAt.HasPlainYear)) :
    ofWritten? (Json.object ms).written = none := by
  obtain ⟨r, hr, -, -, -, -, hfrom, huntil⟩ := fields_of_perm hms
  unfold ofWritten?
  rw [hr]
  by_cases hissued : c.issuedAt.HasPlainYear
  · have hexpires := fun hexpires => h ⟨hissued, hexpires⟩
    simp [Record.required_eq_none huntil (Instant.ofWritten?_json_of_signed hexpires)]
  · simp [Record.required_eq_none hfrom (Instant.ofWritten?_json_of_signed hissued)]

theorem ofWritten?_json (hissued : c.issuedAt.HasPlainYear)
    (hexpires : c.expiresAt.HasPlainYear) : ofWritten? c.json.written = some c := by
  obtain ⟨ms, hms, hjson⟩ := c.exists_perm_members
  rw [hjson, ofWritten?_of_perm hms hissued hexpires]

theorem ofWritten?_json_of_signed (h : ¬ c.issuedAt.HasPlainYear) :
    ofWritten? c.json.written = none := by
  obtain ⟨ms, hms, hjson⟩ := c.exists_perm_members
  rw [hjson, ofWritten?_of_perm_of_signed hms fun hplain => h hplain.1]

/-! Committing. -/

theorem lexical_json (c : Challenge) : c.json.Lexical := by
  apply Json.lexical_ofMembers
  simp only [List.forall_mem_append, List.forall_mem_cons, List.not_mem_nil, false_imp_iff,
    implies_true, and_true]
  refine ⟨⟨.string _, .string _, .string _, .string _, .string _⟩, ?_⟩
  exact Json.forall_mem_optionalOf .string c.audience

theorem tryCommitment_eq (c : Challenge) (key : CommitmentKey) :
    c.tryCommitment key = .ok (c.commitment key) := by
  rw [tryCommitment, Canonical.ofSerialized_of_lexical c.lexical_json]
  rfl

end Challenge

/-! Handing out. -/

namespace ChallengeIssuer

variable {i : ChallengeIssuer} {time : Instant} {id : Uuid} {nonce : Bytes} {policyId : PolicyId}
  {audience : Option String} {issued : IssuedChallenge}

theorem issue_eq_ok_iff : i.issue time id nonce policyId audience = .ok issued ↔
    ∃ expiresAt, time.add? i.lifetime = some expiresAt ∧
      issued.challenge = ⟨id.text, Hex.encode nonce, policyId, audience, time, expiresAt⟩ ∧
      issued.commitment = issued.challenge.commitment i.key := by
  unfold issue
  cases time.add? i.lifetime with
  | none => simp
  | some expiresAt =>
    obtain ⟨c, commitment⟩ := issued
    dsimp only
    rw [Challenge.tryCommitment_eq]
    simp only [Except.ok.injEq, IssuedChallenge.mk.injEq, Option.some.injEq, exists_eq_left']
    constructor
    · rintro ⟨rfl, rfl⟩
      exact ⟨rfl, rfl⟩
    · rintro ⟨rfl, rfl⟩
      exact ⟨rfl, rfl⟩

/-- A challenge is handed out whenever it ends in time. -/
theorem issue_of_add? {expiresAt : Instant} (h : time.add? i.lifetime = some expiresAt) (id : Uuid)
    (nonce : Bytes) (policyId : PolicyId) (audience : Option String) :
    let c : Challenge := ⟨id.text, Hex.encode nonce, policyId, audience, time, expiresAt⟩
    i.issue time id nonce policyId audience = .ok ⟨c, c.commitment i.key⟩ :=
  issue_eq_ok_iff.mpr ⟨expiresAt, h, rfl, rfl⟩

/-- The times of a challenge have plain years if the first is not before the year 0 and the second
not after the year 9999. -/
theorem plain_of_issue (h : i.issue time id nonce policyId audience = .ok issued)
    (hlifetime : 0 < i.lifetime) (hfirst : 0 ≤ time.date.year)
    (hlast : issued.challenge.expiresAt.date.year ≤ 9999) :
    issued.challenge.issuedAt.HasPlainYear ∧ issued.challenge.expiresAt.HasPlainYear := by
  obtain ⟨expiresAt, hadd, hc, -⟩ := issue_eq_ok_iff.mp h
  have hle : time ≤ expiresAt := by
    have hepoch := Instant.add?_eq_some_iff.mp hadd
    change time.epoch ≤ expiresAt.epoch
    omega
  have hyear := Instant.year_mono hle
  rw [hc] at hlast ⊢
  change (0 ≤ time.date.year ∧ time.date.year ≤ 9999) ∧
    0 ≤ expiresAt.date.year ∧ expiresAt.date.year ≤ 9999
  dsimp only at hlast
  omega

end ChallengeIssuer
end Credentials
