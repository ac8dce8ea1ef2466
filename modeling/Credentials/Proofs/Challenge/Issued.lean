import Credentials.Proofs.Challenge
import Credentials.Proofs.Json.Reading

/-!
# Issued challenges

What a client is handed: a challenge that is in force for the whole of its lifetime, and a
commitment that is recomputed from it. Its text is read back as long as it is issued in the year 0
or later and ends in the year 9999 or earlier; a challenge that ends later is handed out as well,
but nobody can read it.
-/

namespace Credentials

open Json (Record Written)

namespace Challenge

variable {c : Challenge}

theorem isExpired_iff {now : Instant} : c.isExpired now = true ↔ c.expiresAt ≤ now :=
  decide_eq_true_iff

theorem matchesCommitment_commitment (c : Challenge) (key : CommitmentKey) :
    c.matchesCommitment key (c.commitment key) = true :=
  beq_self_eq_true _

end Challenge

/-! Texts. -/

namespace IssuedChallenge

variable {issued : IssuedChallenge} {cs ms : Json.Members} {text : Bytes}

/-- The members of a document of an issued challenge, for members of a document of the challenge. -/
def membersAround (issued : IssuedChallenge) (cs : Json.Members) : Json.Members :=
  [("challenge", .object cs), ("commitment", .string issued.commitment)]

theorem nodup_membersAround (issued : IssuedChallenge) (cs : Json.Members) :
    ((issued.membersAround cs).map Prod.fst).Nodup := by
  change ["challenge", "commitment"].Nodup
  decide

/-- A text of an issued challenge: its members and those of the challenge, in any order and
layout. -/
def WrittenIn (issued : IssuedChallenge) (text : Bytes) : Prop :=
  ∃ cs ms : Json.Members, cs.Perm issued.challenge.members ∧
    ms.Perm (issued.membersAround cs) ∧ Written.read text = some (Json.object ms).written

/-- The compact text with the members in the order in which they are declared. -/
def compactText (issued : IssuedChallenge) : Bytes :=
  (Json.object (issued.membersAround issued.challenge.members)).print

theorem writtenIn_compactText (issued : IssuedChallenge) : issued.WrittenIn issued.compactText := by
  refine ⟨_, _, .refl _, .refl _, Json.read_print (Json.lexical_written (.object ?_))⟩
  exact List.forall_mem_cons.mpr ⟨.object issued.challenge.literal_members,
    List.forall_mem_singleton.mpr (.string _)⟩

/-! Reading back. -/

/-- What a document of an issued challenge holds under each name. -/
theorem fields_of_perm (hms : ms.Perm (issued.membersAround cs)) : ∃ r,
    Record.read ["challenge", "commitment"] (Json.object ms).written = some r ∧
    r.get? "challenge" = some (Json.object cs).written ∧
    r.get? "commitment" = some (Json.string issued.commitment).written := by
  have hnodup := issued.nodup_membersAround cs
  obtain ⟨r, hr, hget⟩ := Record.read_object ["challenge", "commitment"]
    (Json.nodup_of_perm hms hnodup)
  refine ⟨r, hr, ?_, ?_⟩
  all_goals
    rw [hget _ (by decide), Json.get?_of_perm hms hnodup]
    rfl

theorem readText_of_writtenIn (h : issued.WrittenIn text)
    (hissued : issued.challenge.issuedAt.HasPlainYear)
    (hexpires : issued.challenge.expiresAt.HasPlainYear) :
    Json.readText ofWritten? text = some issued := by
  obtain ⟨cs, ms, hcs, hms, hread⟩ := h
  obtain ⟨r, hr, hchallenge, hcommitment⟩ := fields_of_perm hms
  rw [Json.readText, hread, Option.bind_some, ofWritten?, hr]
  simp [Record.required_of_get? hchallenge (Challenge.ofWritten?_of_perm hcs hissued hexpires),
    Record.required_of_get? hcommitment (Json.text?_written _)]

theorem readText_of_signed (h : issued.WrittenIn text)
    (hsigned : ¬ (issued.challenge.issuedAt.HasPlainYear ∧
      issued.challenge.expiresAt.HasPlainYear)) :
    Json.readText ofWritten? text = none := by
  obtain ⟨cs, ms, hcs, hms, hread⟩ := h
  obtain ⟨r, hr, hchallenge, -⟩ := fields_of_perm hms
  rw [Json.readText, hread, Option.bind_some, ofWritten?, hr]
  simp [Record.required_eq_none hchallenge (Challenge.ofWritten?_of_perm_of_signed hcs hsigned)]

end IssuedChallenge

/-! Handing out. -/

namespace ChallengeIssuer

variable {i : ChallengeIssuer} {time : Instant} {id : Uuid} {nonce : Bytes} {policyId : PolicyId}
  {audience : Option String} {issued : IssuedChallenge}

theorem isExpired_of_issue (h : i.issue time id nonce policyId audience = .ok issued)
    (now : Instant) :
    issued.challenge.isExpired now = true ↔ time.epoch + i.lifetime ≤ now.epoch := by
  obtain ⟨expiresAt, hadd, hc, -⟩ := issue_eq_ok_iff.mp h
  rw [Challenge.isExpired_iff, hc, ← Instant.add?_eq_some_iff.mp hadd]
  rfl

theorem plain_of_issue_iff (h : i.issue time id nonce policyId audience = .ok issued)
    (hlifetime : 0 < i.lifetime) :
    issued.challenge.issuedAt.HasPlainYear ∧ issued.challenge.expiresAt.HasPlainYear ↔
      0 ≤ time.date.year ∧ issued.challenge.expiresAt.date.year ≤ 9999 := by
  constructor
  · rintro ⟨hissued, hexpires⟩
    obtain ⟨_, -, hc, -⟩ := issue_eq_ok_iff.mp h
    rw [hc] at hissued
    exact ⟨hissued.1, hexpires.2⟩
  · rintro ⟨hfirst, hlast⟩
    exact plain_of_issue h hlifetime hfirst hlast

/-- A challenge that is handed out is in force for exactly its lifetime, its commitment is that of
the challenge, and each of its texts is read back as it was if its years can be read. -/
theorem issued_in_force_and_read_back (hlifetime : 0 < i.lifetime)
    (h : i.issue time id nonce policyId audience = .ok issued) :
    (issued.commitment = issued.challenge.commitment i.key ∧
      issued.challenge.matchesCommitment i.key issued.commitment = true) ∧
    (∀ now, issued.challenge.isExpired now = true ↔ time.epoch + i.lifetime ≤ now.epoch) ∧
    issued.WrittenIn issued.compactText ∧
    ∀ text, issued.WrittenIn text → Json.readText IssuedChallenge.ofWritten? text =
      if 0 ≤ time.date.year ∧ issued.challenge.expiresAt.date.year ≤ 9999 then some issued
      else none := by
  have hown : issued.commitment = issued.challenge.commitment i.key := by
    obtain ⟨_, -, -, hown⟩ := issue_eq_ok_iff.mp h
    exact hown
  have hmatches : issued.challenge.matchesCommitment i.key issued.commitment = true := by
    rw [hown]
    exact issued.challenge.matchesCommitment_commitment i.key
  refine ⟨⟨hown, hmatches⟩, isExpired_of_issue h, issued.writtenIn_compactText, ?_⟩
  intro text htext
  have hplain := plain_of_issue_iff h hlifetime
  split
  · next hyears =>
    obtain ⟨hissued, hexpires⟩ := hplain.mpr hyears
    exact IssuedChallenge.readText_of_writtenIn htext hissued hexpires
  · next hyears => exact IssuedChallenge.readText_of_signed htext fun h => hyears (hplain.mp h)

def fiveMinutes : ChallengeIssuer := ⟨⟨List.replicate 32 0x42, by decide⟩, 300⟩

theorem issued_sample : 0 < fiveMinutes.lifetime ∧ ∃ issued,
    fiveMinutes.issue ⟨1772359200, by decide, by decide⟩ .nil (List.replicate 32 0) ⟨"p"⟩
      (some "shop.example") = .ok issued ∧
    Json.readText IssuedChallenge.ofWritten? issued.compactText = some issued := by
  have hlifetime : 0 < fiveMinutes.lifetime := by decide
  have hissue : fiveMinutes.issue ⟨1772359200, by decide, by decide⟩ .nil (List.replicate 32 0)
    ⟨"p"⟩ (some "shop.example") = .ok _ := issue_of_add? rfl _ _ _ _
  obtain ⟨-, -, htext, hread⟩ := issued_in_force_and_read_back hlifetime hissue
  refine ⟨hlifetime, _, hissue, ?_⟩
  rw [hread _ htext]
  exact if_pos (by decide)

/-- The challenge of the last second of the year 9999 ends in a year that nobody reads. -/
theorem issued_beyond_year_9999 : 0 < fiveMinutes.lifetime ∧ ∃ issued,
    fiveMinutes.issue ⟨253402300799, by decide, by decide⟩ .nil (List.replicate 32 0) ⟨"p"⟩
      none = .ok issued ∧
    issued.WrittenIn issued.compactText ∧
    Json.readText IssuedChallenge.ofWritten? issued.compactText = none := by
  have hissue : fiveMinutes.issue ⟨253402300799, by decide, by decide⟩ .nil (List.replicate 32 0)
    ⟨"p"⟩ none = .ok _ := issue_of_add? rfl _ _ _ _
  have htext := IssuedChallenge.writtenIn_compactText
  refine ⟨by decide, _, hissue, htext _, IssuedChallenge.readText_of_signed (htext _) ?_⟩
  rw [plain_of_issue_iff hissue (by decide)]
  decide

end ChallengeIssuer
end Credentials
