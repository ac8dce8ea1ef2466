import Credentials.Presentation.ZeroKnowledge
import Credentials.Proofs.Challenge

/-!
# Presentations on the wire

A presentation is read back from its document if its challenge is.
-/

namespace Credentials

open Json (Record Written)

namespace DeclaredInputs

/-- What the document of declared inputs holds under each name. -/
theorem fields_json (d : DeclaredInputs) : ∃ r,
    Record.read ["challengeCommitment", "policyHash", "sessionTag"] d.json.written = some r ∧
    r.get? "challengeCommitment" = some (Json.string d.commitment).written ∧
    r.get? "policyHash" = some (Json.string d.policyHash).written ∧
    r.get? "sessionTag" = (d.sessionTag.map Json.string).map Json.written := by
  obtain ⟨r, hr, hget⟩ := Record.read_ofMembers
    ["challengeCommitment", "policyHash", "sessionTag"]
    ([("challengeCommitment", .string d.commitment), ("policyHash", .string d.policyHash)]
      ++ Json.optionalOf "sessionTag" .string d.sessionTag)
  refine ⟨r, hr, ?_, ?_, ?_⟩
  all_goals
    rw [hget _ (by decide)]
    cases d.sessionTag <;> simp [Json.last?, Json.get?_cons, Json.optionalOf, Json.optional]

theorem ofWritten?_json (d : DeclaredInputs) : ofWritten? d.json.written = some d := by
  obtain ⟨r, hr, hcommitment, hhash, htag⟩ := d.fields_json
  unfold ofWritten?
  rw [hr]
  simp [Record.required_of_get? hcommitment (Json.text?_written _),
    Record.required_of_get? hhash (Json.text?_written _),
    Record.defaulted_optional htag fun s _ => Json.nullable_text?_written s]

end DeclaredInputs

namespace ZeroKnowledgePresentation

/-- What the document of a presentation holds under each name. -/
theorem fields_json (p : ZeroKnowledgePresentation) : ∃ r,
    Record.read ["proof", "challenge", "policyVersion", "publicInputs"] p.json.written = some r ∧
    r.get? "proof" = some (Json.string p.proof).written ∧
    r.get? "challenge" = some p.challenge.json.written ∧
    r.get? "policyVersion" = (p.version.map PolicyVersion.json).map Json.written ∧
    r.get? "publicInputs" = some p.declared.json.written := by
  obtain ⟨r, hr, hget⟩ := Record.read_ofMembers
    ["proof", "challenge", "policyVersion", "publicInputs"]
    ([("proof", .string p.proof), ("challenge", p.challenge.json),
      ("publicInputs", p.declared.json)]
      ++ Json.optionalOf "policyVersion" PolicyVersion.json p.version)
  refine ⟨r, hr, ?_, ?_, ?_, ?_⟩
  all_goals
    rw [hget _ (by decide)]
    cases p.version <;> simp [Json.last?, Json.get?_cons, Json.optionalOf, Json.optional]

theorem ofWritten?_json {p : ZeroKnowledgePresentation}
    (hissued : p.challenge.issuedAt.HasPlainYear)
    (hexpires : p.challenge.expiresAt.HasPlainYear) : ofWritten? p.json.written = some p := by
  obtain ⟨r, hr, hproof, hchallenge, hversion, hinputs⟩ := p.fields_json
  unfold ofWritten?
  rw [hr]
  simp [Record.required_of_get? hproof (Json.text?_written _),
    Record.required_of_get? hchallenge (Challenge.ofWritten?_json hissued hexpires),
    Record.required_of_get? hinputs (DeclaredInputs.ofWritten?_json _),
    Record.defaulted_optional hversion fun v _ => v.nullable_json]

theorem ofWritten?_json_of_signed {p : ZeroKnowledgePresentation}
    (h : ¬ p.challenge.issuedAt.HasPlainYear) : ofWritten? p.json.written = none := by
  obtain ⟨r, hr, -, hchallenge, -, -⟩ := p.fields_json
  unfold ofWritten?
  rw [hr]
  simp [Record.required_eq_none hchallenge (Challenge.ofWritten?_json_of_signed h)]

end ZeroKnowledgePresentation
end Credentials
