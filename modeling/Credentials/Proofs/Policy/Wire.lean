import Credentials.Proofs.Hex
import Credentials.Proofs.Json.FixedPoint
import Credentials.Proofs.Json.Record
import Credentials.Proofs.Policy.Hash

/-!
# Definitions on the wire

The text of a definition is read back whatever the order of its members and its layout. Each field
but the schema comes back as it was; the schema is decoded as any document is, so it comes back only
if it is readable where it stands, one level deep.
-/

namespace Credentials

open Json (Record Written)

/-! Fields. -/

theorem PolicyStatus.ofWritten?_json (s : PolicyStatus) : ofWritten? s.json.written = some s := by
  change (Json.textOf? (Json.piecesOf s.name)).bind ofName? = some s
  rw [Json.textOf?_piecesOf, Option.bind_some, ofName?_name]

theorem Signature.ofHex_hex (s : Signature) : ofHex s.hex = .ok s := by
  rw [ofHex, hex, Hex.decode_encode]
  exact dif_pos s.length_eq

theorem Signature.ofWritten?_json (s : Signature) : ofWritten? s.json.written = some s := by
  rw [ofWritten?, json, Json.text?_written, Option.bind_some, ofHex_hex]
  rfl

theorem PolicySignature.ofWritten?_json (s : PolicySignature) :
    ofWritten? s.json.written = some s := by
  obtain ⟨r, hr, hget⟩ := Record.read_ofMembers ["keyId", "signature"]
    [("keyId", s.keyId.json), ("signature", s.signature.json)]
  have hkey : r.get? "keyId" = some s.keyId.json.written := hget _ (by decide)
  have hsignature : r.get? "signature" = some s.signature.json.written := hget _ (by decide)
  unfold ofWritten?
  rw [json, hr]
  simp [Record.required_of_get? hkey (KeyId.ofWritten?_json _),
    Record.required_of_get? hsignature (Signature.ofWritten?_json _)]

theorem PolicySignature.literal_json (s : PolicySignature) : s.json.Literal :=
  s.lexical_json.literal

namespace PolicyDefinition

variable {d : PolicyDefinition} {ms : Json.Members} {text : Bytes}

/-! Members. -/

def members (d : PolicyDefinition) : Json.Members :=
  d.boundMembers ++ [("status", d.status.json)]
    ++ Json.optionalOf "signature" PolicySignature.json d.signature

theorem nodup_members (d : PolicyDefinition) : (d.members.map Prod.fst).Nodup := by
  unfold members
  cases d.signature with
  | none =>
    change (boundNames ++ ["status"]).Nodup
    decide
  | some s =>
    change (boundNames ++ ["status", "signature"]).Nodup
    decide

theorem get?_members_signature (d : PolicyDefinition) :
    Json.get? d.members "signature" = d.signature.map PolicySignature.json := by
  unfold members
  cases d.signature <;> rfl

theorem literal_members (h : d.signalsSchema.Literal) : ∀ m ∈ d.members, m.2.Literal := by
  simp only [members, List.forall_mem_append, List.forall_mem_singleton]
  refine ⟨⟨literal_of_mem_boundMembers h, .string _⟩, ?_⟩
  exact Json.forall_mem_optionalOf PolicySignature.literal_json d.signature

/-! Reading back. -/

/-- The definition with another schema. -/
def withSchema (d : PolicyDefinition) (schema : Json.Lexed) : PolicyDefinition :=
  { d with signalsSchema := schema.value, lexical := schema.isLexical }

theorem read_of_perm (names : List String) (hms : ms.Perm d.members) :
    ∃ r, Record.read names (Json.object ms).written = some r ∧
      ∀ n ∈ names, r.get? n = (Json.get? d.members n).map Json.written := by
  obtain ⟨r, hr, hget⟩ := Record.read_object names (Json.nodup_of_perm hms d.nodup_members)
  refine ⟨r, hr, fun n hn => ?_⟩
  rw [hget n hn, Json.get?_of_perm hms d.nodup_members]

/-- Every field is found again, and the schema is what its tree is decoded to. -/
theorem ofWritten?_of_perm (hms : ms.Perm d.members) :
    ofWritten? (Json.object ms).written =
      ((d.signalsSchema.written.jsonWithin 126).bind Json.lexed?).map d.withSchema := by
  obtain ⟨r, hr, hget⟩ := read_of_perm ["policyId", "version", "status", "circuitId",
    "verificationKeyId", "verificationKeyFingerprint", "compatibleVersions", "defaultExpirySecs",
    "requiredPublicSignalsSchema", "signature"] hms
  have hid : r.get? "policyId" = some d.id.json.written := hget _ (by decide)
  have hversion : r.get? "version" = some d.version.json.written := hget _ (by decide)
  have hstatus : r.get? "status" = some d.status.json.written := hget _ (by decide)
  have hcircuit : r.get? "circuitId" = some (Json.string d.circuitId).written :=
    hget _ (by decide)
  have hkey : r.get? "verificationKeyId" = some (Json.string d.verificationKeyId).written :=
    hget _ (by decide)
  have hfingerprint : r.get? "verificationKeyFingerprint" =
      some (Json.string d.verificationKeyFingerprint).written := hget _ (by decide)
  have hcompatible : r.get? "compatibleVersions" =
      some (Json.array (d.compatible.map PolicyVersion.json)).written := hget _ (by decide)
  have hlifetime : r.get? "defaultExpirySecs" = some (Json.ofNat d.lifetime.toNat).written :=
    hget _ (by decide)
  have hschema : r.get? "requiredPublicSignalsSchema" = some d.signalsSchema.written :=
    hget _ (by decide)
  have hsignature : r.get? "signature" =
      (d.signature.map PolicySignature.json).map Json.written := by
    rw [hget _ (by decide), get?_members_signature]
  have hsecs : (r.required "defaultExpirySecs" fun w =>
      (w.natBelow? UInt64.size).map UInt64.ofNat) = some d.lifetime := by
    apply Record.required_of_get? hlifetime
    rw [Json.natBelow?_written d.lifetime.toNat_lt, Option.map_some, UInt64.ofNat_toNat]
  have hattested : ∀ s, d.signature = some s →
      Written.nullable PolicySignature.ofWritten? s.json.written = some (some s) := by
    intro s _
    rw [PolicySignature.json, Json.ofMembers, Json.nullable_object, ← Json.ofMembers,
      ← PolicySignature.json, PolicySignature.ofWritten?_json, Option.map_some]
  have hdecoded : (r.defaulted "requiredPublicSignalsSchema" .empty fun w =>
      (w.jsonWithin 126).bind Json.lexed?)
        = (d.signalsSchema.written.jsonWithin 126).bind Json.lexed? := by
    rw [Record.defaulted, hschema]
  unfold ofWritten?
  rw [hr]
  simp only [Option.bind_eq_bind, Option.bind_some, Json.maxDepth, hdecoded,
    Record.required_of_get? hid (PolicyId.ofWritten?_json _),
    Record.required_of_get? hversion (PolicyVersion.ofWritten?_json _),
    Record.required_of_get? hstatus (PolicyStatus.ofWritten?_json _),
    Record.required_of_get? hcircuit (Json.text?_written _),
    Record.required_of_get? hkey (Json.text?_written _),
    Record.required_of_get? hfingerprint (Json.text?_written _),
    Record.defaulted_of_get? hcompatible (Json.list?_written fun v _ => v.ofWritten?_json),
    hsecs,
    Record.defaulted_optional hsignature hattested]
  cases (d.signalsSchema.written.jsonWithin 126).bind Json.lexed? <;> rfl

/-- A text of a definition: its members, in any order and layout. -/
def WrittenIn (d : PolicyDefinition) (text : Bytes) : Prop :=
  ∃ ms : Json.Members, ms.Perm d.members ∧ Written.read text = some (Json.object ms).written

theorem readText_of_writtenIn (h : d.WrittenIn text) :
    Json.readText ofWritten? text =
      ((d.signalsSchema.written.jsonWithin 126).bind Json.lexed?).map d.withSchema := by
  obtain ⟨ms, hms, hread⟩ := h
  rw [Json.readText, hread, Option.bind_some, ofWritten?_of_perm hms]

/-- The compact text with its members in ascending order is one of them. -/
theorem writtenIn_print (h : d.signalsSchema.Literal) : d.WrittenIn d.json.print := by
  refine ⟨Json.membersOf d.members, Json.perm_membersOf d.nodup_members, ?_⟩
  have hliteral : d.json.Literal := Json.literal_ofMembers (literal_members h)
  exact Json.read_print (Json.lexical_written hliteral)

/-- A definition whose schema comes back from the wire as it is. -/
structure Restorable (d : PolicyDefinition) : Prop where
  normal : d.signalsSchema.IsNormal
  lexical : d.signalsSchema.Lexical
  readable : d.signalsSchema.ReadableWithin 126

theorem readText_eq_some_iff (hnormal : d.signalsSchema.IsNormal)
    (hliteral : d.signalsSchema.Literal) (h : d.WrittenIn text) :
    Json.readText ofWritten? text = some d ↔ d.Restorable := by
  have hschema : Json.readText ofWritten? text = some d ↔
      d.signalsSchema.written.jsonWithin 126 = some d.signalsSchema := by
    rw [readText_of_writtenIn h, Option.map_eq_some_iff]
    constructor
    · rintro ⟨schema, hschema, hd⟩
      obtain ⟨v, hv, hlexical⟩ := Option.bind_eq_some_iff.mp hschema
      rw [hv, ← Json.value_of_lexed? hlexical, ← congrArg signalsSchema hd]
      rfl
    · intro hv
      refine ⟨⟨d.signalsSchema, d.lexical⟩, ?_, rfl⟩
      rw [hv, Option.bind_some, Json.lexed?_of_lexical d.lexical_signalsSchema]
  rw [hschema, Json.jsonWithin_written_iff hnormal hliteral]
  constructor
  · intro hback
    exact ⟨hnormal, hback.1, hback.2⟩
  · intro hd
    exact ⟨hd.lexical, hd.readable⟩

theorem Restorable.readText (hd : d.Restorable) (h : d.WrittenIn text) :
    Json.readText ofWritten? text = some d :=
  (readText_eq_some_iff hd.normal hd.lexical.literal h).mpr hd

end PolicyDefinition
end Credentials
