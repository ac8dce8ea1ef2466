import Credentials.Policy.Definition
import Credentials.Proofs.Hex
import Credentials.Proofs.Json.Members
import Credentials.Proofs.Json.Serializing

/-!
# The hash of a definition

What is hashed determines every field of a definition but its status and its signature. So two
definitions with one hash are one policy at one version, unless SHA-256 collides. Computing the hash
never fails.
-/

namespace Credentials

open Json

/-! Names and versions as documents. -/

theorem PolicyId.sameDocument_json_iff {p q : PolicyId} : SameDocument p.json q.json ↔ p = q := by
  rw [json, json, sameDocument_string_iff]
  cases p
  cases q
  rw [mk.injEq]

namespace PolicyVersion

theorem sameDocument_json_iff {v w : PolicyVersion} : SameDocument v.json w.json ↔ v = w := by
  rw [json, json, sameDocument_ofNat_iff, UInt32.toNat_inj]
  cases v
  cases w
  rw [mk.injEq]

theorem sameDocument_list_iff {vs ws : List PolicyVersion} :
    SameDocument (.array (vs.map json)) (.array (ws.map json)) ↔ vs = ws := by
  rw [sameDocument_iff, normal_array_eq_iff, List.map_map, List.map_map]
  apply List.map_inj_right
  intro v w h
  exact sameDocument_json_iff.mp (sameDocument_iff.mpr h)

end PolicyVersion

theorem PolicySignature.lexical_json (s : PolicySignature) : s.json.Lexical := by
  apply lexical_ofMembers
  simp only [List.forall_mem_cons, List.not_mem_nil, false_imp_iff, implies_true, and_true]
  exact ⟨.string _, .string _⟩

namespace PolicyDefinition

variable {a b : PolicyDefinition}

/-- Definitions that differ at most in status and signature. -/
structure SameContent (a b : PolicyDefinition) : Prop where
  id : a.id = b.id
  version : a.version = b.version
  circuitId : a.circuitId = b.circuitId
  verificationKeyId : a.verificationKeyId = b.verificationKeyId
  verificationKeyFingerprint : a.verificationKeyFingerprint = b.verificationKeyFingerprint
  compatible : a.compatible = b.compatible
  lifetime : a.lifetime = b.lifetime
  signalsSchema : SameDocument a.signalsSchema b.signalsSchema

def boundNames : List String :=
  ["policyId", "version", "circuitId", "verificationKeyId", "verificationKeyFingerprint",
    "compatibleVersions", "defaultExpirySecs", "requiredPublicSignalsSchema"]

theorem names_boundMembers (d : PolicyDefinition) : d.boundMembers.map Prod.fst = boundNames := rfl

/-- What is hashed is made of texts, numerals, a list of numerals and the schema. -/
theorem forall_mem_boundMembers {p : Json → Prop} (text : ∀ s, p (.string s))
    (numeral : ∀ n, p (.ofNat n)) (list : ∀ vs, (∀ v ∈ vs, p v) → p (.array vs))
    (schema : p a.signalsSchema) : ∀ m ∈ a.boundMembers, p m.2 := by
  simp only [boundMembers, List.forall_mem_cons, List.not_mem_nil, false_imp_iff, implies_true,
    and_true]
  refine ⟨text _, numeral _, text _, text _, text _, ?_, numeral _, schema⟩
  exact list _ (List.forall_mem_map.mpr fun v _ => numeral _)

theorem literal_of_mem_boundMembers (h : a.signalsSchema.Literal) :
    ∀ m ∈ a.boundMembers, m.2.Literal :=
  forall_mem_boundMembers .string literal_ofNat (fun _ => .array) h

theorem literal_boundMembers (h : a.signalsSchema.Literal) :
    (ofMembers a.boundMembers).Literal :=
  literal_ofMembers (literal_of_mem_boundMembers h)

/-- The documents that are hashed are the same exactly for definitions of the same content. -/
theorem sameDocument_boundMembers_iff :
    SameDocument (ofMembers a.boundMembers) (ofMembers b.boundMembers) ↔ a.SameContent b := by
  rw [sameDocument_ofMembers_iff_forall₂ boundNames (by decide) a.names_boundMembers
    b.names_boundMembers]
  simp only [boundMembers, List.forall₂_cons, List.forall₂_nil_right_iff,
    PolicyId.sameDocument_json_iff, PolicyVersion.sameDocument_json_iff,
    PolicyVersion.sameDocument_list_iff, sameDocument_string_iff, sameDocument_ofNat_iff,
    UInt64.toNat_inj, and_true]
  constructor
  · rintro ⟨hid, hversion, hcircuit, hkey, hfingerprint, hcompatible, hlifetime, hschema⟩
    exact ⟨hid, hversion, hcircuit, hkey, hfingerprint, hcompatible, hlifetime, hschema⟩
  · rintro ⟨hid, hversion, hcircuit, hkey, hfingerprint, hcompatible, hlifetime, hschema⟩
    exact ⟨hid, hversion, hcircuit, hkey, hfingerprint, hcompatible, hlifetime, hschema⟩

theorem hashInput_eq_iff (ha : a.signalsSchema.Literal) (hb : b.signalsSchema.Literal) :
    a.hashInput = b.hashInput ↔ a.SameContent b := by
  rw [← sameDocument_boundMembers_iff]
  exact Canonical.ofJson_eq_iff (literal_boundMembers ha) (literal_boundMembers hb)

/-- Definitions with one hash have one content, unless SHA-256 collides on what is hashed. -/
theorem sameContent_of_hash (ha : a.signalsSchema.Literal) (hb : b.signalsSchema.Literal)
    (hcollision : sha256 a.hashInput.bytes = sha256 b.hashInput.bytes →
      a.hashInput.bytes = b.hashInput.bytes)
    (h : Hex.lowercase a.hash = Hex.lowercase b.hash) : a.SameContent b := by
  have hbytes := hcollision (Canonical.sha256_eq_of_hash h)
  exact (hashInput_eq_iff ha hb).mp (congrArg Canonical.mk hbytes)

/-! Computing the hash. -/

theorem lexical_signalsSchema (d : PolicyDefinition) : d.signalsSchema.Lexical :=
  lexical_of_isLexical d.lexical

theorem lexical_json (d : PolicyDefinition) : d.json.Lexical := by
  apply lexical_ofMembers
  simp only [List.forall_mem_append, List.forall_mem_singleton]
  refine ⟨⟨?_, .string _⟩, forall_mem_optionalOf PolicySignature.lexical_json d.signature⟩
  exact forall_mem_boundMembers .string lexical_ofNat (fun _ => .array) d.lexical_signalsSchema

/-- The wire document of a definition without its status and its signature. -/
def contentJson (d : PolicyDefinition) : Json := (d.json.without "signature").without "status"

theorem contentJson_eq (d : PolicyDefinition) : d.contentJson = .ofMembers d.boundMembers := by
  have herased : Json.erase (Json.erase (d.boundMembers ++ [("status", d.status.json)]
      ++ Json.optionalOf "signature" PolicySignature.json d.signature) "signature") "status"
        = d.boundMembers := by
    cases d.signature <;> rfl
  rw [contentJson, json, Json.without_ofMembers, Json.without_ofMembers, herased]

/-- No definition fails to be hashed. -/
theorem tryHashInput_eq (d : PolicyDefinition) : d.tryHashInput = .ok d.hashInput := by
  have hcontent : (d.json.normal.without "signature").without "status" = d.contentJson.normal := by
    rw [without_normal, without_normal]
    rfl
  rw [tryHashInput, serialized?_of_lexical d.lexical_json]
  dsimp only
  rw [hcontent, Canonical.ofValue_eq, Canonical.ofJson_normal, contentJson_eq, mapError_ok]
  rfl

theorem tryHash_eq (d : PolicyDefinition) : d.tryHash = .ok d.hash := by
  rw [tryHash, tryHashInput_eq]
  rfl

theorem trySign_eq (d : PolicyDefinition) (keyId : KeyId) (key : KeyPair) :
    d.trySign keyId key = .ok (d.sign keyId key) := by
  rw [trySign, tryHashInput_eq]
  rfl

theorem hasHash_eq (d : PolicyDefinition) (hash : String) :
    d.hasHash hash = Hex.agree d.hash hash := by
  rw [hasHash, tryHash_eq]

end PolicyDefinition
end Credentials
