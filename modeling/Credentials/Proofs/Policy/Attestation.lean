import Credentials.Proofs.Policy.Wire
import Mathlib.Logic.Relation

/-!
# Attestations of definitions

A definition is signed over what is hashed. Signing it again, moving its status and sending it leave
these bytes as they are, so the last signer's attestation keeps its worth; an edit of anything else
changes them. Only a schema that cannot be read back is lost on the wire.
-/

namespace Credentials

open Json (readText)

namespace PolicyDefinition

variable {d e : PolicyDefinition} {key signer : KeyPair} {text : Bytes}

/-- What may be done with a definition, and whether it may be sent; the last signer is kept with
it. -/
inductive Handles (maySend : Prop) : PolicyDefinition × KeyPair → PolicyDefinition × KeyPair → Prop
    where
  | sign (d : PolicyDefinition) (signer : KeyPair) (keyId : KeyId) (key : KeyPair) :
      Handles maySend (d, signer) (d.sign keyId key, key)
  | moveStatus (d : PolicyDefinition) (signer : KeyPair) (status : PolicyStatus) :
      Handles maySend (d, signer) ({ d with status := status }, signer)
  | send {d e : PolicyDefinition} (signer : KeyPair) {text : Bytes} : maySend →
      d.WrittenIn text → readText ofWritten? text = some e →
      Handles maySend (d, signer) (e, signer)

/-- A definition that has been handled: it is the original but for its status and its signature,
which is the signer's and over what is hashed of the original. -/
structure Attested (d e : PolicyDefinition) (signer : KeyPair) : Prop where
  same : e = { d with status := e.status, signature := e.signature }
  signed : ∃ keyId, e.signature = some ⟨keyId, signer.sign d.hashInput⟩

namespace Attested

theorem hashInput_eq (h : Attested d e signer) : e.hashInput = d.hashInput := by
  rw [h.same]
  rfl

theorem signalsSchema_eq (h : Attested d e signer) : e.signalsSchema = d.signalsSchema := by
  rw [h.same]

theorem restorable (h : Attested d e signer) (hd : d.Restorable) : e.Restorable := by
  obtain ⟨hnormal, hlexical, hreadable⟩ := hd
  rw [← h.signalsSchema_eq] at hnormal hlexical hreadable
  exact ⟨hnormal, hlexical, hreadable⟩

theorem of_sign (d : PolicyDefinition) (keyId : KeyId) (key : KeyPair) :
    Attested d (d.sign keyId key) key where
  same := rfl
  signed := ⟨keyId, rfl⟩

/-- One step keeps the attestation, if a definition is sent only when it comes back. -/
theorem handles (h : Attested d e signer) {x : PolicyDefinition × KeyPair}
    (hstep : Handles d.Restorable (e, signer) x) : Attested d x.1 x.2 := by
  cases hstep with
  | sign _ _ keyId key =>
    refine ⟨?_, keyId, ?_⟩
    · rw [h.same]
      rfl
    · rw [sign, h.hashInput_eq]
  | moveStatus _ _ status =>
    refine ⟨?_, h.signed⟩
    rw [h.same]
  | send _ hd htext hread =>
    have hback := (h.restorable hd).readText htext
    obtain rfl := Option.some.inj (hread.symm.trans hback)
    exact h

theorem run {x y : PolicyDefinition × KeyPair} (h : Attested d x.1 x.2)
    (hrun : Relation.ReflTransGen (Handles d.Restorable) x y) : Attested d y.1 y.2 := by
  induction hrun with
  | refl => exact h
  | tail _ hstep ih => exact ih.handles hstep

end Attested

/-- A signature that was given is checked against what is hashed now. -/
theorem verifySignature_of_signature {keyId : KeyId} {s : Signature}
    (h : d.signature = some ⟨keyId, s⟩) (k : PublicKey) :
    d.verifySignature k = (k.verify d.hashInput s).mapError .badSignature := by
  rw [verifySignature, h]
  dsimp only
  rw [tryHashInput_eq]

theorem verifySignature_eq_ok_iff {keyId : KeyId} {s : Signature}
    (h : d.signature = some ⟨keyId, s⟩) (k : PublicKey) :
    d.verifySignature k = .ok () ↔ k.verify d.hashInput s = .ok () := by
  rw [verifySignature_of_signature h, mapError_eq_ok_iff]

/-- What is hashed tells definitions apart up to status and signature; a definition is read back
from its texts exactly if its schema can be; and a signature holds after anything that may be done,
sending included if it comes back, as it does at once: for the same bytes, which an edit changes. -/
theorem attestation (hliteral : d.signalsSchema.Literal) :
    (∀ e : PolicyDefinition, e.signalsSchema.Literal →
      (d.hashInput.bytes = e.hashInput.bytes ↔ d.SameContent e)) ∧
    (d.signalsSchema.IsNormal → ∀ text, d.WrittenIn text →
      (readText ofWritten? text = some d ↔ d.Restorable)) ∧
    (∀ (keyId : KeyId) (key : KeyPair) (e : PolicyDefinition) (signer : KeyPair),
      Relation.ReflTransGen (Handles d.Restorable) (d.sign keyId key, key) (e, signer) →
      e.hashInput = d.hashInput ∧
      (d.Restorable → ∀ text, e.WrittenIn text → readText ofWritten? text = some e) ∧
      (e.verifySignature signer.publicKey = .ok () ↔
        signer.publicKey.verify d.hashInput (signer.sign d.hashInput) = .ok ()) ∧
      ∀ edited : PolicyDefinition, edited.signature = e.signature →
        edited.signalsSchema.Literal → ¬ e.SameContent edited →
        edited.hashInput.bytes ≠ d.hashInput.bytes ∧
        (edited.verifySignature signer.publicKey = .ok () ↔
          signer.publicKey.verify edited.hashInput (signer.sign d.hashInput) = .ok ())) := by
  refine ⟨?_, fun hnormal text => readText_eq_some_iff hnormal hliteral, ?_⟩
  · intro e he
    rw [← hashInput_eq_iff hliteral he]
    exact ⟨congrArg Canonical.mk, congrArg Canonical.bytes⟩
  · intro keyId key e signer hrun
    have hattested := (Attested.of_sign d keyId key).run hrun
    obtain ⟨author, hsignature⟩ := hattested.signed
    refine ⟨hattested.hashInput_eq, fun hd text => (hattested.restorable hd).readText, ?_, ?_⟩
    · rw [verifySignature_eq_ok_iff hsignature, hattested.hashInput_eq]
    · intro edited hsame hedited hcontent
      constructor
      · intro hbytes
        rw [← hattested.signalsSchema_eq] at hliteral
        rw [← hattested.hashInput_eq] at hbytes
        exact hcontent ((hashInput_eq_iff hliteral hedited).mp (congrArg Canonical.mk hbytes.symm))
      · rw [verifySignature_eq_ok_iff (hsame.trans hsignature)]

/-! Definitions with one schema or another. -/

def sampleWith (schema : Json) (lexical : schema.isLexical = true := by rfl) : PolicyDefinition :=
  ⟨⟨"p1"⟩, ⟨2⟩, .active, "c1", "v1", "f1", [⟨1⟩], 3600, schema, none, lexical⟩

def objectSchema : Json := .object [("type", .string "object")]

def sampleSigner : KeyPair := ⟨List.replicate 32 4, rfl⟩

/-- Signed, retired, sent: the attestation is worth what it was when it was given. -/
theorem attestation_sample : ∃ e : PolicyDefinition, e.status = .retired ∧
    Relation.ReflTransGen (Handles (sampleWith objectSchema).Restorable)
      ((sampleWith objectSchema).sign ⟨"k1"⟩ sampleSigner, sampleSigner) (e, sampleSigner) ∧
    readText ofWritten? e.json.print = some e ∧
    (e.verifySignature sampleSigner.publicKey = .ok () ↔
      sampleSigner.publicKey.verify (sampleWith objectSchema).hashInput
        (sampleSigner.sign (sampleWith objectSchema).hashInput) = .ok ()) := by
  have hd : (sampleWith objectSchema).Restorable :=
    { normal := .object (List.pairwise_singleton _ _) (List.forall_mem_singleton.mpr (.string _))
      lexical := .object (List.forall_mem_singleton.mpr (.string _))
      readable :=
        ⟨.object (by decide) (List.forall_mem_singleton.mpr (.string _)), by decide⟩ }
  obtain ⟨_, _, hhandled⟩ := attestation (d := sampleWith objectSchema) hd.lexical.literal
  have hretired : Relation.ReflTransGen (Handles (sampleWith objectSchema).Restorable) _ _ :=
    .single (.moveStatus ((sampleWith objectSchema).sign ⟨"k1"⟩ sampleSigner) sampleSigner .retired)
  obtain ⟨_, hback, _⟩ := hhandled _ _ _ _ hretired
  have htext := writtenIn_print (d :=
    { (sampleWith objectSchema).sign ⟨"k1"⟩ sampleSigner with status := .retired })
    hd.lexical.literal
  have hsent := hretired.tail (.send sampleSigner hd htext (hback hd _ htext))
  obtain ⟨_, _, hverify, _⟩ := hhandled _ _ _ _ hsent
  exact ⟨_, rfl, hsent, hback hd _ htext, hverify⟩

/-- An object that lists the name that is kept for spelled numbers behind another one. -/
def keptNameLast : Json :=
  .object [("a", .number [0x31]), (Bytes.asciiText Json.numberName, .string "5")]

/-- The same object as it is decoded, with its members in ascending order. -/
def keptNameFirst : Json :=
  .object [(Bytes.asciiText Json.numberName, .string "5"), ("a", .number [0x31])]

/-- A definition that was read from a text, and that is written in a text that is refused. -/
theorem refused_on_wire :
    readText ofWritten? (sampleWith keptNameLast).json.print = some (sampleWith keptNameFirst) ∧
    (sampleWith keptNameFirst).WrittenIn (sampleWith keptNameFirst).json.print ∧
    readText ofWritten? (sampleWith keptNameFirst).json.print = none := by
  have hnumber : (Json.number [0x31]).Literal := .number (Json.isLiteral_iff.mp rfl)
  have hlast : keptNameLast.Literal :=
    .object (List.forall_mem_cons.mpr ⟨hnumber, List.forall_mem_singleton.mpr (.string _)⟩)
  have hfirst : keptNameFirst.Literal :=
    .object (List.forall_mem_cons.mpr ⟨.string _, List.forall_mem_singleton.mpr hnumber⟩)
  have hdecoded : keptNameLast.written.jsonWithin 126 = some keptNameFirst := rfl
  have hrefused : keptNameFirst.written.jsonWithin 126 = none := rfl
  have htext := writtenIn_print (d := sampleWith keptNameLast) hlast
  have htext' := writtenIn_print (d := sampleWith keptNameFirst) hfirst
  refine ⟨?_, htext', ?_⟩
  · rw [readText_of_writtenIn htext]
    exact congrArg (fun v => (Option.bind v Json.lexed?).map _) hdecoded
  · rw [readText_of_writtenIn htext']
    exact congrArg (fun v => (Option.bind v Json.lexed?).map _) hrefused

end PolicyDefinition
end Credentials
