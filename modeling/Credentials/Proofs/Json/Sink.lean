import Credentials.Json.Canonical
import Credentials.Proofs.Json.Writing

/-!
# Writing into a sink

A sink that takes every part has, after a document was written into it, taken the compact text of
the document behind what it held before. A buffer is such a sink, so canonical bytes are written
without fail, and they are those of the document.
-/

namespace Credentials

/-- A step of writing that succeeds wherever it starts and adds a text to what was taken. -/
def Sink.Adds {σ : Type} (taken : σ → Bytes) (step : σ → Except CanonicalizationError σ)
    (text : Bytes) : Prop :=
  ∀ out, ∃ out', step out = .ok out' ∧ taken out' = taken out ++ text

namespace Json

open Sink (Adds)
open Written (printItems printMembers)

variable {σ : Type} {taken : σ → Bytes} {f g : σ → Except CanonicalizationError σ} {s t : Bytes}

theorem adds_nothing : Adds taken .ok [] :=
  fun out => ⟨out, rfl, (List.append_nil _).symm⟩

theorem adds_bind (hf : Adds taken f s) (hg : Adds taken g t) :
    Adds taken (fun out => f out >>= g) (s ++ t) := by
  intro out
  obtain ⟨mid, hmid, hs⟩ := hf out
  obtain ⟨out', hout, ht⟩ := hg mid
  refine ⟨out', ?_, ?_⟩
  · change f out >>= g = .ok out'
    rw [hmid]
    exact hout
  · rw [ht, hs, List.append_assoc]

/-! Texts of items and members, the first apart from those that follow. -/

theorem printItems_cons (v : Json) (vs : List Json) :
    printItems (writtenItems (v :: vs)) = v.print ++ vs.flatMap fun v => 0x2c :: v.print := by
  induction vs generalizing v with
  | nil => exact (List.append_nil _).symm
  | cons u vs ih =>
    rw [List.flatMap_cons, List.cons_append, ← ih u]
    rfl

/-- A member as it is printed. -/
def memberText (m : String × Json) : Bytes := quoted (piecesOf m.1) ++ 0x3a :: m.2.print

theorem printMembers_cons (m : String × Json) (ms : Members) :
    printMembers (writtenMembers (m :: ms))
      = memberText m ++ ms.flatMap fun m => 0x2c :: memberText m := by
  induction ms generalizing m with
  | nil => exact (List.append_nil _).symm
  | cons k ms ih =>
    rw [List.flatMap_cons, List.cons_append, ← ih k, memberText, List.append_assoc]
    rfl

/-! What is written. -/

section Writing

variable {put : Sink σ} (hput : ∀ text, Adds taken (put text) text)
include hput

theorem adds_writeItems {vs : List Json} (h : ∀ v ∈ vs, Adds taken (v.write put) v.print) :
    Adds taken (writeItems put false vs) (vs.flatMap fun v => 0x2c :: v.print) := by
  induction vs with
  | nil => exact adds_nothing
  | cons v vs ih =>
    obtain ⟨hv, hvs⟩ := List.forall_mem_cons.mp h
    have hitem := adds_bind (hput [0x2c]) (adds_bind hv (ih hvs))
    exact hitem

theorem adds_writeMembers {ms : Members} (h : ∀ m ∈ ms, Adds taken (m.2.write put) m.2.print) :
    Adds taken (writeMembers put false ms) (ms.flatMap fun m => 0x2c :: memberText m) := by
  induction ms with
  | nil => exact adds_nothing
  | cons m ms ih =>
    obtain ⟨hm, hms⟩ := List.forall_mem_cons.mp h
    have hmember := adds_bind (hput [0x2c]) (adds_bind (hput (quoted (piecesOf m.1)))
      (adds_bind (hput [0x3a]) (adds_bind hm (ih hms))))
    rw [List.flatMap_cons, memberText, List.cons_append, List.append_assoc, List.cons_append]
    exact hmember

/-- A document is written as it is printed. -/
theorem adds_write (v : Json) : Adds taken (v.write put) v.print := by
  induction v using Json.induction with
  | null => exact hput _
  | bool b => exact hput _
  | number l => exact hput _
  | string s => exact hput _
  | array items ih =>
    have hitems : Adds taken (writeItems put true items) (printItems (writtenItems items)) := by
      cases items with
      | nil => exact adds_nothing
      | cons v vs =>
        obtain ⟨hv, hvs⟩ := List.forall_mem_cons.mp ih
        have hitem := adds_bind hv (adds_writeItems hput hvs)
        rw [printItems_cons]
        exact hitem
    exact adds_bind (hput [0x5b]) (adds_bind hitems (hput [0x5d]))
  | object ms ih =>
    have hmembers : Adds taken (writeMembers put true ms) (printMembers (writtenMembers ms)) := by
      cases ms with
      | nil => exact adds_nothing
      | cons m ms =>
        obtain ⟨hm, hms⟩ := List.forall_mem_cons.mp ih
        have hmember := adds_bind (hput (quoted (piecesOf m.1)))
          (adds_bind (hput [0x3a]) (adds_bind hm (adds_writeMembers hput hms)))
        rw [printMembers_cons, memberText, List.append_assoc, List.cons_append]
        exact hmember
    exact adds_bind (hput [0x7b]) (adds_bind hmembers (hput [0x7d]))

end Writing
end Json

namespace Canonical

/-- A buffer takes every part. -/
theorem adds_put (text : Bytes) : Sink.Adds Buffer.bytes (Buffer.put text) text := by
  intro b
  refine ⟨text :: b, rfl, ?_⟩
  simp [Buffer.bytes]

/-- Canonical bytes are written without fail. -/
@[simp]
theorem ofValue_eq (v : Json) : ofValue v = .ok (ofJson v) := by
  obtain ⟨b, hb, hbytes⟩ := Json.adds_write adds_put v.normal []
  rw [ofValue, hb, ofJson]
  exact congrArg (Except.ok ∘ mk) hbytes

theorem ofText_eq (text : Bytes) : ofText text = (read text).map ofJson := by
  unfold ofText
  cases read text with
  | error e => rfl
  | ok v => exact ofValue_eq v

end Canonical
end Credentials
