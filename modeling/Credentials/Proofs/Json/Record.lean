import Credentials.Proofs.Json.NormalForm
import Credentials.Wire

/-!
# Records that are read back

What is written as a list of members is read as a record that holds, under each name it knows, what
was written last under that name.
-/

namespace Credentials.Json

namespace Record

/-! The fields of a written object. -/

/-- The members with a known name, each with the tree of its value. -/
def fieldsOf (names : List String) (ms : Members) : List (String × Written) :=
  (ms.filter fun m => m.1 ∈ names).map fun m => (m.1, m.2.written)

theorem fieldsOf_of_mem {names : List String} {m : String × Json} (h : m.1 ∈ names)
    (ms : Members) : fieldsOf names (m :: ms) = (m.1, m.2.written) :: fieldsOf names ms := by
  simp [fieldsOf, h]

theorem fieldsOf_of_not_mem {names : List String} {m : String × Json} (h : m.1 ∉ names)
    (ms : Members) : fieldsOf names (m :: ms) = fieldsOf names ms := by
  simp [fieldsOf, h]

theorem known_writtenMembers (names : List String) {ms : Members}
    (h : (ms.map Prod.fst).Nodup) :
    known names (writtenMembers ms) = some (fieldsOf names ms) := by
  induction ms with
  | nil => rfl
  | cons m ms ih =>
    obtain ⟨hm, hms⟩ := List.nodup_cons.mp h
    have hfresh : (fieldsOf names ms).any (·.1 = m.1) = false := by
      refine List.any_eq_false.mpr fun f hf => ?_
      obtain ⟨k, hk, rfl⟩ := List.mem_map.mp hf
      rw [decide_eq_true_eq]
      intro heq
      exact hm (heq ▸ List.mem_map_of_mem (List.mem_filter.mp hk).1)
    rw [writtenMembers, known, textOf?_piecesOf, ih hms]
    dsimp only
    by_cases hm : m.1 ∈ names
    · rw [if_pos hm, hfresh, fieldsOf_of_mem hm]
      rfl
    · rw [if_neg hm, fieldsOf_of_not_mem hm]

theorem get?_fieldsOf {names : List String} {n : String} (hn : n ∈ names) (ms : Members) :
    get? ⟨false, fieldsOf names ms⟩ n = (Json.get? ms n).map written := by
  induction ms with
  | nil => rfl
  | cons m ms ih =>
    rw [get?_cons]
    by_cases heq : m.1 = n
    · subst heq
      rw [if_pos rfl, fieldsOf_of_mem hn]
      simp [get?]
    · rw [if_neg heq, ← ih]
      by_cases hm : m.1 ∈ names
      · rw [fieldsOf_of_mem hm]
        simp [get?, heq]
      · rw [fieldsOf_of_not_mem hm]

/-- An object in which no name is repeated is read whatever the order of its members. -/
theorem read_object (names : List String) {ms : Members} (h : (ms.map Prod.fst).Nodup) :
    ∃ r, read names (object ms).written = some r ∧
      ∀ n ∈ names, r.get? n = (Json.get? ms n).map written := by
  refine ⟨⟨false, fieldsOf names ms⟩, ?_, fun n hn => get?_fieldsOf hn ms⟩
  rw [written, read, known_writtenMembers names h]
  rfl

theorem read_ofMembers (names : List String) (ms : Members) :
    ∃ r, read names (ofMembers ms).written = some r ∧
      ∀ n ∈ names, r.get? n = (last? ms n).map written := by
  obtain ⟨r, hr, hget⟩ := read_object names (nodup_of_ascending (ascending_membersOf ms))
  refine ⟨r, hr, fun n hn => ?_⟩
  rw [hget n hn, get?_membersOf]

/-! Fields. -/

section Fields

variable {α : Type} {r : Record} {name : String} {v : Json} {decode : Written → Option α} {a : α}

theorem required_of_get? (h : r.get? name = some v.written) (hv : decode v.written = some a) :
    r.required name decode = some a := by
  rw [required, h, Option.bind_some, hv]

theorem required_eq_none (h : r.get? name = some v.written) (hv : decode v.written = none) :
    r.required name decode = none := by
  rw [required, h, Option.bind_some, hv]

theorem defaulted_of_get? (h : r.get? name = some v.written) (hv : decode v.written = some a)
    (default : α) : r.defaulted name default decode = some a := by
  rw [defaulted, h]
  exact hv

theorem defaulted_of_none (h : r.get? name = none) (default : α) :
    r.defaulted name default decode = some default := by
  rw [defaulted, h]

/-- A field that is written only when it is there. -/
theorem defaulted_optional {write : α → Json} {value : Option α}
    (h : r.get? name = (value.map write).map written)
    (hwrite : ∀ a, value = some a → Written.nullable decode (write a).written = some (some a)) :
    r.defaulted name none (Written.nullable decode) = some value := by
  cases value with
  | none => exact defaulted_of_none h none
  | some a => exact defaulted_of_get? h (hwrite a rfl) none

end Fields

end Record

/-! Values. -/

theorem text?_written (s : String) : (string s).written.text? = some s := textOf?_piecesOf s

theorem natBelow?_written {k bound : Nat} (h : k < bound) :
    (ofNat k).written.natBelow? bound = some k := by
  change (Decimal.nat? (Decimal.ofNat k)).filter (· < bound) = some k
  rw [Decimal.nat?_ofNat, Option.filter_some, if_pos (decide_eq_true h)]

/-- A list is read item by item. -/
theorem list?_written {α : Type} {decode : Written → Option α} {write : α → Json} {as : List α}
    (h : ∀ a ∈ as, decode (write a).written = some a) :
    (array (as.map write)).written.list? decode = some as := by
  rw [written, Written.list?, writtenItems_eq, List.map_map]
  induction as with
  | nil => rfl
  | cons a as ih =>
    obtain ⟨ha, has⟩ := List.forall_mem_cons.mp h
    rw [List.map_cons, List.mapM_cons, ih has, Function.comp_apply, ha]
    rfl

theorem nullable_object {α : Type} (decode : Written → Option α) (ms : Members) :
    Written.nullable decode (object ms).written = (decode (object ms).written).map some := by
  rw [written, Written.nullable]
  exact fun h => nomatch h

theorem nullable_text?_written (s : String) :
    Written.nullable Written.text? (string s).written = some (some s) := by
  rw [written, Written.nullable]
  · exact congrArg (Option.map some) (text?_written s)
  · exact fun h => nomatch h

end Credentials.Json

namespace Credentials

open Json (Written)

theorem PolicyId.ofWritten?_json (p : PolicyId) : ofWritten? p.json.written = some p :=
  congrArg (Option.map PolicyId.mk) (Json.text?_written p.name)

theorem KeyId.ofWritten?_json (k : KeyId) : ofWritten? k.json.written = some k :=
  congrArg (Option.map KeyId.mk) (Json.text?_written k.name)

theorem PolicyVersion.ofWritten?_json (v : PolicyVersion) :
    ofWritten? v.json.written = some v := by
  have hlt : v.number.toNat < UInt32.size := v.number.toNat_lt
  rw [ofWritten?, json, Json.natBelow?_written hlt, Option.map_some, UInt32.ofNat_toNat]

theorem PolicyVersion.nullable_json (v : PolicyVersion) :
    Written.nullable ofWritten? v.json.written = some (some v) :=
  congrArg (Option.map some) v.ofWritten?_json

end Credentials
