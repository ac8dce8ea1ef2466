import Credentials.Proofs.Json.CanonicalForm
import Credentials.Proofs.Json.Number
import Credentials.Wire
import Mathlib.Data.List.Forall2
import Mathlib.Data.List.Nodup

/-!
# Objects made of members

An object that is made of a list of members is known from what it holds under each name; and from
the values in their order, if no name is repeated.
-/

namespace Credentials.Json

variable {ms ns : Members} {n : String}

/-! Values. -/

theorem sameDocument_string_iff {s t : String} : SameDocument (.string s) (.string t) ↔ s = t := by
  rw [sameDocument_iff]
  exact ⟨string.inj, congrArg string⟩

theorem ofInt_injective {i j : Int} (h : ofInt i = ofInt j) : i = j := by
  have hi := signed?_ofInt i
  rw [number.inj h, signed?_ofInt] at hi
  exact (Option.some.inj hi).symm

theorem sameDocument_ofInt_iff {i j : Int} : SameDocument (ofInt i) (ofInt j) ↔ i = j := by
  rw [sameDocument_iff]
  exact ⟨ofInt_injective, congrArg ofInt⟩

theorem sameDocument_ofNat_iff {k l : Nat} : SameDocument (ofNat k) (ofNat l) ↔ k = l :=
  sameDocument_ofInt_iff.trans Int.ofNat_inj

theorem lexical_ofInt (i : Int) : (ofInt i).Lexical :=
  .number (isNumber_ofInt i) (ofInt_ne_minusZero i)

theorem lexical_ofNat (k : Nat) : (ofNat k).Lexical := lexical_ofInt k

theorem literal_ofInt (i : Int) : (ofInt i).Literal := .number (isNumber_ofInt i)

theorem literal_ofNat (k : Nat) : (ofNat k).Literal := literal_ofInt k

/-! What is held under a name. -/

theorem last?_cons (m : String × Json) (ms : Members) (n : String) :
    last? (m :: ms) n = (last? ms n).or (if m.1 = n then some m.2 else none) := by
  rw [last?, List.reverse_cons, get?_append, get?_cons, get?_nil, last?]

theorem last?_isSome_iff : (last? ms n).isSome = true ↔ n ∈ ms.map Prod.fst := by
  induction ms with
  | nil => simp [last?]
  | cons m ms ih =>
    rw [last?_cons, Option.isSome_or, Bool.or_eq_true, ih, List.map_cons, List.mem_cons, or_comm]
    apply or_congr_left
    split
    · next h => simp [h]
    · next h => simp [Ne.symm h]

theorem last?_eq_none (h : n ∉ ms.map Prod.fst) : last? ms n = none := by
  rw [← Option.not_isSome_iff_eq_none, last?_isSome_iff]
  exact h

theorem last?_membersOf (ms : Members) (n : String) : last? (membersOf ms) n = last? ms n := by
  rw [← get?_membersOf, membersOf_of_ascending (ascending_membersOf ms), get?_membersOf]

/-- An object that has a member of the name. -/
inductive HasMember (n : String) : Json → Prop where
  | object {ms : Members} : n ∈ ms.map Prod.fst → HasMember n (.object ms)

theorem hasMember_object_iff : HasMember n (.object ms) ↔ n ∈ ms.map Prod.fst :=
  ⟨fun ⟨h⟩ => h, .object⟩

theorem hasMember_ofMembers_iff : HasMember n (ofMembers ms) ↔ n ∈ ms.map Prod.fst := by
  rw [ofMembers, hasMember_object_iff, ← last?_isSome_iff, ← last?_isSome_iff, last?_membersOf]

theorem SameDocument.hasMember_iff {v w : Json} (h : SameDocument v w) :
    HasMember n v ↔ HasMember n w := by
  cases h with
  | object hnames _ =>
    rw [hasMember_object_iff, hasMember_object_iff, ← last?_isSome_iff, ← last?_isSome_iff, hnames]
  | null => rfl
  | bool b => rfl
  | number l => rfl
  | string s => rfl
  | array _ _ => exact iff_of_false nofun nofun

/-! Members in another order. -/

theorem get?_eq_some_iff (h : (ms.map Prod.fst).Nodup) {v : Json} :
    get? ms n = some v ↔ (n, v) ∈ ms :=
  ⟨mem_of_get?, get?_of_mem h⟩

theorem nodup_of_perm (hperm : ms.Perm ns) (h : (ns.map Prod.fst).Nodup) :
    (ms.map Prod.fst).Nodup :=
  (hperm.map Prod.fst).nodup_iff.mpr h

theorem get?_of_perm (hperm : ms.Perm ns) (h : (ns.map Prod.fst).Nodup) (n : String) :
    get? ms n = get? ns n := by
  apply Option.ext
  intro v
  rw [get?_eq_some_iff (nodup_of_perm hperm h), get?_eq_some_iff h, hperm.mem_iff]

/-- Listing members in ascending order leaves out none of them if no name is repeated. -/
theorem perm_membersOf (h : (ms.map Prod.fst).Nodup) : (membersOf ms).Perm ms := by
  have hnodup := nodup_of_ascending (ascending_membersOf ms)
  apply (List.perm_ext_iff_of_nodup (List.Nodup.of_map _ hnodup) (List.Nodup.of_map _ h)).mpr
  rintro ⟨n, v⟩
  rw [← get?_eq_some_iff hnodup, get?_membersOf, last?,
    get?_of_perm (List.reverse_perm ms) h, get?_eq_some_iff h]

/-! Made of a list. -/

theorem forall_mem_optionalOf {α : Type} {p : Json → Prop} {name : String} {write : α → Json}
    (h : ∀ a, p (write a)) (value : Option α) : ∀ m ∈ optionalOf name write value, p m.2 := by
  intro m hm
  cases value with
  | none => cases hm
  | some a =>
    obtain rfl := List.mem_singleton.mp hm
    exact h a

theorem lexical_ofMembers (h : ∀ m ∈ ms, m.2.Lexical) : (ofMembers ms).Lexical :=
  .object fun m hm => h m (mem_of_mem_membersOf hm)

theorem literal_ofMembers (h : ∀ m ∈ ms, m.2.Literal) : (ofMembers ms).Literal :=
  .object fun m hm => h m (mem_of_mem_membersOf hm)

/-- Two lists of members are one document if they hold the same under every name. -/
theorem sameDocument_ofMembers_iff :
    SameDocument (ofMembers ms) (ofMembers ns) ↔
      ∀ n, (last? ms n).map normal = (last? ns n).map normal := by
  rw [sameDocument_iff, ofMembers, ofMembers, normal_object_eq_iff]
  simp only [last?_membersOf]

/-- With the same names in both, each name once, they are one document if their values are. -/
theorem sameDocument_ofMembers_iff_forall₂ (names : List String) (hnodup : names.Nodup)
    (hms : ms.map Prod.fst = names) (hns : ns.map Prod.fst = names) :
    SameDocument (ofMembers ms) (ofMembers ns) ↔
      List.Forall₂ (fun m n => SameDocument m.2 n.2) ms ns := by
  rw [sameDocument_ofMembers_iff]
  induction names generalizing ms ns with
  | nil =>
    rw [List.map_eq_nil_iff] at hms hns
    rw [hms, hns]
    exact iff_of_true (fun _ => rfl) .nil
  | cons name names ih =>
    obtain ⟨m, ms, rfl, hm, hms⟩ := List.map_eq_cons_iff.mp hms
    obtain ⟨k, ns, rfl, hk, hns⟩ := List.map_eq_cons_iff.mp hns
    obtain ⟨hname, hnodup⟩ := List.nodup_cons.mp hnodup
    have hfresh : last? ms name = none := last?_eq_none (by rwa [hms])
    have hfresh' : last? ns name = none := last?_eq_none (by rwa [hns])
    rw [List.forall₂_cons, ← ih hnodup hms hns, sameDocument_iff]
    simp only [last?_cons, hm, hk]
    constructor
    · intro h
      have hvalues := h name
      rw [hfresh, hfresh', if_pos rfl, if_pos rfl] at hvalues
      refine ⟨Option.some.inj hvalues, fun n => ?_⟩
      by_cases hn : name = n
      · rw [← hn, hfresh, hfresh']
      · have hrest := h n
        rwa [if_neg hn, if_neg hn, Option.or_none, Option.or_none] at hrest
    · rintro ⟨hvalue, hrest⟩ n
      rw [Option.map_or, Option.map_or, hrest n]
      split
      · exact congrArg (Option.or _) (congrArg some hvalue)
      · rfl

end Credentials.Json
