import Credentials.Proofs.Json.Decoding

/-!
# Reading back what is printed

A decoded document may list first, in its normal form, the name that is kept for spelled numbers:
the name then stood further back in the text. Such a document is printed but not read back; every
other document is, within the limit of nesting.
-/

namespace Credentials.Json

open Written

/-! Depth. -/

theorem depthItems_le_iff {vs : List Json} {n : Nat} :
    depthItems vs ≤ n ↔ ∀ v ∈ vs, v.depth ≤ n := by
  induction vs with
  | nil => simp [depthItems]
  | cons v vs ih => rw [depthItems, Nat.max_le, ih, List.forall_mem_cons]

theorem depthMembers_le_iff {ms : Members} {n : Nat} :
    depthMembers ms ≤ n ↔ ∀ m ∈ ms, m.2.depth ≤ n := by
  induction ms with
  | nil => simp [depthMembers]
  | cons m ms ih => rw [depthMembers, Nat.max_le, ih, List.forall_mem_cons]

/-! Documents that are read back. -/

/-- Whether a name is the one that is kept for spelled numbers. -/
def IsNumberName (name : String) : Prop := Bytes.ofText name = numberName

instance (name : String) : Decidable (IsNumberName name) :=
  inferInstanceAs (Decidable (Bytes.ofText name = numberName))

/-- A document none of whose objects lists first the name that is kept for spelled numbers. -/
inductive Readable : Json → Prop where
  | null : Readable .null
  | bool (b : Bool) : Readable (.bool b)
  | number (l : Bytes) : Readable (.number l)
  | string (s : String) : Readable (.string s)
  | array {items : List Json} : (∀ v ∈ items, Readable v) → Readable (.array items)
  | object {ms : Members} : (∀ m ∈ ms.head?, ¬ IsNumberName m.1) → (∀ m ∈ ms, Readable m.2) →
      Readable (.object ms)

/-- A readable document that nests no deeper than is allowed. -/
structure ReadableWithin (n : Nat) (v : Json) : Prop where
  readable : v.Readable
  depth : v.depth ≤ n

/-- A document in which the name that is kept for spelled numbers never stands alone. -/
inductive Unspelled : Json → Prop where
  | null : Unspelled .null
  | bool (b : Bool) : Unspelled (.bool b)
  | number (l : Bytes) : Unspelled (.number l)
  | string (s : String) : Unspelled (.string s)
  | array {items : List Json} : (∀ v ∈ items, Unspelled v) → Unspelled (.array items)
  | object {ms : Members} : (∀ m, ms = [m] → ¬ IsNumberName m.1) → (∀ m ∈ ms, Unspelled m.2) →
      Unspelled (.object ms)

theorem startsWithNumberName_written (ms : Members) :
    startsWithNumberName (writtenMembers ms) = true ↔ ∃ m ∈ ms.head?, IsNumberName m.1 := by
  cases ms with
  | nil => simp [writtenMembers, startsWithNumberName]
  | cons m ms =>
    simp [writtenMembers, startsWithNumberName, bytesOf_piecesOf, IsNumberName]

theorem resolveItems_written {n : Nat} {vs : List Json}
    (h : ∀ v ∈ vs, resolve n v.written = some v) :
    resolveItems n (writtenItems vs) = some vs := by
  induction vs with
  | nil => rfl
  | cons v vs ih =>
    obtain ⟨hv, hvs⟩ := List.forall_mem_cons.mp h
    simp [writtenItems, resolveItems, hv, ih hvs]

theorem resolveMembers_written {n : Nat} {ms : Members}
    (h : ∀ m ∈ ms, resolve n m.2.written = some m.2) :
    resolveMembers n (writtenMembers ms) = some ms := by
  induction ms with
  | nil => rfl
  | cons m ms ih =>
    obtain ⟨hm, hms⟩ := List.forall_mem_cons.mp h
    simp [writtenMembers, resolveMembers, textOf?_piecesOf, hm, ih hms]

theorem literalValue_of_ne {l : Bytes} (h : l ≠ [0x2d, 0x30]) : literalValue l = l := if_neg h

/-- Resolving the tree in which a document is written gives the document. -/
theorem resolve_written {v : Json} (hlex : v.Lexical) (hv : v.Readable) {n : Nat}
    (hn : v.depth ≤ n) : resolve n v.written = some v := by
  induction hv generalizing n with
  | null => rfl
  | bool b => rfl
  | number l =>
    cases hlex with
    | number _ hne => rw [written, resolve, literalValue_of_ne hne]
  | string s => rw [written, resolve, textOf?_piecesOf, Option.map_some]
  | @array items _ ih =>
    cases hlex with
    | array hitems =>
    rw [depth] at hn
    obtain ⟨k, rfl⟩ : ∃ k, n = k + 1 := ⟨n - 1, by omega⟩
    have hdepth := depthItems_le_iff.mp (Nat.le_of_succ_le_succ hn)
    have hresolve := resolveItems_written fun v hv => ih v hv (hitems v hv) (hdepth v hv)
    rw [written, resolve, hresolve, Option.map_some]
  | @object ms hhead _ ih =>
    cases hlex with
    | object hvalues =>
    rw [depth] at hn
    obtain ⟨k, rfl⟩ : ∃ k, n = k + 1 := ⟨n - 1, by omega⟩
    have hdepth := depthMembers_le_iff.mp (Nat.le_of_succ_le_succ hn)
    have hresolve := resolveMembers_written fun m hm => ih m hm (hvalues m hm) (hdepth m hm)
    have hstart : startsWithNumberName (writtenMembers ms) ≠ true := by
      intro hstart
      obtain ⟨m, hm, hname⟩ := (startsWithNumberName_written ms).mp hstart
      exact hhead m hm hname
    rw [written, resolve, if_neg hstart, hresolve, Option.map_some]

theorem spelledNumber?_written {ms : Members} (hms : ∀ m, ms = [m] → ¬ IsNumberName m.1)
    (hstart : startsWithNumberName (writtenMembers ms) = true) :
    spelledNumber? (writtenMembers ms) = none := by
  match ms with
  | [] => rfl
  | [m] =>
    obtain ⟨k, hk, hname⟩ := (startsWithNumberName_written [m]).mp hstart
    cases hk
    exact absurd hname (hms m rfl)
  | _ :: _ :: _ => simp [writtenMembers, spelledNumber?]

/-- Every member of a list that is resolved is resolved. -/
theorem resolve_of_resolveItems {n : Nat} {vs us : List Json}
    (h : resolveItems n (writtenItems vs) = some us) :
    ∀ v ∈ vs, ∃ u, resolve n v.written = some u := by
  induction vs generalizing us with
  | nil => exact fun _ hv => absurd hv List.not_mem_nil
  | cons v vs ih =>
    simp only [writtenItems, resolveItems, Option.bind_eq_bind, Option.bind_eq_some_iff] at h
    obtain ⟨u, hu, us', hus, -⟩ := h
    exact List.forall_mem_cons.mpr ⟨⟨u, hu⟩, ih hus⟩

theorem resolve_of_resolveMembers {n : Nat} {ms ns : Members}
    (h : resolveMembers n (writtenMembers ms) = some ns) :
    ∀ m ∈ ms, ∃ u, resolve n m.2.written = some u := by
  induction ms generalizing ns with
  | nil => exact fun _ hm => absurd hm List.not_mem_nil
  | cons m ms ih =>
    simp only [writtenMembers, resolveMembers, Option.bind_eq_bind, Option.bind_eq_some_iff] at h
    obtain ⟨_, _, u, hu, ns', hns, -⟩ := h
    exact List.forall_mem_cons.mpr ⟨⟨u, hu⟩, ih hns⟩

/-- What is resolved from a written document was readable, and not nested too deeply. -/
theorem readableWithin_of_resolve {v : Json} (hv : v.Unspelled) {n : Nat} {u : Json}
    (h : resolve n v.written = some u) : v.ReadableWithin n := by
  induction hv generalizing n u with
  | null => exact ⟨.null, Nat.zero_le n⟩
  | bool b => exact ⟨.bool b, Nat.zero_le n⟩
  | number l => exact ⟨.number l, Nat.zero_le n⟩
  | string s => exact ⟨.string s, Nat.zero_le n⟩
  | @array items _ ih =>
    cases n with
    | zero => cases h
    | succ n =>
      rw [written, resolve] at h
      obtain ⟨us, hus, -⟩ := Option.map_eq_some_iff.mp h
      have hitems : ∀ v ∈ items, v.ReadableWithin n := by
        intro v hv
        obtain ⟨u, hu⟩ := resolve_of_resolveItems hus v hv
        exact ih v hv hu
      refine ⟨.array fun v hv => (hitems v hv).readable, Nat.succ_le_succ ?_⟩
      exact depthItems_le_iff.mpr fun v hv => (hitems v hv).depth
  | @object ms halone _ ih =>
    cases n with
    | zero => cases h
    | succ n =>
      rw [written, resolve] at h
      split at h
      · next hstart =>
        rw [spelledNumber?_written halone hstart] at h
        cases h
      · next hstart =>
        obtain ⟨ns, hns, -⟩ := Option.map_eq_some_iff.mp h
        have hmembers : ∀ m ∈ ms, m.2.ReadableWithin n := by
          intro m hm
          obtain ⟨u, hu⟩ := resolve_of_resolveMembers hns m hm
          exact ih m hm hu
        have hhead : ∀ m ∈ ms.head?, ¬ IsNumberName m.1 := fun m hm hname =>
          hstart ((startsWithNumberName_written ms).mpr ⟨m, hm, hname⟩)
        refine ⟨.object hhead fun m hm => (hmembers m hm).readable, Nat.succ_le_succ ?_⟩
        exact depthMembers_le_iff.mpr fun m hm => (hmembers m hm).depth

theorem tree?_print {v : Json} (hv : v.Literal) :
    tree? v.print = resolve maxDepth v.written := by
  rw [tree?, Json.print, read_print (lexical_written hv), Option.bind_some]

/-- A readable normal form is read back. -/
theorem parse_print {v : Json} (hnormal : v.IsNormal) (hlex : v.Lexical)
    (hv : v.ReadableWithin maxDepth) : parse v.print = some v := by
  rw [parse_eq_tree?, tree?_print hlex.literal, resolve_written hlex hv.readable hv.depth, Option.map_some,
    normal_of_isNormal hnormal]

/-- Nothing else is read back. -/
theorem readableWithin_of_parse_print {v u : Json} (hlex : v.Lexical) (hv : v.Unspelled)
    (h : parse v.print = some u) : v.ReadableWithin maxDepth := by
  rw [parse_eq_tree?, tree?_print hlex.literal] at h
  obtain ⟨t, ht, -⟩ := Option.map_eq_some_iff.mp h
  exact readableWithin_of_resolve hv ht

/-! Decoded documents. -/

theorem head_resolveMembers {n : Nat} {ms : List (List Piece × Written)} {ns : Members}
    (hstart : ¬ startsWithNumberName ms = true) (h : resolveMembers n ms = some ns) :
    ∀ m ∈ ns.head?, ¬ IsNumberName m.1 := by
  intro m hm hname
  cases ms with
  | nil => cases h; cases hm
  | cons k ms =>
    simp only [resolveMembers, Option.bind_eq_bind, Option.bind_eq_some_iff] at h
    obtain ⟨name, hk, v, _, rest, _, heq⟩ := h
    cases heq
    cases hm
    obtain ⟨b, hb, htext⟩ := Option.bind_eq_some_iff.mp hk
    apply hstart
    rw [startsWithNumberName, hb, ← Bytes.ofText_of_text? htext]
    exact beq_iff_eq.mpr (congrArg some hname)

/-- The tree of a text is readable: its members stand as they were read. -/
theorem readable_resolve {w : Written} (hw : w.Lexical) {n : Nat} {v : Json}
    (h : resolve n w = some v) : v.Readable := by
  induction hw generalizing n v with
  | null => cases h; exact .null
  | bool b => cases h; exact .bool b
  | number _ => cases h; exact .number _
  | string _ =>
    rw [resolve] at h
    obtain ⟨s, _, rfl⟩ := Option.map_eq_some_iff.mp h
    exact .string s
  | array _ ih =>
    cases n with
    | zero => cases h
    | succ n =>
      rw [resolve] at h
      obtain ⟨vs, hvs, rfl⟩ := Option.map_eq_some_iff.mp h
      refine .array fun v hv => ?_
      obtain ⟨w, hw, hwv⟩ := mem_resolveItems hvs v hv
      exact ih w hw hwv
  | object _ _ ih =>
    cases n with
    | zero => cases h
    | succ n =>
      rw [resolve] at h
      split at h
      · obtain ⟨_, _, _, _, _, _, rfl⟩ := spelledNumber?_eq_some_iff.mp h
        exact .number _
      · next hstart =>
        obtain ⟨ns, hns, rfl⟩ := Option.map_eq_some_iff.mp h
        refine .object (head_resolveMembers hstart hns) fun m hm => ?_
        obtain ⟨k, hk, _, hkm⟩ := mem_resolveMembers hns m hm
        exact ih k hk hkm

/-- Every name of a list of members is a name of its finite map. -/
theorem exists_mem_membersOf {m : String × Json} {ms : Members} (h : m ∈ ms) :
    ∃ k ∈ membersOf ms, k.1 = m.1 := by
  obtain ⟨v, hv⟩ := get?_isSome_of_mem (List.mem_reverse.mpr h)
  refine ⟨(m.1, v), mem_of_get? ?_, rfl⟩
  rw [get?_membersOf, last?, hv]

/-- In a normal form the name may come to stand first, but not alone. -/
theorem unspelled_normal {v : Json} (hv : v.Readable) : v.normal.Unspelled := by
  induction hv with
  | null => exact .null
  | bool b => exact .bool b
  | number l => exact .number l
  | string s => exact .string s
  | array _ ih =>
    rw [normal, normalItems_eq]
    exact .array (List.forall_mem_map.mpr ih)
  | @object ms hhead _ ih =>
    rw [normal]
    refine .object (fun m hm hname => ?_) (forall_mem_membersOf ih)
    cases ms with
    | nil => cases hm
    | cons k ms =>
      have hk : (k.1, k.2.normal) ∈ normalMembers (k :: ms) := List.mem_cons_self
      obtain ⟨l, hl, heq⟩ := exists_mem_membersOf hk
      rw [hm] at hl
      obtain rfl := List.mem_singleton.mp hl
      rw [heq] at hname
      exact hhead k rfl hname

theorem unspelled_parse {text : Bytes} {v : Json} (h : parse text = some v) : v.Unspelled := by
  rw [parse_eq_tree?] at h
  obtain ⟨u, hu, rfl⟩ := Option.map_eq_some_iff.mp h
  obtain ⟨w, hw, hresolve⟩ := Option.bind_eq_some_iff.mp hu
  exact unspelled_normal (readable_resolve (lexical_of_first (first_of_read hw)) hresolve)

theorem isNormal_parse {text : Bytes} {v : Json} (h : parse text = some v) : v.IsNormal := by
  rw [parse_eq_tree?] at h
  obtain ⟨u, _, rfl⟩ := Option.map_eq_some_iff.mp h
  exact isNormal_normal u

end Credentials.Json
