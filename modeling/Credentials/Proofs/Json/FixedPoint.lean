import Credentials.Proofs.Json.CanonicalText
import Credentials.Proofs.Json.Intake

/-!
# Canonical texts of canonical texts

The canonical text of a document decodes to the document in its normal form, and so is its own
canonical text, unless an object in the normal form lists first the name that is kept for spelled
numbers. Such a text is refused.
-/

namespace Credentials

open Json

namespace Json

open Written

/-! Depth. -/

theorem depth_normal_le (v : Json) : v.normal.depth ≤ v.depth := by
  induction v using induction with
  | null => exact Nat.le_refl _
  | bool b => exact Nat.le_refl _
  | number l => exact Nat.le_refl _
  | string s => exact Nat.le_refl _
  | array items ih =>
    have hitems := depthItems_le_iff.mp (Nat.le_refl (depthItems items))
    rw [normal, normalItems_eq, depth, depth]
    refine Nat.succ_le_succ (depthItems_le_iff.mpr (List.forall_mem_map.mpr fun v hv => ?_))
    exact Nat.le_trans (ih v hv) (hitems v hv)
  | object ms ih =>
    have hmembers := depthMembers_le_iff.mp (Nat.le_refl (depthMembers ms))
    rw [normal, depth, depth]
    refine Nat.succ_le_succ (depthMembers_le_iff.mpr ?_)
    refine forall_mem_membersOf (p := fun v => v.depth ≤ depthMembers ms) fun m hm => ?_
    exact Nat.le_trans (ih m hm) (hmembers m hm)

/-- A document nests no deeper than was allowed when it was decoded. -/
theorem depth_resolve {w : Written} (hw : w.Lexical) {n : Nat} {v : Json}
    (h : resolve n w = some v) : v.depth ≤ n := by
  induction hw generalizing n v with
  | null => cases h; exact Nat.zero_le n
  | bool b => cases h; exact Nat.zero_le n
  | number _ => cases h; exact Nat.zero_le n
  | string _ =>
    rw [resolve] at h
    obtain ⟨s, _, rfl⟩ := Option.map_eq_some_iff.mp h
    exact Nat.zero_le n
  | array _ ih =>
    cases n with
    | zero => cases h
    | succ n =>
      rw [resolve] at h
      obtain ⟨vs, hvs, rfl⟩ := Option.map_eq_some_iff.mp h
      refine Nat.succ_le_succ (depthItems_le_iff.mpr fun v hv => ?_)
      obtain ⟨w, hw, hwv⟩ := mem_resolveItems hvs v hv
      exact ih w hw hwv
  | object _ _ ih =>
    cases n with
    | zero => cases h
    | succ n =>
      rw [resolve] at h
      split at h
      · obtain ⟨_, _, _, _, _, _, rfl⟩ := spelledNumber?_eq_some_iff.mp h
        exact Nat.zero_le _
      · obtain ⟨ns, hns, rfl⟩ := Option.map_eq_some_iff.mp h
        refine Nat.succ_le_succ (depthMembers_le_iff.mpr fun m hm => ?_)
        obtain ⟨k, hk, _, hkm⟩ := mem_resolveMembers hns m hm
        exact ih k hk hkm

theorem depth_parse {text : Bytes} {v : Json} (h : parse text = some v) : v.depth ≤ maxDepth := by
  rw [parse_eq_tree?] at h
  obtain ⟨u, hu, rfl⟩ := Option.map_eq_some_iff.mp h
  obtain ⟨w, hw, hresolve⟩ := Option.bind_eq_some_iff.mp hu
  have hlex := lexical_of_first (first_of_read hw)
  exact Nat.le_trans (depth_normal_le u) (depth_resolve hlex hresolve)

/-! Documents that are read back as they are. -/

theorem resolveItems_normal {n : Nat} {vs us : List Json}
    (h : resolveItems n (writtenItems vs) = some us) (hus : normalItems us = vs) :
    ∀ v ∈ vs, ∃ u, resolve n v.written = some u ∧ u.normal = v := by
  induction vs generalizing us with
  | nil => exact nofun
  | cons v vs ih =>
    simp only [writtenItems, resolveItems, Option.bind_eq_bind, Option.bind_eq_some_iff] at h
    obtain ⟨u, hu, us', hus', heq⟩ := h
    cases heq
    rw [normalItems, List.cons.injEq] at hus
    exact List.forall_mem_cons.mpr ⟨⟨u, hu, hus.1⟩, ih hus' hus.2⟩

theorem resolveMembers_normal {n : Nat} {ms ns : Members}
    (h : resolveMembers n (writtenMembers ms) = some ns) (hns : normalMembers ns = ms) :
    ∀ m ∈ ms, ∃ u, resolve n m.2.written = some u ∧ u.normal = m.2 := by
  induction ms generalizing ns with
  | nil => exact nofun
  | cons m ms ih =>
    simp only [writtenMembers, resolveMembers, Option.bind_eq_bind, Option.bind_eq_some_iff] at h
    obtain ⟨name, _, u, hu, ns', hns', heq⟩ := h
    cases heq
    rw [normalMembers, List.cons.injEq] at hns
    exact List.forall_mem_cons.mpr ⟨⟨u, hu, congrArg Prod.snd hns.1⟩, ih hns' hns.2⟩

theorem names_resolveMembers {n : Nat} {ms ns : Members}
    (h : resolveMembers n (writtenMembers ms) = some ns) :
    ns.map Prod.fst = ms.map Prod.fst := by
  induction ms generalizing ns with
  | nil =>
    cases h
    rfl
  | cons m ms ih =>
    simp only [writtenMembers, resolveMembers, textOf?_piecesOf, Option.bind_eq_bind,
      Option.bind_some, Option.bind_eq_some_iff] at h
    obtain ⟨u, _, ns', hns', heq⟩ := h
    cases heq
    rw [List.map_cons, List.map_cons, ih hns']

/-- Members in ascending order that are resolved stay in their places. -/
theorem normalMembers_of_resolveMembers {n : Nat} {ms ns : Members} (hms : Ascending ms)
    (h : resolveMembers n (writtenMembers ms) = some ns)
    (hns : membersOf (normalMembers ns) = ms) : normalMembers ns = ms := by
  have hnames : (normalMembers ns).map Prod.fst = ms.map Prod.fst := by
    rw [normalMembers_eq, List.map_map, ← names_resolveMembers h]
    rfl
  have hascending : Ascending (normalMembers ns) := by
    rw [Ascending, ← List.pairwise_map (f := Prod.fst), hnames, List.pairwise_map]
    exact hms
  rw [membersOf_of_ascending hascending] at hns
  exact hns

/-- A normal form that is resolved to itself is readable: where a number was spelled, there would be
an object no more. -/
theorem readable_of_resolve_normal {v : Json} (hv : v.IsNormal) {n : Nat} {u : Json}
    (h : resolve n v.written = some u) (hu : u.normal = v) : v.Readable := by
  induction hv generalizing n u with
  | null => exact .null
  | bool b => exact .bool b
  | number l => exact .number l
  | string s => exact .string s
  | array _ ih =>
    cases n with
    | zero => cases h
    | succ n =>
      rw [written, resolve] at h
      obtain ⟨us, hus, rfl⟩ := Option.map_eq_some_iff.mp h
      rw [normal, array.injEq] at hu
      refine .array fun v hv => ?_
      obtain ⟨x, hx, hnormal⟩ := resolveItems_normal hus hu v hv
      exact ih v hv hx hnormal
  | @object ms hms _ ih =>
    cases n with
    | zero => cases h
    | succ n =>
      rw [written, resolve] at h
      split at h
      · obtain ⟨_, _, _, _, _, _, rfl⟩ := spelledNumber?_eq_some_iff.mp h
        cases hu
      · next hstart =>
        obtain ⟨ns, hns, rfl⟩ := Option.map_eq_some_iff.mp h
        rw [normal, object.injEq] at hu
        have hplaces := normalMembers_of_resolveMembers hms hns hu
        refine .object (fun m hm hname => ?_) fun m hm => ?_
        · exact hstart ((startsWithNumberName_written ms).mpr ⟨m, hm, hname⟩)
        · obtain ⟨x, hx, hnormal⟩ := resolveMembers_normal hns hplaces m hm
          exact ih m hm hx hnormal

/-- A normal form is decoded to itself exactly if it is readable within the limit of nesting and no
number in it is minus zero. -/
theorem jsonWithin_written_iff {v : Json} (hnormal : v.IsNormal) (hv : v.Literal) {n : Nat} :
    v.written.jsonWithin n = some v ↔ v.Lexical ∧ v.ReadableWithin n := by
  constructor
  · intro h
    obtain ⟨u, hu, hsame⟩ := Option.map_eq_some_iff.mp h
    have hlex := lexical_normal (lexical_resolve (lexical_written hv) hu)
    have hdepth := Nat.le_trans (depth_normal_le u) (depth_resolve (lexical_written hv) hu)
    rw [hsame] at hlex hdepth
    exact ⟨hlex, readable_of_resolve_normal hnormal hu hsame, hdepth⟩
  · rintro ⟨hlex, hreadable⟩
    rw [Written.jsonWithin, resolve_written hlex hreadable.readable hreadable.depth,
      Option.map_some, normal_of_isNormal hnormal]

end Json

namespace Canonical

/-- Canonical bytes decode to the normal form of their document exactly if it is readable. -/
theorem parse_ofJson_iff {v : Json} (hv : v.Lexical) (hdepth : v.depth ≤ 127) :
    parse (ofJson v).bytes = some v.normal ↔ v.normal.Readable := by
  have hlex := lexical_normal hv
  have hparse : parse (ofJson v).bytes = v.normal.written.jsonWithin maxDepth := by
    rw [ofJson, parse_eq_tree?, tree?_print hlex.literal, Written.jsonWithin]
  rw [hparse, jsonWithin_written_iff (isNormal_normal v) hlex.literal]
  constructor
  · exact fun h => h.2.readable
  · exact fun h => ⟨hlex, h, Nat.le_trans (depth_normal_le v) hdepth⟩

/-- A printed document is refused as a whole or not at all. -/
theorem ofText_print_of_not_readable {v : Json} (hlex : v.Lexical) (hv : v.Unspelled)
    (h : ¬ v.Readable) : ofText v.print = .error .invalidJson := by
  cases hresult : ofText v.print with
  | ok c =>
    obtain ⟨u, hu, _⟩ := ofText_eq_ok_iff_parse.mp hresult
    exact absurd (readableWithin_of_parse_print hlex hv hu).readable h
  | error e =>
    rcases ofText_eq_error hresult with rfl | rfl
    · rfl
    · obtain ⟨w, u, ls, hfirst, _, hls⟩ := ofText_eq_trailingData_iff.mp hresult
      have hread := first_of_read (read_print (lexical_written hlex.literal))
      rw [Json.print, hread] at hfirst
      cases hfirst
      exact absurd rfl hls

/-- The canonical bytes of an accepted text are their own canonical bytes if their document is
readable, and are refused if it is not. -/
theorem ofText_ofText {text : Bytes} {c : Canonical} (h : ofText text = .ok c) :
    ∃ v, parse text = some v ∧ c = ofJson v ∧ (v.Readable → ofText c.bytes = .ok c) ∧
      (¬ v.Readable → ofText c.bytes = .error .invalidJson) := by
  obtain ⟨v, hv, rfl⟩ := ofText_eq_ok_iff_parse.mp h
  have hnormal := isNormal_parse hv
  have hlex := lexical_parse hv
  have hbytes : (ofJson v).bytes = v.print := by rw [ofJson, normal_of_isNormal hnormal]
  refine ⟨v, hv, rfl, fun hreadable => ?_, fun hreadable => ?_⟩
  · have hparse := parse_print hnormal hlex ⟨hreadable, depth_parse hv⟩
    rw [hbytes]
    exact ofText_eq_ok_iff_parse.mpr ⟨v, hparse, rfl⟩
  · rw [hbytes]
    exact ofText_print_of_not_readable hlex (unspelled_parse hv) hreadable

/-- When canonical texts are read back, those of documents and those of accepted texts, and how they
are laid out. -/
theorem canonical_fixed_point (v : Json) (text : Bytes) :
    (v.Lexical → v.depth ≤ 127 →
      (parse (ofJson v).bytes = some v.normal ↔ v.normal.Readable)) ∧
    (∀ c, ofText text = .ok c →
      ∃ u, parse text = some u ∧ c = ofJson u ∧ (u.Readable → ofText c.bytes = .ok c) ∧
        (¬ u.Readable → ofText c.bytes = .error .invalidJson)) ∧
    (v.Lexical → ∃ w, CanonicalText w (ofJson v).bytes) ∧
    (∀ c, ofText text = .ok c → ∃ w, CanonicalText w c.bytes) := by
  refine ⟨parse_ofJson_iff, fun c => ofText_ofText, canonicalText_ofJson, ?_⟩
  intro c h
  obtain ⟨u, hu, rfl⟩ := ofText_eq_ok_iff_parse.mp h
  exact canonicalText_ofJson (lexical_parse hu)

/-- An accepted text whose canonical bytes are refused. -/
theorem refused_canonical : ∃ c,
    ofText (Bytes.ofText "\x7b\"a\":1,\"$serde_json::private::Number\":\"5\"\x7d") = .ok c ∧
      ofText c.bytes = .error .invalidJson :=
  ⟨_, rfl, rfl⟩

end Canonical
end Credentials
