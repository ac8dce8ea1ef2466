import Credentials.Proofs.Json.Writing

/-!
# Normal forms

The members of a normal form stand in strictly ascending order of their names, so they are
determined by what is found under each name. Bringing a document into its normal form keeps what is
found under each name when a later member wins over an earlier one, and changes no normal form.
-/

namespace Credentials

/-! Names are totally ordered. -/

theorem nameBefore_irrefl (a : String) : ¬ nameBefore a a := List.lt_irrefl _

theorem nameBefore_trans {a b c : String} (hab : nameBefore a b) (hbc : nameBefore b c) :
    nameBefore a c :=
  List.lt_trans hab hbc

theorem eq_of_not_nameBefore {a b : String} (hab : ¬ nameBefore a b) (hba : ¬ nameBefore b a) :
    a = b :=
  Bytes.ofText_inj (List.le_antisymm (List.not_lt.mp hba) (List.not_lt.mp hab))

namespace Json

/-! Finding members. -/

@[simp] theorem get?_nil (n : String) : get? [] n = none := rfl

theorem get?_cons (m : String × Json) (ms : Members) (n : String) :
    get? (m :: ms) n = if m.1 = n then some m.2 else get? ms n := by
  by_cases h : m.1 = n <;> simp [get?, h]

theorem get?_append (ms ns : Members) (n : String) :
    get? (ms ++ ns) n = (get? ms n).or (get? ns n) := by
  induction ms with
  | nil => simp
  | cons m ms ih =>
    rw [List.cons_append, get?_cons, get?_cons, ih]
    split <;> rfl

theorem mem_of_get? {ms : Members} {n : String} {v : Json} (h : get? ms n = some v) :
    (n, v) ∈ ms := by
  induction ms with
  | nil => cases h
  | cons m ms ih =>
    rw [get?_cons] at h
    split at h
    · next hm =>
      cases h
      exact hm ▸ List.mem_cons_self
    · exact List.mem_cons_of_mem m (ih h)

theorem get?_isSome_of_mem {ms : Members} {m : String × Json} (h : m ∈ ms) :
    ∃ v, get? ms m.1 = some v := by
  induction ms with
  | nil => cases h
  | cons k ms ih =>
    rw [get?_cons]
    split
    · exact ⟨_, rfl⟩
    · next hne =>
      rcases List.mem_cons.mp h with rfl | h
      · exact absurd rfl hne
      · exact ih h

theorem get?_insert (n k : String) (v : Json) (ms : Members) :
    get? (insert k v ms) n = if k = n then some v else get? ms n := by
  induction ms with
  | nil => simp [insert, get?_cons]
  | cons m ms ih =>
    rw [insert]
    split
    · next h =>
      subst h
      rw [get?_cons, get?_cons]
      split <;> rfl
    · split
      · rw [get?_cons]
      · next h _ =>
        rw [get?_cons, get?_cons, ih]
        by_cases hm : m.1 = n
        · have hk : k ≠ n := fun hk => h (hk.trans hm.symm)
          simp [hm, hk]
        · simp [hm]

/-- What a list of members holds under a name: a later member wins over an earlier one. -/
def last? (ms : Members) (n : String) : Option Json := get? ms.reverse n

theorem get?_foldl (ms acc : Members) (n : String) :
    get? (ms.foldl (fun acc m => insert m.1 m.2 acc) acc) n = (last? ms n).or (get? acc n) := by
  induction ms generalizing acc with
  | nil => rfl
  | cons m ms ih =>
    rw [List.foldl_cons, ih, get?_insert, last?, last?, List.reverse_cons, get?_append, get?_cons]
    cases get? ms.reverse n with
    | some v => rfl
    | none => split <;> rfl

/-- A finite map holds under each name what the list of members holds there. -/
theorem get?_membersOf (ms : Members) (n : String) : get? (membersOf ms) n = last? ms n := by
  rw [membersOf, get?_foldl]
  simp

/-! Ascending members. -/

/-- Members in strictly ascending order of their names. -/
def Ascending (ms : Members) : Prop := ms.Pairwise fun a b => nameBefore a.1 b.1

theorem mem_insert {m : String × Json} {k : String} {v : Json} {ms : Members}
    (h : m ∈ insert k v ms) : m = (k, v) ∨ m ∈ ms := by
  induction ms with
  | nil => exact Or.inl (List.mem_singleton.mp h)
  | cons a ms ih =>
    rw [insert] at h
    split at h
    · rcases List.mem_cons.mp h with rfl | h
      · exact Or.inl rfl
      · exact Or.inr (List.mem_cons_of_mem a h)
    · split at h
      · rcases List.mem_cons.mp h with rfl | h
        · exact Or.inl rfl
        · exact Or.inr h
      · rcases List.mem_cons.mp h with rfl | h
        · exact Or.inr List.mem_cons_self
        · exact (ih h).imp_right (List.mem_cons_of_mem a)

theorem ascending_insert {ms : Members} (h : Ascending ms) (k : String) (v : Json) :
    Ascending (insert k v ms) := by
  induction ms with
  | nil => exact List.pairwise_singleton _ _
  | cons a ms ih =>
    obtain ⟨ha, hms⟩ := List.pairwise_cons.mp h
    rw [insert]
    split
    · next hk => exact List.pairwise_cons.mpr ⟨fun m hm => hk ▸ ha m hm, hms⟩
    · next hk =>
      split
      · next hlt =>
        refine List.pairwise_cons.mpr ⟨fun m hm => ?_, h⟩
        rcases List.mem_cons.mp hm with rfl | hm
        · exact hlt
        · exact nameBefore_trans hlt (ha m hm)
      · next hlt =>
        refine List.pairwise_cons.mpr ⟨fun m hm => ?_, ih hms⟩
        rcases mem_insert hm with rfl | hm
        · by_cases hgt : nameBefore a.1 k
          · exact hgt
          · exact absurd (eq_of_not_nameBefore hlt hgt) hk
        · exact ha m hm

theorem mem_foldl_insert {m : String × Json} {ms acc : Members}
    (h : m ∈ ms.foldl (fun acc m => insert m.1 m.2 acc) acc) : m ∈ ms ∨ m ∈ acc := by
  induction ms generalizing acc with
  | nil => exact Or.inr h
  | cons a ms ih =>
    rcases ih h with h | h
    · exact Or.inl (List.mem_cons_of_mem a h)
    · rcases mem_insert h with rfl | h
      · exact Or.inl List.mem_cons_self
      · exact Or.inr h

/-- A finite map holds members of the list only. -/
theorem mem_of_mem_membersOf {m : String × Json} {ms : Members} (h : m ∈ membersOf ms) :
    m ∈ ms :=
  (mem_foldl_insert h).resolve_right List.not_mem_nil

theorem ascending_membersOf (ms : Members) : Ascending (membersOf ms) := by
  have hfold : ∀ acc, Ascending acc →
      Ascending (ms.foldl (fun acc m => insert m.1 m.2 acc) acc) := by
    induction ms with
    | nil => exact fun _ h => h
    | cons m ms ih => exact fun acc h => ih _ (ascending_insert h m.1 m.2)
  exact hfold [] List.Pairwise.nil

theorem nodup_of_ascending {ms : Members} (h : Ascending ms) : (ms.map Prod.fst).Nodup := by
  rw [List.Nodup, List.pairwise_map]
  refine h.imp fun {a b} hab heq => ?_
  rw [heq] at hab
  exact nameBefore_irrefl _ hab

/-- Under a name that is not repeated stands its member. -/
theorem get?_of_mem {ms : Members} (h : (ms.map Prod.fst).Nodup) {m : String × Json}
    (hm : m ∈ ms) : get? ms m.1 = some m.2 := by
  induction ms with
  | nil => cases hm
  | cons a ms ih =>
    obtain ⟨ha, hms⟩ := List.nodup_cons.mp h
    rw [get?_cons]
    rcases List.mem_cons.mp hm with rfl | hm
    · exact if_pos rfl
    · have hne : a.1 ≠ m.1 := fun he => ha (he ▸ List.mem_map_of_mem hm)
      rw [if_neg hne]
      exact ih hms hm

theorem get?_eq_none_of_before {ms : Members} {n : String} (h : ∀ m ∈ ms, nameBefore n m.1) :
    get? ms n = none := by
  cases hget : get? ms n with
  | none => rfl
  | some v => exact absurd (h _ (mem_of_get? hget)) (nameBefore_irrefl _)

/-- The first member is the one whose name stands before all others. -/
theorem head_eq_of_get?_eq {a b : String × Json} {ms ns : Members} (hms : Ascending (a :: ms))
    (hns : Ascending (b :: ns)) (h : ∀ n, get? (a :: ms) n = get? (b :: ns) n) : a = b := by
  have hfirst := get?_of_mem (nodup_of_ascending hms) List.mem_cons_self
  have hfirst' := get?_of_mem (nodup_of_ascending hns) List.mem_cons_self
  have ha : a ∈ b :: ns := mem_of_get? ((h a.1).symm.trans hfirst)
  have hb : b ∈ a :: ms := mem_of_get? ((h b.1).trans hfirst')
  rcases List.mem_cons.mp ha with hab | hain
  · exact hab
  rcases List.mem_cons.mp hb with hba | hbin
  · exact hba.symm
  have hbefore := (List.pairwise_cons.mp hns).1 a hain
  have hafter := (List.pairwise_cons.mp hms).1 b hbin
  exact absurd (nameBefore_trans hbefore hafter) (nameBefore_irrefl _)

/-- Ascending members are determined by what is found under each name. -/
theorem ascending_ext {ms ns : Members} (hms : Ascending ms) (hns : Ascending ns)
    (h : ∀ n, get? ms n = get? ns n) : ms = ns := by
  induction ms generalizing ns with
  | nil =>
    cases ns with
    | nil => rfl
    | cons b ns =>
      have hb := h b.1
      rw [get?_of_mem (nodup_of_ascending hns) List.mem_cons_self] at hb
      cases hb
  | cons a ms ih =>
    cases ns with
    | nil =>
      have ha := h a.1
      rw [get?_of_mem (nodup_of_ascending hms) List.mem_cons_self] at ha
      cases ha
    | cons b ns =>
      obtain rfl := head_eq_of_get?_eq hms hns h
      obtain ⟨hafter, hms'⟩ := List.pairwise_cons.mp hms
      obtain ⟨hafter', hns'⟩ := List.pairwise_cons.mp hns
      have htail : ∀ n, get? ms n = get? ns n := by
        intro n
        have hn := h n
        rw [get?_cons, get?_cons] at hn
        by_cases han : a.1 = n
        · subst han
          rw [get?_eq_none_of_before hafter, get?_eq_none_of_before hafter']
        · simpa [han] using hn
      rw [ih hms' hns' htail]

/-- Listing a finite map anew changes nothing. -/
theorem membersOf_of_ascending {ms : Members} (h : Ascending ms) : membersOf ms = ms := by
  apply ascending_ext (ascending_membersOf ms) h
  intro n
  have hback : ∀ m ∈ ms.reverse, get? ms m.1 = some m.2 := fun m hm =>
    get?_of_mem (nodup_of_ascending h) (List.mem_reverse.mp hm)
  rw [get?_membersOf, last?]
  cases hget : get? ms.reverse n with
  | some v => exact (hback _ (mem_of_get? hget)).symm
  | none =>
    cases hms : get? ms n with
    | none => rfl
    | some v =>
      obtain ⟨u, hu⟩ := get?_isSome_of_mem (List.mem_reverse.mpr (mem_of_get? hms))
      rw [hget] at hu
      cases hu

/-! Normal forms. -/

theorem normalItems_eq (vs : List Json) : normalItems vs = vs.map normal := by
  induction vs with
  | nil => rfl
  | cons v vs ih => rw [normalItems, ih, List.map_cons]

theorem normalMembers_eq (ms : Members) :
    normalMembers ms = ms.map fun m => (m.1, m.2.normal) := by
  induction ms with
  | nil => rfl
  | cons m ms ih => rw [normalMembers, ih, List.map_cons]

theorem get?_normalMembers (ms : Members) (n : String) :
    get? (normalMembers ms) n = (get? ms n).map normal := by
  induction ms with
  | nil => rfl
  | cons m ms ih =>
    rw [normalMembers, get?_cons, get?_cons, ih]
    split <;> rfl

theorem last?_normalMembers (ms : Members) (n : String) :
    last? (normalMembers ms) n = (last? ms n).map normal := by
  rw [last?, last?, ← get?_normalMembers, normalMembers_eq, normalMembers_eq, List.map_reverse]

/-- A document all of whose objects list their members in ascending order. -/
inductive IsNormal : Json → Prop where
  | null : IsNormal .null
  | bool (b : Bool) : IsNormal (.bool b)
  | number (l : Bytes) : IsNormal (.number l)
  | string (s : String) : IsNormal (.string s)
  | array {items : List Json} : (∀ v ∈ items, IsNormal v) → IsNormal (.array items)
  | object {ms : Members} : Ascending ms → (∀ m ∈ ms, IsNormal m.2) → IsNormal (.object ms)

/-- What holds of the normal form of every value holds of every value that is kept. -/
theorem forall_mem_membersOf {p : Json → Prop} {ms : Members} (h : ∀ m ∈ ms, p m.2.normal) :
    ∀ m ∈ membersOf (normalMembers ms), p m.2 := by
  intro m hm
  have hmem := mem_of_mem_membersOf hm
  rw [normalMembers_eq] at hmem
  obtain ⟨k, hk, rfl⟩ := List.mem_map.mp hmem
  exact h k hk

theorem isNormal_normal (v : Json) : v.normal.IsNormal := by
  induction v using induction with
  | null => exact .null
  | bool b => exact .bool b
  | number l => exact .number l
  | string s => exact .string s
  | array items ih =>
    rw [normal, normalItems_eq]
    exact .array (List.forall_mem_map.mpr ih)
  | object ms ih =>
    rw [normal]
    exact .object (ascending_membersOf _) (forall_mem_membersOf ih)

/-- A normal form is its own normal form. -/
theorem normal_of_isNormal {v : Json} (hv : v.IsNormal) : v.normal = v := by
  induction hv with
  | null => rfl
  | bool _ => rfl
  | number _ => rfl
  | string _ => rfl
  | @array items _ ih =>
    have hitems : items.map normal = items := by
      conv_rhs => rw [← List.map_id items]
      exact List.map_congr_left ih
    rw [normal, normalItems_eq, hitems]
  | @object ms hms _ ih =>
    have hvalues : ms.map (fun m => (m.1, m.2.normal)) = ms := by
      conv_rhs => rw [← List.map_id ms]
      exact List.map_congr_left fun m hm => Prod.ext rfl (ih m hm)
    rw [normal, normalMembers_eq, hvalues, membersOf_of_ascending hms]

theorem normal_normal (v : Json) : v.normal.normal = v.normal :=
  normal_of_isNormal (isNormal_normal v)

theorem lexical_normal {v : Json} (hv : v.Lexical) : v.normal.Lexical := by
  induction hv with
  | null => exact .null
  | bool b => exact .bool b
  | number hl hzero => exact .number hl hzero
  | string s => exact .string s
  | array _ ih =>
    rw [normal, normalItems_eq]
    exact .array (List.forall_mem_map.mpr ih)
  | object _ ih =>
    rw [normal]
    exact .object (forall_mem_membersOf ih)

theorem literal_normal {v : Json} (hv : v.Literal) : v.normal.Literal := by
  induction hv with
  | null => exact .null
  | bool b => exact .bool b
  | number hl => exact .number hl
  | string s => exact .string s
  | array _ ih =>
    rw [normal, normalItems_eq]
    exact .array (List.forall_mem_map.mpr ih)
  | object _ ih =>
    rw [normal]
    exact .object (forall_mem_membersOf ih)

end Json
end Credentials
