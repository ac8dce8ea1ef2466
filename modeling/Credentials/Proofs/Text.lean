import Credentials.Identity
import Mathlib.Data.List.TakeDrop

/-!
# Texts of bytes below 128

Such a byte is its own UTF-8 form. A text of visible characters among them is what trimming leaves
when blanks stand around it.
-/

namespace Credentials

namespace Bytes

theorem utf8_ascii : ∀ n < 0x80, String.utf8EncodeChar (Char.ofNat n) = [UInt8.ofNat n] := by
  decide

theorem ofText_ofList (cs : List Char) :
    ofText (String.ofList cs) = cs.flatMap String.utf8EncodeChar := by
  simp [ofText, List.utf8Encode]

theorem asciiText_append (a b : Bytes) : asciiText (a ++ b) = asciiText a ++ asciiText b := by
  simp [asciiText, String.ofList_append]

theorem toList_asciiText (b : Bytes) : (asciiText b).toList = b.map fun x => Char.ofNat x.toNat :=
  String.toList_ofList

theorem ofText_asciiText {b : Bytes} (h : ∀ x ∈ b, x < 0x80) : ofText (asciiText b) = b := by
  rw [asciiText, ofText_ofList]
  induction b with
  | nil => rfl
  | cons x b ih =>
    obtain ⟨hx, hb⟩ := List.forall_mem_cons.mp h
    rw [List.map_cons, List.flatMap_cons, utf8_ascii x.toNat hx, ih hb, UInt8.ofNat_toNat]
    rfl

theorem toNat_ofNat_toNat (x : UInt8) : (Char.ofNat x.toNat).toNat = x.toNat := by
  have all : ∀ k < 256, (Char.ofNat k).toNat = k := by
    decide +kernel
  exact all x.toNat x.toNat_lt

theorem ofNat_toNat_injective {x y : UInt8} (h : Char.ofNat x.toNat = Char.ofNat y.toNat) :
    x = y := by
  have hnumber := congrArg Char.toNat h
  rw [toNat_ofNat_toNat, toNat_ofNat_toNat] at hnumber
  exact UInt8.toNat_inj.mp hnumber

theorem ofNat_toNat_lt_iff {x y : UInt8} : Char.ofNat x.toNat < Char.ofNat y.toNat ↔ x < y := by
  rw [Char.lt_def, UInt32.lt_iff_toNat_lt, UInt8.lt_iff_toNat_lt]
  change (Char.ofNat x.toNat).toNat < (Char.ofNat y.toNat).toNat ↔ _
  rw [toNat_ofNat_toNat, toNat_ofNat_toNat]

/-- Texts of bytes stand in the order of the bytes. -/
theorem asciiText_lt_iff {a b : Bytes} : asciiText a < asciiText b ↔ a < b := by
  rw [String.lt_iff, toList_asciiText, toList_asciiText]
  induction a generalizing b with
  | nil => cases b <;> simp
  | cons x a ih =>
    cases b with
    | nil => simp
    | cons y b =>
      have hsame : Char.ofNat x.toNat = Char.ofNat y.toNat ↔ x = y :=
        ⟨ofNat_toNat_injective, fun h => by rw [h]⟩
      rw [List.map_cons, List.map_cons, List.cons_lt_cons_iff, List.cons_lt_cons_iff,
        ofNat_toNat_lt_iff, hsame, @ih b]

/-! Separated pieces. -/

theorem pieces_of_forall_ne {c : UInt8} {b : Bytes} (h : ∀ x ∈ b, x ≠ c) : pieces c b = [b] := by
  induction b with
  | nil => rfl
  | cons x b ih =>
    obtain ⟨hx, hb⟩ := List.forall_mem_cons.mp h
    rw [pieces, ih hb, beq_eq_false_iff_ne.mpr hx]

theorem pieces_append {c : UInt8} {b : Bytes} (h : ∀ x ∈ b, x ≠ c) (r : Bytes) :
    pieces c (b ++ c :: r) = b :: pieces c r := by
  induction b with
  | nil => simp [pieces]
  | cons x b ih =>
    obtain ⟨hx, hb⟩ := List.forall_mem_cons.mp h
    rw [List.cons_append, pieces, ih hb, beq_eq_false_iff_ne.mpr hx]

theorem exists_pieces (c : UInt8) (b : Bytes) : ∃ p ps, pieces c b = p :: ps := by
  cases b with
  | nil => exact ⟨_, _, rfl⟩
  | cons x b =>
    rw [pieces]
    split <;> exact ⟨_, _, rfl⟩

/-- There is one piece more than there are separators. -/
theorem length_pieces (c : UInt8) (b : Bytes) : (pieces c b).length = b.count c + 1 := by
  induction b with
  | nil => rfl
  | cons x b ih =>
    obtain ⟨p, ps, hps⟩ := exists_pieces c b
    rw [hps] at ih
    rw [pieces, hps, List.count_cons]
    cases x == c with
    | true => simpa using ih
    | false => simpa using ih

/-- With separators between them the pieces are the byte string. -/
theorem intercalate_pieces (c : UInt8) (b : Bytes) : [c].intercalate (pieces c b) = b := by
  induction b with
  | nil => rfl
  | cons x b ih =>
    obtain ⟨p, ps, hps⟩ := exists_pieces c b
    rw [hps] at ih
    rw [pieces, hps]
    cases hx : x == c with
    | true =>
      rw [List.intercalate_cons_cons, ih, beq_iff_eq.mp hx]
      rfl
    | false =>
      rw [← ih]
      cases ps <;> simp

end Bytes

namespace Text

/-- Between blanks, a text without blanks is what trimming leaves. -/
theorem trimList_around {as cs bs : List Char} (ha : ∀ c ∈ as, isBlank c = true)
    (hc : ∀ c ∈ cs, isBlank c = false) (hb : ∀ c ∈ bs, isBlank c = true) :
    trimList (as ++ (cs ++ bs)) = cs := by
  have hdrop {l : List Char} (hl : ∀ c ∈ l, isBlank c = false) : l.dropWhile isBlank = l := by
    cases l with
    | nil => rfl
    | cons c l => simp [hl c List.mem_cons_self]
  have hback {l : List Char} (hl : ∀ c ∈ l, isBlank c = true) (r : List Char) :
      (l ++ r).dropWhile isBlank = r.dropWhile isBlank :=
    List.dropWhile_append_of_pos hl
  have hrev : ∀ c ∈ bs.reverse, isBlank c = true := fun c h => hb c (List.mem_reverse.mp h)
  cases cs with
  | nil =>
    rw [trimList, List.nil_append, hback ha, ← List.append_nil bs, hback hb]
    rfl
  | cons c cs =>
    have hfirst : ¬ isBlank c = true := by simp [hc c List.mem_cons_self]
    have hlast : ∀ x ∈ (c :: cs).reverse, isBlank x = false := fun x h =>
      hc x (List.mem_reverse.mp h)
    rw [trimList, hback ha, List.cons_append, List.dropWhile_cons_of_neg hfirst,
      ← List.cons_append, List.reverse_append, hback hrev, hdrop hlast, List.reverse_reverse]

theorem isBlank_ascii : ∀ n < 0x7f, 0x20 < n → isBlank (Char.ofNat n) = false := by
  decide

/-- Between blanks, a text of visible ASCII characters is what trimming leaves. -/
theorem trim_around {x : Bytes} (h : ∀ c ∈ x, 0x20 < c ∧ c < 0x7f) {a b : String}
    (ha : ∀ c ∈ a.toList, isBlank c = true) (hb : ∀ c ∈ b.toList, isBlank c = true) :
    trim (a ++ (Bytes.asciiText x ++ b)) = Bytes.asciiText x := by
  have hchars : ∀ c ∈ (Bytes.asciiText x).toList, isBlank c = false := by
    intro c hc
    rw [Bytes.toList_asciiText] at hc
    obtain ⟨y, hy, rfl⟩ := List.mem_map.mp hc
    obtain ⟨hlow, hhigh⟩ := h y hy
    exact isBlank_ascii _ hhigh hlow
  rw [trim, String.toList_append, String.toList_append, trimList_around ha hchars hb,
    String.ofList_toList]

theorem trim_asciiText {x : Bytes} (h : ∀ c ∈ x, 0x20 < c ∧ c < 0x7f) :
    trim (Bytes.asciiText x) = Bytes.asciiText x := by
  have hnone : ∀ c ∈ "".toList, isBlank c = true := nofun
  have htrim := trim_around h hnone hnone
  rwa [String.empty_append, String.append_empty] at htrim

end Text

/-! Names that were checked. -/

theorem checkName_eq_ok {kind name n : String} (h : checkName kind name = .ok n) : n = name := by
  unfold checkName at h
  dsimp only at h
  split at h
  · cases h
  · split at h
    · cases h
    · cases h; rfl

theorem eq_mk_of_checkName {α : Type} {kind name : String} {mk : String → α} {a : α}
    (h : (checkName kind name).map mk = .ok a) : a = mk name := by
  cases hn : checkName kind name with
  | error e =>
    rw [hn] at h
    cases h
  | ok n =>
    rw [hn] at h
    cases h
    rw [checkName_eq_ok hn]

theorem PolicyId.ofName_name {name : String} {p : PolicyId} (h : PolicyId.ofName name = .ok p) :
    PolicyId.ofName p.name = .ok p := by
  obtain rfl := eq_mk_of_checkName h
  exact h

theorem SubjectId.ofName_name {name : String} {s : SubjectId}
    (h : SubjectId.ofName name = .ok s) : SubjectId.ofName s.name = .ok s := by
  obtain rfl := eq_mk_of_checkName h
  exact h

theorem KeyId.ofName_eq_ok {name : String} {k : KeyId} (h : KeyId.ofName name = .ok k) :
    k = ⟨name⟩ :=
  eq_mk_of_checkName h

end Credentials
