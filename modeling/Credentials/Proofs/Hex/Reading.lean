import Credentials.Commitment
import Credentials.Ed25519
import Credentials.Proofs.Hex
import Credentials.Proofs.Step
import Mathlib.Data.List.Forall2

/-!
# What is read as hexadecimal

A text is read as bytes exactly if it has a pair of characters for each byte and nothing else: the
two digits of the byte, or the digit of a byte below 16 behind a plus sign. Without plus signs these
are the texts of hexadecimal digits. Keys, seeds and signatures are read from such texts of their
length and from no others.
-/

namespace Credentials

namespace Hex

/-- The character is the digit for the number, small or capital. -/
def IsDigit (c : Char) (n : Nat) : Prop := n < 16 ∧ (c = n.digitChar ∨ c = n.digitChar.toUpper)

instance (c : Char) (n : Nat) : Decidable (IsDigit c n) := inferInstanceAs (Decidable (_ ∧ _))

/-- The digits of the bytes, two for each, and nothing else. -/
def Spells (cs : List Char) (b : Bytes) : Prop :=
  List.Forall₂ IsDigit cs (b.flatMap fun x => [x.toNat / 16, x.toNat % 16])

/-- Two characters that are read as a byte: a plus sign counts as a leading zero. -/
def IsPair (c d : Char) (x : UInt8) : Prop :=
  (IsDigit c (x.toNat / 16) ∨ c = '+' ∧ x.toNat / 16 = 0) ∧ IsDigit d (x.toNat % 16)

/-- Pair after pair, the characters are read as bytes. -/
inductive Reads : List Char → Bytes → Prop where
  | nil : Reads [] []
  | pair {c d : Char} {cs : List Char} {x : UInt8} {b : Bytes} :
      IsPair c d x → Reads cs b → Reads (c :: d :: cs) (x :: b)

variable {p q x : UInt8} {c d : Char} {n : Nat} {cs : List Char} {b bs : Bytes}

/-! Digits. -/

/-- The character that has a byte as its number. -/
def char (x : UInt8) : Char := Char.ofNat x.toNat

theorem char_injective (h : char p = char q) : p = q := Bytes.ofNat_toNat_injective h

/-- A character below 128 whose byte is read as the number. -/
def ReadAs (c : Char) (n : Nat) : Prop :=
  UInt8.ofNat c.toNat < 0x80 ∧ char (UInt8.ofNat c.toNat) = c ∧
    digitValue? (UInt8.ofNat c.toNat) = some n

instance (c : Char) (n : Nat) : Decidable (ReadAs c n) := inferInstanceAs (Decidable (_ ∧ _ ∧ _))

theorem readAs_digitChar : ∀ k < 16, ReadAs k.digitChar k ∧ ReadAs k.digitChar.toUpper k := by
  decide

theorem exists_char_of_isDigit (h : IsDigit c n) :
    ∃ x : UInt8, x < 0x80 ∧ char x = c ∧ digitValue? x = some n := by
  obtain ⟨hn, hc⟩ := h
  obtain ⟨hsmall, hcapital⟩ := readAs_digitChar n hn
  rcases hc with rfl | rfl
  · exact ⟨_, hsmall⟩
  · exact ⟨_, hcapital⟩

theorem isDigit_char_iff : IsDigit (char x) n ↔ digitValue? x = some n := by
  constructor
  · intro h
    obtain ⟨y, _, hchar, hvalue⟩ := exists_char_of_isDigit h
    rwa [char_injective hchar] at hvalue
  · intro h
    have all : ∀ k < 256, ∀ m ∈ digitValue? (UInt8.ofNat k), IsDigit (Char.ofNat k) m := by
      decide +kernel
    apply all x.toNat x.toNat_lt
    rwa [UInt8.ofNat_toNat]

theorem isDigit_lt (h : IsDigit c n) : n < 16 := h.1

theorem plus_not_isDigit (n : Nat) : ¬ IsDigit '+' n := by
  intro h
  obtain ⟨x, _, hchar, hvalue⟩ := exists_char_of_isDigit h
  have hx : x = 0x2b := char_injective (hchar.trans (by decide : '+' = char 0x2b))
  rw [hx] at hvalue
  cases hvalue

/-! Pairs. -/

/-- The halves of a byte that is put together from two of them. -/
theorem ofNat_halves {m n : Nat} (hm : m < 16) (hn : n < 16) :
    (UInt8.ofNat (16 * m + n)).toNat / 16 = m ∧ (UInt8.ofNat (16 * m + n)).toNat % 16 = n := by
  have hlt : 16 * m + n < UInt8.size := by
    change 16 * m + n < 256
    omega
  rw [UInt8.toNat_ofNat_of_lt' hlt]
  omega

theorem ofNat_of_halves (x : UInt8) : UInt8.ofNat (16 * (x.toNat / 16) + x.toNat % 16) = x := by
  rw [Nat.div_add_mod, UInt8.ofNat_toNat]

theorem pair?_plus (q : UInt8) : pair? 0x2b q = (digitValue? q).map UInt8.ofNat := rfl

theorem char_plus : char 0x2b = '+' := rfl

theorem pair?_eq_some_iff : pair? p q = some x ↔ IsPair (char p) (char q) x := by
  unfold IsPair
  by_cases hplus : p = 0x2b
  · subst hplus
    rw [pair?_plus, char_plus, isDigit_char_iff, Option.map_eq_some_iff]
    constructor
    · rintro ⟨n, hn, rfl⟩
      obtain ⟨hhigh, hlow⟩ := ofNat_halves (m := 0) (by decide)
        (isDigit_lt (isDigit_char_iff.mpr hn))
      rw [Nat.mul_zero, Nat.zero_add] at hhigh hlow
      rw [hlow]
      exact ⟨Or.inr ⟨rfl, hhigh⟩, hn⟩
    · rintro ⟨hfirst, hlow⟩
      rcases hfirst with hdigit | ⟨_, hzero⟩
      · exact absurd hdigit (plus_not_isDigit _)
      · refine ⟨_, hlow, ?_⟩
        have hx := ofNat_of_halves x
        rwa [hzero, Nat.mul_zero, Nat.zero_add] at hx
  · have hne : char p ≠ '+' := fun h => hplus (char_injective h)
    rw [pair?, if_neg hplus, isDigit_char_iff, isDigit_char_iff, or_iff_left (fun h => hne h.1)]
    constructor
    · intro h
      split at h
      · next m n hm hn =>
        obtain rfl := Option.some.inj h
        obtain ⟨hhigh, hlow⟩ := ofNat_halves (isDigit_lt (isDigit_char_iff.mpr hm))
          (isDigit_lt (isDigit_char_iff.mpr hn))
        rw [hhigh, hlow]
        exact ⟨hm, hn⟩
      · cases h
    · rintro ⟨hhigh, hlow⟩
      rw [hhigh, hlow]
      exact congrArg some (ofNat_of_halves x)

/-- Nothing that may stand in a pair continues a character. -/
theorem continues_of_isPair (h : IsPair (char p) (char q) x) :
    continues p = false ∧ continues q = false := by
  have hdigit : ∀ {y : UInt8} {n : Nat}, IsDigit (char y) n → continues y = false := by
    intro y n hy
    obtain ⟨z, hz, hchar, _⟩ := exists_char_of_isDigit hy
    obtain rfl := char_injective hchar
    simp [continues, UInt8.not_le.mpr hz]
  refine ⟨?_, hdigit h.2⟩
  rcases h.1 with hfirst | ⟨hplus, _⟩
  · exact hdigit hfirst
  · rw [char_injective (hplus.trans char_plus.symm)]
    rfl

theorem exists_char_of_isPair (h : IsPair c d x) : ∃ p q : UInt8,
    (p < 0x80 ∧ char p = c) ∧ q < 0x80 ∧ char q = d := by
  obtain ⟨q, hq, hd, _⟩ := exists_char_of_isDigit h.2
  rcases h.1 with hfirst | ⟨rfl, _⟩
  · obtain ⟨p, hp, hc, _⟩ := exists_char_of_isDigit hfirst
    exact ⟨p, q, ⟨hp, hc⟩, hq, hd⟩
  · exact ⟨0x2b, q, ⟨by decide, rfl⟩, hq, hd⟩

/-! Texts. -/

namespace Reads

theorem length_eq (h : Reads cs b) : cs.length = 2 * b.length := by
  induction h with
  | nil => rfl
  | pair _ _ ih =>
    simp only [List.length_cons, ih]
    omega

/-- What is read is made of bytes below 128. -/
theorem exists_bytes (h : Reads cs b) : ∃ bs : Bytes, (∀ y ∈ bs, y < 0x80) ∧ cs = bs.map char := by
  induction h with
  | nil => exact ⟨[], nofun, rfl⟩
  | pair hpair _ ih =>
    obtain ⟨bs, hbs, rfl⟩ := ih
    obtain ⟨p, q, ⟨hp, rfl⟩, hq, rfl⟩ := exists_char_of_isPair hpair
    refine ⟨p :: q :: bs, ?_, rfl⟩
    exact List.forall_mem_cons.mpr ⟨hp, List.forall_mem_cons.mpr ⟨hq, hbs⟩⟩

theorem head_continues (h : Reads (bs.map char) b) : bs.head?.any continues = false := by
  cases bs with
  | nil => rfl
  | cons p bs =>
    cases bs with
    | nil => cases h
    | cons q bs =>
      cases h with
      | pair hpair _ => exact (continues_of_isPair hpair).1

theorem pair_iff : Reads (c :: d :: cs) b ↔ ∃ x b', IsPair c d x ∧ Reads cs b' ∧ b = x :: b' := by
  constructor
  · intro h
    cases h with
    | pair hpair hrest => exact ⟨_, _, hpair, hrest, rfl⟩
  · rintro ⟨x, b', hpair, hrest, rfl⟩
    exact .pair hpair hrest

end Reads

theorem pairsFrom_eq_ok_iff {position : Nat} :
    pairsFrom position bs = .ok b ↔ Reads (bs.map char) b := by
  fun_induction pairsFrom position bs generalizing b with
  | case1 =>
    constructor
    · rintro ⟨⟩
      exact .nil
    · rintro ⟨⟩
      rfl
  | case2 => exact ⟨nofun, nofun⟩
  | case3 position p q bs hcontinues =>
    refine ⟨nofun, fun h => ?_⟩
    obtain ⟨x, b', hpair, hrest, rfl⟩ := Reads.pair_iff.mp h
    rw [(continues_of_isPair hpair).1, hrest.head_continues] at hcontinues
    cases hcontinues
  | case4 position p q bs _ hnone =>
    refine ⟨nofun, fun h => ?_⟩
    obtain ⟨x, b', hpair, _, rfl⟩ := Reads.pair_iff.mp h
    rw [pair?_eq_some_iff.mpr hpair] at hnone
    cases hnone
  | case5 position p q bs _ x hx ih =>
    have hpair := pair?_eq_some_iff.mp hx
    rw [except_map_eq_ok_iff, List.map_cons, List.map_cons, Reads.pair_iff]
    constructor
    · rintro ⟨b', hb', rfl⟩
      exact ⟨x, b', hpair, ih.mp hb', rfl⟩
    · rintro ⟨y, b', hpair', hrest, rfl⟩
      have hy := hx.symm.trans (pair?_eq_some_iff.mpr hpair')
      rw [Option.some.inj hy]
      exact ⟨b', ih.mpr hrest, rfl⟩

theorem Reads.ascii (h : Reads (bs.map char) b) : ∀ y ∈ bs, y < 0x80 := by
  obtain ⟨as, has, hmap⟩ := h.exists_bytes
  rwa [List.map_injective_iff.mpr (fun _ _ => char_injective) hmap]

/-- Below 128 the characters of a text are its bytes. -/
theorem toList_eq_iff {s : String} (hbs : ∀ y ∈ bs, y < 0x80) :
    s.toList = bs.map char ↔ Bytes.ofText s = bs := by
  have hs : s.toList = bs.map char ↔ s = Bytes.asciiText bs := by
    rw [← String.toList_inj, Bytes.toList_asciiText]
    rfl
  rw [hs]
  constructor
  · rintro rfl
    exact Bytes.ofText_asciiText hbs
  · intro h
    apply Bytes.ofText_inj
    rw [h, Bytes.ofText_asciiText hbs]

/-- What is left of a text without the blanks around it is read pair by pair. -/
theorem decode_eq_ok_iff {s : String} : decode s = .ok b ↔ Reads (Text.trim s).toList b := by
  unfold decode
  dsimp only
  constructor
  · intro h
    split at h
    · have hreads := pairsFrom_eq_ok_iff.mp h
      rwa [(toList_eq_iff hreads.ascii).mpr rfl]
    · cases h
  · intro h
    obtain ⟨bs, hbs, hchars⟩ := h.exists_bytes
    have hlength := h.length_eq
    rw [hchars] at h hlength
    rw [List.length_map] at hlength
    rw [(toList_eq_iff hbs).mp hchars, if_pos (by omega)]
    exact pairsFrom_eq_ok_iff.mpr h

/-! Digits alone. -/

theorem spells_cons_iff : Spells cs (x :: b) ↔ ∃ c d cs', IsDigit c (x.toNat / 16) ∧
    IsDigit d (x.toNat % 16) ∧ Spells cs' b ∧ cs = c :: d :: cs' := by
  unfold Spells
  rw [List.flatMap_cons, List.cons_append, List.cons_append, List.nil_append,
    List.forall₂_cons_right_iff]
  constructor
  · rintro ⟨c, cs', hc, hrest, rfl⟩
    obtain ⟨d, cs'', hd, htail, rfl⟩ := List.forall₂_cons_right_iff.mp hrest
    exact ⟨c, d, cs'', hc, hd, htail, rfl⟩
  · rintro ⟨c, d, cs', hc, hd, hrest, rfl⟩
    exact ⟨c, d :: cs', hc, .cons hd hrest, rfl⟩

/-- Plus signs are all that is read beside digits. -/
theorem spells_iff : Spells cs b ↔ Reads cs b ∧ '+' ∉ cs := by
  constructor
  · intro h
    induction b generalizing cs with
    | nil =>
      obtain rfl := List.forall₂_nil_right_iff.mp h
      exact ⟨.nil, List.not_mem_nil⟩
    | cons x b ih =>
      obtain ⟨c, d, cs', hc, hd, hrest, rfl⟩ := spells_cons_iff.mp h
      obtain ⟨hreads, hplus⟩ := ih hrest
      refine ⟨.pair ⟨Or.inl hc, hd⟩ hreads, ?_⟩
      have hne : ∀ {e : Char} {n : Nat}, IsDigit e n → '+' ≠ e := by
        rintro e n he rfl
        exact plus_not_isDigit n he
      simp [hne hc, hne hd, hplus]
  · rintro ⟨h, hplus⟩
    induction h with
    | nil => exact .nil
    | @pair c d cs x b hpair hrest ih =>
      rw [List.mem_cons, List.mem_cons, not_or, not_or] at hplus
      obtain ⟨hc, _, hcs⟩ := hplus
      have hdigit : IsDigit c (x.toNat / 16) := by
        rcases hpair.1 with hdigit | ⟨rfl, _⟩
        · exact hdigit
        · exact absurd rfl hc
      exact spells_cons_iff.mpr ⟨c, d, cs, hdigit, hpair.2, ih hcs, rfl⟩

end Hex

/-! Keys, seeds and signatures. -/

section Sized

variable {s : String} {b : Bytes}

/-- A value that is made of bytes with a property is the one with these bytes. -/
theorem make_eq_ok_iff {ε α : Type} {P : Bytes → Prop} [DecidablePred P] {e : ε} {a : α}
    (bytes : α → Bytes) (make : ∀ b, P b → α) (hbytes : ∀ b h, bytes (make b h) = b)
    (hmake : ∀ a, ∃ h, make (bytes a) h = a) :
    (if h : P b then Except.ok (make b h) else .error e) = .ok a ↔ b = bytes a := by
  constructor
  · intro h
    split at h
    · next hb =>
      cases h
      exact (hbytes b hb).symm
    · cases h
  · rintro rfl
    obtain ⟨ha, hback⟩ := hmake a
    rw [dif_pos ha, hback]

theorem CommitmentKey.ofBytes_eq_ok_iff {k : CommitmentKey} : ofBytes b = .ok k ↔ b = k.bytes :=
  make_eq_ok_iff bytes mk (fun _ _ => rfl) fun k => ⟨k.minLength_le, rfl⟩

theorem Signature.ofBytes_eq_ok_iff {g : Signature} : ofBytes b = .ok g ↔ b = g.bytes :=
  make_eq_ok_iff bytes mk (fun _ _ => rfl) fun g => ⟨g.length_eq, rfl⟩

theorem CommitmentKey.ofHex_eq_ok_iff {k : CommitmentKey} :
    ofHex s = .ok k ↔ Hex.decode s = .ok k.bytes := by
  unfold ofHex
  cases Hex.decode s with
  | error e => exact ⟨nofun, nofun⟩
  | ok b => rw [ofBytes_eq_ok_iff, Except.ok.injEq]

theorem Signature.ofHex_eq_ok_iff {g : Signature} :
    ofHex s = .ok g ↔ Hex.decode s = .ok g.bytes := by
  unfold ofHex
  cases Hex.decode s with
  | error e => exact ⟨nofun, nofun⟩
  | ok b => rw [ofBytes_eq_ok_iff, Except.ok.injEq]

theorem PublicKey.ofHex_eq_ok_iff {k : PublicKey} :
    ofHex s = .ok k ↔ Hex.decode s = .ok k.bytes := by
  unfold ofHex
  cases Hex.decode s with
  | error e => exact ⟨nofun, nofun⟩
  | ok b =>
    rw [Except.ok.injEq]
    exact make_eq_ok_iff bytes mk (fun _ _ => rfl) fun k => ⟨k.length_eq, rfl⟩

theorem KeyPair.ofSeedHex_eq_ok_iff {k : KeyPair} :
    ofSeedHex s = .ok k ↔ Hex.decode s = .ok k.seed := by
  unfold ofSeedHex
  cases Hex.decode s with
  | error e => exact ⟨nofun, nofun⟩
  | ok b =>
    rw [Except.ok.injEq]
    exact make_eq_ok_iff seed mk (fun _ _ => rfl) fun k => ⟨k.length_eq, rfl⟩

end Sized

namespace Hex

/-- A text is read as bytes exactly if it reads so pair by pair without the blanks around it; the
texts of digits are those of them without a plus sign, and bytes are read back from their own text.
Keys, seeds and signatures are read from the texts of their bytes, so from no other length. -/
theorem reading (s : String) (b : Bytes) :
    (decode s = .ok b ↔ Reads (Text.trim s).toList b) ∧
    (Spells (Text.trim s).toList b ↔ decode s = .ok b ∧ '+' ∉ (Text.trim s).toList) ∧
    (decode s = .ok b → (Text.trim s).toList.length = 2 * b.length) ∧
    decode (encode b) = .ok b ∧
    (∀ k, CommitmentKey.ofHex s = .ok k ↔
      64 ≤ (Text.trim s).toList.length ∧ Reads (Text.trim s).toList k.bytes) ∧
    (∀ k, PublicKey.ofHex s = .ok k ↔
      (Text.trim s).toList.length = 64 ∧ Reads (Text.trim s).toList k.bytes) ∧
    (∀ g, Signature.ofHex s = .ok g ↔
      (Text.trim s).toList.length = 128 ∧ Reads (Text.trim s).toList g.bytes) ∧
    ∀ k, KeyPair.ofSeedHex s = .ok k ↔
      (Text.trim s).toList.length = 64 ∧ Reads (Text.trim s).toList k.seed := by
  refine ⟨decode_eq_ok_iff, ?_, ?_, decode_encode b, ?_, ?_, ?_, ?_⟩
  · rw [spells_iff, decode_eq_ok_iff]
  · intro h
    exact (decode_eq_ok_iff.mp h).length_eq
  · intro k
    rw [CommitmentKey.ofHex_eq_ok_iff, decode_eq_ok_iff, iff_and_self]
    intro h
    have hleast : 32 ≤ k.bytes.length := k.minLength_le
    rw [h.length_eq]
    omega
  · intro k
    rw [PublicKey.ofHex_eq_ok_iff, decode_eq_ok_iff, iff_and_self]
    intro h
    rw [h.length_eq, k.length_eq]
  · intro g
    rw [Signature.ofHex_eq_ok_iff, decode_eq_ok_iff, iff_and_self]
    intro h
    rw [h.length_eq, g.length_eq]
  · intro k
    rw [KeyPair.ofSeedHex_eq_ok_iff, decode_eq_ok_iff, iff_and_self]
    intro h
    rw [h.length_eq, k.length_eq]

/-- A text that is not made of digits alone and is read all the same. -/
theorem decode_plus_digit : decode "+f" = .ok [0x0f] ∧
    ¬ Spells (Text.trim "+f").toList [0x0f] := by
  have htrim : (Text.trim "+f").toList = ['+', 'f'] := by
    decide +kernel
  have hreads : Reads ['+', 'f'] [0x0f] :=
    .pair ⟨Or.inr ⟨rfl, by decide⟩, by decide⟩ .nil
  refine ⟨decode_eq_ok_iff.mpr (htrim ▸ hreads), ?_⟩
  rw [htrim, spells_iff]
  exact fun h => h.2 List.mem_cons_self

end Hex
end Credentials
