import Credentials.Proofs.Hex.Reading
import Mathlib.Data.List.TakeDrop

/-!
# Keys of commitments

A key is brought to the size of a block before it is used: a longer one is hashed, a shorter one is
filled up with zeros. So commitments to a document tell keys apart exactly up to that, unless
SHA-256 collides on what is hashed; among keys of one length, or longer than a block, no two give
one commitment.
-/

namespace Credentials

namespace Hmac

/-- What a key is used as: the key, or its hash if it is longer than a block. -/
def shortened (key : Bytes) : Bytes := if key.length > blockSize then sha256 key else key

/-- What is hashed last: the key block, masked, and the hash of the message behind another mask. -/
def outer (key message : Bytes) : Bytes :=
  mask 0x5c (keyBlock key) ++ sha256 (mask 0x36 (keyBlock key) ++ message)

/-- The other key fits in a block and is what the key is used as, with zeros behind it. -/
def FillsLike (key other : Bytes) : Prop :=
  other.length ≤ blockSize ∧ ∃ n, other = shortened key ++ List.replicate n 0

variable {k l message : Bytes}

/-! The block of a key. -/

theorem shortened_of_le (h : k.length ≤ blockSize) : shortened k = k :=
  if_neg (Nat.not_lt.mpr h)

theorem shortened_of_lt (h : blockSize < k.length) : shortened k = sha256 k := if_pos h

theorem length_shortened_le (key : Bytes) : (shortened key).length ≤ blockSize := by
  rcases Nat.lt_or_ge blockSize key.length with hlong | hshort
  · rw [shortened_of_lt hlong, length_sha256]
    decide
  · rwa [shortened_of_le hshort]

theorem keyBlock_eq (key : Bytes) : keyBlock key =
    shortened key ++ List.replicate (blockSize - (shortened key).length) 0 := rfl

theorem length_keyBlock (key : Bytes) : (keyBlock key).length = blockSize := by
  rw [keyBlock_eq, List.length_append, List.length_replicate,
    Nat.add_sub_cancel' (length_shortened_le key)]

theorem keyBlock_of_fillsLike (h : FillsLike k l) : keyBlock l = keyBlock k := by
  obtain ⟨hshort, n, hl⟩ := h
  have hlength := congrArg List.length hl
  rw [List.length_append, List.length_replicate] at hlength
  rw [keyBlock_eq, keyBlock_eq, shortened_of_le hshort, hlength, hl, List.append_assoc,
    List.replicate_append_replicate]
  congr 2
  omega

/-- Lists that are made alike by repeating one element at their ends are one list with that element
repeated at its end. -/
theorem append_of_append_replicate {α : Type} {a b : List α} {x : α} {m n : Nat}
    (h : a ++ List.replicate m x = b ++ List.replicate n x) :
    (∃ i, b = a ++ List.replicate i x) ∨ ∃ i, a = b ++ List.replicate i x := by
  rcases List.append_eq_append_iff.mp h with ⟨t, rfl, ht⟩ | ⟨t, rfl, ht⟩
  · obtain ⟨_, htail, _⟩ := List.append_eq_replicate_iff.mp ht.symm
    exact Or.inl ⟨t.length, congrArg (a ++ ·) htail⟩
  · obtain ⟨_, htail, _⟩ := List.append_eq_replicate_iff.mp ht.symm
    exact Or.inr ⟨t.length, congrArg (b ++ ·) htail⟩

theorem eq_of_append_replicate {α : Type} {a b : List α} {x : α} {n : Nat}
    (h : b = a ++ List.replicate n x) (hlength : b.length ≤ a.length) : b = a := by
  have hn := congrArg List.length h
  rw [List.length_append, List.length_replicate] at hn
  have hzero : n = 0 := by omega
  rw [h, hzero, List.replicate_zero, List.append_nil]

/-- If what the first is used as goes on with zeros to what the second is used as, the keys are one
or the second fills up like the first. -/
theorem fillsLike_of_append {n : Nat} (hk : 32 ≤ k.length)
    (hkeys : blockSize < k.length → blockSize < l.length → sha256 k = sha256 l → k = l)
    (h : shortened l = shortened k ++ List.replicate n 0) :
    k = l ∨ FillsLike k l ∨ FillsLike l k := by
  rcases Nat.lt_or_ge blockSize l.length with hlong | hshort
  · rw [shortened_of_lt hlong] at h
    have heq : sha256 l = shortened k := by
      apply eq_of_append_replicate h
      rw [length_sha256]
      unfold shortened
      split
      · exact Nat.le_of_eq (length_sha256 k).symm
      · exact hk
    rcases Nat.lt_or_ge blockSize k.length with hlong' | hshort'
    · rw [shortened_of_lt hlong'] at heq
      exact Or.inl (hkeys hlong' hlong heq.symm)
    · rw [shortened_of_le hshort'] at heq
      refine Or.inr (Or.inr ⟨hshort', 0, ?_⟩)
      rw [shortened_of_lt hlong, heq, List.replicate_zero, List.append_nil]
  · rw [shortened_of_le hshort] at h
    exact Or.inr (Or.inl ⟨hshort, n, h⟩)

theorem eq_of_fillsLike (h : FillsLike k l)
    (hlength : k.length = l.length ∨ blockSize < k.length ∧ blockSize < l.length) : l = k := by
  obtain ⟨hshort, n, hl⟩ := h
  rcases hlength with hsame | ⟨_, hlong⟩
  · rw [shortened_of_le (hsame ▸ hshort)] at hl
    exact eq_of_append_replicate hl (Nat.le_of_eq hsame.symm)
  · exact absurd hshort (Nat.not_le.mpr hlong)

theorem fillsLike_zeros {n : Nat} (h : (k ++ List.replicate n 0).length ≤ blockSize) :
    FillsLike k (k ++ List.replicate n 0) := by
  refine ⟨h, n, ?_⟩
  rw [List.length_append] at h
  rw [shortened_of_le (Nat.le_of_add_right_le h)]

theorem fillsLike_sha256 (h : blockSize < k.length) : FillsLike k (sha256 k) := by
  refine ⟨?_, 0, ?_⟩
  · rw [length_sha256]
    decide
  · rw [shortened_of_lt h, List.replicate_zero, List.append_nil]

theorem keyBlock_eq_iff (hk : 32 ≤ k.length) (hl : 32 ≤ l.length)
    (hkeys : blockSize < k.length → blockSize < l.length → sha256 k = sha256 l → k = l) :
    keyBlock k = keyBlock l ↔ k = l ∨ FillsLike k l ∨ FillsLike l k := by
  constructor
  · intro h
    rw [keyBlock_eq, keyBlock_eq] at h
    rcases append_of_append_replicate h with ⟨n, hn⟩ | ⟨n, hn⟩
    · exact fillsLike_of_append hk hkeys hn
    · have hswapped := fillsLike_of_append hl (fun h h' heq => (hkeys h' h heq.symm).symm) hn
      rwa [eq_comm (a := k), or_comm (a := FillsLike k l)]
  · rintro (rfl | h | h)
    · rfl
    · exact (keyBlock_of_fillsLike h).symm
    · exact keyBlock_of_fillsLike h

/-! The code of a message. -/

theorem mask_injective {m : UInt8} {a b : Bytes} (h : mask m a = mask m b) : a = b :=
  List.map_injective_iff.mpr (fun _ _ => (UInt8.xor_left_inj m).mp) h

theorem length_mask (m : UInt8) (block : Bytes) : (mask m block).length = block.length :=
  List.length_map _

/-- SHA-256 does not collide on what is hashed under two keys: on the keys, where both are longer
than a block, and on what is hashed last. -/
structure Separates (k l message : Bytes) : Prop where
  keys : blockSize < k.length → blockSize < l.length → sha256 k = sha256 l → k = l
  outer : sha256 (outer k message) = sha256 (outer l message) → outer k message = outer l message

theorem hmac_eq (key message : Bytes) : hmac key message = sha256 (outer key message) := rfl

theorem hmac_eq_iff (hk : 32 ≤ k.length) (hl : 32 ≤ l.length) (h : Separates k l message) :
    hmac k message = hmac l message ↔ k = l ∨ FillsLike k l ∨ FillsLike l k := by
  rw [← keyBlock_eq_iff hk hl h.keys]
  constructor
  · intro heq
    have houter := h.outer heq
    apply mask_injective (m := 0x5c)
    apply (List.append_inj houter ?_).1
    rw [length_mask, length_mask, length_keyBlock, length_keyBlock]
  · intro hblock
    rw [hmac, hmac, hblock]

end Hmac

/-! Commitments to a document. -/

theorem Hex.encode_injective {a b : Bytes} (h : encode a = encode b) : a = b := by
  have hdecode := decode_encode a
  rw [h, decode_encode, Except.ok.injEq] at hdecode
  exact hdecode.symm

section Commitment

open Hmac

variable {text k l : Bytes} {c : Canonical}

theorem canonicalCommit_of_ofText (htext : Canonical.ofText text = .ok c)
    (hk : CommitmentKey.minLength ≤ k.length) :
    canonicalCommit text k = .ok (Hex.encode (hmac k c.bytes)) := by
  rw [canonicalCommit, CommitmentKey.ofBytes, dif_pos hk]
  dsimp only
  rw [htext]
  rfl

theorem canonicalCommit_of_fillsLike (htext : Canonical.ofText text = .ok c)
    (hk : CommitmentKey.minLength ≤ k.length) (hl : CommitmentKey.minLength ≤ l.length)
    (h : FillsLike k l) :
    ∃ s, canonicalCommit text k = .ok s ∧ canonicalCommit text l = .ok s := by
  refine ⟨_, canonicalCommit_of_ofText htext hk, ?_⟩
  rw [canonicalCommit_of_ofText htext hl, hmac_eq, hmac_eq, outer, outer, keyBlock_of_fillsLike h]

/-- A document has a commitment under every key, and two keys give it the same one exactly if one of
them fills up like the other; never two keys of one length, or both longer than a block. -/
theorem canonicalCommit_eq_iff (htext : Canonical.ofText text = .ok c)
    (hk : CommitmentKey.minLength ≤ k.length) (hl : CommitmentKey.minLength ≤ l.length)
    (h : Separates k l c.bytes) :
    (∃ s, canonicalCommit text k = .ok s) ∧
    (canonicalCommit text k = canonicalCommit text l ↔ k = l ∨ FillsLike k l ∨ FillsLike l k) ∧
    (k.length = l.length ∨ blockSize < k.length ∧ blockSize < l.length →
      (canonicalCommit text k = canonicalCommit text l ↔ k = l)) := by
  have hiff : canonicalCommit text k = canonicalCommit text l ↔
      k = l ∨ FillsLike k l ∨ FillsLike l k := by
    rw [canonicalCommit_of_ofText htext hk, canonicalCommit_of_ofText htext hl, Except.ok.injEq,
      ← hmac_eq_iff hk hl h]
    exact ⟨Hex.encode_injective, congrArg Hex.encode⟩
  refine ⟨⟨_, canonicalCommit_of_ofText htext hk⟩, hiff, ?_⟩
  intro hlength
  rw [hiff]
  constructor
  · rintro (heq | hfills | hfills)
    · exact heq
    · exact (eq_of_fillsLike hfills hlength).symm
    · exact eq_of_fillsLike hfills (hlength.imp Eq.symm And.symm)
  · exact Or.inl

/-! Keys of several lengths. -/

def shortKey : Bytes := List.replicate 32 0x11

/-- A key that is one byte longer than a block. -/
def longKey : Bytes := List.replicate 65 0x22

def emptyObject : Bytes := [0x7b, 0x7d]

theorem ofText_emptyObject : Canonical.ofText emptyObject = .ok ⟨emptyObject⟩ := rfl

theorem canonicalCommit_ne_sample : Separates shortKey longKey emptyObject ∧
    canonicalCommit emptyObject shortKey ≠ canonicalCommit emptyObject longKey := by
  have h : Separates shortKey longKey emptyObject :=
    { keys := fun hlong => absurd hlong (by decide)
      outer := fun heq => absurd heq (by decide +kernel) }
  obtain ⟨_, hiff, _⟩ := canonicalCommit_eq_iff ofText_emptyObject (by decide) (by decide) h
  refine ⟨h, fun heq => ?_⟩
  rcases hiff.mp heq with hkeys | ⟨hlong, _⟩ | ⟨_, n, hfills⟩
  · exact absurd hkeys (by decide)
  · exact absurd hlong (by decide)
  · rw [shortened_of_lt (by decide)] at hfills
    have hhash := eq_of_append_replicate hfills (by rw [length_sha256]; decide)
    exact absurd hhash (by decide +kernel)

/-- A zero behind a short key, or the hash in place of a long one, changes no commitment. -/
theorem canonicalCommit_of_other_keys :
    (shortKey ≠ shortKey ++ [0] ∧ ∃ s, canonicalCommit emptyObject shortKey = .ok s ∧
      canonicalCommit emptyObject (shortKey ++ [0]) = .ok s) ∧
    (longKey ≠ sha256 longKey ∧ ∃ s, canonicalCommit emptyObject longKey = .ok s ∧
      canonicalCommit emptyObject (sha256 longKey) = .ok s) := by
  have hlength : CommitmentKey.minLength ≤ (sha256 longKey).length := by
    rw [length_sha256]
    decide
  refine ⟨⟨by decide, ?_⟩, ?_, ?_⟩
  · exact canonicalCommit_of_fillsLike ofText_emptyObject (by decide) (by decide)
      (fillsLike_zeros (n := 1) (by decide))
  · intro heq
    have hlong := congrArg List.length heq
    rw [length_sha256] at hlong
    exact absurd hlong (by decide)
  · exact canonicalCommit_of_fillsLike ofText_emptyObject (by decide) hlength
      (fillsLike_sha256 (by decide))

end Commitment
end Credentials
