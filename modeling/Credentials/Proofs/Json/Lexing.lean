import Credentials.Proofs.Json.Grammar

/-!
# Lexemes of texts

A tree has a list of lexemes, and the texts of the tree are those from which this list is cut. Two
facts carry this: a lexeme is cut off a text exactly where one of its own texts stands, and cutting
a text does not depend on the measure that bounds it.
-/

namespace Credentials.Json

/-! Pieces of strings. -/

/-- Scanning a piece goes on behind it. -/
theorem scanPieces_pieceText {p : Piece} {s : Bytes} (h : PieceText p s) (r : Bytes) :
    scanPieces (s ++ r) = (scanPieces r).map fun x => (p :: x.1, x.2) := by
  cases h with
  | @plain b hb hquote hslash =>
    have hb' : ¬ (b < 0x20 ∨ b = 0x5c) := by
      rintro (h | h)
      · exact absurd hb (UInt8.not_le.mpr h)
      · exact hslash h
    simp only [List.cons_append, List.nil_append]
    rw [scanPieces]
    · rw [if_neg hb']
      cases scanPieces r <;> rfl
    · exact hquote
    · intro _ _ _ _ _ h _
      exact hslash h
    · intro _ _ h _
      exact hslash h
  | @short e b he =>
    have hescape := shortEscape?_eq_some_iff.mpr he
    have hne : e ≠ 0x75 := by
      rintro rfl
      cases hescape
    simp only [List.cons_append, List.nil_append]
    rw [scanPieces, hescape]
    · cases scanPieces r <;> rfl
    · intro _ _ _ _ _ h _
      exact hne h
  | code hu =>
    simp only [List.cons_append, List.nil_append]
    rw [scanPieces, hu]
    cases scanPieces r <;> rfl

/-- Scanning the pieces between the quotes stops behind the closing quote. -/
theorem scanPieces_piecesText {ps : List Piece} {s : Bytes} (h : PiecesText ps s) (r : Bytes) :
    scanPieces (s ++ 0x22 :: r) = some (ps, r) := by
  induction h with
  | nil => rfl
  | cons hp _ ih =>
    rw [List.append_assoc, scanPieces_pieceText hp, ih]
    rfl

/-- Scanned pieces stand in front of a closing quote. -/
theorem scanPieces_sound {s r : Bytes} {ps : List Piece} (h : scanPieces s = some (ps, r)) :
    ∃ t, PiecesText ps t ∧ s = t ++ 0x22 :: r := by
  fun_induction scanPieces s generalizing ps r with
  | case1 => cases h
  | case2 t =>
    cases h
    exact ⟨[], .nil, rfl⟩
  | case3 a b c d t u ps' r' hscan hu ih =>
    cases h
    obtain ⟨t', ht', rfl⟩ := ih hscan
    exact ⟨_, .cons (.code hu) ht', rfl⟩
  | case4 => cases h
  | case5 e t b ps' r' hne hscan hb ih =>
    cases h
    obtain ⟨t', ht', rfl⟩ := ih hscan
    exact ⟨_, .cons (.short (shortEscape?_eq_some_iff.mp hb)) ht', rfl⟩
  | case6 => cases h
  | case7 => cases h
  | case8 b t hquote _ _ hb ps' r' hscan ih =>
    cases h
    rw [not_or] at hb
    obtain ⟨t', ht', rfl⟩ := ih hscan
    exact ⟨_, .cons (.plain (UInt8.not_lt.mp hb.1) hquote hb.2) ht', rfl⟩
  | case9 => cases h

/-! The first lexeme. -/

inductive LexemeText : Lexeme → Bytes → Prop where
  | openArray : LexemeText .openArray [0x5b]
  | closeArray : LexemeText .closeArray [0x5d]
  | openObject : LexemeText .openObject [0x7b]
  | closeObject : LexemeText .closeObject [0x7d]
  | comma : LexemeText .comma [0x2c]
  | colon : LexemeText .colon [0x3a]
  | null : LexemeText .null [0x6e, 0x75, 0x6c, 0x6c]
  | true : LexemeText (.bool true) [0x74, 0x72, 0x75, 0x65]
  | false : LexemeText (.bool false) [0x66, 0x61, 0x6c, 0x73, 0x65]
  | number {l : Bytes} : IsNumber l → LexemeText (.number l) l
  | string {ps : List Piece} {s : Bytes} : StringText ps s → LexemeText (.string ps) s

/-- A lexeme that is cut off has one of its texts there. -/
theorem firstLexeme_sound {s r : Bytes} {l : Lexeme} (h : firstLexeme s = (l, r)) :
    (l = .unreadable ∧ r = []) ∨ ∃ t, LexemeText l t ∧ s = t ++ r := by
  unfold firstLexeme at h
  split at h
  · cases h; exact .inr ⟨_, .openArray, rfl⟩
  · cases h; exact .inr ⟨_, .closeArray, rfl⟩
  · cases h; exact .inr ⟨_, .openObject, rfl⟩
  · cases h; exact .inr ⟨_, .closeObject, rfl⟩
  · cases h; exact .inr ⟨_, .comma, rfl⟩
  · cases h; exact .inr ⟨_, .colon, rfl⟩
  · cases h; exact .inr ⟨_, .null, rfl⟩
  · cases h; exact .inr ⟨_, .true, rfl⟩
  · cases h; exact .inr ⟨_, .false, rfl⟩
  · split at h
    · next hs =>
      cases h
      obtain ⟨t, ht, rfl⟩ := scanPieces_sound hs
      exact .inr ⟨_, .string (.quoted ht), by simp⟩
    · cases h
      exact .inl ⟨rfl, rfl⟩
  · split at h
    · next hs =>
      cases h
      obtain ⟨hl, heq⟩ := scanNumber_sound hs
      exact .inr ⟨_, .number hl, heq⟩
    · cases h
      exact .inl ⟨rfl, rfl⟩

theorem firstLexeme_number {l r : Bytes} (hl : IsNumber l) (hr : EndsNumber r) :
    firstLexeme (l ++ r) = (.number l, r) := by
  have hscan := scanNumber_append hl hr
  obtain ⟨b, t, rfl, hb⟩ := head_isNumber hl
  have hne {c : UInt8} (hc : Decimal.isDigit c = false ∧ c ≠ 0x2d) : b ≠ c := by
    rintro rfl
    rcases hb with hb | hb
    · rw [hc.1] at hb
      cases hb
    · exact hc.2 hb
  rw [List.cons_append] at hscan ⊢
  unfold firstLexeme
  split
  case h_11 => rw [hscan]
  all_goals next h => exact absurd (List.cons.inj h).1 (hne (by decide))

/-- A text of a lexeme is cut off as this lexeme, unless it is a number that goes on. -/
theorem firstLexeme_lexemeText {l : Lexeme} {t : Bytes} (h : LexemeText l t) {r : Bytes}
    (hr : ∀ n, l = .number n → EndsNumber r) : firstLexeme (t ++ r) = (l, r) := by
  cases h with
  | number hl => exact firstLexeme_number hl (hr _ rfl)
  | @string ps s hs =>
    obtain ⟨hps⟩ := hs
    simp only [List.cons_append, List.append_assoc, List.nil_append, firstLexeme,
      scanPieces_piecesText hps]
  | _ => rfl

/-- A text of a lexeme starts with no blank. -/
theorem head_lexemeText {l : Lexeme} {t : Bytes} (h : LexemeText l t) :
    ∃ b s, t = b :: s ∧ isBlank b = false := by
  cases h with
  | number hl =>
    obtain ⟨b, s, rfl, hb⟩ := head_isNumber hl
    refine ⟨b, s, rfl, ?_⟩
    rw [← Bool.not_eq_true, isBlank_iff]
    rintro (rfl | rfl | rfl | rfl) <;> exact absurd hb (by decide)
  | string hs =>
    obtain ⟨hps⟩ := hs
    exact ⟨_, _, rfl, rfl⟩
  | _ => exact ⟨_, _, rfl, rfl⟩

theorem length_firstLexeme (b : UInt8) (s : Bytes) :
    (firstLexeme (b :: s)).2.length ≤ s.length := by
  obtain ⟨l, r, hfirst⟩ : ∃ l r, firstLexeme (b :: s) = (l, r) := ⟨_, _, rfl⟩
  rw [hfirst]
  show r.length ≤ s.length
  rcases firstLexeme_sound hfirst with ⟨_, rfl⟩ | ⟨t, ht, heq⟩
  · exact Nat.zero_le _
  · obtain ⟨c, t, rfl, _⟩ := head_lexemeText ht
    have hlength := congrArg List.length heq
    simp only [List.cons_append, List.length_cons, List.length_append] at hlength
    omega

/-! Cutting a text. -/

/-- Any measure of at least the length of the text gives the same lexemes. -/
theorem lexemesWithin_eq {n m : Nat} {s : Bytes} (hn : s.length ≤ n) (hm : s.length ≤ m) :
    lexemesWithin n s = lexemesWithin m s := by
  induction n generalizing m s with
  | zero =>
    obtain rfl := List.length_eq_zero_iff.mp (Nat.le_zero.mp hn)
    cases m <;> rfl
  | succ n ih =>
    cases m with
    | zero =>
      obtain rfl := List.length_eq_zero_iff.mp (Nat.le_zero.mp hm)
      rfl
    | succ m =>
      have hdrop : (s.dropWhile isBlank).length ≤ s.length :=
        (List.dropWhile_sublist isBlank).length_le
      simp only [lexemesWithin]
      split
      · rfl
      · next b r hs =>
        have hrest := length_firstLexeme b r
        rw [hs, List.length_cons] at hdrop
        exact congrArg _ (ih (by omega) (by omega))

/-- The first lexeme of a text that starts with no blank, and the lexemes of what is left. -/
theorem lexemes_cons {b : UInt8} (s : Bytes) (hb : isBlank b = false) :
    lexemes (b :: s) = (firstLexeme (b :: s)).1 :: lexemes (firstLexeme (b :: s)).2 := by
  have hdrop : (b :: s).dropWhile isBlank = b :: s := by simp [hb]
  simp only [lexemes, List.length_cons, lexemesWithin, hdrop]
  exact congrArg _ (lexemesWithin_eq (length_firstLexeme b s) (Nat.le_refl _))

theorem lexemes_blank {b : UInt8} (s : Bytes) (hb : isBlank b = true) :
    lexemes (b :: s) = lexemes s := by
  have hmeasure : lexemes s = lexemesWithin (s.length + 1) s :=
    lexemesWithin_eq (Nat.le_refl _) (Nat.le_succ _)
  rw [hmeasure, lexemes, List.length_cons, lexemesWithin, lexemesWithin,
    List.dropWhile_cons_of_pos hb]

theorem lexemes_blanks {a : Bytes} (ha : Blanks a) (s : Bytes) : lexemes (a ++ s) = lexemes s := by
  induction a with
  | nil => rfl
  | cons b a ih =>
    obtain ⟨hb, ha⟩ := List.forall_mem_cons.mp ha
    rw [List.cons_append, lexemes_blank _ (isBlank_iff.mpr hb), ih ha]

theorem lexemes_lexemeText {l : Lexeme} {t : Bytes} (h : LexemeText l t) {r : Bytes}
    (hr : ∀ n, l = .number n → EndsNumber r) : lexemes (t ++ r) = l :: lexemes r := by
  have hfirst := firstLexeme_lexemeText h hr
  obtain ⟨b, s, rfl, hb⟩ := head_lexemeText h
  rw [List.cons_append] at hfirst ⊢
  rw [lexemes_cons _ hb, hfirst]

/-- A text is blank up to the first byte that is not. -/
theorem exists_blanks (s : Bytes) :
    Blanks s ∨ ∃ a b t, Blanks a ∧ s = a ++ b :: t ∧ isBlank b = false := by
  induction s with
  | nil => exact .inl blanks_nil
  | cons c s ih =>
    cases hc : isBlank c with
    | false => exact .inr ⟨[], c, s, blanks_nil, rfl, hc⟩
    | true =>
      have hcons {a : Bytes} (ha : Blanks a) : Blanks (c :: a) :=
        List.forall_mem_cons.mpr ⟨isBlank_iff.mp hc, ha⟩
      rcases ih with hs | ⟨a, b, t, ha, rfl, hb⟩
      · exact .inl (hcons hs)
      · exact .inr ⟨c :: a, b, t, hcons ha, rfl, hb⟩

theorem lexemes_eq_nil_iff {s : Bytes} : lexemes s = [] ↔ Blanks s := by
  constructor
  · intro h
    rcases exists_blanks s with hs | ⟨a, b, t, ha, rfl, hb⟩
    · exact hs
    · rw [lexemes_blanks ha, lexemes_cons t hb] at h
      cases h
  · intro h
    rw [← List.append_nil s, lexemes_blanks h]
    rfl

/-- The first of the lexemes stands behind the blanks. -/
theorem lexemes_sound {s : Bytes} {l : Lexeme} {ls : List Lexeme} (h : lexemes s = l :: ls)
    (hl : l ≠ .unreadable) :
    ∃ a t r, Blanks a ∧ LexemeText l t ∧ s = a ++ (t ++ r) ∧ lexemes r = ls := by
  rcases exists_blanks s with hs | ⟨a, b, u, ha, rfl, hb⟩
  · rw [lexemes_eq_nil_iff.mpr hs] at h
    cases h
  · obtain ⟨l', r, hfirst⟩ : ∃ l r, firstLexeme (b :: u) = (l, r) := ⟨_, _, rfl⟩
    rw [lexemes_blanks ha, lexemes_cons u hb, hfirst, List.cons.injEq] at h
    obtain ⟨rfl, hrest⟩ := h
    rcases firstLexeme_sound hfirst with ⟨hunreadable, _⟩ | ⟨t, ht, heq⟩
    · exact absurd hunreadable hl
    · exact ⟨a, t, r, ha, ht, congrArg (a ++ ·) heq, hrest⟩

/-! The lexemes of a tree. -/

mutual
/-- The lexemes of a tree. -/
def treeLexemes : Written → List Lexeme
  | .null => [.null]
  | .bool b => [.bool b]
  | .number l => [.number l]
  | .string ps => [.string ps]
  | .array items => .openArray :: (itemLexemes items ++ [.closeArray])
  | .object ms => .openObject :: (memberLexemes ms ++ [.closeObject])

def itemLexemes : List Written → List Lexeme
  | [] => []
  | [w] => treeLexemes w
  | w :: r => treeLexemes w ++ .comma :: itemLexemes r

def memberLexemes : List (List Piece × Written) → List Lexeme
  | [] => []
  | [(n, w)] => .string n :: .colon :: treeLexemes w
  | (n, w) :: r => .string n :: .colon :: (treeLexemes w ++ .comma :: memberLexemes r)
end

theorem itemLexemes_cons (w v : Written) (ws : List Written) :
    itemLexemes (w :: v :: ws) = treeLexemes w ++ .comma :: itemLexemes (v :: ws) := by
  rw [itemLexemes]
  exact List.cons_ne_nil v ws

theorem memberLexemes_cons (n : List Piece) (w : Written) (m : List Piece × Written)
    (ms : List (List Piece × Written)) : memberLexemes ((n, w) :: m :: ms)
      = .string n :: .colon :: (treeLexemes w ++ .comma :: memberLexemes (m :: ms)) := by
  rw [memberLexemes]
  exact List.cons_ne_nil m ms

open Written

theorem endsNumber_blanks {a r : Bytes} (ha : Blanks a) (hr : EndsNumber r) :
    EndsNumber (a ++ r) := by
  cases a with
  | nil => exact hr
  | cons b a =>
    refine endsNumber_cons _ ?_
    rcases ha b List.mem_cons_self with rfl | rfl | rfl | rfl <;> rfl

@[simp] theorem lexemes_openArray (s : Bytes) :
    lexemes (0x5b :: s) = .openArray :: lexemes s :=
  lexemes_lexemeText .openArray nofun

@[simp] theorem lexemes_closeArray (s : Bytes) :
    lexemes (0x5d :: s) = .closeArray :: lexemes s :=
  lexemes_lexemeText .closeArray nofun

@[simp] theorem lexemes_openObject (s : Bytes) :
    lexemes (0x7b :: s) = .openObject :: lexemes s :=
  lexemes_lexemeText .openObject nofun

@[simp] theorem lexemes_closeObject (s : Bytes) :
    lexemes (0x7d :: s) = .closeObject :: lexemes s :=
  lexemes_lexemeText .closeObject nofun

@[simp] theorem lexemes_comma (s : Bytes) :
    lexemes (0x2c :: s) = .comma :: lexemes s :=
  lexemes_lexemeText .comma nofun

@[simp] theorem lexemes_colon (s : Bytes) :
    lexemes (0x3a :: s) = .colon :: lexemes s :=
  lexemes_lexemeText .colon nofun

/-- Blanks around a text do not change its lexemes. -/
theorem lexemes_around {a t b r : Bytes} {ls : List Lexeme} (ha : Blanks a) (hb : Blanks b)
    (h : lexemes (t ++ (b ++ r)) = ls ++ lexemes (b ++ r)) :
    lexemes (a ++ (t ++ b) ++ r) = ls ++ lexemes r := by
  rw [List.append_assoc, List.append_assoc, lexemes_blanks ha, h, lexemes_blanks hb]

theorem lexemes_nameText {n : List Piece} {s : Bytes} (h : NameText n s) (r : Bytes) :
    lexemes (s ++ r) = .string n :: lexemes r := by
  cases h with
  | @around a s b ha hs hb =>
    have hstring : lexemes (s ++ (b ++ r)) = [Lexeme.string n] ++ lexemes (b ++ r) :=
      lexemes_lexemeText (.string hs) nofun
    exact lexemes_around ha hb hstring

mutual
/-- Cutting a text of a tree gives the lexemes of the tree, whatever follows the text, unless the
tree is a number that goes on. -/
theorem lexemes_valueText (w : Written) {s : Bytes} (h : ValueText w s) (r : Bytes)
    (hr : ∀ l, w = .number l → EndsNumber r) : lexemes (s ++ r) = treeLexemes w ++ lexemes r := by
  match w, h with
  | .null, .null => exact lexemes_lexemeText .null nofun
  | .bool true, .true => exact lexemes_lexemeText .true nofun
  | .bool false, .false => exact lexemes_lexemeText .false nofun
  | .number l, .number hl => exact lexemes_lexemeText (.number hl) fun _ _ => hr l rfl
  | .string ps, .string hps => exact lexemes_lexemeText (.string hps) nofun
  | .array items, .array hitems =>
    have hbody := lexemes_itemsText items hitems (0x5d :: r) (endsNumber_cons r (by decide))
    simp [treeLexemes, hbody]
  | .object ms, .object hms =>
    have hbody := lexemes_membersText ms hms (0x7d :: r) (endsNumber_cons r (by decide))
    simp [treeLexemes, hbody]

theorem lexemes_itemsText (ws : List Written) {s : Bytes} (h : ItemsText ws s) (r : Bytes)
    (hr : EndsNumber r) : lexemes (s ++ r) = itemLexemes ws ++ lexemes r := by
  match ws, h with
  | [], .none ha => exact lexemes_blanks ha r
  | [w], .last (.around ha hw hb) =>
    have hends := endsNumber_blanks hb hr
    exact lexemes_around ha hb (lexemes_valueText w hw _ fun _ _ => hends)
  | w :: v :: ws, @ItemsText.next _ _ _ _ t (.around ha hw hb) hws =>
    have hends := endsNumber_blanks hb (endsNumber_cons (t ++ r) (b := 0x2c) (by decide))
    have hfirst := lexemes_around ha hb (lexemes_valueText w hw _ fun _ _ => hends)
    have hrest := lexemes_itemsText (v :: ws) hws r hr
    rw [List.append_assoc, List.cons_append, hfirst, lexemes_comma, hrest, itemLexemes_cons,
      List.append_assoc, List.cons_append]

theorem lexemes_membersText (ms : List (List Piece × Written)) {s : Bytes} (h : MembersText ms s)
    (r : Bytes) (hr : EndsNumber r) : lexemes (s ++ r) = memberLexemes ms ++ lexemes r := by
  match ms, h with
  | [], .none ha => exact lexemes_blanks ha r
  | [(n, w)], .last hn (.around ha hw hb) =>
    have hends := endsNumber_blanks hb hr
    have hvalue := lexemes_around ha hb (lexemes_valueText w hw _ fun _ _ => hends)
    rw [List.append_assoc, List.cons_append, lexemes_nameText hn, lexemes_colon, hvalue]
    rfl
  | (n, w) :: m :: ms, @MembersText.next _ _ _ _ _ _ u hn (.around ha hw hb) hms =>
    have hends := endsNumber_blanks hb (endsNumber_cons (u ++ r) (b := 0x2c) (by decide))
    have hvalue := lexemes_around ha hb (lexemes_valueText w hw _ fun _ _ => hends)
    have hrest := lexemes_membersText (m :: ms) hms r hr
    rw [List.append_assoc, List.cons_append, lexemes_nameText hn, lexemes_colon,
      List.append_assoc, List.cons_append, hvalue, lexemes_comma, hrest, memberLexemes_cons]
    simp
end

/-! Texts from lexemes. -/

theorem nameText_of_lexemes {n : List Piece} {s : Bytes} {ls : List Lexeme}
    (h : lexemes s = .string n :: .colon :: ls) :
    ∃ t r, NameText n t ∧ s = t ++ 0x3a :: r ∧ lexemes r = ls := by
  obtain ⟨a, t, r, ha, ht, rfl, hr⟩ := lexemes_sound h nofun
  obtain ⟨b, u, r', hb, hu, rfl, hr'⟩ := lexemes_sound hr nofun
  cases ht with
  | string hs =>
    cases hu
    exact ⟨_, r', .around ha hs hb, by simp, hr'⟩

mutual
/-- Where the lexemes of a tree are cut off, a text of the tree stands. -/
theorem valueText_of_lexemes (w : Written) {s : Bytes} {ls : List Lexeme}
    (h : lexemes s = treeLexemes w ++ ls) :
    ∃ a t r, Blanks a ∧ ValueText w t ∧ s = a ++ (t ++ r) ∧ lexemes r = ls := by
  match w with
  | .null =>
    obtain ⟨a, t, r, ha, ht, hs, hr⟩ := lexemes_sound h nofun
    cases ht
    exact ⟨a, _, r, ha, .null, hs, hr⟩
  | .bool b =>
    obtain ⟨a, t, r, ha, ht, hs, hr⟩ := lexemes_sound h nofun
    cases ht with
    | true => exact ⟨a, _, r, ha, .true, hs, hr⟩
    | false => exact ⟨a, _, r, ha, .false, hs, hr⟩
  | .number l =>
    obtain ⟨a, t, r, ha, ht, hs, hr⟩ := lexemes_sound h nofun
    cases ht with
    | number hl => exact ⟨a, _, r, ha, .number hl, hs, hr⟩
  | .string ps =>
    obtain ⟨a, t, r, ha, ht, hs, hr⟩ := lexemes_sound h nofun
    cases ht with
    | string hps => exact ⟨a, _, r, ha, .string hps, hs, hr⟩
  | .array items =>
    rw [treeLexemes, List.cons_append, List.append_assoc] at h
    obtain ⟨a, t, r, ha, ht, rfl, hr⟩ := lexemes_sound h nofun
    cases ht
    obtain ⟨t, r', ht, rfl, hr'⟩ := itemsText_of_lexemes items hr
    exact ⟨a, _, r', ha, .array ht, by simp, hr'⟩
  | .object ms =>
    rw [treeLexemes, List.cons_append, List.append_assoc] at h
    obtain ⟨a, t, r, ha, ht, rfl, hr⟩ := lexemes_sound h nofun
    cases ht
    obtain ⟨t, r', ht, rfl, hr'⟩ := membersText_of_lexemes ms hr
    exact ⟨a, _, r', ha, .object ht, by simp, hr'⟩

theorem itemsText_of_lexemes (ws : List Written) {s : Bytes} {ls : List Lexeme}
    (h : lexemes s = itemLexemes ws ++ .closeArray :: ls) :
    ∃ t r, ItemsText ws t ∧ s = t ++ 0x5d :: r ∧ lexemes r = ls := by
  match ws with
  | [] =>
    obtain ⟨a, t, r, ha, ht, rfl, hr⟩ := lexemes_sound h nofun
    cases ht
    exact ⟨a, r, .none ha, rfl, hr⟩
  | [w] =>
    obtain ⟨a, t, r, ha, ht, rfl, hr⟩ := valueText_of_lexemes w h
    obtain ⟨b, u, r', hb, hu, rfl, hr'⟩ := lexemes_sound hr nofun
    cases hu
    exact ⟨_, r', .last (.around ha ht hb), by simp, hr'⟩
  | w :: v :: ws =>
    rw [itemLexemes_cons, List.append_assoc] at h
    obtain ⟨a, t, r, ha, ht, rfl, hr⟩ := valueText_of_lexemes w h
    obtain ⟨b, u, r', hb, hu, rfl, hr'⟩ := lexemes_sound hr nofun
    cases hu
    obtain ⟨x, r'', hx, rfl, hr''⟩ := itemsText_of_lexemes (v :: ws) hr'
    exact ⟨_, r'', .next (.around ha ht hb) hx, by simp, hr''⟩

theorem membersText_of_lexemes (ms : List (List Piece × Written)) {s : Bytes} {ls : List Lexeme}
    (h : lexemes s = memberLexemes ms ++ .closeObject :: ls) :
    ∃ t r, MembersText ms t ∧ s = t ++ 0x7d :: r ∧ lexemes r = ls := by
  match ms with
  | [] =>
    obtain ⟨a, t, r, ha, ht, rfl, hr⟩ := lexemes_sound h nofun
    cases ht
    exact ⟨a, r, .none ha, rfl, hr⟩
  | [(n, w)] =>
    obtain ⟨s, r, hn, rfl, hvalue⟩ := nameText_of_lexemes h
    obtain ⟨a, t, r, ha, ht, rfl, hr⟩ := valueText_of_lexemes w hvalue
    obtain ⟨b, u, r', hb, hu, rfl, hr'⟩ := lexemes_sound hr nofun
    cases hu
    exact ⟨_, r', .last hn (.around ha ht hb), by simp, hr'⟩
  | (n, w) :: m :: ms =>
    rw [memberLexemes_cons, List.cons_append, List.cons_append, List.append_assoc] at h
    obtain ⟨s, r, hn, rfl, hvalue⟩ := nameText_of_lexemes h
    obtain ⟨a, t, r, ha, ht, rfl, hr⟩ := valueText_of_lexemes w hvalue
    obtain ⟨b, u, r', hb, hu, rfl, hr'⟩ := lexemes_sound hr nofun
    cases hu
    obtain ⟨x, r'', hx, rfl, hr''⟩ := membersText_of_lexemes (m :: ms) hr'
    exact ⟨_, r'', .next hn (.around ha ht hb) hx, by simp, hr''⟩
end

end Credentials.Json
