import Credentials.Proofs.Json.Lexing

/-!
# The reading machine

A state of the machine stands for the lexemes that led to it. One step adds the lexeme it takes, so
by induction on the lexemes a document that is read has exactly the lexemes that were taken; and
every tree is read from its own lexemes. Hence the texts that are read as a tree are the texts of
this tree, its compact text among them.
-/

namespace Credentials.Json

open Written

/-! The lexemes that led to a state. -/

/-- Items that have been read, each with the comma after it. -/
def itemsSoFar (done : List Written) : List Lexeme :=
  done.reverse.flatMap fun w => treeLexemes w ++ [.comma]

def membersSoFar (done : List (List Piece × Written)) : List Lexeme :=
  done.reverse.flatMap fun m => .string m.1 :: .colon :: (treeLexemes m.2 ++ [.comma])

def Written.Frame.soFar : Frame → List Lexeme
  | .array done => .openArray :: itemsSoFar done
  | .object done n => .openObject :: (membersSoFar done ++ [.string n, .colon])

/-- What is open, the outermost first. -/
def framesSoFar (fs : List Frame) : List Lexeme := fs.reverse.flatMap Frame.soFar

def Written.State.soFar : State → List Lexeme
  | .value fs => framesSoFar fs
  | .firstItem fs => framesSoFar fs ++ [.openArray]
  | .firstName fs => framesSoFar fs ++ [.openObject]
  | .name fs done => framesSoFar fs ++ .openObject :: membersSoFar done
  | .colon fs done n => framesSoFar fs ++ .openObject :: (membersSoFar done ++ [.string n])
  | .complete fs w => framesSoFar fs ++ treeLexemes w

@[simp] theorem itemsSoFar_nil : itemsSoFar [] = [] := rfl

@[simp] theorem membersSoFar_nil : membersSoFar [] = [] := rfl

@[simp] theorem itemsSoFar_cons (w : Written) (done : List Written) :
    itemsSoFar (w :: done) = itemsSoFar done ++ (treeLexemes w ++ [.comma]) := by
  simp [itemsSoFar]

@[simp] theorem membersSoFar_cons (m : List Piece × Written) (done : List (List Piece × Written)) :
    membersSoFar (m :: done)
      = membersSoFar done ++ .string m.1 :: .colon :: (treeLexemes m.2 ++ [.comma]) := by
  simp [membersSoFar]

@[simp] theorem framesSoFar_cons (f : Frame) (fs : List Frame) :
    framesSoFar (f :: fs) = framesSoFar fs ++ f.soFar := by
  simp [framesSoFar]

theorem itemLexemes_append (ws : List Written) (w : Written) :
    itemLexemes (ws ++ [w]) = (ws.flatMap fun v => treeLexemes v ++ [.comma]) ++ treeLexemes w := by
  induction ws with
  | nil => rfl
  | cons v ws ih =>
    cases ws with
    | nil => simp [itemLexemes]
    | cons u ws =>
      rw [List.cons_append] at ih
      rw [List.cons_append, List.cons_append, itemLexemes, ih]
      · simp
      · simp

theorem memberLexemes_append (ms : List (List Piece × Written)) (m : List Piece × Written) :
    memberLexemes (ms ++ [m])
      = (ms.flatMap fun m => .string m.1 :: .colon :: (treeLexemes m.2 ++ [.comma]))
        ++ .string m.1 :: .colon :: treeLexemes m.2 := by
  induction ms with
  | nil => rfl
  | cons v ms ih =>
    cases ms with
    | nil => simp [memberLexemes]
    | cons u ms =>
      rw [List.cons_append] at ih
      rw [List.cons_append, List.cons_append, memberLexemes, ih]
      · simp
      · simp

theorem itemLexemes_reverse (w : Written) (done : List Written) :
    itemLexemes (w :: done).reverse = itemsSoFar done ++ treeLexemes w := by
  rw [List.reverse_cons, itemLexemes_append, itemsSoFar]

theorem memberLexemes_reverse (m : List Piece × Written) (done : List (List Piece × Written)) :
    memberLexemes (m :: done).reverse
      = membersSoFar done ++ .string m.1 :: .colon :: treeLexemes m.2 := by
  rw [List.reverse_cons, memberLexemes_append, membersSoFar]

/-! What a step adds. -/

theorem soFar_start {fs : List Frame} {l : Lexeme} {s : State} (h : start fs l = some s) :
    s.soFar = framesSoFar fs ++ [l] := by
  unfold start at h
  split at h <;> cases h <;> rfl

theorem soFar_step {s t : State} {l : Lexeme} (h : step s l = some t) :
    t.soFar = s.soFar ++ [l] := by
  unfold step at h
  split at h
  · exact soFar_start h
  · cases h; simp [State.soFar, treeLexemes, itemLexemes]
  · rw [soFar_start h]; simp [State.soFar, Frame.soFar]
  · cases h; simp [State.soFar, treeLexemes, memberLexemes]
  · cases h; simp [State.soFar]
  · cases h
  · cases h; simp [State.soFar]
  · cases h
  · cases h; simp [State.soFar, Frame.soFar]
  · cases h
  · cases h; simp [State.soFar, Frame.soFar]
  · cases h
    simp only [State.soFar, treeLexemes, itemLexemes_reverse, framesSoFar_cons, Frame.soFar]
    simp
  · cases h; simp [State.soFar, Frame.soFar]
  · cases h
    simp only [State.soFar, treeLexemes, memberLexemes_reverse, framesSoFar_cons, Frame.soFar]
    simp
  · cases h

/-- A document that is read has the lexemes that were taken. -/
theorem run_sound {s : State} {ls rest : List Lexeme} {w : Written}
    (h : run s ls = some (w, rest)) : s.soFar ++ ls = treeLexemes w ++ rest := by
  fun_induction run s ls with
  | case1 v ls =>
    cases h
    simp [State.soFar, framesSoFar]
  | case2 => cases h
  | case3 => cases h
  | case4 s l ls _ t hstep ih =>
    rw [← ih h, soFar_step hstep]
    simp

/-! Every tree is read from its own lexemes. -/

/-- A tree starts with a lexeme that closes nothing. -/
theorem head_treeLexemes (w : Written) :
    ∃ l ls, treeLexemes w = l :: ls ∧ l ≠ .closeArray := by
  cases w <;> exact ⟨_, _, rfl, by simp⟩

theorem run_firstItem (w : Written) (fs : List Frame) (ls : List Lexeme) :
    run (.firstItem fs) (treeLexemes w ++ ls)
      = run (.value (.array [] :: fs)) (treeLexemes w ++ ls) := by
  obtain ⟨l, t, hl, hne⟩ := head_treeLexemes w
  have hstep : step (.firstItem fs) l = step (.value (.array [] :: fs)) l := by
    rw [step, step]
    exact hne
  rw [hl, List.cons_append]
  simp only [run, hstep]

mutual
theorem run_tree (w : Written) (fs : List Frame) (ls : List Lexeme) :
    run (.value fs) (treeLexemes w ++ ls) = run (.complete fs w) ls := by
  match w with
  | .null => rfl
  | .bool b => rfl
  | .number l => rfl
  | .string ps => rfl
  | .array [] => rfl
  | .array (w :: ws) =>
    have hopen : run (.value fs) (treeLexemes (.array (w :: ws)) ++ ls)
        = run (.firstItem fs) (itemLexemes (w :: ws) ++ .closeArray :: ls) := by
      simp [treeLexemes, run, step, start]
    have hfirst : run (.firstItem fs) (itemLexemes (w :: ws) ++ .closeArray :: ls)
        = run (.value (.array [] :: fs)) (itemLexemes (w :: ws) ++ .closeArray :: ls) := by
      cases ws with
      | nil => exact run_firstItem w fs _
      | cons v ws =>
        rw [itemLexemes, List.append_assoc]
        · exact run_firstItem w fs _
        · simp
    rw [hopen, hfirst, run_items (w :: ws) (by simp) [] fs ls]
    rfl
  | .object [] => rfl
  | .object (m :: ms) =>
    have hopen : run (.value fs) (treeLexemes (.object (m :: ms)) ++ ls)
        = run (.name fs []) (memberLexemes (m :: ms) ++ .closeObject :: ls) := by
      cases ms <;> simp [treeLexemes, memberLexemes, run, step, start]
    rw [hopen, run_members (m :: ms) (by simp) [] fs ls]
    rfl

theorem run_items (ws : List Written) (hne : ws ≠ []) (done : List Written) (fs : List Frame)
    (ls : List Lexeme) :
    run (.value (.array done :: fs)) (itemLexemes ws ++ .closeArray :: ls)
      = run (.complete fs (.array (done.reverse ++ ws))) ls := by
  match ws, hne with
  | [w], _ =>
    rw [itemLexemes, run_tree w]
    simp [run, step]
  | w :: v :: ws, _ =>
    have hrest := run_items (v :: ws) (by simp) (w :: done) fs ls
    rw [itemLexemes, List.append_assoc, run_tree w]
    · simp only [List.cons_append, run, step]
      rw [hrest]
      simp
    · simp

theorem run_members (ms : List (List Piece × Written)) (hne : ms ≠ [])
    (done : List (List Piece × Written)) (fs : List Frame) (ls : List Lexeme) :
    run (.name fs done) (memberLexemes ms ++ .closeObject :: ls)
      = run (.complete fs (.object (done.reverse ++ ms))) ls := by
  match ms, hne with
  | [(n, w)], _ =>
    simp only [memberLexemes, List.cons_append, run, step]
    rw [run_tree w]
    simp [run, step]
  | (n, w) :: m :: ms, _ =>
    have hrest := run_members (m :: ms) (by simp) ((n, w) :: done) fs ls
    rw [memberLexemes]
    · simp only [List.cons_append, List.append_assoc, run, step]
      rw [run_tree w]
      simp only [run, step]
      rw [hrest]
      simp
    · simp
end

/-! What is read is a text of the tree. -/

theorem valueText_of_first {s : Bytes} {w : Written} {rest : List Lexeme}
    (h : Written.first s = some (w, rest)) :
    ∃ a t r, Blanks a ∧ ValueText w t ∧ s = a ++ (t ++ r) ∧ lexemes r = rest :=
  valueText_of_lexemes w (run_sound h)

theorem lexical_of_first {s : Bytes} {w : Written} {rest : List Lexeme}
    (h : Written.first s = some (w, rest)) : w.Lexical := by
  obtain ⟨_, _, _, _, ht, _⟩ := valueText_of_first h
  exact lexical_of_valueText w ht

/-- A text of a tree is read as the tree, whatever follows, unless it is a number that goes on. -/
theorem first_valueText {w : Written} {a t r : Bytes} (ha : Blanks a) (ht : ValueText w t)
    (hr : ∀ l, w = .number l → EndsNumber r) :
    Written.first (a ++ (t ++ r)) = some (w, lexemes r) := by
  rw [first, lexemes_blanks ha, lexemes_valueText w ht r hr, run_tree, run]

theorem first_of_read {s : Bytes} {w : Written} (h : Written.read s = some w) :
    Written.first s = some (w, []) := by
  unfold Written.read at h
  split at h
  · next hfirst =>
    cases h
    exact hfirst
  · cases h

/-- The texts that are read as a tree are the texts of this tree. -/
theorem read_eq_some_iff {s : Bytes} {w : Written} : Written.read s = some w ↔ ElementText w s := by
  constructor
  · intro h
    obtain ⟨a, t, r, ha, ht, rfl, hr⟩ := valueText_of_first (first_of_read h)
    exact .around ha ht (lexemes_eq_nil_iff.mp hr)
  · rintro ⟨ha, ht, hb⟩
    have hfirst := first_valueText ha ht fun _ _ => endsNumber_blanks hb endsNumber_nil
    rw [List.append_nil, lexemes_eq_nil_iff.mpr hb] at hfirst
    rw [Written.read, hfirst]

theorem read_print {w : Written} (hw : w.Lexical) : Written.read w.print = some w :=
  read_eq_some_iff.mpr (elementText_of_valueText (valueText_print w hw))

/-- Lexical trees with one compact text are one tree. -/
theorem print_written_inj {v w : Written} (hv : v.Lexical) (hw : w.Lexical)
    (h : v.print = w.print) : v = w := by
  have hread := read_print hv
  rw [h, read_print hw] at hread
  exact (Option.some.inj hread).symm

end Credentials.Json
