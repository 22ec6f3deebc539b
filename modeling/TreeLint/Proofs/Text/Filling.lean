import Mathlib.Data.List.TakeWhile
import Mathlib.Data.Nat.Digits.Defs
import Mathlib.Data.Option.Basic
import TreeLint.Text.Template

/-!
# How templates are filled

A template is filled by one scan from the left (`TreeLint.Text.Fills`): an opening brace begins a
placeholder if the text up to the next closing brace writes the index of an argument, and stands for
itself otherwise. The scan has exactly one result, which is the filled template
(`TreeLint.Text.fills_iff`). What a template is made of does not depend on the arguments
(`TreeLint.Text.exists_pieces`), so that no argument is ever read itself, and a template whose
braces are closed can be filled apart from what comes after it (`TreeLint.Text.Fills.append`).
-/

namespace TreeLint.Text

/-- A text that writes a number as the index of an argument: decimal digits, which may stand behind
a plus sign, and not more than an index can be. -/
structure WritesIndex (text : List Char) (index : Nat) : Prop where
  decimal : ∃ digits, (text = digits ∨ text = '+' :: digits) ∧ digits ≠ [] ∧
    (∀ c ∈ digits, c.isDigit = true) ∧
    index = Nat.ofDigits 10 (digits.reverse.map fun c => c.toNat - '0'.toNat)
  bounded : index ≤ maxIndex

/-- One scan over a template from the left, with the text that comes out of it. -/
inductive Fills (args : List String) : List Char → List Char → Prop where
  | nil : Fills args [] []
  | character {c : Char} {rest filled : List Char} (other : c ≠ '\x7b')
      (later : Fills args rest filled) : Fills args (c :: rest) (c :: filled)
  | placeholder {text rest filled : List Char} {index : Nat} {argument : String}
      (first : '\x7d' ∉ text) (written : WritesIndex text index)
      (named : args[index]? = some argument) (later : Fills args rest filled) :
      Fills args ('\x7b' :: (text ++ '\x7d' :: rest)) (argument.toList ++ filled)
  | brace {rest filled : List Char}
      (unnamed : ∀ text after index, rest = text ++ '\x7d' :: after → '\x7d' ∉ text →
        WritesIndex text index → args.length ≤ index)
      (later : Fills args rest filled) : Fills args ('\x7b' :: rest) ('\x7b' :: filled)

/-- Every opening brace has a closing brace somewhere behind it. -/
def Closed : List Char → Prop
  | [] => True
  | c :: cs => (c = '\x7b' → '\x7d' ∈ cs) ∧ Closed cs

instance decidableClosed : (cs : List Char) → Decidable (Closed cs)
  | [] => .isTrue trivial
  | _ :: cs => @instDecidableAnd _ _ _ (decidableClosed cs)

/-- What a template is made of: characters that stay, and placeholders with the index they write. -/
inductive Piece where
  | character (c : Char)
  | placeholder (text : List Char) (index : Nat)

namespace Piece

/-- How the piece is written in a template. -/
def spelling : Piece → List Char
  | .character c => [c]
  | .placeholder text _ => '\x7b' :: (text ++ ['\x7d'])

/-- What comes out of the piece: a placeholder that names no argument stays. -/
def filled (args : List String) : Piece → List Char
  | .character c => [c]
  | .placeholder text index =>
      match args[index]? with
      | some argument => argument.toList
      | none => (Piece.placeholder text index).spelling

end Piece

/-! ### Indexes -/

theorem foldl_digits (digits : List Char) :
    digits.foldl (fun value c => value * 10 + (c.toNat - '0'.toNat)) 0 =
      Nat.ofDigits 10 (digits.reverse.map fun c => c.toNat - '0'.toNat) := by
  rw [Nat.ofDigits_eq_foldr, List.foldr_map, List.foldr_reverse]
  simp only [Nat.mul_comm, Nat.add_comm, Nat.cast_id]

theorem digits?_eq_some_iff {digits : List Char} {value : Nat} :
    digits? digits = some value ↔ digits ≠ [] ∧ (∀ c ∈ digits, c.isDigit = true) ∧
      value = Nat.ofDigits 10 (digits.reverse.map fun c => c.toNat - '0'.toNat) := by
  rw [← foldl_digits, ← List.all_eq_true, ← List.isEmpty_eq_false_iff]
  unfold digits?
  cases digits.isEmpty with
  | true => simp
  | false =>
      cases digits.all Char.isDigit with
      | true => simp [eq_comm]
      | false => simp

theorem index?_eq_some_iff {text : List Char} {index : Nat} :
    index? text = some index ↔ WritesIndex text index := by
  unfold index?
  rw [Option.filter_eq_some_iff, digits?_eq_some_iff, decide_eq_true_eq]
  constructor
  · rintro ⟨⟨some, decimal, value⟩, bounded⟩
    refine ⟨⟨_, ?_, some, decimal, value⟩, bounded⟩
    split
    · exact .inr rfl
    · exact .inl rfl
  · rintro ⟨⟨digits, spelled, some, decimal, value⟩, bounded⟩
    rcases spelled with same | signed
    · subst same
      split
      · -- Digits do not begin with a plus sign.
        exact absurd (decimal '+' List.mem_cons_self) (by decide)
      · exact ⟨⟨some, decimal, value⟩, bounded⟩
    · rw [signed]
      exact ⟨⟨some, decimal, value⟩, bounded⟩

theorem WritesIndex.unique {text : List Char} {first second : Nat}
    (former : WritesIndex text first) (latter : WritesIndex text second) : first = second := by
  rw [← index?_eq_some_iff] at former latter
  exact Option.some.inj (former.symm.trans latter)

/-- An index is written without braces. -/
theorem WritesIndex.not_mem {text : List Char} {index : Nat} (written : WritesIndex text index)
    {brace : Char} (isBrace : brace = '\x7b' ∨ brace = '\x7d') : brace ∉ text := by
  obtain ⟨⟨digits, spelled, -, decimal, -⟩, -⟩ := written
  have noDigit : brace ∉ digits := by
    intro member
    have digit := decimal brace member
    rcases isBrace with rfl | rfl
    · exact absurd digit (by decide)
    · exact absurd digit (by decide)
  rcases spelled with rfl | rfl
  · exact noDigit
  · rw [List.mem_cons, not_or]
    refine ⟨?_, noDigit⟩
    rcases isBrace with rfl | rfl
    · decide
    · decide

/-! ### Scans -/

/-- The characters in front of the first occurrence of a character. -/
theorem takeWhile_append_cons {text : List Char} {c : Char} (first : c ∉ text)
    (after : List Char) : (text ++ c :: after).takeWhile (· != c) = text := by
  have others : ∀ other ∈ text, (other != c) = true := by
    intro other member
    refine bne_iff_ne.mpr ?_
    rintro rfl
    exact first member
  rw [List.takeWhile_append_of_pos others, List.takeWhile_cons_of_neg, List.append_nil]
  simp

/-- A character occurs in a text when the characters in front of it are not all. -/
theorem exists_append_cons_of_lt {cs : List Char} {c : Char}
    (within : (cs.takeWhile (· != c)).length < cs.length) :
    ∃ text after, cs = text ++ c :: after ∧ c ∉ text := by
  have member : c ∈ cs := by
    by_contra absent
    have whole : cs.takeWhile (· != c) = cs := by
      refine List.takeWhile_eq_self_iff.mpr fun other member => bne_iff_ne.mpr ?_
      rintro rfl
      exact absent member
    rw [whole] at within
    exact Nat.lt_irrefl _ within
  exact List.eq_append_cons_of_mem member

theorem drop_append_cons (text : List Char) (c : Char) (after : List Char) :
    (text ++ c :: after).drop (text.length + 1) = after := by
  rw [← List.drop_drop, List.drop_left, List.drop_one, List.tail_cons]

variable {args : List String}

/-- The text behind an opening brace begins with a placeholder of an argument exactly when what
stands in front of its first closing brace writes the index of an argument. -/
theorem placeholder?_eq_some_iff {cs : List Char} {argument : String} {size : Nat} :
    placeholder? args cs = some (argument, size) ↔ ∃ text after index,
      cs = text ++ '\x7d' :: after ∧ '\x7d' ∉ text ∧ WritesIndex text index ∧
        args[index]? = some argument ∧ size = text.length + 1 := by
  unfold placeholder?
  constructor
  · intro found
    obtain ⟨_, within, found⟩ := Option.bind_eq_some_iff.mp found
    obtain ⟨index, read, found⟩ := Option.bind_eq_some_iff.mp found
    obtain ⟨_, named, same⟩ := Option.bind_eq_some_iff.mp found
    cases same
    rw [Option.guard_eq_some'] at within
    obtain ⟨text, after, rfl, first⟩ := exists_append_cons_of_lt within
    rw [takeWhile_append_cons first] at read ⊢
    exact ⟨text, after, index, rfl, first, index?_eq_some_iff.mp read, named, rfl⟩
  · rintro ⟨text, after, index, rfl, first, written, named, rfl⟩
    have within : text.length < (text ++ '\x7d' :: after).length := by
      rw [List.length_append, List.length_cons]
      omega
    rw [takeWhile_append_cons first]
    refine Option.bind_eq_some_iff.mpr ⟨(), (Option.guard_eq_some' ()).mpr within, ?_⟩
    refine Option.bind_eq_some_iff.mpr ⟨index, index?_eq_some_iff.mpr written, ?_⟩
    exact Option.bind_eq_some_iff.mpr ⟨argument, named, rfl⟩

theorem fillChars_eq_drop (skipped : Nat) (cs : List Char) :
    fillChars args skipped cs = fillChars args 0 (cs.drop skipped) := by
  induction cs generalizing skipped with
  | nil => rw [List.drop_nil, fillChars, fillChars]
  | cons c cs ih =>
      cases skipped with
      | zero => rfl
      | succ skipped => rw [fillChars, ih, List.drop_succ_cons]

theorem fillChars_of_ne {c : Char} (other : c ≠ '\x7b') (cs : List Char) :
    fillChars args 0 (c :: cs) = c :: fillChars args 0 cs := by
  rw [fillChars, if_neg other]

theorem fills_fillChars (skipped : Nat) (cs : List Char) :
    Fills args (cs.drop skipped) (fillChars args skipped cs) := by
  induction cs generalizing skipped with
  | nil =>
      rw [List.drop_nil, fillChars]
      exact .nil
  | cons c cs ih =>
      cases skipped with
      | succ skipped => exact ih skipped
      | zero =>
          rw [List.drop_zero, fillChars]
          split
          · next brace =>
              subst brace
              cases found : placeholder? args cs with
              | some named =>
                  obtain ⟨argument, size⟩ := named
                  obtain ⟨text, after, index, rfl, first, written, named, rfl⟩ :=
                    placeholder?_eq_some_iff.mp found
                  have later := ih (text.length + 1)
                  rw [drop_append_cons] at later
                  exact .placeholder first written named later
              | none =>
                  refine .brace ?_ (ih 0)
                  intro text after index split first written
                  by_contra named
                  have known := List.getElem?_eq_getElem (Nat.lt_of_not_le named)
                  have some := placeholder?_eq_some_iff.mpr
                    ⟨text, after, index, split, first, written, known, rfl⟩
                  rw [found] at some
                  cases some
          · next other => exact .character other (ih 0)

/-- The scan of a template has one result, the filled template. -/
theorem fills_iff {template filled : List Char} :
    Fills args template filled ↔ filled = fillChars args 0 template := by
  constructor
  · intro fills
    induction fills with
    | nil => rfl
    | character other later ih => rw [fillChars_of_ne other, ← ih]
    | @placeholder text rest filled index argument first written named later ih =>
        have found := placeholder?_eq_some_iff.mpr
          ⟨text, rest, index, rfl, first, written, named, rfl⟩
        rw [fillChars, if_pos rfl, found]
        change _ = argument.toList ++ fillChars args (text.length + 1) (text ++ '\x7d' :: rest)
        rw [fillChars_eq_drop, drop_append_cons, ← ih]
    | @brace rest filled unnamed later ih =>
        have nothing : placeholder? args rest = none := by
          refine Option.eq_none_iff_forall_ne_some.mpr fun ⟨argument, size⟩ found => ?_
          obtain ⟨text, after, index, split, first, written, named, -⟩ :=
            placeholder?_eq_some_iff.mp found
          have known := (List.getElem?_eq_some_iff.mp named).1
          exact Nat.not_le_of_lt known (unnamed text after index split first written)
        rw [fillChars, if_pos rfl, nothing, ← ih]
  · rintro rfl
    exact fills_fillChars 0 template

/-! ### What follows from the scan -/

theorem Closed.of_append {first second : List Char} (closed : Closed (first ++ second)) :
    Closed second := by
  induction first with
  | nil => exact closed
  | cons c cs ih => exact ih closed.2

namespace Fills

/-- Text without opening braces stays. -/
theorem plain {text rest filled : List Char} (single : '\x7b' ∉ text)
    (later : Fills args rest filled) : Fills args (text ++ rest) (text ++ filled) := by
  induction text with
  | nil => exact later
  | cons c cs ih =>
      rw [List.mem_cons, not_or] at single
      exact .character (Ne.symm single.1) (ih single.2)

/-- Without arguments a template stays as it is. -/
theorem eq_of_nil {template filled : List Char} (fills : Fills [] template filled) :
    filled = template := by
  induction fills with
  | nil => rfl
  | character other later ih => rw [ih]
  | placeholder first written named later ih => cases named
  | brace unnamed later ih => rw [ih]

/-- A template whose braces are closed is filled apart from what comes after it: the first closing
brace behind each of its opening braces is one of its own. -/
theorem append {first second former latter : List Char} (left : Fills args first former)
    (closed : Closed first) (right : Fills args second latter) :
    Fills args (first ++ second) (former ++ latter) := by
  induction left with
  | nil => exact right
  | character other later ih => exact .character other (ih closed.2)
  | @placeholder text rest filled index argument own written named later ih =>
      have whole := Fills.placeholder own written named (ih closed.2.of_append.2)
      simpa only [List.cons_append, List.append_assoc] using whole
  | @brace rest filled unnamed later ih =>
      refine .brace ?_ (ih closed.2)
      intro text after index split own written
      have inside : '\x7d' ∈ rest := closed.1 rfl
      rcases List.append_eq_append_iff.mp split with ⟨extra, rfl, -⟩ | ⟨extra, rfl, ends⟩
      · exact absurd (List.mem_append_left extra inside) own
      · cases extra with
        | nil =>
            rw [List.append_nil] at inside
            exact absurd inside own
        | cons c extra =>
            obtain ⟨rfl, -⟩ := List.cons.inj ends
            exact unnamed text extra index rfl own written

end Fills

theorem fillChars_append {text : List Char} (single : '\x7b' ∉ text) (rest : List Char) :
    fillChars args 0 (text ++ rest) = text ++ fillChars args 0 rest :=
  (fills_iff.mp (Fills.plain single (fills_iff.mpr rfl))).symm

/-- A template is made of pieces that are the same for all arguments. -/
structure Composes (template : List Char) (pieces : List Piece) : Prop where
  spelled : pieces.flatMap Piece.spelling = template
  written : ∀ text index, Piece.placeholder text index ∈ pieces → WritesIndex text index
  fills : ∀ args, Fills args template (pieces.flatMap (Piece.filled args))

namespace Composes

theorem nil : Composes [] [] where
  spelled := rfl
  written := fun _ _ member => absurd member List.not_mem_nil
  fills := fun _ => .nil

theorem character {c : Char} {rest : List Char} {pieces : List Piece}
    (later : Composes rest pieces)
    (keeps : ∀ args filled, Fills args rest filled → Fills args (c :: rest) (c :: filled)) :
    Composes (c :: rest) (.character c :: pieces) where
  spelled := congrArg (c :: ·) later.spelled
  written := by
    intro text index member
    rcases List.mem_cons.mp member with same | member
    · cases same
    · exact later.written text index member
  fills := fun args => keeps args _ (later.fills args)

/-- A placeholder is one for all arguments. Where it names no argument it comes out as it is written,
because there is no opening brace in it. -/
theorem placeholder {text rest : List Char} {index : Nat} {pieces : List Piece}
    (written : WritesIndex text index) (later : Composes rest pieces) :
    Composes ('\x7b' :: (text ++ '\x7d' :: rest)) (.placeholder text index :: pieces) where
  spelled := by
    rw [List.flatMap_cons, later.spelled, Piece.spelling, List.cons_append, List.append_assoc]
    rfl
  written := by
    intro other index' member
    rcases List.mem_cons.mp member with same | member
    · cases same
      exact written
    · exact later.written other index' member
  fills := by
    intro args
    have first : '\x7d' ∉ text := written.not_mem (.inr rfl)
    rw [List.flatMap_cons, Piece.filled]
    cases named : args[index]? with
    | some argument => exact .placeholder first written named (later.fills args)
    | none =>
        have kept : Fills args (text ++ '\x7d' :: rest)
            (text ++ '\x7d' :: pieces.flatMap (Piece.filled args)) :=
          .plain (written.not_mem (.inl rfl)) (.character (by decide) (later.fills args))
        simp only [Piece.spelling, List.cons_append, List.append_assoc, List.nil_append]
        refine .brace ?_ kept
        intro text' after index' split own written'
        have same := congrArg (List.takeWhile (· != '\x7d')) split
        rw [takeWhile_append_cons first, takeWhile_append_cons own] at same
        subst same
        rw [← written.unique written']
        exact List.getElem?_eq_none_iff.mp named

end Composes

/-- Every template is made of pieces. -/
theorem exists_pieces (template : List Char) : ∃ pieces, Composes template pieces := by
  match template with
  | [] => exact ⟨[], .nil⟩
  | c :: rest =>
      by_cases begins : c = '\x7b' ∧ ∃ text after index,
          rest = text ++ '\x7d' :: after ∧ WritesIndex text index
      · obtain ⟨rfl, text, after, index, rfl, written⟩ := begins
        obtain ⟨pieces, later⟩ := exists_pieces after
        exact ⟨_, .placeholder written later⟩
      · obtain ⟨pieces, later⟩ := exists_pieces rest
        refine ⟨_, later.character fun args filled fills => ?_⟩
        by_cases brace : c = '\x7b'
        · subst brace
          refine .brace ?_ fills
          intro text after index split _ written
          exact absurd ⟨rfl, text, after, index, split, written⟩ begins
        · exact .character brace fills
termination_by template.length

end TreeLint.Text
