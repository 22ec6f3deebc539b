import TreeLint.Proofs.Text.Filling
import TreeLint.Proofs.Text.Replacement

/-!
# Filling templates by cutting them

A template can be filled brace by brace: what stands in front of the next brace is cut off, and the
scan goes on with what is left, all at byte offsets that are found in the text. Such a cut is only
possible between characters. The scan never cuts a character apart, comes to an end, and gives the
filled template (`TreeLint.Text.fillCut?_eq`).
-/

namespace TreeLint.Text

/-- The byte offset of the first occurrence of a character. -/
def offsetOf? (c : Char) (cs : List Char) : Option Nat :=
  if c ∈ cs then some (width (cs.takeWhile (· != c))) else none

theorem length_lt_of_dropBytes? {cs rest : List Char} {n : Nat}
    (dropped : dropBytes? cs (n + 1) = some rest) : rest.length < cs.length := by
  induction cs generalizing n with
  | nil => cases dropped
  | cons c cs ih =>
      rw [dropBytes?] at dropped
      split at dropped
      · cases left : n + 1 - c.utf8Size with
        | zero =>
            rw [left, dropBytes?] at dropped
            cases dropped
            exact Nat.lt_succ_self _
        | succ left' =>
            rw [left] at dropped
            exact Nat.lt_succ_of_lt (ih dropped)
      · cases dropped

/-- The argument that the text behind an opening brace names, with the offset of the closing brace.
The outer option is absent when the text in front of the closing brace cannot be cut off. -/
def cutArgument? (args : List String) (cs : List Char) : Option (Option (String × Nat)) :=
  match offsetOf? '\x7d' cs with
  | none => some none
  | some closing => (takeBytes? cs closing).map fun text =>
      ((index? text).bind (args[·]?)).map (·, closing)

/-- Fills what is left of a template; absent when a cut is not between characters. -/
def fillCut? (args : List String) (rest : List Char) : Option (List Char) :=
  match offsetOf? '\x7b' rest with
  | none => some rest
  | some opening =>
      match takeBytes? rest opening, behind : dropBytes? rest (opening + 1) with
      | some before, some after =>
          have := length_lt_of_dropBytes? behind
          match cutArgument? args after with
          | some (some (argument, closing)) =>
              match next : dropBytes? after (closing + 1) with
              | some rest =>
                  have := length_lt_of_dropBytes? next
                  (fillCut? args rest).map (before ++ argument.toList ++ ·)
              | none => none
          | some none => (fillCut? args after).map (before ++ '\x7b' :: ·)
          | none => none
      | _, _ => none
termination_by rest.length

theorem offsetOf?_append_cons {text : List Char} {c : Char} (first : c ∉ text)
    (after : List Char) : offsetOf? c (text ++ c :: after) = some (width text) := by
  rw [offsetOf?, if_pos List.mem_append_cons_self, takeWhile_append_cons first]

/-- What is left behind a character of one byte. -/
theorem dropBytes?_append_cons (text : List Char) {c : Char} (single : c.utf8Size = 1)
    (after : List Char) : dropBytes? (text ++ c :: after) (width text + 1) = some after := by
  have cut := dropBytes?_append (text ++ [c]) after
  rw [width_append, width_cons, width_nil, single, List.append_assoc] at cut
  exact cut

variable {args : List String}

theorem cutArgument?_of_placeholder {text after : List Char} {argument : String} {index : Nat}
    (first : '\x7d' ∉ text) (written : WritesIndex text index)
    (named : args[index]? = some argument) :
    cutArgument? args (text ++ '\x7d' :: after) = some (some (argument, width text)) := by
  rw [cutArgument?, offsetOf?_append_cons first]
  dsimp only
  rw [takeBytes?_append, Option.map_some, index?_eq_some_iff.mpr written, Option.bind_some, named]
  rfl

theorem cutArgument?_of_none {cs : List Char} (unnamed : placeholder? args cs = none) :
    cutArgument? args cs = some none := by
  rw [cutArgument?]
  by_cases member : '\x7d' ∈ cs
  · obtain ⟨text, after, rfl, first⟩ := List.eq_append_cons_of_mem member
    rw [offsetOf?_append_cons first]
    dsimp only
    rw [takeBytes?_append, Option.map_some]
    cases read : index? text with
    | none => rfl
    | some index =>
        rw [Option.bind_some]
        cases named : args[index]? with
        | none => rfl
        | some argument =>
            have found := placeholder?_eq_some_iff.mpr
              ⟨text, after, index, rfl, first, index?_eq_some_iff.mp read, named, rfl⟩
            rw [unnamed] at found
            cases found
  · rw [offsetOf?, if_neg member]

theorem fillCut?_of_not_mem {rest : List Char} (plain : '\x7b' ∉ rest) :
    fillCut? args rest = some rest := by
  rw [fillCut?, offsetOf?, if_neg plain]

theorem fillCut?_opening {before : List Char} (plain : '\x7b' ∉ before) (after : List Char) :
    fillCut? args (before ++ '\x7b' :: after) =
      match cutArgument? args after with
      | some (some (argument, closing)) =>
          (dropBytes? after (closing + 1)).bind fun rest =>
            (fillCut? args rest).map (before ++ argument.toList ++ ·)
      | some none => (fillCut? args after).map (before ++ '\x7b' :: ·)
      | none => none := by
  rw [fillCut?, offsetOf?_append_cons plain]
  dsimp only
  have taken : takeBytes? (before ++ '\x7b' :: after) (width before) = some before :=
    takeBytes?_append before _
  have dropped := dropBytes?_append_cons before (c := '\x7b') rfl after
  split
  · next before' after' taken' dropped' =>
      rw [taken] at taken'
      rw [dropped] at dropped'
      cases taken'
      cases dropped'
      split
      · split
        · next rest next => rw [next, Option.bind_some]
        · next nothing => rw [nothing, Option.bind_none]
      · rfl
      · rfl
  · next neither => exact (neither before after taken dropped).elim

/-- Cutting a template at its braces always works and fills it. -/
theorem fillCut?_eq (args : List String) (rest : List Char) :
    fillCut? args rest = some (fillChars args 0 rest) := by
  induction size : rest.length using Nat.strong_induction_on generalizing rest with
  | h size ih =>
      by_cases member : '\x7b' ∈ rest
      · obtain ⟨before, after, rfl, plain⟩ := List.eq_append_cons_of_mem member
        rw [List.length_append, List.length_cons] at size
        rw [fillCut?_opening plain, fillChars_append plain, fillChars, if_pos rfl]
        cases found : placeholder? args after with
        | none =>
            rw [cutArgument?_of_none found]
            dsimp only
            rw [ih after.length (by omega) after rfl, Option.map_some]
        | some named =>
            obtain ⟨argument, length⟩ := named
            obtain ⟨text, later, index, rfl, first, written, named, rfl⟩ :=
              placeholder?_eq_some_iff.mp found
            rw [List.length_append, List.length_cons] at size
            rw [cutArgument?_of_placeholder first written named]
            dsimp only
            rw [dropBytes?_append_cons text rfl, Option.bind_some,
              ih later.length (by omega) later rfl, Option.map_some,
              fillChars_eq_drop (text.length + 1), drop_append_cons, List.append_assoc]
      · have whole : fillChars args 0 (rest ++ []) = rest ++ fillChars args 0 [] :=
          fillChars_append member []
        rw [List.append_nil, fillChars, List.append_nil] at whole
        rw [fillCut?_of_not_mem member, whole]

/-- Filling a template comes to an end and is one scan from the left. Without arguments nothing
changes. The pieces of the template do not depend on the arguments, so that arguments come out as
they are, and a placeholder that names an argument keeps it when arguments are added. A template
whose braces are closed is filled apart from what comes after it. -/
theorem fill_scans (template : String) (args : List String) :
    fillCut? args template.toList = some (fill template args).toList ∧
    (∀ filled, Fills args template.toList filled ↔ filled = (fill template args).toList) ∧
    fill template [] = template ∧
    (∃ pieces : List Piece, pieces.flatMap Piece.spelling = template.toList ∧
      (∀ others, (fill template others).toList = pieces.flatMap (Piece.filled others)) ∧
      ∀ text index, .placeholder text index ∈ pieces → WritesIndex text index ∧
        ∀ argument, args[index]? = some argument → ∀ more,
          Piece.filled (args ++ more) (.placeholder text index) = argument.toList) ∧
    ∀ second, Closed template.toList →
      fill (template ++ second) args = fill template args ++ fill second args := by
  have chars : ∀ others, (fill template others).toList = fillChars others 0 template.toList :=
    fun others => String.toList_ofList
  refine ⟨?_, ?_, ?_, ?_, ?_⟩
  · rw [chars]
    exact fillCut?_eq args template.toList
  · intro filled
    rw [chars]
    exact fills_iff
  · have same := Fills.eq_of_nil (fills_iff.mpr (chars []))
    exact String.toList_inj.mp same
  · obtain ⟨pieces, composes⟩ := exists_pieces template.toList
    refine ⟨pieces, composes.spelled, ?_, ?_⟩
    · intro others
      rw [chars]
      exact (fills_iff.mp (composes.fills others)).symm
    · intro text index member
      refine ⟨composes.written text index member, ?_⟩
      intro argument named more
      have inside := (List.getElem?_eq_some_iff.mp named).1
      rw [Piece.filled, List.getElem?_append_left inside, named]
  · intro second closed
    have both : Fills args (template ++ second).toList
        ((fill template args).toList ++ (fill second args).toList) := by
      rw [String.toList_append]
      exact .append (fills_iff.mpr (chars args)) closed (fills_iff.mpr String.toList_ofList)
    apply String.toList_inj.mp
    rw [String.toList_append, fills_iff.mp both, fill, String.toList_ofList]

/-- Braces in arguments and braces that open no placeholder stay. -/
theorem fill_scans_braces : Closed "\x7b\x7b0\x7d\x7bx\x7d".toList ∧
    fill ("\x7b\x7b0\x7d\x7bx\x7d" ++ "\x7b+01\x7d \x7b") ["a\x7b1\x7d", "b"] =
      fill "\x7b\x7b0\x7d\x7bx\x7d" ["a\x7b1\x7d", "b"] ++
        fill "\x7b+01\x7d \x7b" ["a\x7b1\x7d", "b"] ∧
    fill ("\x7b\x7b0\x7d\x7bx\x7d" ++ "\x7b+01\x7d \x7b") ["a\x7b1\x7d", "b"] =
      "\x7ba\x7b1\x7d\x7bx\x7db \x7b" := by
  have closed : Closed "\x7b\x7b0\x7d\x7bx\x7d".toList := by decide
  exact ⟨closed, (fill_scans _ _).2.2.2.2 _ closed, by decide⟩

end TreeLint.Text
