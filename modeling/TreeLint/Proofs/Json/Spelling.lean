import TreeLint.Json.Lexeme
import TreeLint.Json.Printer

/-!
# Texts that spell a value

The lexemes that a value consists of, in the order in which its text has them. A text spells a
value if it is cut into these lexemes, whatever blanks and escapes it uses
(`TreeLint.Json.Spells`). The printed text of a value without numbers spells it
(`TreeLint.Json.spells_render`).
-/

namespace TreeLint.Json

/-- A string whose content is known. -/
def stringLexeme (text : String) : Lexeme :=
  .string ⟨.ok text, .ok ()⟩

mutual

/-- The lexemes of a value. How its numbers read is left open. -/
def lexemes (spelled : Number → Reading Number) : Json → List Lexeme
  | .null => [.null]
  | .bool value => [.bool value]
  | .number value => [.number (spelled value)]
  | .string text => [stringLexeme text]
  | .array items => .openList :: itemLexemes spelled true items ++ [.closeList]
  | .object members => .openObject :: memberLexemes spelled true members ++ [.closeObject]

/-- The lexemes of the items of a list, from the first or a later one on. -/
def itemLexemes (spelled : Number → Reading Number) (isFirst : Bool) : List Json → List Lexeme
  | [] => []
  | item :: items =>
      (if isFirst then [] else [.comma]) ++ item.lexemes spelled ++ itemLexemes spelled false items

/-- The lexemes of the members of an object, from the first or a later one on. -/
def memberLexemes (spelled : Number → Reading Number) (isFirst : Bool) :
    List (String × Json) → List Lexeme
  | [] => []
  | (name, value) :: members =>
      (if isFirst then [] else [.comma]) ++ stringLexeme name :: .colon :: value.lexemes spelled ++
        memberLexemes spelled false members

end

/-- Numbers that can be skipped wherever they stand. Their values are not looked at, so a number
may also be too large to have one. -/
def Skippable (spelled : Number → Reading Number) : Prop :=
  ∀ number, (spelled number).skipped = .ok ()

/-- A text spells a value, up to the values of its numbers. -/
def Spells (text : String) (value : Json) : Prop :=
  ∃ spelled, Skippable spelled ∧ Lexeme.ofText text = value.lexemes spelled

mutual

/-- Whether no number occurs in a value. -/
def isNumberless : Json → Bool
  | .number _ => false
  | .array items => areNumberless items
  | .object members => haveNumberless members
  | _ => true

/-- Whether no number occurs in any of several values. -/
def areNumberless : List Json → Bool
  | [] => true
  | item :: items => item.isNumberless && areNumberless items

/-- Whether no number occurs in the values of members. -/
def haveNumberless : List (String × Json) → Bool
  | [] => true
  | (_, value) :: members => value.isNumberless && haveNumberless members

end

/-! ### Cutting printed texts -/

theorem cut_step {mode next : Mode} {c : Char} {lexemes : List Lexeme}
    (taken : mode.take c = (lexemes, some next)) (rest : List Char) :
    Lexeme.cut mode (c :: rest) = lexemes ++ Lexeme.cut next rest := by
  rw [Lexeme.cut, taken]

/-- A string of which some characters have been read, the last of them first. -/
def StringText.ofRead (used : List Char) : StringText :=
  ⟨.ok used, none⟩

/-- Every control character is the code unit of its escape. -/
theorem codeUnit?_control : ∀ code < 32,
    codeUnit? ['0', '0', Nat.digitChar (code / 16), Nat.digitChar (code % 16)] = some code := by
  decide

theorem width_control : ∀ code < 32, Text.width ['0', '0', Nat.digitChar (code / 16)] = 3 ∧
    Text.width ['0', '0', Nat.digitChar (code / 16), Nat.digitChar (code % 16)] = 4 := by
  decide

theorem pushUnit_control {c : Char} (control : c.toNat < 32) (used : List Char) :
    (StringText.ofRead used).pushUnit c.toNat = StringText.ofRead (c :: used) := by
  have notSecond : StringText.isSecondHalf c.toNat = false := by
    simp only [StringText.isSecondHalf, Bool.and_eq_false_iff, decide_eq_false_iff_not]
    omega
  have notFirst : StringText.isFirstHalf c.toNat = false := by
    simp only [StringText.isFirstHalf, Bool.and_eq_false_iff, decide_eq_false_iff_not]
    omega
  simp only [StringText.pushUnit, StringText.ofRead, notSecond, notFirst, Bool.false_eq_true,
    if_false, Char.ofNat_toNat]
  rfl

/-- The escape of a control character is read as the character. -/
theorem cut_control {c : Char} (control : c.toNat < 32) (used rest : List Char) :
    Lexeme.cut (.string (.code ['0', '0']) (.ofRead used))
        (Nat.digitChar (c.toNat / 16) :: Nat.digitChar (c.toNat % 16) :: rest) =
      Lexeme.cut (.string .plain (.ofRead (c :: used))) rest := by
  obtain ⟨three, four⟩ := width_control c.toNat control
  have third : Mode.take (.string (.code ['0', '0']) (.ofRead used))
      (Nat.digitChar (c.toNat / 16)) =
        ([], some (.string (.code ['0', '0', Nat.digitChar (c.toNat / 16)]) (.ofRead used))) := by
    simp only [Mode.take, Mode.inString, List.cons_append, List.nil_append, three]
    rfl
  have fourth : Mode.take (.string (.code ['0', '0', Nat.digitChar (c.toNat / 16)]) (.ofRead used))
      (Nat.digitChar (c.toNat % 16)) =
        ([], some (.string .plain (.ofRead (c :: used)))) := by
    simp only [Mode.take, Mode.inString, List.cons_append, List.nil_append, four,
      codeUnit?_control c.toNat control, pushUnit_control control]
    rfl
  rw [cut_step third, cut_step fourth]
  rfl

/-- A printed character of a string is read as the character. -/
theorem cut_escapeChar (c : Char) (used rest : List Char) :
    Lexeme.cut (.string .plain (.ofRead used)) (escapeChar c ++ rest) =
      Lexeme.cut (.string .plain (.ofRead (c :: used))) rest := by
  unfold escapeChar
  split
  · next same => subst same; rfl
  split
  · next same => subst same; rfl
  split
  · next same => subst same; rfl
  split
  · next same => subst same; rfl
  split
  · next same => subst same; rfl
  split
  · next same => subst same; rfl
  split
  · next same => subst same; rfl
  split
  · next control => exact cut_control control used rest
  · next notQuote notBackslash _ _ _ _ _ notControl =>
      have taken : Mode.take (.string .plain (.ofRead used)) c =
          ([], some (.string .plain (.ofRead (c :: used)))) := by
        simp only [Mode.take, Mode.inString, if_neg notBackslash, if_neg notQuote,
          if_neg notControl]
        rfl
      exact cut_step taken rest

theorem cut_escaped (characters used rest : List Char) :
    Lexeme.cut (.string .plain (.ofRead used)) (characters.flatMap escapeChar ++ rest) =
      Lexeme.cut (.string .plain (.ofRead (characters.reverse ++ used))) rest := by
  induction characters generalizing used with
  | nil => rfl
  | cons c characters ih =>
      rw [List.flatMap_cons, List.append_assoc, cut_escapeChar, ih, List.reverse_cons,
        List.append_assoc]
      rfl

/-- The printed text of a string is one lexeme. -/
theorem cut_stringChars (text : String) (rest : List Char) :
    Lexeme.cut .between (stringChars text ++ rest) =
      stringLexeme text :: Lexeme.cut .between rest := by
  have opened : Mode.take .between '"' = ([], some (.string .plain (.ofRead []))) := rfl
  have closed : Mode.take (.string .plain (.ofRead text.toList.reverse)) '"' =
      ([stringLexeme text], some .between) := by
    change ([Lexeme.string ⟨.ok (.ofList text.toList.reverse.reverse), .ok ()⟩], _) = _
    rw [List.reverse_reverse, String.ofList_toList]
    rfl
  rw [stringChars, List.cons_append, List.cons_append, List.append_assoc, cut_step opened,
    List.nil_append, cut_escaped, List.append_nil, List.singleton_append, cut_step closed,
    List.singleton_append]

theorem cut_separator (isFirst : Bool) (rest : List Char) :
    Lexeme.cut .between ((if isFirst then [] else [',']) ++ rest) =
      (if isFirst then [] else [.comma]) ++ Lexeme.cut .between rest := by
  cases isFirst <;> rfl

mutual

/-- The printed text of a value without numbers is cut into the lexemes of the value. -/
theorem cut_chars (spelled : Number → Reading Number) (value : Json) (rest : List Char)
    (numberless : value.isNumberless = true) :
    Lexeme.cut .between (value.chars ++ rest) =
      value.lexemes spelled ++ Lexeme.cut .between rest := by
  cases value with
  | null => rfl
  | bool truth => cases truth <;> rfl
  | number value => cases numberless
  | string text => exact cut_stringChars text rest
  | array items =>
      have opened : Mode.take .between '[' = ([.openList], some .between) := rfl
      have closed : Mode.take .between ']' = ([.closeList], some .between) := rfl
      have listed := cut_itemChars spelled true items (']' :: rest) numberless
      simp only [chars, lexemes, List.cons_append, List.append_assoc, List.nil_append,
        cut_step opened, listed, cut_step closed]
  | object members =>
      have opened : Mode.take .between '\x7b' = ([.openObject], some .between) := rfl
      have closed : Mode.take .between '\x7d' = ([.closeObject], some .between) := rfl
      have listed := cut_memberChars spelled true members ('\x7d' :: rest) numberless
      simp only [chars, lexemes, List.cons_append, List.append_assoc, List.nil_append,
        cut_step opened, listed, cut_step closed]

theorem cut_itemChars (spelled : Number → Reading Number) (isFirst : Bool) (items : List Json)
    (rest : List Char) (numberless : areNumberless items = true) :
    Lexeme.cut .between (itemChars isFirst items ++ rest) =
      itemLexemes spelled isFirst items ++ Lexeme.cut .between rest := by
  cases items with
  | nil => rfl
  | cons item items =>
      obtain ⟨here, later⟩ := Bool.and_eq_true_iff.mp numberless
      simp only [itemChars, itemLexemes, List.append_assoc, cut_separator,
        cut_chars spelled item _ here, cut_itemChars spelled false items rest later]

theorem cut_memberChars (spelled : Number → Reading Number) (isFirst : Bool)
    (members : List (String × Json)) (rest : List Char)
    (numberless : haveNumberless members = true) :
    Lexeme.cut .between (memberChars isFirst members ++ rest) =
      memberLexemes spelled isFirst members ++ Lexeme.cut .between rest := by
  cases members with
  | nil => rfl
  | cons member members =>
      obtain ⟨name, value⟩ := member
      obtain ⟨here, later⟩ := Bool.and_eq_true_iff.mp numberless
      have colon : Mode.take .between ':' = ([.colon], some .between) := rfl
      simp only [memberChars, memberLexemes, List.append_assoc, List.cons_append, List.nil_append,
        cut_separator, cut_stringChars, cut_step colon, cut_chars spelled value _ here,
        cut_memberChars spelled false members rest later]

end

/-- Numbers whose values are read. -/
theorem skippable_ok : Skippable fun number => ⟨.ok number, .ok ()⟩ := fun _ => rfl

/-- The printed text of a value without numbers spells it. -/
theorem spells_render {value : Json} (numberless : value.isNumberless = true) :
    Spells value.render value := by
  refine ⟨fun number => ⟨.ok number, .ok ()⟩, skippable_ok, ?_⟩
  have cut := cut_chars (fun number => ⟨.ok number, .ok ()⟩) value [] numberless
  rw [List.append_nil, Lexeme.cut, Mode.atEnd, List.append_nil] at cut
  rw [Lexeme.ofText, render, String.toList_ofList, cut]

end TreeLint.Json
