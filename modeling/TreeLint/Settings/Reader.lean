import TreeLint.Json.Typed
import TreeLint.Settings.Configuration

/-!
# Reading configurations

The text form of a configuration is a JSON document. All options may be missing or null, unknown
options are ignored, and an option must not be given twice. A severity given twice to a rule counts
as given last.
-/

namespace TreeLint

open Json Json.Reader

namespace NamingConfiguration

/-- The options that have been read, where each of them is absent until it is read. -/
structure Partial where
  casing : Option (Option Convention)
  inferred : Option (Option Bool)

def readCasing : Reader (Option Convention) :=
  option (choice Convention.variants)

def readInferred : Reader (Option Bool) :=
  option Reader.bool

/-- Reads what follows the name of an option. -/
def readMember (options : Partial) (name : String) : Reader Partial := fun lexemes => do
  if name = casingKey then
    if options.casing.isSome then throw (.duplicateField name)
    let (casing, rest) ← memberValue readCasing lexemes
    return ({ options with casing := some casing }, rest)
  else if name = inferredKey then
    if options.inferred.isSome then throw (.duplicateField name)
    let (inferred, rest) ← memberValue readInferred lexemes
    return ({ options with inferred := some inferred }, rest)
  else
    let (_, rest) ← memberValue skip lexemes
    return (options, rest)

/-- What the naming options are called when their fields are listed. -/
def recordName : String := "struct NamingConfiguration with 2 elements"

/-- Reads naming options. -/
def read : Reader NamingConfiguration
  | .openObject :: rest => do
      let (options, rest) ← allMembers readMember ⟨none, none⟩ rest
      return (⟨options.casing.join, options.inferred.join⟩, rest)
  | .openList :: rest => do
      let (casing, rest) ← item 0 recordName readCasing rest
      let (inferred, rest) ← item 1 recordName readInferred rest
      return (⟨casing, inferred⟩, ← itemsEnd rest)
  | lexeme :: _ => .error (unexpected "struct NamingConfiguration" lexeme)
  | [] => .error (.invalidText .endInValue)

end NamingConfiguration

namespace Configuration

/-- Reads what follows the id of a rule. -/
def readRule (rules : Dict RuleSeverity) (ruleId : String) : Reader (Dict RuleSeverity) :=
  fun lexemes => do
    let (severity, rest) ← memberValue (choice RuleSeverity.variants) lexemes
    return (rules.insert ruleId severity, rest)

def readRules : Reader (Dict RuleSeverity)
  | .openObject :: rest => allMembers readRule .empty rest
  | lexeme :: _ => .error (unexpected "a map" lexeme)
  | [] => .error (.invalidText .endInValue)

/-- The options that have been read, where each of them is absent until it is read. -/
structure Partial where
  naming : Option (Option NamingConfiguration)
  rules : Option (Option (Dict RuleSeverity))

/-- Reads what follows the name of an option. -/
def readMember (options : Partial) (name : String) : Reader Partial := fun lexemes => do
  if name = namingKey then
    if options.naming.isSome then throw (.duplicateField name)
    let (naming, rest) ← memberValue (option NamingConfiguration.read) lexemes
    return ({ options with naming := some naming }, rest)
  else if name = rulesKey then
    if options.rules.isSome then throw (.duplicateField name)
    let (rules, rest) ← memberValue (option readRules) lexemes
    return ({ options with rules := some rules }, rest)
  else
    let (_, rest) ← memberValue skip lexemes
    return (options, rest)

/-- What a configuration is called when its fields are listed. -/
def recordName : String := "struct LinterConfiguration with 2 elements"

def readLexemes : Reader Configuration
  | .openObject :: rest => do
      let (options, rest) ← allMembers readMember ⟨none, none⟩ rest
      return (⟨options.naming.join, options.rules.join⟩, rest)
  | .openList :: rest => do
      let (naming, rest) ← item 0 recordName (option NamingConfiguration.read) rest
      let (rules, rest) ← item 1 recordName (option readRules) rest
      return (⟨naming, rules⟩, ← itemsEnd rest)
  | lexeme :: _ => .error (unexpected "struct LinterConfiguration" lexeme)
  | [] => .error (.invalidText .endInValue)

/-- Reads the text of a configuration. -/
def read (source : String) : Except Problem Configuration :=
  Reader.text readLexemes source

end Configuration

end TreeLint
