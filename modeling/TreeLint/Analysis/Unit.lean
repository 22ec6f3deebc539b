import TreeLint.Symbols.Model
import TreeLint.Text.Quoted
import TreeLint.Version.Basic

/-!
# Units of analysis

One file as a host hands it over: its path, its tree, what is known about the meaning of the tree,
and the version of the language it is written in. The version decides what the language can do.
-/

namespace TreeLint

namespace Version

/-- The version assumed when a host names none. -/
def latest : Version :=
  release 12 0

/-- The first version in which the elements of tuples have names. -/
def namedTuples : Version :=
  release 7 0

/-- The first version in which tuple literals take names over from their elements. -/
def inferredTupleNames : Version :=
  release 7 1

/-- Whether the elements of tuples have names. -/
def supportsNamedTuples (version : Version) : Bool :=
  version.atLeast namedTuples

/-- Whether tuple literals take names over from their elements. -/
def supportsInferredNames (version : Version) : Bool :=
  version.atLeast inferredTupleNames

/-- All parts of a version with their names; segments only where there are any. -/
def details (version : Version) : String :=
  let segments (label kind : String) (parts : List String) : String :=
    if parts.isEmpty then "" else s!", {label}: {kind}({Text.quoted (joined parts)})"
  s!"Version \x7b major: {version.major}, minor: {version.minor}, patch: {version.patch}" ++
    segments "pre" "Prerelease" version.preRelease ++
    segments "build" "BuildMetadata" version.build ++ " \x7d"

end Version

/-- A file to be analyzed. -/
structure AnalysisUnit where
  path : String
  tree : Tree
  model : SemanticModel
  version : Version

namespace AnalysisUnit

/-- A unit about whose meaning nothing is known. -/
def withoutSemantics (path : String) (tree : Tree) : AnalysisUnit :=
  ⟨path, tree, BoundSymbols.empty.model, .latest⟩

/-- The unit in another version of the language. -/
def withVersion (unit : AnalysisUnit) (version : Version) : AnalysisUnit :=
  { unit with version }

/-- A summary of a unit: its path, its version and the size of its text. -/
def summary (unit : AnalysisUnit) : String :=
  s!"AnalysisUnit \x7b path: {Text.quoted unit.path}, " ++
    s!"language_version: LanguageVersion({unit.version.details}), " ++
    s!"text_len: {unit.tree.width} \x7d"

end AnalysisUnit

end TreeLint
