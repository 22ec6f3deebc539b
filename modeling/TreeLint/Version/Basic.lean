/-!
# Versions

A semantic version: three numbers, the segments of a pre-release and the segments of the build
metadata. Versions are ordered by their parts from left to right. A release stands above its
pre-releases, and build metadata, which has no meaning of its own, breaks the remaining ties.
-/

namespace TreeLint

/-- A semantic version. -/
structure Version where
  major : Nat
  minor : Nat
  patch : Nat
  preRelease : List String
  build : List String
deriving Repr, DecidableEq

namespace Version

def release (major minor : Nat) : Version :=
  ⟨major, minor, 0, [], []⟩

/-- Segments with dots between them. -/
def joined (segments : List String) : String :=
  ".".intercalate segments

/-- The full text of a version. -/
def text (version : Version) : String :=
  s!"{version.major}.{version.minor}.{version.patch}" ++
    (if version.preRelease.isEmpty then "" else "-" ++ joined version.preRelease) ++
    (if version.build.isEmpty then "" else "+" ++ joined version.build)

/-- The major and the minor number. -/
def short (version : Version) : String :=
  s!"{version.major}.{version.minor}"

/-- Whether a segment is a number. -/
def isNumeric (segment : String) : Bool :=
  segment.toList.all Char.isDigit

/-- The order of pre-release segments: numbers by value and below all other segments. -/
def comparePreReleaseSegment (first second : String) : Ordering :=
  match isNumeric first, isNumeric second with
  | false, true => .gt
  | true, false => .lt
  | false, false => compare first second
  | true, true => (compare first.length second.length).then (compare first second)

/-- A number without its leading zeros. -/
def withoutZeros (segment : String) : String :=
  .ofList (segment.toList.dropWhile (· == '0'))

/-- The order of build segments: numbers by value, then by length, and below all other segments. -/
def compareBuildSegment (first second : String) : Ordering :=
  match isNumeric first, isNumeric second with
  | false, true => .gt
  | true, false => .lt
  | false, false => compare first second
  | true, true =>
      ((compare (withoutZeros first).length (withoutZeros second).length).then
        (compare (withoutZeros first) (withoutZeros second))).then
        (compare first.length second.length)

/-- The order of lists of segments: by the first difference, a beginning below its continuation. -/
def compareSegments (order : String → String → Ordering) : List String → List String → Ordering
  | [], [] => .eq
  | [], _ :: _ => .lt
  | _ :: _, [] => .gt
  | first :: firsts, second :: seconds =>
      (order first second).then (compareSegments order firsts seconds)

/-- The order of pre-releases, where no pre-release is the highest. -/
def comparePreRelease (first second : List String) : Ordering :=
  match first, second with
  | [], [] => .eq
  | [], _ :: _ => .gt
  | _ :: _, [] => .lt
  | _, _ => compareSegments comparePreReleaseSegment first second

def order (first second : Version) : Ordering :=
  (compare first.major second.major).then <|
  (compare first.minor second.minor).then <|
  (compare first.patch second.patch).then <|
  (comparePreRelease first.preRelease second.preRelease).then <|
  compareSegments compareBuildSegment first.build second.build

/-- Whether one version is at least another. -/
def atLeast (version bound : Version) : Bool :=
  version.order bound != .lt

end Version

end TreeLint
