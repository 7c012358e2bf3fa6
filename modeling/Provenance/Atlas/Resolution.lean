import Provenance.Atlas

/-!
# Finding a source by name

A file is found among the sources by decreasing specificity: first a source spelled exactly
like it, then one that is spelled like it behind the source root, then one with the same last
component. Components are separated by slashes or backslashes.
-/

namespace Provenance

/-- The character separates components of a path. -/
def isPathSeparator (c : Char) : Bool := c = '/' || c = '\\'

/-- The last component of a path. -/
def lastComponent (path : String) : String :=
  String.ofList (path.toList.reverse.takeWhile (!isPathSeparator ·)).reverse

/-- A source behind a source root, with a slash between them unless the root ends in one. -/
def joinRoot (root source : String) : String :=
  if root.toList.getLast? = some '/' then root ++ source else root ++ "/" ++ source

namespace Atlas

/-- Number of the first source that satisfies a property. -/
def firstSource? (a : Atlas) (p : String → Bool) : Option UInt32 :=
  (a.sources.toList.findIdx? p).map UInt32.ofNat

/-- The source that a file name refers to. -/
def resolve? (a : Atlas) (name : String) : Option UInt32 :=
  let exact := a.firstSource? (· == name)
  let rooted := match a.sourceRoot with
    | none => none
    | some root => if root = "" then none else a.firstSource? (joinRoot root · == name)
  let base := a.firstSource? (lastComponent · == lastComponent name)
  exact <|> rooted <|> base

end Atlas

end Provenance
