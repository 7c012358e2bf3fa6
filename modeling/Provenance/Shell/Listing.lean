import Provenance.Folder
import Provenance.Shell.Pattern

/-!
# Files that fit a pattern

A pattern is followed component by component. A component without wildcards is kept as it is,
and a name that begins with a point is only fitted by a pattern that does so too.
-/

namespace Provenance.Shell.Listing

open Pattern

/-- Cut a pattern at its slashes. -/
def components : List Marked → List (List Marked)
  | [] => [[]]
  | (c, q) :: rest =>
    if c = '/' then [] :: components rest
    else
      match components rest with
      | first :: others => ((c, q) :: first) :: others
      | [] => [[(c, q)]]

/-- The names in a directory that a component fits. -/
def fitting (f : Folder) (d : Directory) (component : List Marked) : List Octets :=
  let hidden := component.head?.any fun (c, _) => c = '.'
  let special : List Octets := if hidden then [['.'], ['.', '.']] else []
  let names := special ++ (f.names d).map Octets.ofText
  names.filter fun name =>
    (hidden || name.head? ≠ some '.') && Pattern.fits (Pattern.ofMarked component) name

/-- The path leads to something. -/
def isThere (f : Folder) (place : Directory) (path : Octets) : Bool :=
  match f.resolveFrom place path.toText with
  | .ok (.vacant _) | .error _ => false
  | .ok _ => true

/-- The directory that a path leads to; the empty path leads to the given one. -/
def directory? (f : Folder) (place : Directory) (path : Octets) : Option Directory :=
  if path = [] then some place
  else
    match f.resolveFrom place path.toText with
    | .ok (.directory d) => some d
    | _ => none

/-- The paths that the components of a pattern fit, behind a path that is already known. -/
def expand (f : Folder) (place : Directory) (known : Octets) : List (List Marked) → List Octets
  | [] => []
  | [last] =>
    if isWild last then
      (directory? f place known).elim [] fun d => (fitting f d last).map (known ++ ·)
    else
      let path := known ++ last.map Prod.fst
      if isThere f place path then [path] else []
  | component :: rest =>
    if isWild component then
      (directory? f place known).elim [] fun d =>
        (fitting f d component).flatMap fun name =>
          let path := known ++ name ++ ['/']
          if (directory? f place path).isSome then expand f place path rest else []
    else expand f place (known ++ component.map Prod.fst ++ ['/']) rest

/-- The paths that a pattern fits, in order; the pattern itself if it fits none. -/
def ofPattern (f : Folder) (place : Directory) (pattern : List Marked) : List Octets :=
  if isWild pattern then
    match expand f place [] (components pattern) with
    | [] => [pattern.map Prod.fst]
    | paths => paths.mergeSort fun a b => !decide (b < a)
  else [pattern.map Prod.fst]

end Provenance.Shell.Listing
