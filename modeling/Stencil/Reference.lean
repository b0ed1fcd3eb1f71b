import Stencil.Path

/-!
# References to templates

A template names another one by its full name, or relative to its own place: a reference
that starts with `./` or `../` is followed from the directory of the referring template.
Empty segments and single dots lead nowhere, two dots lead one directory up, and no
reference leads above the root.
-/

namespace Stencil.Reference

open Stencil.Path (Segment)

/-- Whether a reference is followed from the place of the referring template. It has to begin with
dots and a slash; anything else is a full name, even with dots in it further on. -/
def isRelative : List Char → Bool
  | '.' :: '/' :: _ => true
  | '.' :: '.' :: '/' :: _ => true
  | _ => false

/-- The directory of a template, the innermost segment first: its name without the last
segment, empty segments left out. -/
def directory (name : List Char) : List Segment :=
  ((Path.split name).dropLast.filter (· ≠ [])).reverse

/-- Follow segments from a directory whose innermost segment comes first. The root has no directory
above it, so two dots there lead nowhere. -/
def follow : List Segment → List Segment → Option (List Segment)
  | place, [] => some place
  | place, segment :: rest =>
    if segment = [] ∨ segment = ['.'] then follow place rest
    else if segment = ['.', '.'] then
      match place with
      | [] => none
      | _ :: above => follow above rest
    else follow (segment :: place) rest

/-- The full name that a reference stands for. Without a referring template the root is
the starting point; `none` if the reference leads above the root. -/
def resolve? (referrer : Option String) (target : String) : Option String :=
  if isRelative target.toList then
    let start := (referrer.map fun name => directory name.toList).getD []
    (follow start (Path.split target.toList)).map fun place =>
      String.ofList (Path.join place.reverse)
  else some target

end Stencil.Reference
