import Stencil.Token.Piece

/-!
# The tokens of a source

The tokens of a source in order, each with the place where it starts, and the place at
which reading ended. A fault does not move that place, so that complaints about a source
that goes on no further point at the fault.
-/

namespace Stencil.Token

/-- The tokens among the pieces, the first of which starts at `place`. Gaps are gone past like
tokens, but leave none behind. -/
def tokensFrom : Place → List Piece → List Token
  | _, [] => []
  | place, .gap _ text :: rest => tokensFrom (place.past text) rest
  | place, .token kind text :: rest =>
    ⟨kind, place, (place.past text).offset⟩ :: tokensFrom (place.past text) rest

/-- The place behind the pieces, a fault counted as nothing. So where a source cannot be read
further, it ends where the fault begins. -/
def finishFrom : Place → List Piece → Place
  | place, [] => place
  | place, .gap _ text :: rest => finishFrom (place.past text) rest
  | place, .token (.fault _) _ :: rest => finishFrom place rest
  | place, .token _ text :: rest => finishFrom (place.past text) rest

/-- The tokens of a source and the place at which reading it ended. It is behind the last character,
if there is no fault, and else where the fault begins. -/
structure Stream where
  tokens : List Token
  finish : Place

/-- The tokens of a whole source. Reading starts outside tags, and no line end is dropped at the
very beginning. -/
def Stream.ofSource (trim : Bool) (source : String) : Stream :=
  let pieces := pieces trim (.text false) source.toList
  ⟨tokensFrom .first pieces, finishFrom .first pieces⟩

end Stencil.Token
