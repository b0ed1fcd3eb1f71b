import Stencil.Data
import Stencil.Directory.Loading
import Stencil.Engine.Basic
import Stencil.JsonText.Reading
import Stencil.Proofs.Ancestry
import Stencil.Proofs.Autoescape
import Stencil.Proofs.Blanks
import Stencil.Proofs.Bounds
import Stencil.Proofs.Comments
import Stencil.Proofs.Concatenation
import Stencil.Proofs.Conditions
import Stencil.Proofs.Depth
import Stencil.Proofs.Equality
import Stencil.Proofs.Escaping
import Stencil.Proofs.Expansion
import Stencil.Proofs.Extensions
import Stencil.Proofs.Footprint
import Stencil.Proofs.Invalidation
import Stencil.Proofs.Invariants
import Stencil.Proofs.Joining
import Stencil.Proofs.Ledger
import Stencil.Proofs.LineEnds
import Stencil.Proofs.Literals
import Stencil.Proofs.Nesting
import Stencil.Proofs.Paths
import Stencil.Proofs.Precedence
import Stencil.Proofs.Reachable
import Stencil.Proofs.Refusals
import Stencil.Proofs.Relative
import Stencil.Proofs.RoundTrip
import Stencil.Proofs.Siblings
import Stencil.Proofs.Splicing
import Stencil.Proofs.Substitution
import Stencil.Proofs.Visits
import Stencil.Settings.Reading
import Stencil.Store
