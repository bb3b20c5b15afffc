import Destructure.Diagnostic.Rendering
import Destructure.Dispatch.Matcher
import Destructure.Pattern.Text
import Destructure.Trace
import Destructure.Value.CaseClass
import Destructure.Proofs.Dispatch.Caching
import Destructure.Proofs.Matching.Tests
import Destructure.Proofs.Pattern.RoundTrip
import Destructure.Proofs.Dispatch.FirstMatch
import Destructure.Proofs.Matching.Binders
import Destructure.Proofs.Parsing.Fails
import Destructure.Proofs.Parsing.Flaws
import Destructure.Proofs.Parsing.Brackets
import Destructure.Proofs.Parsing.ErrorPlace
import Destructure.Proofs.Parsing.Lookahead
import Destructure.Proofs.Parsing.ViablePrefix
import Destructure.Proofs.Double.Grids
import Destructure.Proofs.Parsing.EntryPoints
import Destructure.Proofs.Pattern.Spelled
import Destructure.Proofs.Matching.Overlay
import Destructure.Proofs.Matching.StructuralEquality
import Destructure.Proofs.Parsing.Unclosed
import Destructure.Proofs.Parsing.Repair
import Destructure.Proofs.Matching.Widening
import Destructure.Proofs.Matching.Fields
import Destructure.Proofs.Dispatch.TableHistory
import Destructure.Proofs.Dispatch.Validation
import Destructure.Proofs.Dispatch.Footprint
import Destructure.Proofs.Value.Identities
import Destructure.Proofs.Value.Equalities
import Destructure.Proofs.Text.Offsets
import Destructure.Proofs.Diagnostic.Underlines
import Destructure.Proofs.Diagnostic.Clamping
import Destructure.Proofs.Parsing.CallTree
import Destructure.Proofs.Parsing.Calls
import Destructure.Proofs.Parsing.Padding
import Destructure.Proofs.Parsing.Places
import Destructure.Proofs.Matching.Insertions
