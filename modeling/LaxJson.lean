import LaxJson.Checker.Document
import LaxJson.Checker.SpotCheck
import LaxJson.Fault.Message
import LaxJson.Input.ByteReader
import LaxJson.TokenStream
import LaxJson.Tree.Access
import LaxJson.Tree.Render
import LaxJson.Proofs.Blanks
import LaxJson.Proofs.Decoding
import LaxJson.Proofs.Escaping
import LaxJson.Proofs.Filtering
import LaxJson.Proofs.Integers
import LaxJson.Proofs.Malformed
import LaxJson.Proofs.Nesting
import LaxJson.Proofs.Refusals
import LaxJson.Proofs.Rendering.Compact
import LaxJson.Proofs.Reuse
import LaxJson.Proofs.Scan.Keywords
import LaxJson.Proofs.Scan.Reference
import LaxJson.Proofs.Scan.Restarts
import LaxJson.Proofs.Stack
import LaxJson.Proofs.Standing
import LaxJson.Proofs.Unchecked
