import Stencil.Data.Native
import Stencil.Data.Presented
import Stencil.Data.Record
import Stencil.Proofs.Data.Agreement
import Stencil.Proofs.Render.Budget
import Stencil.Proofs.Render.Depth
import Stencil.Proofs.Render.Expansion
import Stencil.Proofs.Render.Likeness
import Stencil.Proofs.Render.Lookups
import Stencil.Proofs.Render.Truncation
import Stencil.Proofs.Template.Grammar
import Stencil.Proofs.Template.Lines
import Stencil.Proofs.Render.Reach
import Stencil.Proofs.Template.Whitespace
import Stencil.Proofs.Render.Whitespace
import Stencil.Proofs.Data.Entries
import Stencil.Proofs.Data.Conversion
import Stencil.Proofs.Data.Order
import Stencil.Proofs.Json.Extension
import Stencil.Proofs.Json.Framing
import Stencil.Proofs.Json.Acceptance
import Stencil.Proofs.Json.Order
import Stencil.Proofs.Value.Order
import Stencil.Proofs.Render.Order
import Stencil.Proofs.Template.Passes
import Stencil.Proofs.Template.Linewise
import Stencil.Proofs.Template.Absorption
import Stencil.Proofs.Template.Concatenation
import Stencil.Proofs.Template.Numbering
import Stencil.Proofs.Registry.Journal
import Stencil.Proofs.Template.Comments
import Stencil.Proofs.Value.Equivalence
import Stencil.Proofs.Data.Building
import Stencil.Proofs.Data.WellFormed
import Stencil.Proofs.Registry.Loading
import Stencil.Proofs.Template.Pulling
import Stencil.Proofs.Data.Keys
import Stencil.Proofs.Binary64.Display
