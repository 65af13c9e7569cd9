import Stencil.Capture.Parser
import Stencil.Catalog.English
import Stencil.Environment.Dotenv
import Stencil.Proofs.Capture.Paths
import Stencil.Proofs.Placeholder.Calls
import Stencil.Proofs.Registry
import Stencil.Proofs.Store.Runs
import Stencil.Proofs.Template.Addressing
import Stencil.Proofs.Template.Draws
import Stencil.Proofs.Template.Stopping
import Stencil.Proofs.Template.Wholeness
import Stencil.Settings
import Stencil.Store.Snapshot
import Stencil.Template.Resolver
import Stencil.Proofs.Template.Mentions
import Stencil.Proofs.Capture.Openings
import Stencil.Proofs.Text.Lines
import Stencil.Proofs.Capture.PathTexts
import Stencil.Proofs.Capture.Texts
import Stencil.Proofs.Double.Decimals
import Stencil.Proofs.Value.Insides
import Stencil.Proofs.Value.Numbers
import Stencil.Proofs.Value.Tokens
import Stencil.Proofs.Value.ReadBack
import Stencil.Proofs.Value.Reading
import Stencil.Proofs.Store.Snapshots
import Stencil.Proofs.Value.DistinctKeys
import Stencil.Proofs.Template.LastOpening
import Stencil.Proofs.Template.Boundaries
import Stencil.Proofs.Text.EscapedPairs
import Stencil.Proofs.Template.Escapes
import Stencil.Proofs.Placeholder.Parentheses
import Stencil.Proofs.Path.Brackets
import Stencil.Proofs.Outcomes
import Stencil.Proofs.Template.Defaults
import Stencil.Proofs.Template.Depth
import Stencil.Proofs.Value.Merging
import Stencil.Proofs.Store.Imports
import Stencil.Proofs.Template.Shape
import Stencil.Proofs.Template.FixedPoints
import Stencil.Proofs.Capture.Applying
import Stencil.Proofs.Calendar.Civil
import Stencil.Proofs.Calendar.Patterns
import Stencil.Proofs.Calendar.Renderings
import Stencil.Proofs.Calendar.Shifts
import Stencil.Proofs.Catalog.Insertion
import Stencil.Proofs.Text.Replacing
import Stencil.Proofs.Catalog.Calls
import Stencil.Proofs.Catalog.Lookups
import Stencil.Proofs.Capture.Roots
import Stencil.Proofs.Double.Nearest
import Stencil.Proofs.Double.Numerals
import Stencil.Proofs.Double.Spelling
import Stencil.Proofs.Placeholder.Numbers
import Stencil.Proofs.Double.Integers
import Stencil.Proofs.Double.Texts
import Stencil.Proofs.Placeholder.Scalars
import Stencil.Proofs.Arithmetic
import Stencil.Proofs.Template.Scalars
import Stencil.Proofs.Registrations
import Stencil.Template.Builder
import Stencil.Proofs.Settings
import Stencil.Proofs.Path.Image
import Stencil.Proofs.Path.Rules
import Stencil.Proofs.Template.Variables
import Stencil.Proofs.Template.Filling
import Stencil.Proofs.Template.Filling
