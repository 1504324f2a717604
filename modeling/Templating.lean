import Templating.Analysis
import Templating.Arena
import Templating.Ast
import Templating.Build.Builder
import Templating.Build.Event
import Templating.Build.Journal
import Templating.Build.Run
import Templating.Compile
import Templating.Directive.BindingName
import Templating.Directive.Interpolation
import Templating.Directive.Loop
import Templating.Directive.Resolve
import Templating.Error
import Templating.Json.Basic
import Templating.Json.Codec
import Templating.Json.Decode
import Templating.Markup.Construct
import Templating.Markup.Name
import Templating.Markup.Scanner
import Templating.Node.Basic
import Templating.Node.Element
import Templating.Options
import Templating.Proofs.Acceptance
import Templating.Proofs.Analysing
import Templating.Proofs.Cursor
import Templating.Proofs.Document
import Templating.Proofs.Following
import Templating.Proofs.Footing
import Templating.Proofs.Kinship
import Templating.Proofs.Layout
import Templating.Proofs.Lineage
import Templating.Proofs.Notices
import Templating.Proofs.Outline
import Templating.Proofs.Preorder
import Templating.Proofs.Reading
import Templating.Proofs.Recognition
import Templating.Proofs.Recording
import Templating.Proofs.Resolution
import Templating.Proofs.Running
import Templating.Proofs.Settling
import Templating.Proofs.StartTags
import Templating.Proofs.Steps
import Templating.Proofs.Unclosed
import Templating.Proofs.Undisturbed
import Templating.Proofs.Verbatim
import Templating.Source.Position
import Templating.Table
import Templating.Tag
import Templating.Text.Blank
import Templating.Text.Bytes
import Templating.Text.GraphemeExtend
import Templating.Text.Quoted
import Templating.Text.Search
import Templating.Text.Unprintable
import Templating.Tree.Basic
import Templating.Tree.Encode
import Templating.Tree.Listing
import Templating.Proofs.Attributes
import Templating.Proofs.Ancestry
import Templating.Proofs.Gathering
import Templating.Proofs.Succession
import Templating.Proofs.Uncommented
import Templating.Proofs.Dropping
import Templating.Proofs.Erasing
import Templating.Proofs.Locality
import Templating.Proofs.Tokens
import Templating.Proofs.Seams
import Templating.Proofs.Spacing
import Templating.Proofs.Elsewhere
import Templating.Proofs.Insertion
import Templating.Proofs.Words
import Templating.Proofs.Unambiguous
import Templating.Proofs.Faithful
import Templating.Proofs.Trails
import Templating.Proofs.Bracketing
import Templating.Proofs.Signs
import Templating.Proofs.Places
import Templating.Proofs.Extraction
import Templating.Proofs.Progress
import Templating.Proofs.Sharing
import Templating.Proofs.Ownership
import Templating.Proofs.Pointing
import Templating.Proofs.Freeform
import Templating.Proofs.Voids
import Templating.Proofs.Frozen
import Templating.Proofs.Takings
import Templating.Proofs.Passes
import Templating.Proofs.Spelling
import Templating.Proofs.Positions
import Templating.Proofs.Coupling
