import TypeIdentity.BasicType
import TypeIdentity.Describe
import TypeIdentity.Direction
import TypeIdentity.Engine.Config
import TypeIdentity.Engine.Counters
import TypeIdentity.Engine.Memory
import TypeIdentity.Engine.Promotion
import TypeIdentity.Error
import TypeIdentity.HostType
import TypeIdentity.Identifier
import TypeIdentity.Kind
import TypeIdentity.Literal.Basic
import TypeIdentity.Literal.FieldEntry
import TypeIdentity.Literal.Level
import TypeIdentity.Literal.PackageName
import TypeIdentity.Literal.Parser
import TypeIdentity.Literal.Printer
import TypeIdentity.Literal.Reading
import TypeIdentity.Literal.Table
import TypeIdentity.Literal.Wrapped
import TypeIdentity.Packages
import TypeIdentity.PathCodec.Basic
import TypeIdentity.PathCodec.Token
import TypeIdentity.Promotion.Fields
import TypeIdentity.Promotion.Methods
import TypeIdentity.Promotion.Path
import TypeIdentity.Promotion.Ranks
import TypeIdentity.Promotion.Walk
import TypeIdentity.Proofs.Accord
import TypeIdentity.Proofs.Coupling
import TypeIdentity.Proofs.Engine.Accounting
import TypeIdentity.Proofs.Engine.Calls
import TypeIdentity.Proofs.Engine.Collisions
import TypeIdentity.Proofs.Engine.Correspondence
import TypeIdentity.Proofs.Engine.Denotation
import TypeIdentity.Proofs.Engine.EmbeddedNames
import TypeIdentity.Proofs.Engine.FirstFinds
import TypeIdentity.Proofs.Engine.Identity
import TypeIdentity.Proofs.Engine.Instantiation
import TypeIdentity.Proofs.Engine.Interning
import TypeIdentity.Proofs.Engine.Literals
import TypeIdentity.Proofs.Engine.Lookups
import TypeIdentity.Proofs.Engine.MemberNames
import TypeIdentity.Proofs.Engine.Members
import TypeIdentity.Proofs.Engine.MethodSelection
import TypeIdentity.Proofs.Engine.PointerMethods
import TypeIdentity.Proofs.Engine.PromotedFields
import TypeIdentity.Proofs.Engine.Remembering
import TypeIdentity.Proofs.Engine.Resolution
import TypeIdentity.Proofs.Engine.Tallies
import TypeIdentity.Proofs.Guarantee
import TypeIdentity.Proofs.Literal.Bodies
import TypeIdentity.Proofs.Literal.Elements
import TypeIdentity.Proofs.Literal.Entries
import TypeIdentity.Proofs.Literal.Heads
import TypeIdentity.Proofs.Literal.Interning
import TypeIdentity.Proofs.Literal.Lengths
import TypeIdentity.Proofs.Literal.Levels
import TypeIdentity.Proofs.Literal.Names
import TypeIdentity.Proofs.Literal.Origins
import TypeIdentity.Proofs.Literal.PrintedEntries
import TypeIdentity.Proofs.Literal.QuotedTags
import TypeIdentity.Proofs.Literal.Recovery
import TypeIdentity.Proofs.Literal.RoundTrip
import TypeIdentity.Proofs.Literal.Sharing
import TypeIdentity.Proofs.Literal.Signatures
import TypeIdentity.Proofs.Literal.Tables
import TypeIdentity.Proofs.Literal.Transparency
import TypeIdentity.Proofs.Literal.WellFormed
import TypeIdentity.Proofs.Literal.DisplayNames
import TypeIdentity.Proofs.Literal.PathTexts
import TypeIdentity.Proofs.Literal.Wrapping
import TypeIdentity.Proofs.Literal.Respelling
import TypeIdentity.Proofs.Offsets.Brackets
import TypeIdentity.Proofs.Offsets.Parsing
import TypeIdentity.Proofs.Literal.Written
import TypeIdentity.Proofs.Literal.Yields
import TypeIdentity.Proofs.Outcome
import TypeIdentity.Proofs.PathCodec.Answers
import TypeIdentity.Proofs.PathCodec.Escapes
import TypeIdentity.Proofs.PathCodec.Inverse
import TypeIdentity.Proofs.PathCodec.States
import TypeIdentity.Proofs.PathCodec.Tokens
import TypeIdentity.Proofs.Promotion.Coherence
import TypeIdentity.Proofs.Promotion.Exclusion
import TypeIdentity.Proofs.Promotion.Exploration
import TypeIdentity.Proofs.Promotion.FieldPaths
import TypeIdentity.Proofs.Promotion.HostMethodSets
import TypeIdentity.Proofs.Promotion.Limits
import TypeIdentity.Proofs.Promotion.MethodSets
import TypeIdentity.Proofs.Promotion.Paths
import TypeIdentity.Proofs.Promotion.Pointers
import TypeIdentity.Proofs.Promotion.Returns
import TypeIdentity.Proofs.Promotion.Searches
import TypeIdentity.Proofs.Promotion.Selection
import TypeIdentity.Proofs.Promotion.Shortcuts
import TypeIdentity.Proofs.Promotion.Stacks
import TypeIdentity.Proofs.Promotion.Surveys
import TypeIdentity.Proofs.Promotion.Twins
import TypeIdentity.Proofs.Promotion.Walks
import TypeIdentity.Proofs.Resolving
import TypeIdentity.Proofs.Scan.Balance
import TypeIdentity.Proofs.Scan.Joining
import TypeIdentity.Proofs.Scan.Matching
import TypeIdentity.Proofs.Scan.Nested
import TypeIdentity.Proofs.Scan.Splitting
import TypeIdentity.Proofs.Scan.Words
import TypeIdentity.Proofs.Shapes
import TypeIdentity.Proofs.Text.Leads
import TypeIdentity.Proofs.Text.Numerals
import TypeIdentity.Proofs.Text.Quoting
import TypeIdentity.Proofs.Text.Trimming
import TypeIdentity.Proofs.Underlying
import TypeIdentity.Proofs.Views
import TypeIdentity.Resolve
import TypeIdentity.RuntimeType.Basic
import TypeIdentity.RuntimeType.Identity
import TypeIdentity.Scan.Parts
import TypeIdentity.Scan.Quoting
import TypeIdentity.Scan.Span
import TypeIdentity.Serial.Data
import TypeIdentity.Serial.Forms
import TypeIdentity.Shape
import TypeIdentity.StaticType.Basic
import TypeIdentity.StaticType.Identity
import TypeIdentity.StaticType.Substitution
import TypeIdentity.Store
import TypeIdentity.Text.Blank
import TypeIdentity.Text.Escaped
import TypeIdentity.Text.Lead
import TypeIdentity.Text.Numeral
import TypeIdentity.Text.Quoted
import TypeIdentity.Text.Utf8
import TypeIdentity.Unicode.Alphabetic
import TypeIdentity.Unicode.DefaultIgnorable
import TypeIdentity.Unicode.GraphemeExtend
import TypeIdentity.Unicode.Graphic
import TypeIdentity.Unicode.Numeric
import TypeIdentity.Unicode.Ranges
import TypeIdentity.Unicode.Uppercase
import TypeIdentity.View
