import MarkupGrammar.Attribute
import MarkupGrammar.Automaton
import MarkupGrammar.Automaton.Construction
import MarkupGrammar.CharMap
import MarkupGrammar.CharSet
import MarkupGrammar.Character.Age
import MarkupGrammar.Character.Category
import MarkupGrammar.Character.Composition
import MarkupGrammar.Character.Direction
import MarkupGrammar.Character.Folding
import MarkupGrammar.Character.Named
import MarkupGrammar.Character.Property
import MarkupGrammar.Character.Script
import MarkupGrammar.Character.Segment
import MarkupGrammar.Chunked
import MarkupGrammar.Constraint
import MarkupGrammar.Content
import MarkupGrammar.Document.AttributeCheck
import MarkupGrammar.Document.ContentWalk
import MarkupGrammar.Document.Event
import MarkupGrammar.Document.Keys
import MarkupGrammar.Document.Report
import MarkupGrammar.Document.Session
import MarkupGrammar.Document.TreeWalk
import MarkupGrammar.Document.Validation
import MarkupGrammar.Element
import MarkupGrammar.Expression
import MarkupGrammar.Expression.Positions
import MarkupGrammar.Failure
import MarkupGrammar.Fault
import MarkupGrammar.Grammar
import MarkupGrammar.Grammar.Draft
import MarkupGrammar.Limits
import MarkupGrammar.Lowering
import MarkupGrammar.Lowering.Stack
import MarkupGrammar.Markup.Doctype
import MarkupGrammar.Markup.Piece
import MarkupGrammar.Markup.Scan
import MarkupGrammar.Markup.Stream
import MarkupGrammar.Markup.Token
import MarkupGrammar.Markup.Tree
import MarkupGrammar.Markup.Validation
import MarkupGrammar.Model
import MarkupGrammar.Name
import MarkupGrammar.Name.Lexical
import MarkupGrammar.NumberSet
import MarkupGrammar.Occurs
import MarkupGrammar.Overlap
import MarkupGrammar.Particle
import MarkupGrammar.Particle.Text
import MarkupGrammar.Path
import MarkupGrammar.Path.Matcher
import MarkupGrammar.Path.Reader
import MarkupGrammar.Pattern
import MarkupGrammar.Pattern.Escape
import MarkupGrammar.Pattern.Memory
import MarkupGrammar.Pattern.Options
import MarkupGrammar.Pattern.Reader
import MarkupGrammar.Pattern.SetReader
import MarkupGrammar.Pattern.Simple
import MarkupGrammar.Pool
import MarkupGrammar.Proofs.Automaton.Attribution
import MarkupGrammar.Proofs.Automaton.Exploration
import MarkupGrammar.Proofs.Automaton.Run
import MarkupGrammar.Proofs.Automaton.Setup
import MarkupGrammar.Proofs.Automaton.Table
import MarkupGrammar.Proofs.Chunked
import MarkupGrammar.Proofs.Compilation
import MarkupGrammar.Proofs.Content.AllGroup
import MarkupGrammar.Proofs.Content.Answers
import MarkupGrammar.Proofs.Content.Attribution
import MarkupGrammar.Proofs.Content.Continuation
import MarkupGrammar.Proofs.Content.Counts
import MarkupGrammar.Proofs.Content.Earlier
import MarkupGrammar.Proofs.Content.Emptiable
import MarkupGrammar.Proofs.Content.LeafChoice
import MarkupGrammar.Proofs.Content.Mixed
import MarkupGrammar.Proofs.Content.Permutation
import MarkupGrammar.Proofs.Content.Substitution
import MarkupGrammar.Proofs.Content.WellFormed
import MarkupGrammar.Proofs.Document.ContentRun
import MarkupGrammar.Proofs.Document.Defaults
import MarkupGrammar.Proofs.Document.DefaultsReport
import MarkupGrammar.Proofs.Document.ElementPaths
import MarkupGrammar.Proofs.Document.Failing
import MarkupGrammar.Proofs.Document.FixedValues
import MarkupGrammar.Proofs.Document.Forest
import MarkupGrammar.Proofs.Document.ListReferences
import MarkupGrammar.Proofs.Document.Nesting
import MarkupGrammar.Proofs.Document.OpenElement
import MarkupGrammar.Proofs.Document.OptionalCheck
import MarkupGrammar.Proofs.Document.Options
import MarkupGrammar.Proofs.Document.Order
import MarkupGrammar.Proofs.Document.Renumbering
import MarkupGrammar.Proofs.Document.Safety
import MarkupGrammar.Proofs.Document.Session
import MarkupGrammar.Proofs.Document.TextPieces
import MarkupGrammar.Proofs.Document.TreeWalk
import MarkupGrammar.Proofs.Document.WellFormed
import MarkupGrammar.Proofs.Expression.Follow
import MarkupGrammar.Proofs.Expression.Next
import MarkupGrammar.Proofs.Expression.Outline
import MarkupGrammar.Proofs.Expression.Survey
import MarkupGrammar.Proofs.Expression.Tree
import MarkupGrammar.Proofs.Expression.Unfolding
import MarkupGrammar.Proofs.Expression.Writing
import MarkupGrammar.Proofs.Grammar.Assembly
import MarkupGrammar.Proofs.Grammar.Compiled
import MarkupGrammar.Proofs.Grammar.Constraints
import MarkupGrammar.Proofs.Grammar.Contents
import MarkupGrammar.Proofs.Grammar.Order
import MarkupGrammar.Proofs.Grammar.Renumbering
import MarkupGrammar.Proofs.Grammar.WellFormed
import MarkupGrammar.Proofs.Keys.Closing
import MarkupGrammar.Proofs.Keys.Element
import MarkupGrammar.Proofs.Keys.Field
import MarkupGrammar.Proofs.Keys.Lockstep
import MarkupGrammar.Proofs.Keys.Nodes
import MarkupGrammar.Proofs.Keys.Pool
import MarkupGrammar.Proofs.Keys.Reading
import MarkupGrammar.Proofs.Keys.References
import MarkupGrammar.Proofs.Keys.Renumbering
import MarkupGrammar.Proofs.Keys.Repetition
import MarkupGrammar.Proofs.Keys.Tags
import MarkupGrammar.Proofs.Keys.Uniqueness
import MarkupGrammar.Proofs.Keys.Verdict
import MarkupGrammar.Proofs.Keys.WellFormed
import MarkupGrammar.Proofs.Lowering.Calls
import MarkupGrammar.Proofs.Lowering.Forest
import MarkupGrammar.Proofs.Lowering.Nodes
import MarkupGrammar.Proofs.Lowering.Source
import MarkupGrammar.Proofs.Lowering.Spec
import MarkupGrammar.Proofs.Lowering.Stack
import MarkupGrammar.Proofs.Lowering.Tree
import MarkupGrammar.Proofs.Model
import MarkupGrammar.Proofs.Numbering
import MarkupGrammar.Proofs.Outcome
import MarkupGrammar.Proofs.Overlap
import MarkupGrammar.Proofs.Particle.Attribution
import MarkupGrammar.Proofs.Particle.Language
import MarkupGrammar.Proofs.Particle.Orderings
import MarkupGrammar.Proofs.Particle.Use
import MarkupGrammar.Proofs.Path.Matcher
import MarkupGrammar.Proofs.Path.Notation
import MarkupGrammar.Proofs.Path.Reading
import MarkupGrammar.Proofs.Path.Selection
import MarkupGrammar.Proofs.Path.Writing
import MarkupGrammar.Proofs.Pattern.Anchors
import MarkupGrammar.Proofs.Pattern.Meaning
import MarkupGrammar.Proofs.Pattern.Reading
import MarkupGrammar.Proofs.Pattern.Taking
import MarkupGrammar.Proofs.Pool
import MarkupGrammar.Proofs.Pool.Lock
import MarkupGrammar.Proofs.SimpleType.Chains
import MarkupGrammar.Proofs.SimpleType.Derivation
import MarkupGrammar.Proofs.SimpleType.FacetOrder
import MarkupGrammar.Proofs.SimpleType.Patterns
import MarkupGrammar.Proofs.SimpleType.Spacing
import MarkupGrammar.Proofs.Substitution
import MarkupGrammar.Proofs.Substitution.Declared
import MarkupGrammar.Proofs.Text.Cutting
import MarkupGrammar.Proofs.Text.Numeral
import MarkupGrammar.Proofs.Text.Words
import MarkupGrammar.Proofs.Value.Decimal
import MarkupGrammar.Proofs.Value.DecimalLiteral
import MarkupGrammar.Proofs.Value.Hex
import MarkupGrammar.Proofs.Value.Order
import MarkupGrammar.Proofs.Value.Zone
import MarkupGrammar.Proofs.Wildcard
import MarkupGrammar.Scope
import MarkupGrammar.SimpleType
import MarkupGrammar.SimpleType.Builtin
import MarkupGrammar.SimpleType.Facet
import MarkupGrammar.SimpleType.Table
import MarkupGrammar.Substitution
import MarkupGrammar.Text.Blank
import MarkupGrammar.Text.Letter
import MarkupGrammar.Text.Numeral
import MarkupGrammar.Text.Quoted
import MarkupGrammar.Value
import MarkupGrammar.Value.Binary
import MarkupGrammar.Value.Binary64
import MarkupGrammar.Value.Calendar
import MarkupGrammar.Value.Decimal
import MarkupGrammar.Value.Domain
import MarkupGrammar.Value.Domain.Mapping
import MarkupGrammar.Value.Fault
import MarkupGrammar.Value.Uri
import MarkupGrammar.Violation
import MarkupGrammar.Wildcard
