import PromptDoc.Text.Blank
import PromptDoc.Text.Split
import PromptDoc.Map.Ordered
import PromptDoc.Map.Sorted
import PromptDoc.Decimal.Power
import PromptDoc.Decimal.Binary64
import PromptDoc.Decimal.Shortest
import PromptDoc.Decimal.Layout
import PromptDoc.Json.Value
import PromptDoc.Json.Printer
import PromptDoc.Json.Reader
import PromptDoc.Marker.Basic
import PromptDoc.Marker.Split
import PromptDoc.Json.Codec
import PromptDoc.Role
import PromptDoc.Part
import PromptDoc.Message
import PromptDoc.Schema.Basic
import PromptDoc.Tool
import PromptDoc.Metadata.Basic
import PromptDoc.Metadata.Merge
import PromptDoc.Prompt
import PromptDoc.Traced
import PromptDoc.Schema.Shorthand
import PromptDoc.Schema.Compile
import PromptDoc.Conversation.History
import PromptDoc.Conversation.Assembly
import PromptDoc.FrontMatter.Split
import PromptDoc.FrontMatter.Routing
import PromptDoc.FrontMatter.Parse
import PromptDoc.Metadata.Resolve
import PromptDoc.Store.Basic
import PromptDoc.Store.Version
import PromptDoc.Store.Memory
import PromptDoc.Yaml.Cursor
import PromptDoc.Yaml.Text
import PromptDoc.Yaml.Token
import PromptDoc.Yaml.Node
import PromptDoc.Yaml.Scalar
import PromptDoc.Yaml.Document
import PromptDoc.Options
import PromptDoc.Engine
import PromptDoc.Partial.Loader
import PromptDoc.Compiler
import PromptDoc.Text.Uppercase
import PromptDoc.Text.Printable
import PromptDoc.Decimal.Reader
import PromptDoc.Template.Reference
import PromptDoc.Template.Token
import PromptDoc.Template.Syntax
import PromptDoc.Template.Parser
import PromptDoc.Template.Value
import PromptDoc.Template.Operator
import PromptDoc.Template.Filter
import PromptDoc.Template.Function
import PromptDoc.Template.Eval
import PromptDoc.Template.Engine
import PromptDoc.Proofs.Outcome
import PromptDoc.Proofs.Marker.Reading
import PromptDoc.Proofs.Conversation.Turns
import PromptDoc.Proofs.Conversation.Transcript
import PromptDoc.Proofs.Conversation.History
import PromptDoc.Proofs.Partial.Following
import PromptDoc.Proofs.Compiler.Includes
import PromptDoc.Proofs.Schema.Validity
import PromptDoc.Proofs.Schema.Keys
import PromptDoc.Proofs.Schema.Conformance
import PromptDoc.Proofs.Schema.Compilation
import PromptDoc.Proofs.Partial.Walk
import PromptDoc.Proofs.Conversation.Independence
import PromptDoc.Proofs.Marker.Gaps
import PromptDoc.Proofs.Marker.Cuts
import PromptDoc.Proofs.Conversation.Speech
import PromptDoc.Proofs.FrontMatter.Fences
import PromptDoc.Proofs.Metadata.Resolution
import PromptDoc.Proofs.Schema.Finished
import PromptDoc.Proofs.Metadata.Idempotence
import PromptDoc.Proofs.Store.Version
import PromptDoc.Proofs.Store.History
import PromptDoc.Proofs.Store.Answers
import PromptDoc.Proofs.Json.Fields
import PromptDoc.Proofs.Json.RoundTrip
import PromptDoc.Proofs.FrontMatter.EmptyBlock
import PromptDoc.Proofs.Metadata.Layers
import PromptDoc.Proofs.Course
import PromptDoc.Proofs.Schema.Visits
import PromptDoc.Proofs.Metadata.Calls
import PromptDoc.Proofs.Compiler.CompileTime
import PromptDoc.Proofs.Metadata.Tools
import PromptDoc.Proofs.Schema.Grammar
import PromptDoc.Proofs.Schema.Objects
import PromptDoc.Proofs.Conversation.MediaMarkers
import PromptDoc.Proofs.Marker.Layout
import PromptDoc.Proofs.Conversation.Contents
import PromptDoc.Proofs.Conversation.Faults
import PromptDoc.Proofs.Conversation.Insertion
import PromptDoc.Proofs.FrontMatter.Routing
import PromptDoc.Proofs.FrontMatter.Conservation
import PromptDoc.Proofs.Metadata.Combination
import PromptDoc.Proofs.Store.Numbers
import PromptDoc.Proofs.Compiler.Definitions
import PromptDoc.Proofs.Compiler.Registrations
