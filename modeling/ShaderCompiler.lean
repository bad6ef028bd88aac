import ShaderCompiler.Stage
import ShaderCompiler.Vocabulary
import ShaderCompiler.Construct
import ShaderCompiler.Decimal.Shortest
import ShaderCompiler.Decimal.Reading
import ShaderCompiler.Text.Letter
import ShaderCompiler.Text.Lowercase
import ShaderCompiler.Token.Basic
import ShaderCompiler.Token.Fault
import ShaderCompiler.Token.Lexer
import ShaderCompiler.Tree.Basic
import ShaderCompiler.Tree.Decl
import ShaderCompiler.Tree.Visit
import ShaderCompiler.Grammar.Reader
import ShaderCompiler.Grammar.Body
import ShaderCompiler.Grammar.Class
import ShaderCompiler.Interface.Qualifier
import ShaderCompiler.Interface.Basic
import ShaderCompiler.Dependency
import ShaderCompiler.Diagnostic
import ShaderCompiler.Interface.Legal
import ShaderCompiler.Intrinsic
import ShaderCompiler.Digest.Sha256
import ShaderCompiler.Digest.Source
import ShaderCompiler.Typing.ValueType
import ShaderCompiler.Typing.ClassContext
import ShaderCompiler.Typing.Infer
import ShaderCompiler.MethodBody
import ShaderCompiler.Normal.Operators
import ShaderCompiler.Normal.Locals
import ShaderCompiler.Normal.Form
import ShaderCompiler.Emission.Line
import ShaderCompiler.Emission.Uses
import ShaderCompiler.Emission.Call
import ShaderCompiler.Emission.Expr
import ShaderCompiler.Emission.Declaration
import ShaderCompiler.Emission.Stmt
import ShaderCompiler.Emission.Function
import ShaderCompiler.Distinct
import ShaderCompiler.Settings.Basic
import ShaderCompiler.Interface.Header
import ShaderCompiler.Interface.Annotations
import ShaderCompiler.Interface.Reflect
import ShaderCompiler.Assembly.Sections
import ShaderCompiler.Assembly.Declarations
import ShaderCompiler.Order.DepthFirst
import ShaderCompiler.Order.Functions
import ShaderCompiler.Shader.Effort
import ShaderCompiler.Shader.Compile
import ShaderCompiler.Shader.Source
import ShaderCompiler.Shader.Cache
import ShaderCompiler.Linker.Basic
import ShaderCompiler.Linker.Link
import ShaderCompiler.Session
import ShaderCompiler.Tree.Build
import ShaderCompiler.Toml.Value
import ShaderCompiler.Toml.Scalar
import ShaderCompiler.Toml.Text
import ShaderCompiler.Toml.Tree
import ShaderCompiler.Toml.Reader
import ShaderCompiler.Toml.Writer
import ShaderCompiler.Settings.Text
import ShaderCompiler.CommandLine.Arguments
import ShaderCompiler.CommandLine.Path
import ShaderCompiler.CommandLine.FileTree
import ShaderCompiler.CommandLine.Failure
import ShaderCompiler.CommandLine.Run
import ShaderCompiler.Main
import ShaderCompiler.Proofs.Sequencing
import ShaderCompiler.Proofs.Token.Scanning
import ShaderCompiler.Proofs.Token.Pieces
import ShaderCompiler.Proofs.Token.Cutting
import ShaderCompiler.Proofs.Emission.Written
import ShaderCompiler.Proofs.Emission.Spacing
import ShaderCompiler.Proofs.Grammar.Steps
import ShaderCompiler.Proofs.Grammar.Levels
import ShaderCompiler.Proofs.Grammar.Operators
import ShaderCompiler.Proofs.Grammar.Reading
import ShaderCompiler.Proofs.Grammar.Lookahead
import ShaderCompiler.Proofs.Typing.Discrete
import ShaderCompiler.Proofs.Emission.Plain
import ShaderCompiler.Proofs.Emission.RoundTrip
import ShaderCompiler.Proofs.Normal.Renaming
import ShaderCompiler.Proofs.Normal.Capture
import ShaderCompiler.Proofs.Normal.Splicing
import ShaderCompiler.Proofs.Normal.Hygiene
import ShaderCompiler.Proofs.Tree.Visiting
import ShaderCompiler.Proofs.Normal.Operators
import ShaderCompiler.Proofs.Normal.Numbering
import ShaderCompiler.Proofs.Normal.Idempotence
import ShaderCompiler.Proofs.Normal.Commuting
import ShaderCompiler.Proofs.Normal.PassOrder
import ShaderCompiler.Proofs.Emission.Outcomes
import ShaderCompiler.Proofs.Emission.Derivations
import ShaderCompiler.Proofs.Emission.Statements
import ShaderCompiler.Proofs.Emission.Functions
import ShaderCompiler.Proofs.Emission.Acceptance
import ShaderCompiler.Proofs.Emission.PrunedText
import ShaderCompiler.Proofs.Emission.Refusal
import ShaderCompiler.Proofs.Emission.PassedOver
import ShaderCompiler.Proofs.Order.Walking
import ShaderCompiler.Proofs.Order.Cycles
import ShaderCompiler.Proofs.Emission.Reasons
import ShaderCompiler.Proofs.Linker.CallGraph
import ShaderCompiler.Proofs.Linker.Linking
import ShaderCompiler.Proofs.Linker.Growth
import ShaderCompiler.Proofs.Linker.Keeping
import ShaderCompiler.Proofs.Linker.Transparency
import ShaderCompiler.Proofs.Shader.Interleaving
import ShaderCompiler.Proofs.Position.Trees
import ShaderCompiler.Proofs.Position.Readers
import ShaderCompiler.Proofs.Position.Bodies
import ShaderCompiler.Proofs.Position.Sources
import ShaderCompiler.Proofs.Position.Emitting
import ShaderCompiler.Proofs.Position.Normalizing
import ShaderCompiler.Proofs.Position.Reflecting
import ShaderCompiler.Proofs.Position.Compiling
import ShaderCompiler.Proofs.Emission.Discarding
import ShaderCompiler.Proofs.Emission.TypeNames
import ShaderCompiler.Proofs.Linker.Arising
import ShaderCompiler.Proofs.Linker.Discarding
import ShaderCompiler.Proofs.Linker.GlobalNames
import ShaderCompiler.Proofs.Linker.StructTypes
import ShaderCompiler.Proofs.Linker.Registering
import ShaderCompiler.Proofs.Interface.Annotated
import ShaderCompiler.Proofs.Interface.Legality
import ShaderCompiler.Proofs.Interface.CommentLines
import ShaderCompiler.Proofs.Interface.DebugComments
import ShaderCompiler.Proofs.Interface.ArrayFields
import ShaderCompiler.Proofs.Shader.Presentation
import ShaderCompiler.Proofs.Emission.MethodOrder
import ShaderCompiler.Proofs.Emission.Operands
import ShaderCompiler.Proofs.Emission.SideEffects
import ShaderCompiler.Proofs.Typing.Promotion
import ShaderCompiler.Proofs.Emission.Remainders
import ShaderCompiler.Proofs.Order.CalleesFirst
import ShaderCompiler.Proofs.Order.Stability
import ShaderCompiler.Proofs.Shader.Reordering
import ShaderCompiler.Proofs.Emission.Calls
import ShaderCompiler.Proofs.Shader.Dependencies
import ShaderCompiler.Proofs.Normal.Alpha
import ShaderCompiler.Proofs.Normal.LocalNames
import ShaderCompiler.Proofs.Interface.Conservation
import ShaderCompiler.Proofs.Typing.Spelling
import ShaderCompiler.Proofs.Interface.InstanceNames
import ShaderCompiler.Proofs.Emission.DeclaredTypes
import ShaderCompiler.Proofs.Shader.InitialValues
import ShaderCompiler.Proofs.Token.Tiling
import ShaderCompiler.Proofs.Linker.Rebinding
import ShaderCompiler.Proofs.Grammar.Termination
import ShaderCompiler.Proofs.Emission.Presence
import ShaderCompiler.Proofs.Token.Spaced
import ShaderCompiler.Proofs.Interface.StructsOnce
import ShaderCompiler.Proofs.Normal.SmallestNames
import ShaderCompiler.Proofs.Grammar.WrittenAttributes
import ShaderCompiler.Proofs.Interface.WrittenCounts
