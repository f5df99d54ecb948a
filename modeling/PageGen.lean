import PageGen.Main
import PageGen.Files.Memory
import PageGen.Files.Tree
import PageGen.Proofs.Run
import PageGen.Proofs.InOrder
import PageGen.Proofs.Elements
import PageGen.Proofs.Walk
import PageGen.Proofs.Targets
import PageGen.Proofs.UseGraph
import PageGen.Proofs.Encounters
import PageGen.Proofs.ComponentErrors
import PageGen.Proofs.Stack
import PageGen.Proofs.SharedStack
import PageGen.Proofs.Simulation
import PageGen.Proofs.Substitution
import PageGen.Proofs.Expansion
import PageGen.Proofs.ReferenceTables
import PageGen.Proofs.References
import PageGen.Proofs.ScriptLiterals
import PageGen.Proofs.Calls
import PageGen.Proofs.NumberText
import PageGen.Proofs.Markup
import PageGen.Proofs.Layout
import PageGen.Proofs.PageReading
import PageGen.Proofs.Lines
import PageGen.Proofs.Unsupported
import PageGen.Proofs.Strictness
import PageGen.Proofs.Classes
import PageGen.Proofs.StyleRules
import PageGen.Proofs.Outline
import PageGen.Proofs.LiteralContents
import PageGen.Proofs.Json.Scanning
import PageGen.Proofs.Json.Numbers
import PageGen.Proofs.Json.Reading
import PageGen.Proofs.Json.Containers
import PageGen.Proofs.Json.Skipping
import PageGen.Proofs.Loading.Encoding
import PageGen.Proofs.Loading.Records
import PageGen.Proofs.Loading.Nodes
import PageGen.Proofs.Loading.Readers
import PageGen.Proofs.Loading.RoundTrip
import PageGen.Proofs.Declarations
import PageGen.Proofs.Pruning
import PageGen.Proofs.ScriptReading
import PageGen.Proofs.Command.Preparing
import PageGen.Proofs.Files.Places
import PageGen.Proofs.Command.Outputs
import PageGen.Proofs.Command.Effects
import PageGen.Proofs.Kinds
import PageGen.Proofs.Splitting
import PageGen.Proofs.InlineStyles
import PageGen.Proofs.StyleLists
import PageGen.Proofs.ArgumentBinding
import PageGen.Proofs.Files.Parents
import PageGen.Proofs.Files.Memory
import PageGen.Proofs.Command.MemoryOutputs
import PageGen.Proofs.Rendering
import PageGen.Proofs.WriterCalls
import PageGen.Proofs.Number.Interval
import PageGen.Proofs.Number.Search
import PageGen.Proofs.Number.Shortest
import PageGen.Proofs.Number.Forms
import PageGen.Proofs.Number.Reading
import PageGen.Proofs.Number.NumberString
