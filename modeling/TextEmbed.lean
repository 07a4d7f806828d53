import TextEmbed.Command.Arguments
import TextEmbed.Command.Help
import TextEmbed.Command.Library
import TextEmbed.Command.Options
import TextEmbed.Command.Program
import TextEmbed.Command.Run
import TextEmbed.Declaration
import TextEmbed.Echo
import TextEmbed.Embedding
import TextEmbed.Failure
import TextEmbed.Fault
import TextEmbed.FileTree
import TextEmbed.Fragment
import TextEmbed.Identifier
import TextEmbed.Line.Comment
import TextEmbed.Line.Contribution
import TextEmbed.Log
import TextEmbed.Main
import TextEmbed.Path
import TextEmbed.Sink
import TextEmbed.Sink.Blocks
import TextEmbed.Sink.Bytes
import TextEmbed.Sink.Lines
import TextEmbed.Source
import TextEmbed.Text.Blank
import TextEmbed.Text.ControlSequence
import TextEmbed.Text.Extending
import TextEmbed.Text.Invisible
import TextEmbed.Text.Quoted
import TextEmbed.Text.Ranges
import TextEmbed.Utf8
import TextEmbed.Proofs.Embedding.Limit
import TextEmbed.Proofs.Source.Events
import TextEmbed.Proofs.Utf8.RoundTrip
import TextEmbed.Proofs.Declaration.Reader
import TextEmbed.Proofs.Embedding.Decoding
import TextEmbed.Proofs.Utf8.Validity
import TextEmbed.Proofs.Source.Lines
import TextEmbed.Proofs.Embedding.IllFormed
import TextEmbed.Proofs.Source.Segments
import TextEmbed.Proofs.Fragment.Literal
import TextEmbed.Proofs.Embedding.Literals
import TextEmbed.Proofs.Sink.Blocks
import TextEmbed.Proofs.FileTree
import TextEmbed.Proofs.Embedding.Blocks
import TextEmbed.Proofs.Command.Output
import TextEmbed.Proofs.Command.Arguments
import TextEmbed.Proofs.Sink.FullDevice
import TextEmbed.Proofs.Command.FullDevice
import TextEmbed.Proofs.Command.Opening
import TextEmbed.Proofs.Command.Startup
import TextEmbed.Proofs.Embedding.Feeds
import TextEmbed.Proofs.Command.Overwriting
import TextEmbed.Proofs.Command.UnreadableInputs
import TextEmbed.Proofs.Source.Interruptions
import TextEmbed.Proofs.Embedding.Interruptions
import TextEmbed.Proofs.Line.Comment
import TextEmbed.Proofs.Embedding.Stripping
import TextEmbed.Proofs.Command.Rules
import TextEmbed.Proofs.Command.Reading
import TextEmbed.Proofs.Command.StandardOutput
import TextEmbed.Proofs.Command.StandardInput
import TextEmbed.Proofs.Line.Search
import TextEmbed.Proofs.Line.NormalForm
import TextEmbed.Proofs.Fragment.Escaping
import TextEmbed.Proofs.Source.Decomposition
import TextEmbed.Proofs.Identifier
import TextEmbed.Proofs.Embedding.Resuming
import TextEmbed.Proofs.Embedding.Log
import TextEmbed.Proofs.Command.Requests
import TextEmbed.Proofs.Utf8.Lossy
import TextEmbed.Proofs.Path
import TextEmbed.Proofs.FileTree.Resolution
import TextEmbed.Proofs.Command.Naming
import TextEmbed.Proofs.Source.Progress
import TextEmbed.Proofs.Embedding.Progress
