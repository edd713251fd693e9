import LineConsole.Command.Registry
import LineConsole.Environment
import LineConsole.History.File
import LineConsole.Lexeme.Lexer
import LineConsole.LogRecord
import LineConsole.Style
import LineConsole.Value.Converter
import LineConsole.ArgumentText
import LineConsole.Shell.Execution
import LineConsole.Editor
import LineConsole.Screen.Journal
import LineConsole.Screen.Memory
import LineConsole.Console.LogWriter
import LineConsole.Terminal
import LineConsole.Document
import LineConsole.Document.Yaml.Cursor
import LineConsole.Document.Yaml.Scalar
import LineConsole.Document.Yaml.Layout
import LineConsole.Document.Json
import LineConsole.Document.Yaml
import LineConsole.Config
import LineConsole.Config.Layer
import LineConsole.Config.Loading
import LineConsole.CommandLine
import LineConsole.CommandLine.Batch
import LineConsole.Main
import LineConsole.Proofs.Action
import LineConsole.Proofs.Editor.Drawing
import LineConsole.Proofs.Editor.Pausing
import LineConsole.Console.Run
import LineConsole.Proofs.Console.Coherence
import LineConsole.Proofs.Console.Handover
import LineConsole.Proofs.Editor.Appearance
import LineConsole.Proofs.Editor.Redrawing
import LineConsole.Proofs.Editor.Rendering
import LineConsole.Proofs.Editor.Fidelity
import LineConsole.Proofs.ArgumentText.Quoting
import LineConsole.Proofs.Shell.QuotedArguments
import LineConsole.Proofs.Shell.FailedLines
import LineConsole.Proofs.Lexeme.Lossless
import LineConsole.Proofs.Shell.Scripts
import LineConsole.Proofs.ArgumentText.Plain
import LineConsole.Proofs.Decimal.Integer
import LineConsole.Proofs.Shell.Builtins
import LineConsole.Proofs.Shell.Depth
import LineConsole.Proofs.Shell.ExitLine
import LineConsole.Proofs.Shell.Leaving
import LineConsole.Proofs.Editor.Queueing
import LineConsole.Proofs.Editor.Reliable
import LineConsole.Proofs.Editor.Unheld
import LineConsole.Proofs.Console.Courtesy
import LineConsole.Proofs.Console.KeyOrder
import LineConsole.Proofs.Editor.Requests
import LineConsole.Proofs.Editor.Transparency
import LineConsole.Proofs.Editor.Bounds
import LineConsole.Proofs.Command.Candidates
import LineConsole.Proofs.Shell.Overloads
import LineConsole.Proofs.Console.Exclusion
import LineConsole.Proofs.Config.Layering
import LineConsole.Proofs.Shell.Calls
import LineConsole.Proofs.Shell.Arguments
import LineConsole.Proofs.History.Newest
import LineConsole.Proofs.Shell.Entering
import LineConsole.Proofs.Files.Writing
import LineConsole.Proofs.CommandLine.HistoryFile
import LineConsole.Proofs.Editor.Prompting
import LineConsole.Proofs.Key.Decoding
import LineConsole.Proofs.Shell.Taxonomy
import LineConsole.Proofs.Console.LoopHead
import LineConsole.Proofs.Editor.Scrollback
import LineConsole.Proofs.ArgumentText.Grammar
import LineConsole.Proofs.ArgumentText.Escaping
import LineConsole.Proofs.Shell.EscapedArguments
import LineConsole.Proofs.ArgumentText.Expanding
import LineConsole.Proofs.Shell.Assignments
import LineConsole.Proofs.Shell.TidyVariables
import LineConsole.Proofs.Terminal.RawInput
import LineConsole.Proofs.Lexeme.Tiling
import LineConsole.Proofs.Lexeme.Tokenization
import LineConsole.Proofs.ArgumentText.SinglePass
import LineConsole.Proofs.Lexeme.Relexing
import LineConsole.Proofs.Lexeme.QuotedText
import LineConsole.Proofs.Lexeme.Diagnostics
import LineConsole.Proofs.Editor.Holding
import LineConsole.Proofs.Editor.Highlighting
import LineConsole.Proofs.History.Restoring
import LineConsole.Proofs.Shell.Reentering
import LineConsole.Proofs.History.Walking
import LineConsole.Proofs.Shell.Registering
import LineConsole.Proofs.Shell.Overview
import LineConsole.Proofs.Editor.Mirroring
import LineConsole.Proofs.Value.Conversion
import LineConsole.Proofs.Text.ReturnedFeeds
