import HookScript.CommandLine.Breakdown
import HookScript.CommandLine.Directory
import HookScript.CommandLine.FileName
import HookScript.CommandLine.Notice
import HookScript.CommandLine.Options
import HookScript.CommandLine.Pipeline
import HookScript.CommandLine.Run
import HookScript.JavaType.Basic
import HookScript.JavaType.BinaryName
import HookScript.JavaType.Notation
import HookScript.Json.Basic
import HookScript.Json.Equality
import HookScript.Json.Overlong
import HookScript.Json.Reader
import HookScript.Json.Writer
import HookScript.Main
import HookScript.Number.Decimal
import HookScript.Number.Nearest
import HookScript.Program.Assembly
import HookScript.Program.Catalog
import HookScript.Program.Class
import HookScript.Program.Dump
import HookScript.Program.Loading
import HookScript.Program.Ownership
import HookScript.Program.Resolution
import HookScript.Program.Selection
import HookScript.Proofs.CommandLine.Reload
import HookScript.Proofs.JavaType.Display
import HookScript.Proofs.JavaType.Grammar
import HookScript.Proofs.JavaType.OverloadArgument
import HookScript.Proofs.JavaType.Reading
import HookScript.Proofs.JavaType.Signature
import HookScript.Proofs.Json.Quoting
import HookScript.Proofs.Json.Reading
import HookScript.Proofs.Json.RoundTrip
import HookScript.Proofs.Outcome
import HookScript.Proofs.Program.Acceptance
import HookScript.Proofs.Program.Dump
import HookScript.Proofs.Program.Duplicates
import HookScript.Proofs.Program.Entry
import HookScript.Proofs.Program.ErrorPath
import HookScript.Proofs.Program.Identity
import HookScript.Proofs.Program.Loading
import HookScript.Proofs.Program.Ownership
import HookScript.Proofs.Program.PlainDump
import HookScript.Proofs.Program.Resolution
import HookScript.Proofs.Script.Escaping
import HookScript.Proofs.Script.Identifier
import HookScript.Proofs.Script.Inline
import HookScript.Proofs.Script.Literal
import HookScript.Proofs.Script.MemberName
import HookScript.Proofs.Script.Scope
import HookScript.Proofs.Snippet.Bindings
import HookScript.Proofs.Snippet.Composition
import HookScript.Proofs.Snippet.Faithful
import HookScript.Proofs.Snippet.FieldReads
import HookScript.Proofs.Snippet.Lines
import HookScript.Proofs.Snippet.LogTemplates
import HookScript.Proofs.Snippet.Targets
import HookScript.Proofs.Text.NameCodePoints
import HookScript.Proofs.Text.Parts
import HookScript.Proofs.Text.Surrogates
import HookScript.Script.Identifier
import HookScript.Script.LineBuffer
import HookScript.Script.StringLiteral
import HookScript.Script.TemplateLiteral
import HookScript.Snippet.Context
import HookScript.Snippet.Generation
import HookScript.Snippet.Handle
import HookScript.Snippet.Hook
import HookScript.Snippet.Probe
import HookScript.Text.Basic
import HookScript.Text.Blank
import HookScript.Text.CodePoint
import HookScript.Text.Hex
import HookScript.Text.Letter
import HookScript.Text.Numeral
import HookScript.Text.Ranges
import HookScript.Text.Utf8
import HookScript.Proofs.Program.FirstFault
import HookScript.Proofs.Program.Finding
import HookScript.Proofs.Program.Reordering
import HookScript.Proofs.CommandLine.Phases
import HookScript.Proofs.CommandLine.Contract
import HookScript.Proofs.CommandLine.Outcomes
import HookScript.Proofs.Script.Spelling
import HookScript.Proofs.Snippet.FieldKeys
import HookScript.Proofs.Snippet.Sharing
import HookScript.Proofs.Snippet.Requests
import HookScript.Proofs.Snippet.Selectors
import HookScript.Proofs.Snippet.Overloading
import HookScript.Proofs.Snippet.Renaming
import HookScript.Proofs.Program.Building
import HookScript.Proofs.Snippet.Failures
import HookScript.Proofs.Snippet.Snapshots
import HookScript.Proofs.CommandLine.Verbosity
import HookScript.Proofs.CommandLine.Inputs
import HookScript.Proofs.CommandLine.Rearranging
import HookScript.Proofs.Program.Replacement
