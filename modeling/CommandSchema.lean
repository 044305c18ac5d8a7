import CommandSchema.Binary64
import CommandSchema.CommandLine.Argument
import CommandSchema.CommandLine.Request
import CommandSchema.CommandLine.Run
import CommandSchema.Config
import CommandSchema.Config.OfYaml
import CommandSchema.Field
import CommandSchema.Field.Spec
import CommandSchema.Files.Path
import CommandSchema.Files.Tree
import CommandSchema.Generated.ArgvCode
import CommandSchema.Generated.Artifacts
import CommandSchema.Generated.Bridge
import CommandSchema.Generated.Code
import CommandSchema.Generated.Declarations
import CommandSchema.Generated.Frame
import CommandSchema.Generated.Header
import CommandSchema.Generated.OptionsCode
import CommandSchema.Generated.RunHeader
import CommandSchema.Generated.Source
import CommandSchema.Generated.Types
import CommandSchema.Invocation
import CommandSchema.Invocation.Argv
import CommandSchema.Invocation.Calls
import CommandSchema.Invocation.Convert
import CommandSchema.Invocation.Options
import CommandSchema.Json.Basic
import CommandSchema.Json.Number
import CommandSchema.Json.Printer
import CommandSchema.Json.Reader
import CommandSchema.Layout
import CommandSchema.Main
import CommandSchema.Proofs.Generated.ArgvRun
import CommandSchema.Proofs.Generated.ArgvText
import CommandSchema.Proofs.Generated.Frame
import CommandSchema.Proofs.Generated.Host
import CommandSchema.Proofs.Generated.Machine
import CommandSchema.Proofs.Generated.OptionsRun
import CommandSchema.Proofs.Generated.OptionsText
import CommandSchema.Proofs.Generated.Reading
import CommandSchema.Proofs.Invocation.Agreement
import CommandSchema.Proofs.Invocation.Argv
import CommandSchema.Proofs.Invocation.Complete
import CommandSchema.Proofs.Invocation.Options
import CommandSchema.Proofs.Invocation.Restored
import CommandSchema.Proofs.Layout
import CommandSchema.Proofs.Layout.View
import CommandSchema.Proofs.Record
import CommandSchema.Proofs.Schema.Lookup
import CommandSchema.Proofs.Schema.Rules
import CommandSchema.Proofs.Schema.Written
import CommandSchema.Proofs.Text.Case
import CommandSchema.Proofs.Text.LeadingInteger
import CommandSchema.Proofs.Text.Pieces
import CommandSchema.Proofs.Text.Quoted
import CommandSchema.Proofs.Text.Words
import CommandSchema.Proofs.Yaml.Keys
import CommandSchema.Record
import CommandSchema.Record.Value
import CommandSchema.Schema
import CommandSchema.Schema.Load
import CommandSchema.Schema.OfYaml
import CommandSchema.Schema.Rules
import CommandSchema.Schema.ToJson
import CommandSchema.Text.Blank
import CommandSchema.Text.Case
import CommandSchema.Text.CaseTable
import CommandSchema.Text.HiddenTable
import CommandSchema.Text.Identifier
import CommandSchema.Text.LeadingInteger
import CommandSchema.Text.Pieces
import CommandSchema.Text.Quoted
import CommandSchema.Text.Visible
import CommandSchema.Yaml.Node
import CommandSchema.Yaml.Node.OfTokens
import CommandSchema.Yaml.Plain
import CommandSchema.Yaml.Scalar
import CommandSchema.Yaml.Source
import CommandSchema.Yaml.Token
import CommandSchema.Yaml.Token.OfSource
import CommandSchema.Yaml.Token.Property
import CommandSchema.Yaml.Value
import CommandSchema.Proofs.Generated.DerivedNames
import CommandSchema.Proofs.Schema.Reordered
import CommandSchema.Proofs.Generated.Framed
import CommandSchema.Proofs.Generated.Bodies
import CommandSchema.Proofs.Generated.Order
import CommandSchema.Proofs.Generated.Blocks
import CommandSchema.Proofs.Generated.Scopes
import CommandSchema.Proofs.Generated.Captured
import CommandSchema.Proofs.Invocation.LeftOut
import CommandSchema.Proofs.Generated.LeftOut
import CommandSchema.Proofs.Invocation.Reordered
import CommandSchema.Proofs.Generated.Exports
import CommandSchema.Proofs.Invocation.Kinds
import CommandSchema.Proofs.Generated.OptionTypes
import CommandSchema.Proofs.Generated.Normal
import CommandSchema.Proofs.Generated.Declared
import CommandSchema.Proofs.Generated.Faithful
import CommandSchema.Proofs.Except
import CommandSchema.Proofs.Field.Spec
import CommandSchema.Proofs.Invocation.Calls
import CommandSchema.Proofs.Invocation.Rejected
import CommandSchema.Proofs.Schema.Document
import CommandSchema.Proofs.Invocation.Bound
import CommandSchema.Proofs.Invocation.Tokens
import CommandSchema.Proofs.Text.Runs
import CommandSchema.Proofs.Binary64.Int32
import CommandSchema.Proofs.Binary64.Nearest
import CommandSchema.Proofs.Invocation.Numbers
import CommandSchema.Proofs.Json.Number
import CommandSchema.Proofs.Json.ReadBack
import CommandSchema.Proofs.Schema.Blamed
import CommandSchema.Proofs.Schema.Dump
import CommandSchema.Proofs.Json.Kept
import CommandSchema.Proofs.Files.Tree
import CommandSchema.Proofs.CommandLine.Reading
import CommandSchema.Proofs.CommandLine.Tasks
import CommandSchema.Proofs.CommandLine.Effects
import CommandSchema.Proofs.CommandLine.Verdicts
import CommandSchema.Proofs.Generated.Distinct
import CommandSchema.Proofs.CommandLine.Outputs
import CommandSchema.Proofs.Yaml.Blank
import CommandSchema.Proofs.CommandLine.Configured
import CommandSchema.Proofs.Record.Operations
import CommandSchema.Proofs.Layout.Rendered
import CommandSchema.Proofs.Layout.Balance
import CommandSchema.Proofs.Text.CaseLaws
import CommandSchema.Proofs.Generated.Balance
import CommandSchema.Proofs.Generated.Literals
