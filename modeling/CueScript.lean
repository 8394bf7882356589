import CueScript.Catalog
import CueScript.Catalog.Format
import CueScript.Catalog.Schema
import CueScript.Color
import CueScript.Command.Compile
import CueScript.Command.Node
import CueScript.Command.Outline
import CueScript.CommandLine.Arguments
import CueScript.CommandLine.Program
import CueScript.Dimension
import CueScript.Engine.EventLoop
import CueScript.Engine.Execute
import CueScript.Json.Basic
import CueScript.Json.Decode
import CueScript.Json.Lexeme
import CueScript.Json.Print
import CueScript.Json.Reading
import CueScript.Json.RealText
import CueScript.Keyword.Admission
import CueScript.Keyword.Definition
import CueScript.Keyword.Target
import CueScript.Kind
import CueScript.Literal
import CueScript.Main
import CueScript.Number.Binary64
import CueScript.Number.Decimal
import CueScript.Number.Shortest
import CueScript.Proofs.Catalog.Text
import CueScript.Proofs.Command.Alike
import CueScript.Proofs.Command.Assembled
import CueScript.Proofs.Command.Completion
import CueScript.Proofs.Command.Exchange
import CueScript.Proofs.Command.Fillers
import CueScript.Proofs.Command.Filling
import CueScript.Proofs.Command.Matching
import CueScript.Proofs.Command.Outline
import CueScript.Proofs.Command.Places
import CueScript.Proofs.Command.Reading
import CueScript.Proofs.Command.Room
import CueScript.Proofs.Command.Sentence
import CueScript.Proofs.Command.Synonyms
import CueScript.Proofs.Command.Tagged
import CueScript.Proofs.Command.Tree
import CueScript.Proofs.Command.WellFormed
import CueScript.Proofs.Engine.Arguments
import CueScript.Proofs.Engine.Deeds
import CueScript.Proofs.Engine.Failures
import CueScript.Proofs.Engine.InsideOut
import CueScript.Proofs.Engine.Lawful
import CueScript.Proofs.Engine.Products
import CueScript.Proofs.Engine.Record
import CueScript.Proofs.Engine.TypedCalls
import CueScript.Proofs.EventLoop.Firing
import CueScript.Proofs.EventLoop.History
import CueScript.Proofs.EventLoop.Ledger
import CueScript.Proofs.EventLoop.Legible
import CueScript.Proofs.Failure
import CueScript.Proofs.Json.Lexing
import CueScript.Proofs.Json.ReadBack
import CueScript.Proofs.Json.Records
import CueScript.Proofs.Literal.Grammar
import CueScript.Proofs.Literal.Parts
import CueScript.Proofs.Literal.ReadBack
import CueScript.Proofs.Number.ReadBack
import CueScript.Proofs.Registry.Admission
import CueScript.Proofs.Registry.Contents
import CueScript.Proofs.Registry.Growth
import CueScript.Proofs.Registry.History
import CueScript.Proofs.Registry.Loading
import CueScript.Proofs.Registry.Refusal
import CueScript.Proofs.Script.Cutting
import CueScript.Proofs.Script.NormalForm
import CueScript.Proofs.Script.Pieces
import CueScript.Proofs.Script.Quoted
import CueScript.Proofs.Script.Spoken
import CueScript.Proofs.Session.EventNames
import CueScript.Proofs.Session.FillCreate
import CueScript.Proofs.Session.Isolation
import CueScript.Proofs.Session.Reached
import CueScript.Proofs.Session.Reports
import CueScript.Proofs.Settings.Saving
import CueScript.Proofs.Stage.Captions
import CueScript.Proofs.Stage.Handles
import CueScript.Proofs.Stage.History
import CueScript.Proofs.Storage.Disk
import CueScript.Proofs.Text.Lowercase
import CueScript.Registry
import CueScript.Registry.Summary
import CueScript.Script.Commands
import CueScript.Script.Tokens
import CueScript.Session
import CueScript.Settings
import CueScript.Stage
import CueScript.Storage
import CueScript.Storage.Disk
import CueScript.Table
import CueScript.Text.Blank
import CueScript.Text.CaseTable
import CueScript.Text.Cut
import CueScript.Text.Hex
import CueScript.Text.Lowercase
import CueScript.Text.PrintTable
import CueScript.Text.Quoted
import CueScript.Value
import CueScript.Vocabulary
