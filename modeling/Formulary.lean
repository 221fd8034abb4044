import Formulary.Calendar
import Formulary.Catalog.Basic
import Formulary.Catalog.Document
import Formulary.Catalog.Source
import Formulary.Checker
import Formulary.CommandLine.Check
import Formulary.CommandLine.Listing
import Formulary.CommandLine.Options
import Formulary.CommandLine.Output
import Formulary.Configuration
import Formulary.Depth
import Formulary.Draft
import Formulary.Files
import Formulary.Formula
import Formulary.Guard
import Formulary.Inquiry
import Formulary.Issue
import Formulary.Json.Basic
import Formulary.Json.Reader
import Formulary.Json.View
import Formulary.Json.Writer
import Formulary.Main
import Formulary.Number.Binary64
import Formulary.Number.Numeral
import Formulary.Number.Shortest
import Formulary.OperandType
import Formulary.Operator
import Formulary.Path
import Formulary.Proofs.BothSides
import Formulary.Proofs.Catalog
import Formulary.Proofs.CodePoint
import Formulary.Proofs.Decision
import Formulary.Proofs.Dependence
import Formulary.Proofs.Document
import Formulary.Proofs.Extension
import Formulary.Proofs.FirstReading
import Formulary.Proofs.Flag
import Formulary.Proofs.FormulaRequest
import Formulary.Proofs.FrontEnds
import Formulary.Proofs.Guard
import Formulary.Proofs.GuardList
import Formulary.Proofs.Json.ReadBack
import Formulary.Proofs.Leniency
import Formulary.Proofs.Loading
import Formulary.Proofs.Lowercase
import Formulary.Proofs.Memory
import Formulary.Proofs.Numeral
import Formulary.Proofs.Offence
import Formulary.Proofs.PairGuard
import Formulary.Proofs.Printing
import Formulary.Proofs.Recency
import Formulary.Proofs.RegistrationOrder
import Formulary.Proofs.Registry
import Formulary.Proofs.Reload
import Formulary.Proofs.Repetition
import Formulary.Proofs.RoundTrip
import Formulary.Proofs.Service
import Formulary.Proofs.SubmissionLog
import Formulary.Proofs.Submitting
import Formulary.Proofs.Utf8
import Formulary.Proofs.Yaml.Breaks
import Formulary.Proofs.Yaml.Building
import Formulary.Proofs.Yaml.Cursor
import Formulary.Proofs.Yaml.FloatNumber
import Formulary.Proofs.Yaml.Lexer
import Formulary.Proofs.Yaml.Parse
import Formulary.Proofs.Yaml.Plain
import Formulary.Proofs.Yaml.Quoted
import Formulary.Proofs.Yaml.Scalar
import Formulary.Proofs.Yaml.Sources
import Formulary.Proofs.Yaml.Valueless
import Formulary.Proofs.Yaml.WholeNumber
import Formulary.Proofs.Yaml.Words
import Formulary.Recency
import Formulary.Registry
import Formulary.Service
import Formulary.Submission
import Formulary.Text.Basic
import Formulary.Text.Digit
import Formulary.Text.Encoding
import Formulary.Text.Lowercase
import Formulary.Text.Printable
import Formulary.Text.Quoted
import Formulary.Text.Utf8
import Formulary.Value
import Formulary.Verdict
import Formulary.Yaml.Building
import Formulary.Yaml.Cursor
import Formulary.Yaml.Document
import Formulary.Yaml.Fault
import Formulary.Yaml.Graph
import Formulary.Yaml.Merge
import Formulary.Yaml.Node
import Formulary.Yaml.Scalar
import Formulary.Yaml.SetOrder
import Formulary.Yaml.Tag
import Formulary.Yaml.Token
import Formulary.Yaml.Token.Block
import Formulary.Yaml.Token.Lexer
import Formulary.Yaml.Token.Mark
import Formulary.Yaml.Token.Plain
import Formulary.Yaml.Token.Quoted
import Formulary.Yaml.Value
import Formulary.Yaml.Writer
import Formulary.Proofs.Yaml.Nesting
