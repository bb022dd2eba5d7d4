import Tangle.Cache
import Tangle.Command
import Tangle.Data.Found
import Tangle.Decimal.Binary
import Tangle.Decimal.Shortest
import Tangle.Directive.Basic
import Tangle.Directive.Decode
import Tangle.Directive.Encode
import Tangle.Document.Basic
import Tangle.Document.Build
import Tangle.Document.Diagnostic
import Tangle.Document.Item
import Tangle.Document.Print
import Tangle.Extraction
import Tangle.Files.Access
import Tangle.Files.Outputs
import Tangle.Files.Tree
import Tangle.Files.Walk
import Tangle.Fixture.Discovery
import Tangle.Fixture.Expectation
import Tangle.Fixture.FrontMatter
import Tangle.Fixture.Run
import Tangle.Fixture.Verdict
import Tangle.Generate.Basic
import Tangle.Generate.Group
import Tangle.Generate.Mapping
import Tangle.Generate.Render
import Tangle.Log
import Tangle.Main
import Tangle.Markdown.Block
import Tangle.Markdown.Container
import Tangle.Markdown.EntityNames
import Tangle.Markdown.Escape
import Tangle.Markdown.Html
import Tangle.Markdown.Lead
import Tangle.Markdown.Line
import Tangle.Markdown.Opener
import Tangle.Markdown.Reference
import Tangle.Markdown.Table
import Tangle.Outcome
import Tangle.Path
import Tangle.Report
import Tangle.Source.LineTable
import Tangle.Source.Position
import Tangle.Text.Basic
import Tangle.Text.Quoted
import Tangle.Text.Replace
import Tangle.Text.Symbol
import Tangle.Text.Unprinted
import Tangle.Text.Width
import Tangle.Toml.Cursor
import Tangle.Toml.Decode
import Tangle.Toml.Document
import Tangle.Toml.Item
import Tangle.Toml.Numbers
import Tangle.Toml.Problem
import Tangle.Toml.Strings
import Tangle.Toml.Value
import Tangle.Yaml.DataError
import Tangle.Yaml.Decode
import Tangle.Yaml.Event
import Tangle.Yaml.Mark
import Tangle.Yaml.Node
import Tangle.Yaml.Resolve
import Tangle.Yaml.Scan
import Tangle.Yaml.Scan.Block
import Tangle.Yaml.Scan.Gap
import Tangle.Yaml.Scan.Plain
import Tangle.Yaml.Scan.Quoted
import Tangle.Yaml.Scan.Tag
import Tangle.Yaml.SyntaxError
import Tangle.Yaml.Token
import Tangle.Yaml.Write
import Tangle.Proofs.Generate.Layout
import Tangle.Proofs.Generate.Files
import Tangle.Proofs.Generate.Mapping
import Tangle.Proofs.Document.Accounting
import Tangle.Proofs.Document.Lockstep
import Tangle.Proofs.Document.Reprint
import Tangle.Proofs.Generate.Outputs
import Tangle.Proofs.Extraction.Consistency
import Tangle.Proofs.Document.Ahead
import Tangle.Proofs.Directive.Reread
import Tangle.Proofs.Generate.Inverse
import Tangle.Proofs.Cache.History
import Tangle.Proofs.Files.Places
import Tangle.Proofs.Files.Changes
import Tangle.Proofs.Files.Writing
import Tangle.Proofs.Path.Order
import Tangle.Proofs.Extraction.Inward
import Tangle.Proofs.Files.Below
import Tangle.Proofs.Files.Stale
import Tangle.Proofs.Files.Walk
import Tangle.Proofs.Generate.Resolution
import Tangle.Proofs.Generate.Claimants
import Tangle.Proofs.Document.ContentLines
import Tangle.Proofs.Document.FlushIndents
import Tangle.Proofs.Generate.LeftEdge
import Tangle.Proofs.Document.LineOwners
import Tangle.Proofs.Extraction.DepthLimit
import Tangle.Proofs.Text.Substitution
import Tangle.Proofs.Generate.LocalRules
import Tangle.Proofs.Document.IndentLines
import Tangle.Proofs.Document.PrintedFence
import Tangle.Proofs.Text.Words
import Tangle.Proofs.Directive.Indentation
import Tangle.Proofs.Directive.Scalars
import Tangle.Proofs.Yaml.Numbers
import Tangle.Proofs.Fixture.FrontMatter
import Tangle.Proofs.Path.Below
import Tangle.Proofs.Fixture.Selection
import Tangle.Proofs.Fixture.Verdict
import Tangle.Proofs.Fixture.Run
import Tangle.Proofs.Source.LineTable
import Tangle.Proofs.Document.Chunking
import Tangle.Proofs.Path.Resolve
import Tangle.Proofs.Files.Ownership
import Tangle.Proofs.Directive.Admissible
import Tangle.Proofs.Generate.Admitted
