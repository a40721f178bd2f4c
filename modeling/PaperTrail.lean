import PaperTrail.CommandLine.Arguments
import PaperTrail.CommandLine.Run
import PaperTrail.CommandLine.Shell
import PaperTrail.Config.Basic
import PaperTrail.Config.Json
import PaperTrail.Config.Yaml
import PaperTrail.Decimal.Binary64
import PaperTrail.Decimal.Layout
import PaperTrail.Decimal.Natural
import PaperTrail.Decimal.Shortest
import PaperTrail.Dictionary
import PaperTrail.Distinct
import PaperTrail.Files
import PaperTrail.Http.Base64
import PaperTrail.Http.Request
import PaperTrail.Http.Status
import PaperTrail.Json.Basic
import PaperTrail.Json.Numeral
import PaperTrail.Json.Printer
import PaperTrail.Json.Reader
import PaperTrail.Json.Record
import PaperTrail.Load
import PaperTrail.Main
import PaperTrail.Number
import PaperTrail.Paper.Basic
import PaperTrail.Paper.Json
import PaperTrail.Path
import PaperTrail.Query.Basic
import PaperTrail.Query.Description
import PaperTrail.Query.File
import PaperTrail.Query.Grammar
import PaperTrail.Query.Vendor
import PaperTrail.Search.Connector
import PaperTrail.Search.Ieee
import PaperTrail.Search.Registry
import PaperTrail.Search.Scopus
import PaperTrail.Store.Address
import PaperTrail.Store.Basic
import PaperTrail.Store.Database
import PaperTrail.Store.Json
import PaperTrail.Store.Origin
import PaperTrail.Text.Blank
import PaperTrail.Text.Case
import PaperTrail.Text.Digit
import PaperTrail.Text.Printable
import PaperTrail.Text.Quoted
import PaperTrail.Text.Split
import PaperTrail.Url.Basic
import PaperTrail.Url.Domain
import PaperTrail.Url.Form
import PaperTrail.Url.Host
import PaperTrail.Url.Parser
import PaperTrail.Url.Percent
import PaperTrail.Url.Punycode
import PaperTrail.Value.Basic
import PaperTrail.Value.Compact
import PaperTrail.Value.Equality
import PaperTrail.Value.Outline
import PaperTrail.Yaml.Character
import PaperTrail.Yaml.Document
import PaperTrail.Yaml.Node
import PaperTrail.Yaml.Scalar
import PaperTrail.Yaml.Token
import PaperTrail.Yaml.Token.Block
import PaperTrail.Yaml.Token.Lexer
import PaperTrail.Yaml.Token.Plain
import PaperTrail.Yaml.Token.Quoted
import PaperTrail.Yaml.Token.Tag
import PaperTrail.Proofs.Dictionary
import PaperTrail.Proofs.Store.Origin
import PaperTrail.Proofs.Store.Ingestion
import PaperTrail.Proofs.Store.Run
import PaperTrail.Proofs.Store.AllOrNothing
import PaperTrail.Proofs.Store.Durability
import PaperTrail.Proofs.Store.Recognition
import PaperTrail.Proofs.Store.Duplicates
import PaperTrail.Proofs.Store.Growth
import PaperTrail.Proofs.Store.Absorption
import PaperTrail.Proofs.Distinct
import PaperTrail.Proofs.Query.Description
import PaperTrail.Proofs.Query.Skeleton
import PaperTrail.Proofs.Query.Reading
import PaperTrail.Proofs.Query.Meaning
import PaperTrail.Proofs.Store.Ledger
import PaperTrail.Proofs.Store.Provenance
import PaperTrail.Proofs.Store.Review
import PaperTrail.Proofs.Store.KnownOrigins
import PaperTrail.Proofs.Store.Order
import PaperTrail.Proofs.Search.Continuation
import PaperTrail.Proofs.Url.Form
import PaperTrail.Proofs.Search.Chain
import PaperTrail.Proofs.Http.Request
import PaperTrail.Proofs.Search.Paging
import PaperTrail.Proofs.Search.Drain
import PaperTrail.Proofs.Load
import PaperTrail.Proofs.Search.Calls
import PaperTrail.Proofs.Store.References
import PaperTrail.Proofs.Store.Lookup
import PaperTrail.Proofs.CommandLine.Listing
import PaperTrail.Proofs.Store.Appending
import PaperTrail.Proofs.Load.Naming
import PaperTrail.Proofs.Query.Negation
import PaperTrail.Proofs.Query.Defect
import PaperTrail.Proofs.Query.Writing
import PaperTrail.Proofs.Search.Items
import PaperTrail.Proofs.Search.Progress
import PaperTrail.Proofs.Config.Overrides
import PaperTrail.Proofs.Query.Composite
import PaperTrail.Proofs.Search.Endpoint
import PaperTrail.Proofs.Store.Address
import PaperTrail.Proofs.Query.Grouping
import PaperTrail.Proofs.Paper.Keywords
import PaperTrail.Proofs.Query.ExactFields
import PaperTrail.Proofs.Store.QuotedName
import PaperTrail.Proofs.Search.PublicLink
