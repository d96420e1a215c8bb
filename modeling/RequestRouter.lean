import RequestRouter.Boarding.DetailRouter
import RequestRouter.Boarding.Tour
import RequestRouter.Command.Arguments
import RequestRouter.Command.Execution
import RequestRouter.Declaration.Cursor
import RequestRouter.Declaration.Document
import RequestRouter.Declaration.Fault
import RequestRouter.Declaration.Grammar
import RequestRouter.Declaration.Lexeme
import RequestRouter.Declaration.SourceFile
import RequestRouter.Declaration.Token
import RequestRouter.Declaration.TypeRef
import RequestRouter.Disk.Basic
import RequestRouter.Floating.Format
import RequestRouter.Floating.Layout
import RequestRouter.Floating.Shortest
import RequestRouter.Json.Basic
import RequestRouter.Json.Number
import RequestRouter.Json.Parser
import RequestRouter.Json.Printer
import RequestRouter.KeyMap
import RequestRouter.Main
import RequestRouter.Payload.Extra
import RequestRouter.Payload.Parcel
import RequestRouter.Payload.Reader
import RequestRouter.Payload.Request
import RequestRouter.Payload.Value
import RequestRouter.Proofs.Payload.Encodings
import RequestRouter.Proofs.Payload.Loops
import RequestRouter.Proofs.Payload.RoundTrip
import RequestRouter.Proofs.Text.Quoted
import RequestRouter.Proofs.Text.Utf8
import RequestRouter.Round.Basic
import RequestRouter.Round.Diagnostic
import RequestRouter.Round.Session
import RequestRouter.Round.Store
import RequestRouter.Router.Basic
import RequestRouter.Router.Emission
import RequestRouter.Router.ExtraKind
import RequestRouter.Router.Fault
import RequestRouter.Router.Lookup
import RequestRouter.Router.Route
import RequestRouter.Router.SymbolTable
import RequestRouter.Router.ValueType
import RequestRouter.Text.LetterCase
import RequestRouter.Text.Literal
import RequestRouter.Text.Printable
import RequestRouter.Text.Quoted
import RequestRouter.Text.Ranges
import RequestRouter.Text.Segments
import RequestRouter.Text.Snake
import RequestRouter.Text.Utf8
import RequestRouter.Proofs.Declaration.Derivation
import RequestRouter.Proofs.Declaration.Reading
import RequestRouter.Proofs.Declaration.Spelling
import RequestRouter.Proofs.Declaration.Parsing
import RequestRouter.Proofs.Router.Acceptance
import RequestRouter.Proofs.Round.Accounts
import RequestRouter.Proofs.Rust.Scanner
import RequestRouter.Proofs.Rust.Statements
import RequestRouter.Proofs.Rust.Running
import RequestRouter.Proofs.Rust.Items
import RequestRouter.Proofs.Router.Names
import RequestRouter.Proofs.Router.Syntax
import RequestRouter.Proofs.Router.Files
import RequestRouter.Proofs.Router.Meaning
import RequestRouter.Proofs.Declaration.Names
import RequestRouter.Proofs.Round.Visits
import RequestRouter.Proofs.Round.Locations
import RequestRouter.Proofs.Text.Segments
import RequestRouter.Proofs.Text.Snake
import RequestRouter.Proofs.Disk.Paths
import RequestRouter.Proofs.Disk.Writing
import RequestRouter.Proofs.Disk.Generated
import RequestRouter.Proofs.Round.Refusals
import RequestRouter.Proofs.Command.Checking
import RequestRouter.Proofs.Command.Sources
import RequestRouter.Proofs.Boarding.Tickets
import RequestRouter.Proofs.Payload.Carrying
import RequestRouter.Proofs.Round.Memory
import RequestRouter.Proofs.Round.Stopping
import RequestRouter.Proofs.Round.Sessions
import RequestRouter.Proofs.Round.Order
import RequestRouter.Proofs.Round.Destinations
import RequestRouter.Proofs.Declaration.Positions
import RequestRouter.Proofs.Round.Essence
import RequestRouter.Proofs.Declaration.Faults
import RequestRouter.Proofs.Declaration.Layout
import RequestRouter.Proofs.Payload.Bounds
import RequestRouter.Proofs.Text.ByteOrder
import RequestRouter.Proofs.Payload.Storing
import RequestRouter.Proofs.Router.Declared
import RequestRouter.Proofs.Router.Identifiers
import RequestRouter.Proofs.Router.Reports
import RequestRouter.Proofs.Round.Selection
import RequestRouter.Proofs.Declaration.Truncation
import RequestRouter.Proofs.Declaration.Scanning
import RequestRouter.Proofs.Declaration.Spacing
import RequestRouter.Proofs.Declaration.Concatenation
import RequestRouter.Proofs.Declaration.Placement
import RequestRouter.Proofs.Declaration.Literals
import RequestRouter.Proofs.Declaration.Arguments
import RequestRouter.Proofs.Router.Keys
import RequestRouter.Proofs.Payload.Delimiting
import RequestRouter.Proofs.Payload.Runs
import RequestRouter.Proofs.Payload.Canonical
import RequestRouter.Proofs.Router.Legality
import RequestRouter.Proofs.Payload.Widths
import RequestRouter.Proofs.Declaration.EmittedTypes
import RequestRouter.Proofs.Router.ValueTypes
import RequestRouter.Proofs.Boarding.Requests
import RequestRouter.Proofs.Disk.Containment
import RequestRouter.Proofs.Declaration.Patterns
import RequestRouter.Proofs.Declaration.Classes
import RequestRouter.Proofs.Declaration.Walks
import RequestRouter.Proofs.Declaration.Following
import RequestRouter.Proofs.Declaration.Ending
