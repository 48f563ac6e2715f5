import TreeShare.Bytes
import TreeShare.Text.Utf8
import TreeShare.Text.Hex
import TreeShare.Text.Blank
import TreeShare.Text.Ranges
import TreeShare.Text.Mark
import TreeShare.Text.Unprintable
import TreeShare.Text.Composed
import TreeShare.Text.Quoted
import TreeShare.Crypto.Sha256
import TreeShare.Crypto.Curve
import TreeShare.Crypto.Ecdsa
import TreeShare.Net.Address
import TreeShare.Net.Address.Text
import TreeShare.Message.Type
import TreeShare.Message.Error
import TreeShare.Message
import TreeShare.Datum.Name
import TreeShare.Datum.Error
import TreeShare.Datum
import TreeShare.Message.Hello
import TreeShare.Message.Text
import TreeShare.Signing
import TreeShare.Files.Path
import TreeShare.Files.Error
import TreeShare.Files.Disk
import TreeShare.Signing.KeyFile
import TreeShare.Table
import TreeShare.Book
import TreeShare.Replies
import TreeShare.Directory
import TreeShare.Signing.KeyCache
import TreeShare.Files.Order
import TreeShare.Publishing.Tree
import TreeShare.Publishing.Build
import TreeShare.Publishing.Publication
import TreeShare.Config
import TreeShare.Config.File
import TreeShare.Settings
import TreeShare.Toml.Reader
import TreeShare.Toml.Text
import TreeShare.Toml.Number
import TreeShare.Toml.Moment
import TreeShare.Toml.Value
import TreeShare.Toml.Document
import TreeShare.Toml.Write
import TreeShare.Config.Environment
import TreeShare.Config.Text
import TreeShare.Domain.Punycode
import TreeShare.Domain.Mapping
import TreeShare.Domain.Direction
import TreeShare.Domain.Joining
import TreeShare.Domain.Label
import TreeShare.Domain
import TreeShare.Web.Percent
import TreeShare.Web.Host
import TreeShare.Web.Url
import TreeShare.Web.Directory
import TreeShare.Engine.Error
import TreeShare.Engine.Proc
import TreeShare.Engine.Node
import TreeShare.Engine.Exchange
import TreeShare.Engine.Traversal
import TreeShare.Engine.Search
import TreeShare.Engine.Service
import TreeShare.Engine.Heartbeat
import TreeShare.Engine.Call
import TreeShare.Engine.State
import TreeShare.Engine
import TreeShare.Engine.Schedule
import TreeShare.Startup
import TreeShare.Proofs.Text.Utf8
import TreeShare.Proofs.Datum.Codec
import TreeShare.Proofs.Datum.Reencoding
import TreeShare.Proofs.Datum.Integrity
import TreeShare.Proofs.Message.Datagram
import TreeShare.Proofs.Message.Hello
import TreeShare.Proofs.Publishing.Arena
import TreeShare.Proofs.Publishing.Hashes
import TreeShare.Proofs.Engine.Dialogue
import TreeShare.Proofs.Engine.Runs
import TreeShare.Proofs.Engine.Listening
import TreeShare.Proofs.Publishing.FileTree
import TreeShare.Proofs.Files.Unfolding
import TreeShare.Proofs.Publishing.Content
import TreeShare.Proofs.Publishing.Serving
import TreeShare.Proofs.Publishing.Binding
import TreeShare.Proofs.Publishing.Rebuilding
import TreeShare.Proofs.Publishing.Made
import TreeShare.Proofs.Publishing.Enumeration
import TreeShare.Proofs.Publishing.Rehashing
import TreeShare.Proofs.Files.Links
import TreeShare.Proofs.Files.Writing
import TreeShare.Proofs.Files.Growing
import TreeShare.Proofs.Signing.KeyFiles
import TreeShare.Proofs.Web.Lines
import TreeShare.Proofs.Web.Percent
import TreeShare.Proofs.Web.Segments
import TreeShare.Proofs.Web.Places
import TreeShare.Proofs.Publishing.Cycles
import TreeShare.Proofs.Toml.Integers
import TreeShare.Proofs.Engine.Checks
import TreeShare.Proofs.Engine.Serving
import TreeShare.Proofs.Replies
import TreeShare.Proofs.Replies.Origin
import TreeShare.Proofs.Replies.Posted
import TreeShare.Proofs.Engine.Solo
import TreeShare.Proofs.Engine.Moves
import TreeShare.Proofs.Engine.Together
import TreeShare.Proofs.Engine.Routing
import TreeShare.Proofs.Engine.Duel
import TreeShare.Proofs.Engine.Patience
import TreeShare.Proofs.Engine.Accepted
import TreeShare.Proofs.Engine.Grounded
import TreeShare.Proofs.Engine.Authentication
import TreeShare.Proofs.Engine.Agreement
import TreeShare.Proofs.Engine.Provenance
import TreeShare.Proofs.Engine.Errands
import TreeShare.Proofs.Engine.Custody
import TreeShare.Proofs.Engine.Exchanges
import TreeShare.Proofs.Engine.Downloads
import TreeShare.Proofs.Engine.Emissions
import TreeShare.Proofs.Engine.Standing
import TreeShare.Proofs.Engine.Evictions
import TreeShare.Proofs.Engine.Handshake
import TreeShare.Proofs.Bounds.Guarded
import TreeShare.Proofs.Bounds.Inbound
import TreeShare.Proofs.Engine.Outbound
import TreeShare.Proofs.Engine.Naming
import TreeShare.Proofs.Engine.Searching
import TreeShare.Proofs.Replies.History
import TreeShare.Proofs.Replies.Matching
import TreeShare.Proofs.Engine.Remembering
import TreeShare.Proofs.Engine.Lookups
import TreeShare.Proofs.Engine.Tickets
import TreeShare.Proofs.Engine.Retransmission
import TreeShare.Proofs.Engine.Policy
import TreeShare.Proofs.Engine.Acceptance
import TreeShare.Proofs.Engine.Rejections
import TreeShare.Proofs.Engine.Greetings
import TreeShare.Proofs.Engine.Traversals
import TreeShare.Proofs.Engine.Rounds
import TreeShare.Proofs.Engine.Punches
import TreeShare.Proofs.Engine.Itineraries
import TreeShare.Proofs.Engine.Resolution
import TreeShare.Proofs.Config.Timing
import TreeShare.Proofs.Book
import TreeShare.Proofs.Publishing.Lineage
import TreeShare.Proofs.Toml.Reading
import TreeShare.Proofs.Toml.Strings
import TreeShare.Proofs.Toml.Values
import TreeShare.Proofs.Toml.Sections
import TreeShare.Proofs.Text.Lossy
import TreeShare.Proofs.Config.Text
import TreeShare.Proofs.Config.Overrides
import TreeShare.Proofs.Config.Seeding
