import MarketFeed.Collector.CommandLine
import MarketFeed.Collector.Failure
import MarketFeed.Collector.Folder
import MarketFeed.Collector.Run
import MarketFeed.Collector.Supervisor
import MarketFeed.Collector.Surroundings
import MarketFeed.Feed.Basic
import MarketFeed.Feed.Channel
import MarketFeed.Feed.Continuity
import MarketFeed.Feed.Error
import MarketFeed.Feed.Frame
import MarketFeed.Feed.Session
import MarketFeed.Feed.Sink
import MarketFeed.Feed.Subscription
import MarketFeed.Feed.SymbolTable
import MarketFeed.Json.Basic
import MarketFeed.Json.Printer
import MarketFeed.Json.Reader
import MarketFeed.Json.Record
import MarketFeed.Main
import MarketFeed.Market.Book
import MarketFeed.Market.Delta
import MarketFeed.Market.Event
import MarketFeed.Market.Side
import MarketFeed.Market.Store
import MarketFeed.Number.Decimal
import MarketFeed.Number.Digits
import MarketFeed.Number.Double
import MarketFeed.Settings.Backoff
import MarketFeed.Settings.Basic
import MarketFeed.Settings.Environment
import MarketFeed.Settings.File
import MarketFeed.Table
import MarketFeed.Text.Characters
import MarketFeed.Text.Utf8
import MarketFeed.Time.Clock
import MarketFeed.Time.Instant
import MarketFeed.Toml.Basic
import MarketFeed.Toml.Document
import MarketFeed.Toml.Reader
import MarketFeed.Transport.AsyncHttp
import MarketFeed.Transport.BlockingHttp
import MarketFeed.Transport.Capture
import MarketFeed.Transport.Client
import MarketFeed.Transport.Error
import MarketFeed.Transport.Framing
import MarketFeed.Transport.Host
import MarketFeed.Transport.Http
import MarketFeed.Transport.Identity
import MarketFeed.Transport.Peer
import MarketFeed.Transport.Poller
import MarketFeed.Transport.Script
import MarketFeed.Transport.Socket
import MarketFeed.Transport.Stream
import MarketFeed.Transport.Throttle
import MarketFeed.Transport.Wire
import MarketFeed.Url.Basic
import MarketFeed.Url.Domain
import MarketFeed.Url.Ip
import MarketFeed.Proofs.Decoding
import MarketFeed.Proofs.Handling
import MarketFeed.Proofs.Refusal
import MarketFeed.Proofs.History
import MarketFeed.Proofs.Numbering
import MarketFeed.Proofs.Levels
import MarketFeed.Proofs.Ranking
import MarketFeed.Proofs.BookHistory
import MarketFeed.Proofs.Replication
import MarketFeed.Proofs.Replay
import MarketFeed.Proofs.Publication
import MarketFeed.Proofs.Lifecycle
import MarketFeed.Proofs.Admission
import MarketFeed.Proofs.Names
import MarketFeed.Proofs.Ownership
import MarketFeed.Proofs.Pairing
import MarketFeed.Proofs.Tables
import MarketFeed.Proofs.Independence
import MarketFeed.Proofs.Traffic
import MarketFeed.Proofs.Accounting
import MarketFeed.Proofs.Forms
import MarketFeed.Proofs.Turns
import MarketFeed.Proofs.Runs
import MarketFeed.Proofs.Requests
import MarketFeed.Proofs.Sessions
import MarketFeed.Proofs.Supervision
import MarketFeed.Proofs.Numerals
import MarketFeed.Proofs.JsonText
import MarketFeed.Proofs.EventText
import MarketFeed.Proofs.Elementwise
import MarketFeed.Proofs.Canonical
import MarketFeed.Proofs.Grammar
import MarketFeed.Proofs.Instruments
import MarketFeed.Proofs.Subscribing
import MarketFeed.Proofs.PlainDecimals
import MarketFeed.Proofs.NearestDouble
import MarketFeed.Proofs.ShortestDecimal
import MarketFeed.Proofs.Sources
import MarketFeed.Proofs.Figures
import MarketFeed.Proofs.Streaming
import MarketFeed.Proofs.Buckets
import MarketFeed.Proofs.Rounds
import MarketFeed.Proofs.Listing
import MarketFeed.Proofs.Subscriptions
import MarketFeed.Proofs.Overrides
import MarketFeed.Proofs.Delays
import MarketFeed.Proofs.Calendar
import MarketFeed.Proofs.Timestamps
import MarketFeed.Proofs.OctetOrder
import MarketFeed.Proofs.Enlisting
import MarketFeed.Proofs.Ids
import MarketFeed.Proofs.Documents
import MarketFeed.Proofs.Batches
