import TradeTape.Backfill.Admission
import TradeTape.Backfill.Crew
import TradeTape.Backfill.Desk
import TradeTape.Backfill.Fault
import TradeTape.Backfill.Gate
import TradeTape.Backfill.Merge
import TradeTape.Backfill.Plan
import TradeTape.Backfill.Report
import TradeTape.Backfill.Run
import TradeTape.Backfill.Settings
import TradeTape.Backfill.Sink
import TradeTape.Backfill.Summary
import TradeTape.Backfill.Venue
import TradeTape.Backfill.Walk
import TradeTape.Command.Action
import TradeTape.Command.Fetch
import TradeTape.Command.Ledger
import TradeTape.Command.Line
import TradeTape.Command.Market
import TradeTape.Command.Options
import TradeTape.Command.Rules
import TradeTape.Deribit.ApiFault
import TradeTape.Deribit.Client
import TradeTape.Deribit.Endpoint
import TradeTape.Deribit.Envelope
import TradeTape.Deribit.Market
import TradeTape.Deribit.Query
import TradeTape.Http.Address
import TradeTape.Http.Exchange
import TradeTape.Http.Header
import TradeTape.Http.Host
import TradeTape.Json.Decode
import TradeTape.Json.Doc
import TradeTape.Json.Printer
import TradeTape.Json.Reader
import TradeTape.Main
import TradeTape.Number.Binary64
import TradeTape.Number.Decimal
import TradeTape.Number.Literal
import TradeTape.Number.Shortest
import TradeTape.Number.Word
import TradeTape.Proofs.Command.Legs
import TradeTape.Proofs.Command.Limits
import TradeTape.Proofs.Command.Verdict
import TradeTape.Proofs.Crew.Cancellation
import TradeTape.Proofs.Crew.Flight
import TradeTape.Proofs.Crew.Service
import TradeTape.Proofs.Crew.Soundness
import TradeTape.Proofs.Crew.Toil
import TradeTape.Proofs.Deribit.Classification
import TradeTape.Proofs.Deribit.Repetition
import TradeTape.Proofs.Gate.Conservation
import TradeTape.Proofs.Gate.Passages
import TradeTape.Proofs.Gate.Phases
import TradeTape.Proofs.Gate.Soundness
import TradeTape.Proofs.Merge.Canonical
import TradeTape.Proofs.Merge.Digest
import TradeTape.Proofs.Merge.Neighbours
import TradeTape.Proofs.Number.Decimals
import TradeTape.Proofs.Number.Nearest
import TradeTape.Proofs.Number.Products
import TradeTape.Proofs.Number.ShortDecimals
import TradeTape.Proofs.Number.Shortest
import TradeTape.Proofs.Plan.Partition
import TradeTape.Proofs.Plan.Tiling
import TradeTape.Proofs.Retry.Attempts
import TradeTape.Proofs.Retry.Budget
import TradeTape.Proofs.Retry.Course
import TradeTape.Proofs.Retry.Delays
import TradeTape.Proofs.Retry.Finality
import TradeTape.Proofs.Retry.Growth
import TradeTape.Proofs.Run.Agreement
import TradeTape.Proofs.Run.Alone
import TradeTape.Proofs.Run.Balance
import TradeTape.Proofs.Run.Calls
import TradeTape.Proofs.Run.Cancellation
import TradeTape.Proofs.Run.Chronicle
import TradeTape.Proofs.Run.Closing
import TradeTape.Proofs.Run.Completion
import TradeTape.Proofs.Run.Consistency
import TradeTape.Proofs.Run.CutOff
import TradeTape.Proofs.Run.Desks
import TradeTape.Proofs.Run.Duties
import TradeTape.Proofs.Run.FanOut
import TradeTape.Proofs.Run.Fixed
import TradeTape.Proofs.Run.Handing
import TradeTape.Proofs.Run.Journal
import TradeTape.Proofs.Run.Moves
import TradeTape.Proofs.Run.NoLoss
import TradeTape.Proofs.Run.OnePage
import TradeTape.Proofs.Run.Parting
import TradeTape.Proofs.Run.Progress
import TradeTape.Proofs.Run.Prospect
import TradeTape.Proofs.Run.Sequential
import TradeTape.Proofs.Run.Soundness
import TradeTape.Proofs.Run.Targets
import TradeTape.Proofs.Run.Whole
import TradeTape.Proofs.Store.Catalog
import TradeTape.Proofs.Store.CleanUp
import TradeTape.Proofs.Store.Consolidation
import TradeTape.Proofs.Store.Directories
import TradeTape.Proofs.Store.Drafts
import TradeTape.Proofs.Store.FileTree
import TradeTape.Proofs.Store.Growth
import TradeTape.Proofs.Store.Overwriting
import TradeTape.Proofs.Store.Partitions
import TradeTape.Proofs.Store.Rereading
import TradeTape.Proofs.Store.RoundTrip
import TradeTape.Proofs.Store.TradeFile
import TradeTape.Proofs.Text.Csv
import TradeTape.Proofs.Text.Digits
import TradeTape.Proofs.Time.Calendar
import TradeTape.Proofs.Time.RoundTrip
import TradeTape.Proofs.Trade.Order
import TradeTape.Proofs.Trade.Stems
import TradeTape.Proofs.Trade.Windows
import TradeTape.Proofs.Walk.Ample
import TradeTape.Proofs.Walk.Answers
import TradeTape.Proofs.Walk.Exactness
import TradeTape.Proofs.Walk.Exclusive
import TradeTape.Proofs.Walk.Instants
import TradeTape.Proofs.Walk.Numbers
import TradeTape.Proofs.Walk.OnePage
import TradeTape.Proofs.Walk.Safety
import TradeTape.Proofs.Walk.Saturation
import TradeTape.Proofs.Walk.Steps
import TradeTape.Proofs.Walk.Tapes
import TradeTape.Retry.Backoff
import TradeTape.Retry.Machine
import TradeTape.Retry.Policy
import TradeTape.Retry.Session
import TradeTape.Store.Catalog
import TradeTape.Store.Column
import TradeTape.Store.Consolidation
import TradeTape.Store.Fault
import TradeTape.Store.FileTree
import TradeTape.Store.Partition
import TradeTape.Store.Path
import TradeTape.Store.TradeFile
import TradeTape.Store.TradeFolder
import TradeTape.Text.Blank
import TradeTape.Text.CharSet
import TradeTape.Text.Columns
import TradeTape.Text.Csv
import TradeTape.Text.Digits
import TradeTape.Text.Emoji
import TradeTape.Text.Environment
import TradeTape.Text.Form
import TradeTape.Text.GraphemeExtend
import TradeTape.Text.Named
import TradeTape.Text.Printable
import TradeTape.Text.Quoted
import TradeTape.Text.Table
import TradeTape.Text.Utf8
import TradeTape.Text.Width
import TradeTape.Time.Calendar
import TradeTape.Time.Iso8601
import TradeTape.Time.Span
import TradeTape.Time.Timer
import TradeTape.Trade.Instrument
import TradeTape.Trade.Record
import TradeTape.Trade.Transition
import TradeTape.Trade.Window
