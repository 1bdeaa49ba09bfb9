import Courier.Agenda
import Courier.Arithmetic
import Courier.Batch.Alarm
import Courier.Batch.AlarmBoard
import Courier.Batch.Batcher
import Courier.Batch.Gate
import Courier.Batch.Log
import Courier.Batch.LogBatcher
import Courier.Batch.LogBuffer
import Courier.Batch.Processor
import Courier.Batch.Session
import Courier.Batch.Slots
import Courier.Batch.Turn
import Courier.Bytes
import Courier.Decimal.Plain
import Courier.Decimal.Shortest
import Courier.Delivery.Depot
import Courier.Delivery.Error
import Courier.Delivery.Simulation
import Courier.Delivery.SpillDir
import Courier.Delivery.Transport
import Courier.Delivery.Wait
import Courier.Delivery.Worker
import Courier.Envelope.Basic
import Courier.Envelope.Item
import Courier.Envelope.Wire
import Courier.Hex
import Courier.Json.Access
import Courier.Json.Document
import Courier.Json.Literal
import Courier.Json.Reader
import Courier.Json.Record
import Courier.Json.Token
import Courier.Json.Value
import Courier.Json.Writer
import Courier.Loss.Basic
import Courier.Loss.Ledger
import Courier.Loss.Report
import Courier.Loss.Session
import Courier.Loss.Tally
import Courier.Main
import Courier.Pressure
import Courier.Pressure.Session
import Courier.Proofs.Alarms
import Courier.Proofs.AtMostOnce
import Courier.Proofs.Balance
import Courier.Proofs.Batching
import Courier.Proofs.Bins
import Courier.Proofs.Conserve
import Courier.Proofs.Counts
import Courier.Proofs.Crash
import Courier.Proofs.Cursor
import Courier.Proofs.Cut
import Courier.Proofs.Digits
import Courier.Proofs.Exclusion
import Courier.Proofs.Flush
import Courier.Proofs.GivingUp
import Courier.Proofs.Grammar
import Courier.Proofs.Json.Cut
import Courier.Proofs.Json.Double
import Courier.Proofs.Json.Number
import Courier.Proofs.Json.Object
import Courier.Proofs.Json.Read
import Courier.Proofs.Json.Scan
import Courier.Proofs.Lines
import Courier.Proofs.Loan
import Courier.Proofs.Lock
import Courier.Proofs.LockPath
import Courier.Proofs.Meanwhile
import Courier.Proofs.Merging
import Courier.Proofs.Moves
import Courier.Proofs.Names
import Courier.Proofs.Nearest
import Courier.Proofs.NewName
import Courier.Proofs.Office
import Courier.Proofs.Once
import Courier.Proofs.Order
import Courier.Proofs.Paths
import Courier.Proofs.Pending
import Courier.Proofs.Places
import Courier.Proofs.Queue
import Courier.Proofs.Rack
import Courier.Proofs.ReadBack
import Courier.Proofs.Recover
import Courier.Proofs.Recovery
import Courier.Proofs.Replay
import Courier.Proofs.Reports
import Courier.Proofs.RoundTrip
import Courier.Proofs.Rounding
import Courier.Proofs.Safekeeping
import Courier.Proofs.Seconds
import Courier.Proofs.Sends
import Courier.Proofs.Serial
import Courier.Proofs.Sheet
import Courier.Proofs.Shelf
import Courier.Proofs.Shortest
import Courier.Proofs.Since
import Courier.Proofs.Slots
import Courier.Proofs.Spill
import Courier.Proofs.Stamps
import Courier.Proofs.Statuses
import Courier.Proofs.Succession
import Courier.Proofs.Tags
import Courier.Proofs.Takeover
import Courier.Proofs.Tray
import Courier.Proofs.Tries
import Courier.Proofs.TwoSides
import Courier.Proofs.Windows
import Courier.Proofs.Wire
import Courier.Proofs.WithoutFiles
import Courier.Proofs.Writes
import Courier.Proofs.WrittenSettings
import Courier.Random
import Courier.Settings.Basic
import Courier.Settings.Error
import Courier.Settings.Logging
import Courier.Settings.Retry
import Courier.Settings.Text
import Courier.Settings.Toml
import Courier.Storage.Claim
import Courier.Storage.Disk
import Courier.Storage.Error
import Courier.Storage.Memory
import Courier.Storage.Path
import Courier.Storage.Registry
import Courier.Sums
import Courier.Text.Blank
import Courier.Text.Hidden
import Courier.Text.Quoted
import Courier.Text.Word
import Courier.Time
import Courier.Toml.Reader
import Courier.Toml.Scalar
import Courier.Toml.Table
import Courier.Toml.Token
import Courier.Trial.Batch
import Courier.Trial.Campaign
import Courier.Trial.Delivery
import Courier.Trial.Verdict
