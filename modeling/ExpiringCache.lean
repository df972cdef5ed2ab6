import ExpiringCache.Cache.Basic
import ExpiringCache.Cache.Embedded
import ExpiringCache.Cache.Networked
import ExpiringCache.Cache.Request
import ExpiringCache.Error
import ExpiringCache.Flight
import ExpiringCache.Journal
import ExpiringCache.Json.Cursor
import ExpiringCache.Json.Document
import ExpiringCache.Json.Numeral
import ExpiringCache.Json.Printer
import ExpiringCache.Json.Problem
import ExpiringCache.Json.Reader
import ExpiringCache.Json.Shape
import ExpiringCache.Json.Value
import ExpiringCache.Line
import ExpiringCache.Main
import ExpiringCache.Number.Binary64
import ExpiringCache.Number.Whole
import ExpiringCache.Operation
import ExpiringCache.Payload
import ExpiringCache.Probe
import ExpiringCache.Registry
import ExpiringCache.Remote.Address
import ExpiringCache.Remote.Command
import ExpiringCache.Remote.Exchange
import ExpiringCache.Remote.Literal
import ExpiringCache.Remote.Namespace
import ExpiringCache.Remote.Opening
import ExpiringCache.Remote.Reply
import ExpiringCache.Settings
import ExpiringCache.Simulation.Run
import ExpiringCache.Simulation.Script
import ExpiringCache.Simulation.Server
import ExpiringCache.Simulation.State
import ExpiringCache.Simulation.Task
import ExpiringCache.Store.Basic
import ExpiringCache.Store.Entry
import ExpiringCache.Store.Stats
import ExpiringCache.Store.Transaction
import ExpiringCache.Sweeper
import ExpiringCache.Table
import ExpiringCache.Text.Blank
import ExpiringCache.Text.Hidden
import ExpiringCache.Text.Quoted
import ExpiringCache.Text.Utf8
import ExpiringCache.Time
import ExpiringCache.Proofs.Store.Live
import ExpiringCache.Proofs.Store.InPlace
import ExpiringCache.Proofs.Store.Lasting
import ExpiringCache.Proofs.Cache.Handle
import ExpiringCache.Proofs.Cache.Readings
import ExpiringCache.Proofs.Cache.TtlMap
import ExpiringCache.Proofs.Flight.Queues
import ExpiringCache.Proofs.Flight.KeyQueues
import ExpiringCache.Proofs.Flight.FirstCome
import ExpiringCache.Proofs.Flight.Leftover
import ExpiringCache.Proofs.Cache.Books
import ExpiringCache.Proofs.Cache.Moves
import ExpiringCache.Proofs.Cache.World
import ExpiringCache.Proofs.Cache.SingleFlight
import ExpiringCache.Proofs.Cache.Tidy
import ExpiringCache.Proofs.Cache.Ledger
import ExpiringCache.Proofs.Cache.Balance
import ExpiringCache.Proofs.Cache.Stampede
import ExpiringCache.Proofs.Cache.Program
import ExpiringCache.Proofs.Number.Whole
import ExpiringCache.Proofs.Text.Utf8
import ExpiringCache.Proofs.Remote.Held
import ExpiringCache.Proofs.Remote.Answered
import ExpiringCache.Proofs.Cache.Attendance
import ExpiringCache.Proofs.Cache.Alike
import ExpiringCache.Proofs.Remote.PlainServer
import ExpiringCache.Proofs.Remote.Glob
import ExpiringCache.Proofs.Remote.Clearing
import ExpiringCache.Proofs.Flight.Slots
import ExpiringCache.Proofs.Remote.WholeNumbers
import ExpiringCache.Proofs.Remote.WriteTurns
import ExpiringCache.Proofs.Registry.Construction
import ExpiringCache.Proofs.Registry.Clientele
import ExpiringCache.Proofs.Registry.Moves
import ExpiringCache.Proofs.Registry.BuiltOnce
import ExpiringCache.Proofs.Store.Accounts
import ExpiringCache.Proofs.Remote.Failures
import ExpiringCache.Proofs.Json.Numbers
import ExpiringCache.Proofs.Json.Values
import ExpiringCache.Proofs.Json.Shapes
import ExpiringCache.Proofs.Cache.Objects
import ExpiringCache.Proofs.Simulation.Loop
import ExpiringCache.Proofs.Remote.Handshake
import ExpiringCache.Proofs.Simulation.Links
import ExpiringCache.Proofs.Simulation.Openings
import ExpiringCache.Proofs.Simulation.OpeningRuns
import ExpiringCache.Proofs.Store.Expiry
import ExpiringCache.Proofs.Remote.StoreOrders
import ExpiringCache.Proofs.Remote.PlainNames
import ExpiringCache.Proofs.Remote.FillTurns
import ExpiringCache.Proofs.Remote.SharedKeys
import ExpiringCache.Proofs.Remote.Addresses
import ExpiringCache.Proofs.Cache.WholeValues
import ExpiringCache.Proofs.Settings.Environment
import ExpiringCache.Proofs.Store.Reclaiming
import ExpiringCache.Proofs.Sweeper.Conduct
