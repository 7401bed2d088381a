import HouseBoard.Alert
import HouseBoard.Board.Answer
import HouseBoard.Board.Basic
import HouseBoard.Board.Call
import HouseBoard.Board.Fetch
import HouseBoard.Board.Health
import HouseBoard.Board.Render
import HouseBoard.Board.Script
import HouseBoard.Board.Store
import HouseBoard.Board.Task
import HouseBoard.BoardError
import HouseBoard.Calendar.Date
import HouseBoard.Calendar.Timestamp
import HouseBoard.Display.Color
import HouseBoard.Display.Comfort
import HouseBoard.Display.Reading
import HouseBoard.Http.MediaType
import HouseBoard.Http.Message
import HouseBoard.Http.Percent
import HouseBoard.Http.Reason
import HouseBoard.Http.Resource
import HouseBoard.Http.Target
import HouseBoard.Http.Wire
import HouseBoard.Json.Basic
import HouseBoard.Json.Codec
import HouseBoard.Json.Lexeme
import HouseBoard.Json.Reader
import HouseBoard.Json.Record
import HouseBoard.Json.Tagged
import HouseBoard.Json.Writer
import HouseBoard.Launch.Plan
import HouseBoard.Launch.Variables
import HouseBoard.Liveness
import HouseBoard.Main
import HouseBoard.Network.Address
import HouseBoard.Network.Gateway
import HouseBoard.Network.Url
import HouseBoard.Notifier
import HouseBoard.Number.Binary64
import HouseBoard.Number.Fixed
import HouseBoard.Number.Reading
import HouseBoard.Number.Shortest
import HouseBoard.Payload.Ble
import HouseBoard.Payload.Command
import HouseBoard.Payload.Controller
import HouseBoard.Payload.Device
import HouseBoard.Payload.Sample
import HouseBoard.Proofs.Absence
import HouseBoard.Proofs.Accounts
import HouseBoard.Proofs.Act
import HouseBoard.Proofs.Alike
import HouseBoard.Proofs.Alive
import HouseBoard.Proofs.Beat
import HouseBoard.Proofs.Calendar
import HouseBoard.Proofs.Chronicle
import HouseBoard.Proofs.Clock
import HouseBoard.Proofs.Colors
import HouseBoard.Proofs.Cycle
import HouseBoard.Proofs.Departure
import HouseBoard.Proofs.Duration
import HouseBoard.Proofs.Fetch
import HouseBoard.Proofs.Freshness
import HouseBoard.Proofs.Gathering
import HouseBoard.Proofs.Independence
import HouseBoard.Proofs.Knobs
import HouseBoard.Proofs.Ledger
import HouseBoard.Proofs.Mounting
import HouseBoard.Proofs.Names
import HouseBoard.Proofs.Pace
import HouseBoard.Proofs.Panels
import HouseBoard.Proofs.Provenance
import HouseBoard.Proofs.Recovery
import HouseBoard.Proofs.Roster
import HouseBoard.Proofs.Route
import HouseBoard.Proofs.Run
import HouseBoard.Proofs.Schedule
import HouseBoard.Proofs.Seconds
import HouseBoard.Proofs.Served
import HouseBoard.Proofs.Session
import HouseBoard.Proofs.Sound
import HouseBoard.Proofs.Step
import HouseBoard.Proofs.Store
import HouseBoard.Proofs.Surfacing
import HouseBoard.Proofs.Task
import HouseBoard.Proofs.Ticker
import HouseBoard.Proofs.Tidy
import HouseBoard.Proofs.Toasts
import HouseBoard.Proofs.Traffic
import HouseBoard.Proofs.Typing
import HouseBoard.Proofs.Visits
import HouseBoard.Rpc
import HouseBoard.Settings.Basic
import HouseBoard.Settings.File
import HouseBoard.Text.Digits
import HouseBoard.Text.Space
import HouseBoard.Uuid
import HouseBoard.View.Card
import HouseBoard.View.Kind
import HouseBoard.View.Model
import HouseBoard.View.Snapshot
import HouseBoard.Yaml.Cursor
import HouseBoard.Yaml.Node
import HouseBoard.Yaml.Scalar
import HouseBoard.Yaml.Tag
import HouseBoard.Yaml.Token
import HouseBoard.Yaml.Tokens
import HouseBoard.Yaml.Value
import HouseBoard.Proofs.Access
import HouseBoard.Proofs.Online
import HouseBoard.Proofs.Codecs
import HouseBoard.Proofs.Compatibility
import HouseBoard.Proofs.Rounding
import HouseBoard.Proofs.Blends
import HouseBoard.Proofs.Tiers
import HouseBoard.Proofs.Links
import HouseBoard.Proofs.Sections
import HouseBoard.Proofs.Overlay
import HouseBoard.Proofs.Wording
