import VoxelScout.Agent
import VoxelScout.Api
import VoxelScout.Api.Config
import VoxelScout.Api.Port
import VoxelScout.Api.Request
import VoxelScout.Api.Route
import VoxelScout.Bot
import VoxelScout.Bot.Host
import VoxelScout.Bot.Report
import VoxelScout.Bot.Status
import VoxelScout.Bridge
import VoxelScout.Bridge.Config
import VoxelScout.Bridge.Line
import VoxelScout.Clock
import VoxelScout.Clock.DateText
import VoxelScout.Clock.DurationText
import VoxelScout.Combat.Charge
import VoxelScout.Combat.Tracker
import VoxelScout.CommandLine
import VoxelScout.CommandLine.Run
import VoxelScout.Controls.Axis
import VoxelScout.Controls.Timer
import VoxelScout.Csv
import VoxelScout.Decimal.Exact
import VoxelScout.Decimal.Layout
import VoxelScout.Decimal.Reader
import VoxelScout.Decimal.Shortest
import VoxelScout.Geometry.Box
import VoxelScout.Geometry.Cap
import VoxelScout.Geometry.Vec
import VoxelScout.Hearing.Codec
import VoxelScout.Hearing.Event
import VoxelScout.Hearing.Tracker
import VoxelScout.Hub
import VoxelScout.Json
import VoxelScout.Json.Decode
import VoxelScout.Json.Quoted
import VoxelScout.Json.Token
import VoxelScout.Log.Level
import VoxelScout.Log.Line
import VoxelScout.Main
import VoxelScout.PlayerId
import VoxelScout.Proofs.Api.Holds
import VoxelScout.Proofs.Api.Orders
import VoxelScout.Proofs.Api.Routing
import VoxelScout.Proofs.Api.Sounds
import VoxelScout.Proofs.Bot.Aim
import VoxelScout.Proofs.Bot.Chat
import VoxelScout.Proofs.Bot.Pose
import VoxelScout.Proofs.Bridge.Inbound
import VoxelScout.Proofs.Bridge.Sent
import VoxelScout.Proofs.Bridge.Succession
import VoxelScout.Proofs.Clock
import VoxelScout.Proofs.Combat.Bystanders
import VoxelScout.Proofs.Combat.Charging
import VoxelScout.Proofs.Combat.Cooldown
import VoxelScout.Proofs.Combat.Dispatch
import VoxelScout.Proofs.Combat.Reach
import VoxelScout.Proofs.Combat.Swing
import VoxelScout.Proofs.Controls.Holding
import VoxelScout.Proofs.Controls.Interleaving
import VoxelScout.Proofs.Csv.RoundTrip
import VoxelScout.Proofs.Decimal.Nearest
import VoxelScout.Proofs.Decimal.ReadBack
import VoxelScout.Proofs.Decimal.Reading
import VoxelScout.Proofs.Decimal.Rounding
import VoxelScout.Proofs.Decimal.Spelling
import VoxelScout.Proofs.Geometry.Blur
import VoxelScout.Proofs.Geometry.Exact
import VoxelScout.Proofs.Geometry.Length
import VoxelScout.Proofs.Geometry.Slabs
import VoxelScout.Proofs.Geometry.SphericalCap
import VoxelScout.Proofs.Hearing.Draws
import VoxelScout.Proofs.Hearing.Places
import VoxelScout.Proofs.Hearing.Retention
import VoxelScout.Proofs.Hub.Delivery
import VoxelScout.Proofs.Hub.Frames
import VoxelScout.Proofs.Hub.Isolation
import VoxelScout.Proofs.Hub.Mailboxes
import VoxelScout.Proofs.Hub.Membership
import VoxelScout.Proofs.Json.Documents
import VoxelScout.Proofs.Json.Fields
import VoxelScout.Proofs.Json.Grammar
import VoxelScout.Proofs.Json.Members
import VoxelScout.Proofs.Json.Numerals
import VoxelScout.Proofs.Json.Quoting
import VoxelScout.Proofs.Json.Refusal
import VoxelScout.Proofs.Json.Scanning
import VoxelScout.Proofs.Json.Writing
import VoxelScout.Proofs.PlayerId
import VoxelScout.Proofs.Scalar.Circular
import VoxelScout.Proofs.Scalar.Exact
import VoxelScout.Proofs.Scalar.Magnitude
import VoxelScout.Proofs.Scalar.Order
import VoxelScout.Proofs.Scalar.Real
import VoxelScout.Proofs.Scalar.Rounding
import VoxelScout.Proofs.Scalar.Value
import VoxelScout.Proofs.Sight.FogOfWar
import VoxelScout.Proofs.Sight.History
import VoxelScout.Proofs.Sight.Nearest
import VoxelScout.Proofs.Sight.Order
import VoxelScout.Proofs.Sight.Update
import VoxelScout.Proofs.Snapshot.Codec
import VoxelScout.Proofs.Terrain.ExactRay
import VoxelScout.Proofs.Terrain.LastUpdate
import VoxelScout.Proofs.Terrain.Obstruction
import VoxelScout.Proofs.Text.Utf8
import VoxelScout.Proofs.Trace.Cells
import VoxelScout.Proofs.Trace.Recording
import VoxelScout.Proofs.Wire.Envelope
import VoxelScout.Proofs.Wire.Reencoding
import VoxelScout.Proofs.Wire.RoundTrip
import VoxelScout.Random
import VoxelScout.Scalar
import VoxelScout.Scalar.Binary64
import VoxelScout.Settings
import VoxelScout.Sight.Belief
import VoxelScout.Sight.Codec
import VoxelScout.Sight.Tracker
import VoxelScout.Snapshot
import VoxelScout.Snapshot.Codec
import VoxelScout.Storage
import VoxelScout.Terrain.Grid
import VoxelScout.Terrain.Occlusion
import VoxelScout.Terrain.Raycast
import VoxelScout.Terrain.World
import VoxelScout.Text.Base64
import VoxelScout.Text.Blank
import VoxelScout.Text.Case
import VoxelScout.Text.Utf8
import VoxelScout.Trace.File
import VoxelScout.Trace.Recorder
import VoxelScout.Trace.Row
import VoxelScout.Wire.Message
import VoxelScout.Wire.Payload
import VoxelScout.Yaml
import VoxelScout.Yaml.Resolve
import VoxelScout.Yaml.Scalar
import VoxelScout.Yaml.Source
import VoxelScout.Yaml.Token
