import Turnwise.Backend
import Turnwise.Batch
import Turnwise.ByteModel
import Turnwise.Config.Basic
import Turnwise.Config.Document
import Turnwise.Config.Layers
import Turnwise.Config.Setting
import Turnwise.Conversation
import Turnwise.DeltaDecoder
import Turnwise.Engine
import Turnwise.Error
import Turnwise.Event
import Turnwise.Identity
import Turnwise.Json.Reader
import Turnwise.Json.Value
import Turnwise.Main
import Turnwise.Metrics.Histogram
import Turnwise.Metrics.Registry
import Turnwise.Number.Binary
import Turnwise.Number.Decimal
import Turnwise.Number.Shortest
import Turnwise.Pool.Clients
import Turnwise.Pool.Host
import Turnwise.Random.ChaCha
import Turnwise.Random.Weighted
import Turnwise.Rotation
import Turnwise.Router
import Turnwise.Sampler
import Turnwise.Session
import Turnwise.SlotArena
import Turnwise.Status
import Turnwise.Stream
import Turnwise.Text.Utf8
import Turnwise.Wire
import Turnwise.Worker.Command
import Turnwise.Worker.Run
import Turnwise.Worker.State
import Turnwise.Worker.Tally
import Turnwise.Worker.Tick
import Turnwise.Yaml.Node
import Turnwise.Yaml.Text
import Turnwise.Yaml.Token
import Turnwise.Yaml.V11.Lexer
import Turnwise.Yaml.V11.Scalar
import Turnwise.Yaml.V11.Tag
import Turnwise.Yaml.V11.Text
import Turnwise.Yaml.V12.Lexer
import Turnwise.Yaml.V12.Scalar
import Turnwise.Yaml.V12.Tag
import Turnwise.Yaml.V12.Text
import Turnwise.Yaml.Value
import Turnwise.Proofs.SlotArena
import Turnwise.Proofs.SlotArena.Calls
import Turnwise.Proofs.Stream
import Turnwise.Proofs.Worker.Frame
import Turnwise.Proofs.Worker.Steps
import Turnwise.Proofs.Worker.Commands
import Turnwise.Proofs.ByteModel
import Turnwise.Proofs.Worker.Action
import Turnwise.Proofs.Worker.Change
import Turnwise.Proofs.Worker.Consistency
import Turnwise.Proofs.Worker.Ledger
import Turnwise.Proofs.Sampler
import Turnwise.Proofs.Worker.Acceptance
import Turnwise.Proofs.Worker.Refinement
import Turnwise.Proofs.Router.Interleaving
import Turnwise.Proofs.Router.Orphans
import Turnwise.Proofs.Router.Selection
import Turnwise.Proofs.Router.Fleet
import Turnwise.Proofs.Router.Agreement
import Turnwise.Proofs.Worker.Fairness
import Turnwise.Proofs.Worker.Quiescence
import Turnwise.Proofs.Worker.Generations
import Turnwise.Proofs.Worker.PrefillFairness
import Turnwise.Proofs.Worker.Delivery
import Turnwise.Proofs.Worker.LostInput
import Turnwise.Proofs.Worker.Isolation
import Turnwise.Proofs.Worker.Report
import Turnwise.Proofs.Worker.Containment
import Turnwise.Proofs.Worker.Packing
import Turnwise.Proofs.Worker.Budget
import Turnwise.Proofs.Worker.Metering
import Turnwise.Proofs.Json.RoundTrip
import Turnwise.Proofs.Wire
import Turnwise.Proofs.Worker.Withdrawal
import Turnwise.Proofs.Worker.Idling
import Turnwise.Proofs.Worker.Refusal
import Turnwise.Proofs.ByteModel.Composition
import Turnwise.Proofs.Batch
import Turnwise.Proofs.Router.Bookkeeping
import Turnwise.Proofs.Router.Turns
import Turnwise.Proofs.Text.Utf8
import Turnwise.Proofs.ByteModel.Text
import Turnwise.Proofs.DeltaDecoder
import Turnwise.Proofs.DeltaDecoder.Blocks
import Turnwise.Proofs.DeltaDecoder.Characters
import Turnwise.Proofs.Sampler.Candidates
import Turnwise.Proofs.Sampler.Attempt
import Turnwise.Proofs.Number.Rounding
import Turnwise.Proofs.Number.Arithmetic
import Turnwise.Proofs.Sampler.Outcome
import Turnwise.Proofs.Config.Agreement
import Turnwise.Proofs.Rotation.Rounds
