import StageQp.Backend.Basic
import StageQp.Backend.Dense
import StageQp.Decimal.Numeral
import StageQp.Decimal.Shortest
import StageQp.Decimal.Style
import StageQp.Desk
import StageQp.Diagnostics
import StageQp.Fault
import StageQp.Journal
import StageQp.Kkt.Problem
import StageQp.Kkt.Solve
import StageQp.Linear.Factor
import StageQp.Linear.Matrix
import StageQp.Linear.Refine
import StageQp.Number.Binary64
import StageQp.Number.Scalar
import StageQp.Options.Router
import StageQp.Options.Value
import StageQp.Probe.Backend
import StageQp.Probe.Strategy
import StageQp.Procedure
import StageQp.Qp.Field
import StageQp.Qp.Input
import StageQp.Qp.Layout
import StageQp.Qp.Output
import StageQp.Qp.StageData
import StageQp.Qp.Status
import StageQp.Qp.Wrapping
import StageQp.Shape.Basic
import StageQp.Shape.Record
import StageQp.Shape.Stage
import StageQp.Solver.Basic
import StageQp.Solver.Inspect
import StageQp.Solver.Memory
import StageQp.Solver.OptionStore
import StageQp.Solver.Overlay
import StageQp.Solver.ShapeStore
import StageQp.Solver.Solve
import StageQp.Storage.Block
import StageQp.Storage.Carver
import StageQp.Storage.Header
import StageQp.Storage.Record
import StageQp.Storage.Split
import StageQp.Storage.Words
import StageQp.Strategy.Basic
import StageQp.Strategy.Identity
import StageQp.Text.Extender
import StageQp.Text.Labelled
import StageQp.Text.Quoted
import StageQp.Text.Unassigned
import StageQp.Text.Visible
import StageQp.Timing.Duration
import StageQp.Timing.Phases
import StageQp.Proofs.Storage.Block
import StageQp.Proofs.Storage.Record
import StageQp.Proofs.Storage.Tiling
import StageQp.Proofs.Storage.Header
import StageQp.Proofs.Storage.Split
import StageQp.Proofs.Storage.Overlap
import StageQp.Proofs.Qp.Layout
import StageQp.Proofs.Qp.StageData
import StageQp.Proofs.Storage.Agree
import StageQp.Proofs.Storage.Halves
import StageQp.Proofs.Qp.Separation
import StageQp.Proofs.Qp.Exact
import StageQp.Proofs.Qp.Copy
import StageQp.Proofs.Qp.Times
import StageQp.Proofs.Strategy.Identity
import StageQp.Proofs.Strategy.Moves
import StageQp.Proofs.Strategy.Refill
import StageQp.Proofs.Backend.Dense
import StageQp.Proofs.Backend.Kept
import StageQp.Proofs.Solver.Carving
import StageQp.Solver.Bundled
import StageQp.Proofs.Shape.Record
import StageQp.Proofs.Solver.ShapeStore
import StageQp.Proofs.Solver.OptionStore
import StageQp.Proofs.Solver.Memory
import StageQp.Proofs.Solver.Checks
import StageQp.Proofs.Solver.Agreement
import StageQp.Proofs.Solver.Reach
import StageQp.Proofs.Solver.Solve
import StageQp.Proofs.Solver.Totality
import StageQp.Proofs.Solver.Transparency
import StageQp.Proofs.Solver.ColdStart
import StageQp.Proofs.Solver.Request
import StageQp.Proofs.Solver.Condensing
import StageQp.Proofs.Solver.History
import StageQp.Proofs.Solver.Scratch
import StageQp.Proofs.Solver.Sensitivity
import StageQp.Proofs.Solver.Sharing
import StageQp.Proofs.Kkt.Blocks
import StageQp.Proofs.Kkt.Solve
import StageQp.Proofs.Linear.Pivoting
import StageQp.Proofs.Solver.ShapeViews
import StageQp.Proofs.Solver.Epoch
import StageQp.Proofs.Options.Router
import StageQp.Proofs.Options.Setting
import StageQp.Proofs.Solver.OptionSettings
import StageQp.Proofs.Backend.Scratch
import StageQp.Proofs.Backend.Refined
import StageQp.Proofs.Solver.Restart
import StageQp.Proofs.Storage.Carver
import StageQp.Proofs.Options.Value
import StageQp.Proofs.Solver.IntegerOptions
