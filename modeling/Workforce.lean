import Workforce.Main
import Workforce.Request.Event
import Workforce.Request.Function
import Workforce.Workspace.Eval
import Workforce.Proofs.Descent.LineSearch
import Workforce.Proofs.Descent.Direction
import Workforce.Proofs.Inverse.Elimination
import Workforce.Proofs.Inverse.Equilibration
import Workforce.Proofs.Inverse.Exact
import Workforce.Proofs.Descent.Runs
import Workforce.Proofs.Descent.LeastSquares
import Workforce.Proofs.Descent.Linear
import Workforce.Proofs.Descent.Convergence
import Workforce.Proofs.Descent.Termination
import Workforce.Proofs.Flow.RightInverse
import Workforce.Proofs.Market.Cap
import Workforce.Proofs.Descent.Damping
import Workforce.Proofs.Descent.Rescaling
import Workforce.Proofs.Market.Singularity
import Workforce.Proofs.Market.Carried
import Workforce.Proofs.Market.Range
import Workforce.Proofs.Workspace.Invariant
import Workforce.Proofs.Workspace.Aliasing
import Workforce.Proofs.Workspace.ShapeTyping
import Workforce.Proofs.Descent.Overflow
import Workforce.Proofs.Settings.Bounds
import Workforce.Proofs.Descent.Failures
import Workforce.Proofs.Market.Founding
import Workforce.Proofs.Market.Failures
import Workforce.Proofs.CommandLine.Simulation
import Workforce.Proofs.CommandLine.Transcript
import Workforce.Proofs.CommandLine.Endings
import Workforce.Proofs.Inverse.RowScaling
import Workforce.Proofs.Inverse.Outcomes
import Workforce.Proofs.Flow.Saturation
import Workforce.Proofs.Flow.Truncation
import Workforce.Proofs.Flow.Columns
import Workforce.Proofs.Flow.Seeds
import Workforce.Proofs.Descent.Underflow
import Workforce.Proofs.Flow.Symmetries
import Workforce.Proofs.Market.FailedTicks
import Workforce.Proofs.Market.Overstatement
import Workforce.Proofs.Descent.Exhaustion
import Workforce.Proofs.Settings.Acceptance
import Workforce.Proofs.Workspace.IntegerRange
import Workforce.Proofs.Workspace.Entrywise
import Workforce.Proofs.Workspace.Reading
import Workforce.Proofs.Mat.Laws
import Workforce.Proofs.Descent.Reordering
import Workforce.Proofs.Workspace.Generation
