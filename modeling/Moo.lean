import Moo.Lib.Loop
import Moo.Lib.Tape
import Moo.Lib.OrdSet
import Moo.Lib.Coo
import Moo.Lib.Segment
import Moo.Lib.RowForm
import Moo.Lib.Cursor
import Moo.Lib.PiecewiseLinear
import Moo.Lib.Partition
import Moo.Lib.Buckets
import Moo.Lib.Ascent
import Moo.Lib.Trace
import Moo.Lib.IndexSort
import Moo.Lib.Checked
import Moo.Lib.Collocation
import Moo.Lib.Text
import Moo.Lib.Seek
import Moo.Lib.Barycentric
import Moo.Lib.Binary
import Moo.Lib.Numeral
import Moo.Base.FLGR
import Moo.Base.Mesh
import Moo.Base.Interpolate
import Moo.Base.MeshTimes
import Moo.Base.NlpStructs
import Moo.Base.BlockSparsity
import Moo.GDOP.Problem
import Moo.GDOP.Eval
import Moo.GDOP.Jacobian
import Moo.GDOP.JacobianSlots
import Moo.GDOP.JacobianCorrect
import Moo.GDOP.Hessian
import Moo.GDOP.HessianLayout
import Moo.GDOP.HessianCorrect
import Moo.GDOP.HessianValues
import Moo.Base.FixedVector
import Moo.Base.CscToCoo
import Moo.NLP.Scaling
import Moo.NLP.Solver
import Moo.NLP.ScalingSpec
import Moo.NLP.Solve
import Moo.NLP.ScalingCorrect
import Moo.NLP.Scaled
import Moo.NLP.Kkt
import Moo.NLP.Settings
import Moo.Base.Trajectory
import Moo.Base.ControlTrajectory
import Moo.Base.PiecewisePolynomial
import Moo.Base.MeshRefinement
import Moo.Base.InterpolateTwice
import Moo.Base.Csv
import Moo.Base.TrajectoryCsv
import Moo.GDOP.Finalize
import Moo.GDOP.Instance
import Moo.GDOP.JacobianOrder
import Moo.GDOP.Run
import Moo.GDOP.Cache
import Moo.GDOP.HessianCache
import Moo.GDOP.Layout
import Moo.GDOP.Gradient
import Moo.GDOP.WarmStart
import Moo.GDOP.History
import Moo.GDOP.Strategies
import Moo.GDOP.PolynomialInterpolation
import Moo.GDOP.Corner
import Moo.GDOP.Orchestrator
import Moo.C.Problem
import Moo.C.Pointers
import Moo.C.Layout
import Moo.C.LayoutFull
import Moo.C.LayoutBoundary
import Moo.C.Windows
import Moo.C.HesInputs
import Moo.C.Order
import Moo.C.Dynamics
import Moo.C.FunctionRows
import Moo.Base.CsvReader
import Moo.Base.CsvNumbers
import Moo.Base.StridedInterpolation
import Moo.GDOP.HessianProgram
import Moo.GDOP.IndexRange
import Moo.GDOP.SparsityQueries
import Moo.GDOP.Verifier
import Moo.GDOP.Transcription
import Moo.GDOP.Lagrangian
import Moo.GDOP.Costates
import Moo.GDOP.SolverView
import Moo.GDOP.Optimum
import Moo.Ipopt.TNLPAdapter
import Moo.Ipopt.Spaces
import Moo.Ipopt.View
import Moo.Ipopt.Solves
import Moo.Ipopt.Optimum
import Moo.GDOP.PhaseTwo
import Moo.Simulation.Jacobian
import Moo.Simulation.Integrator
import Moo.Simulation.Radau
