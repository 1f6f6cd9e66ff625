import LispCore.HostView
import LispCore.Inspection
import LispCore.Interpreter
import LispCore.Label
import LispCore.Message
import LispCore.Proofs.Batches
import LispCore.Proofs.Bisimulation
import LispCore.Proofs.Calls.Binding
import LispCore.Proofs.Calls.Spreading
import LispCore.Proofs.Circles
import LispCore.Proofs.Confinement
import LispCore.Proofs.Decisions
import LispCore.Proofs.Direct.Outcomes
import LispCore.Proofs.Echoes
import LispCore.Proofs.Equality
import LispCore.Proofs.Fringe
import LispCore.Proofs.Growth
import LispCore.Proofs.History
import LispCore.Proofs.Immutability
import LispCore.Proofs.Legibility
import LispCore.Proofs.Operation.Division
import LispCore.Proofs.Operation.Folds
import LispCore.Proofs.Operation.Footprint
import LispCore.Proofs.Operation.Order
import LispCore.Proofs.Operation.Precedence
import LispCore.Proofs.Operation.Remainders
import LispCore.Proofs.Operation.Selection
import LispCore.Proofs.Parameters
import LispCore.Proofs.Presence
import LispCore.Proofs.Printing
import LispCore.Proofs.ProperLists
import LispCore.Proofs.Quotation
import LispCore.Proofs.Quotation.Freshness
import LispCore.Proofs.Quotation.RoundTrip
import LispCore.Proofs.Quotation.Shape
import LispCore.Proofs.Quotation.Text
import LispCore.Proofs.Renaming
import LispCore.Proofs.Renaming.Evaluation
import LispCore.Proofs.Renaming.Operation
import LispCore.Proofs.Soundness
import LispCore.Proofs.Source
import LispCore.Proofs.TailCalls
import LispCore.Proofs.Transparency
import LispCore.Walk
