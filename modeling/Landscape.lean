import Landscape.Main
import Landscape.Model.Edit
import Landscape.Proofs.Cycle.Detection
import Landscape.Proofs.Interchange.Saving
import Landscape.Proofs.Weights.Operations
import Landscape.Proofs.Cycle.Enumeration
import Landscape.Proofs.Cycle.Places
import Landscape.Proofs.Command.Failing
import Landscape.Proofs.Cycle.Listing
import Landscape.Proofs.Description.Line
import Landscape.Proofs.Description.Lines
import Landscape.Proofs.Export.Graph
import Landscape.Proofs.Detection.Growth
import Landscape.Proofs.Export.Colours
import Landscape.Proofs.Layout.Transaction
import Landscape.Proofs.Layout.Square
import Landscape.Proofs.Export.Pinned
import Landscape.Proofs.Layout.Resolution
import Landscape.Proofs.Command.Output
import Landscape.Proofs.Interchange.Reports
import Landscape.Proofs.Command.Document
import Landscape.Proofs.Cycle.Recursion
import Landscape.Proofs.Description.Locality
import Landscape.Proofs.Command.Cycles
import Landscape.Proofs.Layout.Acceptance
import Landscape.Proofs.Detection.Exactness
import Landscape.Proofs.Cycle.Simplification
import Landscape.Proofs.Weights.Digraph
import Landscape.Proofs.Export.Drawing
import Landscape.Proofs.Layout.Fingerprint
import Landscape.Proofs.Command.Layers
import Landscape.Proofs.Layout.Pull
import Landscape.Proofs.Layout.Crossing
import Landscape.Proofs.Layout.Pairs
import Landscape.Proofs.Detection.Summary
import Landscape.Proofs.Interchange.Positions
import Landscape.Proofs.Console.Findings
import Landscape.Proofs.Cycle.Invariant
import Landscape.Proofs.Export.Quotation
