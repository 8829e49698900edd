import Conform.Json.Reading
import Conform.Session.Command
import Conform.Proofs.Graph
import Conform.Proofs.Congruence
import Conform.Proofs.Bound
import Conform.Proofs.Check
import Conform.Proofs.Derivation
import Conform.Proofs.Conformance
import Conform.Proofs.Mismatch
import Conform.Proofs.EntryPoints
import Conform.Proofs.Completeness
import Conform.Proofs.Simulation
import Conform.Proofs.PathAccuracy
import Conform.Proofs.Registry
import Conform.Proofs.Evolution
import Conform.Proofs.Soundness
import Conform.Proofs.Action
import Conform.Proofs.Building
import Conform.Proofs.Command
import Conform.Proofs.Stability
import Conform.Proofs.FinishedGraph
import Conform.Proofs.Calls
import Conform.Proofs.History
import Conform.Proofs.Ownership
import Conform.Proofs.Lifetime
import Conform.Proofs.Guarded
import Conform.Proofs.Transparency
import Conform.Proofs.Rearrangement
import Conform.Proofs.Deferral
import Conform.Proofs.Comparison
import Conform.Proofs.Undeclared
import Conform.Proofs.DeclarationOrder
import Conform.Proofs.Monotonicity
import Conform.Proofs.Sparing
import Conform.Proofs.Independence
import Conform.Proofs.Enumeration
import Conform.Proofs.Findings
import Conform.Proofs.Flattening
import Conform.Proofs.Parts
import Conform.Proofs.Unbroken
import Conform.Proofs.Lines
import Conform.Proofs.Rounding
import Conform.Proofs.Likeness
import Conform.Proofs.KeyOrder
import Conform.Proofs.Matching
import Conform.Proofs.Equality
import Conform.Proofs.FirstRegistration
import Conform.Proofs.Demand
import Conform.Proofs.PathText
import Conform.Proofs.Sequence
import Conform.Proofs.Widths
