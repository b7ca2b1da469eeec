import CircuitDraft.Codec
import CircuitDraft.Description
import CircuitDraft.Draft.Call
import CircuitDraft.LinearExpr.Evaluate
import CircuitDraft.LinearExpr.Simplify
import CircuitDraft.Proofs.ArenaIndex
import CircuitDraft.Proofs.RegistryConsistency
import CircuitDraft.Proofs.RegistryOutcomes
import CircuitDraft.Proofs.RegistryRequests
import CircuitDraft.Proofs.Turn
import CircuitDraft.Proofs.Reachable
import CircuitDraft.Proofs.Frame
import CircuitDraft.Proofs.RefusedCalls
import CircuitDraft.Proofs.RootPath
import CircuitDraft.Proofs.JournalHistory
import CircuitDraft.Proofs.CallHistory
import CircuitDraft.Proofs.FirstOccurrences
import CircuitDraft.Proofs.ScopeSearch
import CircuitDraft.Proofs.Ownership
import CircuitDraft.Proofs.ScopePartition
import CircuitDraft.Proofs.PrintedJournal
import CircuitDraft.Proofs.ReportedVariables
import CircuitDraft.Proofs.Outputs
import CircuitDraft.Proofs.Handoff
import CircuitDraft.Proofs.Deduplication
import CircuitDraft.Proofs.ReservedIdentities
import CircuitDraft.Proofs.Numbering
import CircuitDraft.Proofs.ElementRing
import CircuitDraft.Proofs.PrimeModulus
import CircuitDraft.Proofs.EvaluationSteps
import CircuitDraft.Proofs.LinearForm
import CircuitDraft.Proofs.Relocation
import CircuitDraft.Proofs.Reuse
import CircuitDraft.Proofs.Extension
import CircuitDraft.Proofs.EventHistory
import CircuitDraft.Proofs.Evaluation
import CircuitDraft.Proofs.Interchange
import CircuitDraft.Proofs.WellScoped
import CircuitDraft.Proofs.NameErasure
import CircuitDraft.Proofs.Simplified
import CircuitDraft.Proofs.PartialValues
import CircuitDraft.Proofs.Recognition
import CircuitDraft.Proofs.SimplifiedOperations
import CircuitDraft.Proofs.EvaluatedOperations
import CircuitDraft.Proofs.EvaluatedTerms
import CircuitDraft.Proofs.RefusalReasons
import CircuitDraft.Proofs.Wording
import CircuitDraft.Proofs.JsonScan
import CircuitDraft.Proofs.JsonText
import CircuitDraft.Proofs.RoundTrip
