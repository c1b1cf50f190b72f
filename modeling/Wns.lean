import Wns.Acceptance.Coverage
import Wns.Artifact.ChildProcess
import Wns.Artifact.Command
import Wns.Artifact.Confinement
import Wns.Artifact.Deliver
import Wns.Artifact.Interleaving
import Wns.Artifact.Runtime
import Wns.Checkpoint.Update
import Wns.Context.ContextPlan
import Wns.Context.SkillBound
import Wns.Context.SkillCover
import Wns.Convergence.Certificate
import Wns.Convergence.Residual
import Wns.Effect.Projection
import Wns.Effect.Receipt
import Wns.Plan.AmendmentRun
import Wns.Plan.Prerequisites
import Wns.Plan.WorkerContext
import Wns.Policy.CompletionGate
import Wns.Policy.Conformance
import Wns.Policy.ContractWatch
import Wns.Policy.ReasoningWatchdog
import Wns.Policy.RecordPolicy
import Wns.Policy.RegistryAdmission
import Wns.Policy.WebResearch
import Wns.Recovery.Acknowledgement
import Wns.Recovery.KeyOrder
import Wns.Recovery.SessionTermination
import Wns.Recovery.Store
import Wns.Routing.Decomposition
import Wns.Routing.ExecutionPlan
import Wns.Routing.Failover
import Wns.Routing.LegacyFlags
import Wns.Routing.Monotone
import Wns.Routing.Quota
import Wns.Telemetry.Privacy
import Wns.Telemetry.Renormalization
import Wns.Telemetry.RunCost
