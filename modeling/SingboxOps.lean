import SingboxOps.RemoteStore.ExactlyOnce
import SingboxOps.RemoteStore.Reopen
import SingboxOps.Scanner.Continuity
import SingboxOps.Scanner.CleanClose
import SingboxOps.EvidenceStore.EgressHistory
import SingboxOps.EvidenceStore.Timeliness
import SingboxOps.EvidenceStore.Persisted
import SingboxOps.Classifier.Metadata
import SingboxOps.RemoteIngest.Enumeration
import SingboxOps.JournalReader.CrashConsistency
import SingboxOps.JournalReader.Cycle
import SingboxOps.ClientManagement.Replay
import SingboxOps.ClientManagement.AllOrNothing
import SingboxOps.Provision.Lifecycle
import SingboxOps.Provision.Fence
import SingboxOps.StatusBroker.Freshness
import SingboxOps.Collector.Malformed
import SingboxOps.AuditTrail.OneRecord
import SingboxOps.WebAuth.Lifecycle
import SingboxOps.LifecycleGate.Scoped
import SingboxOps.ClientManagement.Gate
import SingboxOps.QualityFailover.Survival
import SingboxOps.QualityFailover.OwnProbes
import SingboxOps.QualityFailover.Switching
import SingboxOps.ProbeRuntime.Limits
import SingboxOps.ProfileVault.Integrity
import SingboxOps.QualityFailover.Cleanup
import SingboxOps.ClientExport.Merge
import SingboxOps.Distribution.Recovery
import SingboxOps.Distribution.Exact
import SingboxOps.RemoteIngest.RateLimit
import SingboxOps.RemoteStore.Budget
import SingboxOps.QualityReceiver.Renewal
import SingboxOps.HostEvidence.History
import SingboxOps.HostEvidence.Database
import SingboxOps.RemoteProbe.Collect
import SingboxOps.RemoteProbe.Pruning
import SingboxOps.IncidentHistory.SizePruning
import SingboxOps.RemoteIngest.SignedHeaders
import SingboxOps.RemoteIngest.Service
import SingboxOps.RemoteIngest.Honest
import SingboxOps.Collector.Conflict
import SingboxOps.GrpcWeb.Framing
import SingboxOps.JournalIngest.Contract
import SingboxOps.ProtoWire.Encode
import SingboxOps.Diag.Connections
import SingboxOps.QualityFailover.Budget
import SingboxOps.WebAuth.Guessing
import SingboxOps.JournalReader.Fingerprint
