import Rieul.Cluster.SingleHistory
import Rieul.Cluster.CatchUp
import Rieul.Cluster.Phases
import Rieul.Cluster.PairingRevocation
import Rieul.Server.SessionAccess
import Rieul.Server.PairingAttempts
import Rieul.Screen.Media
import Rieul.Screen.StripeBundle
import Rieul.Screen.TransportAgreement
import Rieul.Command.PlannedOnce
import Rieul.Web.MachineList
import Rieul.Codegen.Agreement
import Rieul.Codegen.Versions
import Rieul.Terminal.Metadata
import Rieul.Terminal.Overflow
import Rieul.Terminal.ControlEvents
import Rieul.Terminal.AttachOwners
import Rieul.Command.JobPersistence
import Rieul.Command.JobDeletion
import Rieul.Command.Recurrence
import Rieul.Agent.Idempotence
import Rieul.Agent.Reattachment
import Rieul.Agent.Transcript
import Rieul.Agent.CatalogRevision
import Rieul.Agent.TurnEnd
import Rieul.Agent.ConfigFollows
import Rieul.Agent.Listing
import Rieul.RootUpdate.Startup
import Rieul.RootUpdate.Answers
import Rieul.Cluster.Obligations
import Rieul.Cluster.Outbox
import Rieul.Cluster.Encodings
import Rieul.Cluster.RemovalProof
import Rieul.Web.RpcSessionSafety
import Rieul.Server.PeerChallenge
import Rieul.Server.ReloadKept
import Rieul.RootUpdate.Retry
import Rieul.Screen.Frames
import Rieul.Screen.Adjustments
import Rieul.Screen.DecodeBudget
import Rieul.Screen.RefinementBudget
import Rieul.Web.DesktopProfile
import Rieul.Web.InputChannel
import Rieul.Web.ServerStream
import Rieul.Server.Confirmation
import Rieul.Cluster.FallbackWindow
import Rieul.Lib.Keyed
import Rieul.Server.TableDiffs
import Rieul.Core.MessageSequence
