import FesTerm.Core.Proofs.HistoryDriverProofs
import FesTerm.Core.Proofs.HistoryStreamProofs
import FesTerm.Core.Proofs.ResizeProofs
import FesTerm.Document.Proofs.IdentityProofs
import FesTerm.Sessiond.Proofs.AttachmentProofs
import FesTerm.Sessiond.Proofs.GenerationProofs
import FesTerm.Sessiond.Proofs.StreamProofs
import FesTerm.Session.Proofs.InputProofs
import FesTerm.Sftp.Proofs.HostileReadProofs
import FesTerm.Sftp.Proofs.UploadProofs
import FesTerm.Sftp.Proofs.ConflictProofs
import FesTerm.Ssh.Proofs.EventDeliveryProofs
import FesTerm.MobileDocs.Proofs.KeepsEditsProofs
import FesTerm.AutomationJs.Proofs.AdmissionProofs
import FesTerm.AutomationJs.Proofs.SupervisorProofs
import FesTerm.TunnelBridge.Proofs.ReclaimProofs
import FesTerm.TunnelBridge.Proofs.RelayProofs
import FesTerm.TunnelBridge.Proofs.LinkProofs
import FesTerm.Core.Proofs.DecodingProofs
import FesTerm.Core.Proofs.CsiGrammarProofs
import FesTerm.Core.Proofs.StringSequenceProofs
import FesTerm.Core.Proofs.BoundedSnapshotProofs
import FesTerm.Document.Proofs.AccountingProofs
import FesTerm.Document.Vi.Proofs.DifferProofs
import FesTerm.Document.Vi.Proofs.LinewiseProofs
import FesTerm.Document.Vi.Proofs.BorrowedProofs
import FesTerm.Document.Proofs.DiffProofs
import FesTerm.Config.Proofs.PaneProofs
import FesTerm.Sessiond.Proofs.PendingOutputProofs
import FesTerm.Sessiond.Proofs.LegacyNoticeProofs
import FesTerm.Sessiond.Proofs.OutboundFramesProofs
import FesTerm.Automation.Proofs.RefusalProofs
import FesTerm.Sftp.Proofs.PathAlgebraProofs
import FesTerm.MobileDocs.Proofs.WellFormedProofs
import FesTerm.Ssh.Proofs.PortForwardProofs
import FesTerm.MobileDocs.Proofs.AlwaysSavesProofs
