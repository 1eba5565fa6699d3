import CallBridge.Main
import CallBridge.Proofs.Command.Agreement
import CallBridge.Proofs.Extraction.Accounting
import CallBridge.Proofs.Extraction.Attachment
import CallBridge.Proofs.Generated.CallSurface
import CallBridge.Proofs.Generated.Claims
import CallBridge.Proofs.Generated.TypeMeaning
import CallBridge.Proofs.Generated.Wiring
import CallBridge.Proofs.Run.Analysis
import CallBridge.Proofs.Run.Atomicity
import CallBridge.Proofs.Run.Fixpoint
import CallBridge.Proofs.Run.Modules
import CallBridge.Proofs.Run.Prediction
import CallBridge.Proofs.Surface.Building
import CallBridge.Proofs.Surface.Insertions
import CallBridge.Proofs.Extraction.Parameters
import CallBridge.Proofs.Generated.Forwarding
import CallBridge.Proofs.Generated.BridgeText
import CallBridge.Proofs.Run.Staleness
import CallBridge.Proofs.Generated.ImportText
import CallBridge.Proofs.Generated.InstanceNames
import CallBridge.Proofs.Extraction.RecordNames
import CallBridge.Proofs.Extraction.Comments
import CallBridge.Proofs.Path.Resolution
import CallBridge.Proofs.Extraction.TypeReferences
import CallBridge.Proofs.Generated.TypeConflicts
import CallBridge.Proofs.Extraction.ShownTypes
import CallBridge.Proofs.Extraction.StatementOrder
import CallBridge.Proofs.Extraction.CommentTags
import CallBridge.Proofs.Run.Writability
import CallBridge.Proofs.Run.Summary
