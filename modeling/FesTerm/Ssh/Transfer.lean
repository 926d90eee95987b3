import Mathlib

/-!
# Data of the transfer engine of an SSH session

What the transfer manager, its worker and the surface that shows them have in common. Paths are lists of
characters; identifiers and byte counts are natural numbers.
-/

namespace FesTerm.Ssh

inductive SftpPath where
  | localPath (path : List Char)
  | remotePath (path : List Char)
  deriving DecidableEq, Repr

inductive SftpEntryType where
  | directory
  | file
  | symlink
  | other
  deriving DecidableEq, Repr

structure SftpPathMetadata where
  path : SftpPath
  fileType : SftpEntryType
  size : Option Nat
  modifiedAt : Option Nat
  permissions : Option Nat
  deriving DecidableEq, Repr

abbrev SftpTransferBatchId := Nat
abbrev SftpTransferId := Nat
abbrev SftpCollisionId := Nat

inductive SftpTransferDirection where
  | upload
  | download
  deriving DecidableEq, Repr

inductive SftpSessionError where
  | commandParse (text : String)
  | sessionClosed
  | emptyRemotePath
  | emptyLocalPath
  | localDirectoryUnavailable (path reason : String)
  | localPathNotDirectory (path : String)
  | remotePathNotDirectory (path : String)
  | destinationExists (path : String)
  | missingFileName (path : String)
  | remoteFileTooLarge (path : String) (limitBytes : Nat)
  | subsystemRejected
  | partialFileOwnershipUnconfirmed (path : String)
  | cancellationCleanupTimedOut
  | transferCommitInterrupted (temporary destination : String)
  | transferFailedWithIncompleteCleanup (operationError cleanupError : SftpSessionError)
  | localOperationFailed (operation path reason : String)
  | remoteOperationFailed (operation path reason : String)
  | remotePairOperationFailed (operation source destination reason : String)
  deriving DecidableEq, Repr

inductive SftpCollisionDecision where
  | replace
  | skip
  | keepBoth
  | mergeFolders
  deriving DecidableEq, Repr

structure SftpCollision where
  id : SftpCollisionId
  batchId : SftpTransferBatchId
  transferId : SftpTransferId
  source : SftpPathMetadata
  destination : SftpPathMetadata
  proposedKeepBothDestination : SftpPath
  allowedDecisions : List SftpCollisionDecision
  canApplyToAll : Bool
  deriving DecidableEq, Repr

inductive SftpTransferEvent where
  | batchQueued (batchId : SftpTransferBatchId) (transferIds : List SftpTransferId)
  | itemStarted (batchId : SftpTransferBatchId) (transferId : SftpTransferId) (source destination : SftpPath)
    (direction : SftpTransferDirection) (totalBytes : Option Nat)
  | itemProgress (batchId : SftpTransferBatchId) (transferId : SftpTransferId) (currentPath : SftpPath)
    (bytesTransferred : Nat) (totalBytes : Option Nat)
  | collision (collision : SftpCollision)
  | cleanupIncomplete (error : SftpSessionError)
  | destinationDirectoryRefreshRequested (batchId : SftpTransferBatchId) (transferId : SftpTransferId)
    (directory : SftpPath)
  | itemCompleted (batchId : SftpTransferBatchId) (transferId : SftpTransferId) (destination : SftpPath)
    (bytesTransferred : Nat) (totalBytes : Option Nat) (skippedConflicts : Nat)
  | itemFailed (batchId : SftpTransferBatchId) (transferId : SftpTransferId) (destination : Option SftpPath)
    (reason : String)
  | itemCancelled (batchId : SftpTransferBatchId) (transferId : SftpTransferId)
    (destination : Option SftpPath) (bytesTransferred : Nat) (totalBytes : Option Nat)
  | itemSkipped (batchId : SftpTransferBatchId) (transferId : SftpTransferId) (destination : Option SftpPath)
  | batchFinished (batchId : SftpTransferBatchId)
  deriving DecidableEq, Repr

namespace SftpTransferEvent

def isProgress : SftpTransferEvent → Bool
  | .itemProgress .. => true
  | _ => false

/-- The transfer whose progress is reported, and the bytes of it. -/
def progress : SftpTransferEvent → Option (SftpTransferId × Nat)
  | .itemProgress _ transferId _ bytesTransferred _ => some (transferId, bytesTransferred)
  | _ => none

end SftpTransferEvent

end FesTerm.Ssh
