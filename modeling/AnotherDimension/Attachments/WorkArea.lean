import AnotherDimension.Attachments.Codec
import AnotherDimension.Library.OrderedMap

-- The attachments a daemon works on, all of them in memory: files that are being encrypted, packages
-- that wait for their upload, and descriptors that were received.

structure AttachmentArea where
  jobs               : Std.ExtTreeMap String AttachmentJob
  jobStartedAt       : Std.ExtTreeMap String UInt64
  completed          : Std.ExtTreeMap String EncryptedAttachment
  completedCreatedAt : Std.ExtTreeMap String UInt64
  received           : Std.ExtTreeMap String AttachmentDescriptor

namespace AttachmentArea

def completedAttachmentTtlSeconds : UInt64 := 60 * 60

def maxCompletedAttachmentCount : Nat := 2

def maxCompletedAttachmentBytes : Nat := 64 * 1024 * 1024

def empty : AttachmentArea := ⟨∅, ∅, ∅, ∅, ∅⟩

variable (area : AttachmentArea)

-- The bytes of all packages that wait.
def completedBytes : Nat :=
  OrderedMap.total (fun _ package => package.blob.length) area.completed

-- `key` is the random key, when there is one. The sum is far from the largest `usize`, so that it
-- need not saturate.
def attachmentStart (blobId : String) (total : Nat) (fileName mediaType : Option String)
    (key : Option (ByteBlock 32)) (now : UInt64) : Except AttachmentError Unit × AttachmentArea :=
  if blobId ∈ area.jobs then
    (.error .invalidManifest, area)
  else if ¬area.jobs.isEmpty ∨ area.completed.size ≥ maxCompletedAttachmentCount ∨
      area.completedBytes + total > maxCompletedAttachmentBytes then
    (.error .tooLarge, area)
  else
    match AttachmentJob.startWithMetadata blobId total fileName mediaType key with
    | .error e => (.error e, area)
    | .ok job  =>
      (.ok (), { area with
        jobs         := area.jobs.insert blobId job
        jobStartedAt := area.jobStartedAt.insert blobId now })

def attachmentAppend (aead : Aead) (blobId : String) (index : UInt32) (plaintext : Bytes)
    (nonce : Option (ByteBlock 12)) : Except AttachmentError Unit × AttachmentArea :=
  match area.jobs[blobId]? with
  | none     => (.error .invalidManifest, area)
  | some job =>
    match job.append aead index plaintext nonce with
    | .error e => (.error e, area)
    | .ok job  => (.ok (), { area with jobs := area.jobs.insert blobId job })

-- The job is taken out before it is known to be complete.
def attachmentFinish (blobId : String) (now : UInt64) :
    Except AttachmentError Unit × AttachmentArea :=
  match area.jobs[blobId]? with
  | none     => (.error .invalidManifest, area)
  | some job =>
    match job.finish with
    | .error e    => (.error e, { area with jobs := area.jobs.erase blobId })
    | .ok package =>
      (.ok (), { area with
        jobs               := area.jobs.erase blobId
        jobStartedAt       := area.jobStartedAt.erase blobId
        completed          := area.completed.insert blobId package
        completedCreatedAt := area.completedCreatedAt.insert blobId now })

def takeCompletedAttachment (blobId : String) : Option EncryptedAttachment × AttachmentArea :=
  (area.completed[blobId]?, { area with
    completed          := area.completed.erase blobId
    completedCreatedAt := area.completedCreatedAt.erase blobId })

def takeCompletedAttachmentIfEqual (blobId : String) (expected : EncryptedAttachment) :
    Bool × AttachmentArea :=
  match area.completed[blobId]? with
  | none         => (false, area)
  | some current =>
    if current ≠ expected then
      (false, area)
    else
      ((area.takeCompletedAttachment blobId).fst.isSome, (area.takeCompletedAttachment blobId).snd)

-- Only the first of the three maps that has the id loses it, but both times are dropped. The record
-- of a received attachment is removed from the store too; a failure of that is not noticed.
def cancelAttachment (blobId : String) : Bool × AttachmentArea :=
  let untimed := { area with
    jobStartedAt       := area.jobStartedAt.erase blobId
    completedCreatedAt := area.completedCreatedAt.erase blobId }
  if blobId ∈ area.jobs then
    (true, { untimed with jobs := area.jobs.erase blobId })
  else if blobId ∈ area.completed then
    (true, { untimed with completed := area.completed.erase blobId })
  else
    (area.received.contains blobId, { untimed with received := area.received.erase blobId })

-- The ids that are older than the time to live.
def expired (now : UInt64) (times : Std.ExtTreeMap String UInt64) : List String :=
  (times.toList.filter fun e => now.saturatingSub e.snd > completedAttachmentTtlSeconds).map Prod.fst

def purgeAttachmentState (now : UInt64) : AttachmentArea :=
  let expiredJobs := expired now area.jobStartedAt
  let expiredCompleted := expired now area.completedCreatedAt
  { area with
    jobs               := OrderedMap.eraseAll area.jobs expiredJobs
    jobStartedAt       := OrderedMap.eraseAll area.jobStartedAt expiredJobs
    completed          := OrderedMap.eraseAll area.completed expiredCompleted
    completedCreatedAt := OrderedMap.eraseAll area.completedCreatedAt expiredCompleted }

end AttachmentArea

-- What can happen to the area.
inductive AttachmentOp
  | start (blobId : String) (total : Nat) (fileName mediaType : Option String)
      (key : Option (ByteBlock 32)) (now : UInt64)
  | append (blobId : String) (index : UInt32) (plaintext : Bytes) (nonce : Option (ByteBlock 12))
  | finish (blobId : String) (now : UInt64)
  | cancel (blobId : String)
  | takeCompleted (blobId : String)
  | takeCompletedIfEqual (blobId : String) (expected : EncryptedAttachment)
  | purge (now : UInt64)

namespace AttachmentArea

-- Whether an operation succeeds, and what it leaves.
def perform (aead : Aead) (area : AttachmentArea) : AttachmentOp → Bool × AttachmentArea
  | .start blobId total fileName mediaType key now =>
    let (result, area) := area.attachmentStart blobId total fileName mediaType key now
    (result.isOk, area)
  | .append blobId index plaintext nonce =>
    let (result, area) := area.attachmentAppend aead blobId index plaintext nonce
    (result.isOk, area)
  | .finish blobId now =>
    let (result, area) := area.attachmentFinish blobId now
    (result.isOk, area)
  | .cancel blobId => area.cancelAttachment blobId
  | .takeCompleted blobId =>
    let (package, area) := area.takeCompletedAttachment blobId
    (package.isSome, area)
  | .takeCompletedIfEqual blobId expected => area.takeCompletedAttachmentIfEqual blobId expected
  | .purge now => (true, area.purgeAttachmentState now)

def step (aead : Aead) (area : AttachmentArea) (op : AttachmentOp) : AttachmentArea :=
  (area.perform aead op).snd

end AttachmentArea
