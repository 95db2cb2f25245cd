import AnotherDimension.Library.Blobs
import AnotherDimension.Library.Json
import AnotherDimension.Storage.Open

-- Recovery artifacts: the two files of a store in one container, with a manifest.

open FileProgram

namespace Storage

structure RecoveryManifest where
  schemaVersion  : UInt16
  createdAt      : UInt64
  storeBytes     : UInt64
  revisionBytes  : UInt64
  storeSha256    : String
  revisionSha256 : String
  deriving DecidableEq, Repr

-- What the artifacts need from elsewhere: the hash function, and how `serde_json` reads a manifest.
structure ArtifactServices where
  sha256       : Bytes → ByteBlock 32
  readManifest : Bytes → Option RecoveryManifest

variable (services : ArtifactServices)

def recoveryMagic : Bytes := Bytes.utf8 "ADRECOVERY2" ++ [0, 0]

def maxRecoveryArtifactBytes : Nat := 64 * 1024 * 1024

def ArtifactServices.digest (bytes : Bytes) : String :=
  Bytes.toHex (services.sha256 bytes).val

def RecoveryManifest.bytes (manifest : RecoveryManifest) : Bytes :=
  Bytes.utf8 <| Json.object [
    ("schema_version", Json.number manifest.schemaVersion.toUInt64),
    ("created_at", Json.number manifest.createdAt),
    ("store_bytes", Json.number manifest.storeBytes),
    ("revision_bytes", Json.number manifest.revisionBytes),
    ("store_sha256", Json.string manifest.storeSha256),
    ("revision_sha256", Json.string manifest.revisionSha256)
  ]

def RecoveryManifest.of (createdAt : UInt64) (store revision : Bytes) : RecoveryManifest where
  schemaVersion  := 2
  createdAt      := createdAt
  storeBytes     := .ofNat store.length
  revisionBytes  := .ofNat revision.length
  storeSha256    := services.digest store
  revisionSha256 := services.digest revision

def frame (manifest store revision : Bytes) : Bytes :=
  recoveryMagic ++ (Bytes.blob manifest ++ (Bytes.blob store ++ Bytes.blob revision))

-- The container both exports build.
def recoveryArtifact (createdAt : UInt64) (store revision : Bytes) : Bytes :=
  frame (RecoveryManifest.of services createdAt store revision).bytes store revision

-- The three blobs behind the magic bytes, and where the last one ends.
def readBlobs (bytes : Bytes) : Option (Bytes × Bytes × Bytes × Nat) := do
  let (manifest, offset) ← Bytes.readBlob bytes recoveryMagic.length
  let (store, offset)    ← Bytes.readBlob bytes offset
  let (revision, stop)   ← Bytes.readBlob bytes offset
  return (manifest, store, revision, stop)

-- The lengths and digests are those of the manifest.
def RecoveryManifest.describes (manifest : RecoveryManifest) (store revision : Bytes) : Bool :=
  manifest.storeBytes = .ofNat store.length && manifest.revisionBytes = .ofNat revision.length &&
    manifest.storeSha256 = services.digest store &&
    manifest.revisionSha256 = services.digest revision

-- The number in a marker, as the artifact's reader takes it.
def markerRevision (revision : Bytes) : Option UInt64 := do
  Text.parseU64 (Text.trim (← Bytes.fromUtf8 revision))

-- The manifest is read before the blobs behind it, which makes no difference to the result: whatever
-- is wrong, the artifact is corrupt.
def parseRecoveryArtifact (bytes : Bytes) : Except StorageError (Bytes × Bytes) :=
  if bytes.length > maxRecoveryArtifactBytes ∨ ¬recoveryMagic.isPrefixOf bytes then
    .error .corruptStore
  else
    match readBlobs bytes with
    | none                                  => .error .corruptStore
    | some (manifest, store, revision, stop) =>
      match services.readManifest manifest with
      | none          => .error .corruptStore
      | some manifest =>
        if stop ≠ bytes.length ∨ manifest.schemaVersion ≠ 2 ∨
            ¬manifest.describes services store revision ∨ store = [] ∨ revision = [] then
          .error .corruptStore
        else
          match parseFile store with
          | .error e   => .error e
          | .ok parsed =>
            match markerRevision revision with
            | none        => .error .corruptStore
            | some marker =>
              if parsed.revision ≠ marker then .error .corruptStore else .ok (store, revision)

-- `Path::with_extension`, for a path that ends in a file name.
def withExtension (path : FilePath) (extension : String) : FilePath :=
  let name := path.toList.reverse
  let stem :=
    match name.dropWhile (· ≠ '.') with
    | _ :: c :: cs => if '/' ∈ name.takeWhile (· ≠ '.') ∨ c = '/' then name else c :: cs
    | _            => name
  .ofList stem.reverse ++ "." ++ extension

def recoveryPendingPath (path : FilePath) : FilePath :=
  withExtension path "recovery.pending"

end Storage

namespace EncryptedStore

open Storage

variable (services : ArtifactServices)

def exportRecoveryArtifact (store : EncryptedStore) (createdAt : UInt64) :
    FileProgram (Except StorageError Bytes) :=
  if store.locked then
    return .error .locked
  else do
    match ← perform (.read store.path) with
    | .error _  => return .error .io
    | .ok bytes =>
      match ← perform (.read store.markerPath) with
      | .error _     => return .error .io
      | .ok revision => return .ok (recoveryArtifact services createdAt bytes revision)

def stageRecoveryArtifact (store : EncryptedStore) (artifact : Bytes) :
    FileProgram (Except StorageError Unit) :=
  if store.locked then
    return .error .locked
  else
    match parseRecoveryArtifact services artifact with
    | .error e => return .error e
    | .ok _    => atomicWrite (recoveryPendingPath store.path) artifact

end EncryptedStore
