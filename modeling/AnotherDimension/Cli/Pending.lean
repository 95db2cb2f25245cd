import AnotherDimension.Cli.Artifact
import AnotherDimension.Identity.Registry
import AnotherDimension.Identity.Summary

-- A staged recovery artifact takes the place of the store when the daemon starts.

open FileProgram Storage

namespace Cli

-- What the commands need from elsewhere: the ciphers and hashes, the signatures, and how
-- `serde_json` reads what they wrote.
structure Services where
  aead         : Aead
  kdf          : String → Salt → Option DatabaseKey
  artifacts    : ArtifactServices
  ed25519      : Ed25519
  readRegistry : Bytes → Option RegistryWire

variable (services : Services)

def registryError (error : DeviceRegistryError) : CliError :=
  .storage <|
    match error with
    | .corrupt         => .corruptStore
    | .identity _      => .authenticationFailed
    | .wrongAccount    => .corruptStore
    | .duplicateDevice => .corruptStore
    | .unknownDevice   => .corruptStore
    | .deviceNotActive => .corruptStore

def decodeRegistry (store : EncryptedStore) : Except CliError DeviceRegistry :=
  match store.get .device "registry" with
  | none       => .error (.storage .corruptStore)
  | some bytes =>
    (DeviceRegistry.decode services.ed25519 services.readRegistry bytes).mapError registryError

-- The device of the candidate is registered, and authorized at this time.
def validateCandidate (candidate : EncryptedStore) (now : UInt64) : Except CliError Unit :=
  match candidate.get .accountRoot "identity" with
  | none        => .error .invalidRecovery
  | some record =>
    match IdentitySummary.decode services.ed25519 record with
    | none         => .error .invalidRecovery
    | some summary => do
      let registry ← decodeRegistry services candidate
      (registry.authorize services.ed25519 summary.deviceId now).mapError registryError

-- `fs::remove_file(path)?`
def deleteFile (path : FilePath) : FileProgram (Except CliError Unit) := do
  match ← perform (.remove path) with
  | .ok _    => return .ok ()
  | .error _ => return .error .io

-- `condition && path.exists()`
def isFileWhen (condition : Bool) (path : FilePath) : FileProgram Bool :=
  if condition then isFile path else return false

def renameWhen (condition : Bool) (source target : FilePath) :
    FileProgram (Except CliError Unit) :=
  if condition then rename source target else return .ok ()

def moveBack (moved : Bool) (source target : FilePath) : FileProgram Unit := do
  let _ ← renameWhen (← isFileWhen moved source) source target

-- One start of the daemon. `pid` is the process id in the names of its own files.
structure Recovery where
  dataDir    : FilePath
  pid        : String
  passphrase : String
  now        : UInt64

namespace Recovery

variable (r : Recovery)

def pending : FilePath := recoveryPendingPath (storePath r.dataDir)

def checkPath : FilePath := r.dataDir ++ "/store.adstore.recovery-check-" ++ r.pid

def checkRevision : FilePath := r.checkPath ++ ".revision"

def liveStore : FilePath := storePath r.dataDir

def liveRevision : FilePath := revisionPath r.dataDir

def oldStore : FilePath := r.dataDir ++ "/store.adstore.before-recovery-" ++ r.pid

def oldRevision : FilePath := r.dataDir ++ "/store.adstore.revision.before-recovery-" ++ r.pid

-- The candidate is opened and validated under names of its own.
def validate (store revision : Bytes) : FileProgram (Except CliError Unit) :=
  (atomicWrite r.checkPath store).andThen fun _ =>
  (atomicWrite r.checkRevision revision).andThen fun _ => do
    match ← EncryptedStore.openStore services.aead services.kdf r.checkPath r.passphrase with
    | .error e =>
      removeFile r.checkPath
      removeFile r.checkRevision
      return .error (.storage e)
    | .ok candidate =>
      (deleteFile r.checkPath).andThen fun _ =>
      (deleteFile r.checkRevision).andThen fun _ =>
        return validateCandidate services candidate r.now

-- The way back when the candidate could not be installed.
def undo (movedStore movedRevision : Bool) : FileProgram Unit := do
  removeFile r.liveStore
  removeFile r.liveRevision
  moveBack movedStore r.oldStore r.liveStore
  moveBack movedRevision r.oldRevision r.liveRevision

def install (store revision : Bytes) (movedStore movedRevision : Bool) :
    FileProgram (Except CliError Unit) := do
  match ← (atomicWrite r.liveStore store).andThen fun _ => atomicWrite r.liveRevision revision with
  | .error e =>
    r.undo movedStore movedRevision
    return .error e
  | .ok () =>
    removeFile r.oldStore
    removeFile r.oldRevision
    deleteFile r.pending

-- The live files are moved aside where they exist, and the candidate's are written.
def replace (store revision : Bytes) : FileProgram (Except CliError Unit) := do
  let movedStore ← isFile r.liveStore
  (renameWhen movedStore r.liveStore r.oldStore).andThen fun _ => do
    let movedRevision ← isFile r.liveRevision
    match ← renameWhen movedRevision r.liveRevision r.oldRevision with
    | .error e =>
      let _ ← renameWhen movedStore r.oldStore r.liveStore
      return .error e
    | .ok ()   => r.install store revision movedStore movedRevision

-- Files that an earlier start with the same process id moved aside are not overwritten.
def takeOver (store revision : Bytes) : FileProgram (Except CliError Unit) := do
  if ← isFile r.oldStore then
    return .error .invalidRecovery
  else if ← isFile r.oldRevision then
    return .error .invalidRecovery
  else
    r.replace store revision

end Recovery

def applyPendingRecovery (r : Recovery) : FileProgram (Except CliError Unit) := do
  if ¬(← isFile r.pending) then
    return .ok ()
  else
    (readFile r.pending).andThen fun artifact =>
      match parseRecoveryArtifact services.artifacts artifact with
      | .error _              => return .error .invalidRecovery
      | .ok (store, revision) =>
        (r.validate services store revision).andThen fun _ => r.takeOver store revision

end Cli
