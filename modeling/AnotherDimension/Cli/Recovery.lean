import AnotherDimension.Storage.Open

-- The `recovery rotate` command of the daemon's command line.

open FileProgram Storage

inductive CliError
  | usage (message : String)
  | io
  | storage (error : StorageError)
  | notInitialized
  | alreadyInitialized
  | invalidRecovery
  deriving DecidableEq, Repr

namespace Cli

variable (aead : Aead) (kdf : String → Salt → Option DatabaseKey)

def storePath (dataDir : FilePath) : FilePath :=
  dataDir ++ "/store.adstore"

def revisionPath (dataDir : FilePath) : FilePath :=
  dataDir ++ "/store.adstore.revision"

def profileIdPath (dataDir : FilePath) : FilePath :=
  dataDir ++ "/profile.id"

def profileKeychainPath (dataDir : FilePath) : FilePath :=
  dataDir ++ "/profile.keychain"

def atomicWrite (path : FilePath) (contents : Bytes) : FileProgram (Except CliError Unit) := do
  match ← perform (.write path contents) with
  | .ok _    => return .ok ()
  | .error _ => return .error .io

def rename (source target : FilePath) : FileProgram (Except CliError Unit) := do
  match ← perform (.rename source target) with
  | .ok _    => return .ok ()
  | .error _ => return .error .io

-- `let _ = fs::remove_file(path)`
def removeFile (path : FilePath) : FileProgram Unit := do
  let _ ← perform (.remove path)

-- `Path::exists` and `Path::is_file`: false when the file cannot be inspected.
def isFile (path : FilePath) : FileProgram Bool := do
  return (← perform (.read path)).isOk

def openStore (dataDir : FilePath) (passphrase : String) :
    FileProgram (Except CliError EncryptedStore) := do
  if ← isFile (storePath dataDir) then
    return (← EncryptedStore.openStore aead kdf (storePath dataDir) passphrase).mapError .storage
  else
    return .error .notInitialized

-- The files of one run of the command. `pid` is the process id in the names of its own files.
structure Rotation where
  dataDir          : FilePath
  pid              : String
  passphraseOutput : Option FilePath

namespace Rotation

variable (r : Rotation)

def active : FilePath := storePath r.dataDir

def activeRevision : FilePath := revisionPath r.dataDir

def temporary : FilePath := r.dataDir ++ "/store.adstore.rotate-" ++ r.pid

def temporaryRevision : FilePath := r.temporary ++ ".revision"

def oldStore : FilePath := r.dataDir ++ "/store.adstore.old-" ++ r.pid

def oldRevision : FilePath := r.dataDir ++ "/store.adstore.revision.old-" ++ r.pid

def removeOutput : FileProgram Unit :=
  match r.passphraseOutput with
  | some path => removeFile path
  | none      => return ()

-- The replacement takes the place of the active store, with a way back at each step.
def swap : FileProgram (Except CliError Unit) := do
  match ← rename r.active r.oldStore with
  | .error e =>
    removeFile r.temporary
    removeFile r.temporaryRevision
    r.removeOutput
    return .error e
  | .ok () =>
    match ← rename r.activeRevision r.oldRevision with
    | .error e =>
      let _ ← rename r.oldStore r.active
      removeFile r.temporary
      removeFile r.temporaryRevision
      r.removeOutput
      return .error e
    | .ok () =>
      match ← rename r.temporary r.active with
      | .error e =>
        let _ ← rename r.oldStore r.active
        let _ ← rename r.oldRevision r.activeRevision
        removeFile r.temporaryRevision
        return .error e
      | .ok () =>
        match ← rename r.temporaryRevision r.activeRevision with
        | .error e =>
          removeFile r.active
          let _ ← rename r.oldStore r.active
          let _ ← rename r.oldRevision r.activeRevision
          r.removeOutput
          return .error e
        | .ok () =>
          removeFile r.oldStore
          removeFile r.oldRevision
          return .ok ()

-- The keychain holds the new passphrase afterwards when the profile has an id and it can be saved.
def updateKeychain (saved : Bool) : FileProgram Unit := do
  match ← perform (.read <| profileIdPath r.dataDir) with
  | .ok id    =>
    if (Bytes.fromUtf8 id).isSome ∧ saved then
      let _ ← atomicWrite (profileKeychainPath r.dataDir) (Bytes.utf8 "v1\n")
  | .error _ => return ()

def writeOutput (newPassphrase : String) : FileProgram (Except CliError Unit) :=
  match r.passphraseOutput with
  | some path => atomicWrite path (Bytes.utf8 (newPassphrase ++ "\n"))
  | none      => return .ok ()

def outputExists : FileProgram Bool :=
  match r.passphraseOutput with
  | some path => isFile path
  | none      => return false

end Rotation

-- The random bytes of one rotation: the generated passphrase, and salt and nonces of the new store.
structure RotationRandom where
  newPassphrase : Option String
  salt          : Option Salt
  nonce₀        : Option Nonce
  nonce₁        : Option Nonce

-- The part of `rotate` that writes the re-encrypted store beside the active one.
def Rotation.rekey (r : Rotation) (random : RotationRandom) (store : EncryptedStore) :
    FileProgram (Except CliError Unit) :=
  match random.newPassphrase with
  | none               => return .error .io
  | some newPassphrase =>
    (r.writeOutput newPassphrase).andThen fun _ => do
      removeFile r.temporary
      removeFile r.temporaryRevision
      match ← store.rekeyTo aead kdf r.temporary newPassphrase random.salt random.nonce₀
          random.nonce₁ with
      | .ok ()   => return .ok ()
      | .error e =>
        r.removeOutput
        return .error (.storage e)

-- The end of `rotate`.
def Rotation.finish (r : Rotation) (saved : Bool) : FileProgram (Except CliError Unit) :=
  r.swap.andThen fun _ => do
    r.updateKeychain saved
    return .ok ()

def rotate (r : Rotation) (credentials : String) (random : RotationRandom) (saved : Bool) :
    FileProgram (Except CliError Unit) := do
  let oldPassphrase := Text.trim credentials
  if oldPassphrase.isEmpty ∨ Text.lineCount credentials ≠ 1 then
    return .error <| .usage
      "recovery rotate stdin must contain exactly one old passphrase; the replacement is generated"
  else if ← r.outputExists then
    return .error <| .usage "--passphrase-output already exists; refusing overwrite"
  else
    (openStore aead kdf r.dataDir oldPassphrase).andThen fun store =>
      (r.rekey aead kdf random store).andThen fun _ => r.finish saved

end Cli
