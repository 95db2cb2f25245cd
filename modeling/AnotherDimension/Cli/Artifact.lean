import AnotherDimension.Cli.Recovery
import AnotherDimension.Storage.Artifact

-- The `recovery export` and `recovery import` commands.

open FileProgram Storage

namespace Cli

variable (services : ArtifactServices)

-- `fs::read(path)?`
def readFile (path : FilePath) : FileProgram (Except CliError Bytes) := do
  return (← perform (.read path)).mapError fun _ => .io

def exportRecovery (dataDir output : FilePath) (now : UInt64) :
    FileProgram (Except CliError String) := do
  if ¬(← isFile (storePath dataDir)) then
    return .error .invalidRecovery
  else if ¬(← isFile (revisionPath dataDir)) then
    return .error .invalidRecovery
  else if ← isFile output then
    return .error .invalidRecovery
  else
    (readFile <| storePath dataDir).andThen fun store =>
    (readFile <| revisionPath dataDir).andThen fun revision =>
    (atomicWrite output <| recoveryArtifact services now store revision).andThen fun _ =>
      return .ok ("encrypted recovery exported to " ++ output ++
        "\nkeep it offline and separate from the device")

-- The checks of `import` on the bytes of the artifact.
def readArtifact (bytes : Bytes) : Except CliError (Bytes × Bytes) :=
  if bytes.length < recoveryMagic.length ∨ bytes.take recoveryMagic.length ≠ recoveryMagic then
    .error .invalidRecovery
  else
    match readBlobs bytes with
    | none                                  => .error .invalidRecovery
    | some (manifest, store, revision, stop) =>
      match services.readManifest manifest with
      | none          => .error .invalidRecovery
      | some manifest =>
        if manifest.schemaVersion ≠ 2 ∨ stop ≠ bytes.length ∨
            ¬manifest.describes services store revision ∨ store.length < 32 ∨ revision = [] then
          .error .invalidRecovery
        else
          .ok (store, revision)

-- The files of one run of the command. `pid` is the process id in the names of its own files.
structure Importation where
  dataDir : FilePath
  pid     : String
  input   : FilePath

namespace Importation

variable (i : Importation)

def activeStore : FilePath := storePath i.dataDir

def activeRevision : FilePath := revisionPath i.dataDir

def temporaryStore : FilePath := i.dataDir ++ "/store.adstore.import-" ++ i.pid

def temporaryRevision : FilePath := i.dataDir ++ "/store.adstore.revision.import-" ++ i.pid

-- The part of `import` that puts the two files in place.
def install (store revision : Bytes) : FileProgram (Except CliError String) := do
  removeFile i.temporaryStore
  removeFile i.temporaryRevision
  match ← atomicWrite i.temporaryStore store with
  | .error e =>
    removeFile i.temporaryStore
    return .error e
  | .ok () =>
    match ← atomicWrite i.temporaryRevision revision with
    | .error e =>
      removeFile i.temporaryStore
      removeFile i.temporaryRevision
      return .error e
    | .ok () =>
      match ← rename i.temporaryStore i.activeStore with
      | .error e =>
        removeFile i.temporaryStore
        removeFile i.temporaryRevision
        return .error e
      | .ok () =>
        match ← rename i.temporaryRevision i.activeRevision with
        | .error e =>
          removeFile i.activeStore
          removeFile i.temporaryRevision
          return .error e
        | .ok () =>
          return .ok ("encrypted recovery imported to " ++ i.dataDir ++
            "\nunlock with the original passphrase")

end Importation

def importRecovery (i : Importation) : FileProgram (Except CliError String) := do
  if ← isFile i.activeStore then
    return .error .alreadyInitialized
  else if ← isFile i.activeRevision then
    return .error .alreadyInitialized
  else
    (readFile i.input).andThen fun bytes =>
      match readArtifact services bytes with
      | .error e             => return .error e
      | .ok (store, revision) => i.install store revision

end Cli
