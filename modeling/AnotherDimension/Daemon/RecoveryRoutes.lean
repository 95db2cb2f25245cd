import AnotherDimension.Library.Decode
import AnotherDimension.Storage.Artifact

-- The routes of the local bridge for recovery artifacts. The session of the caller has been checked.

open FileProgram Storage

namespace Daemon

-- A request as it reaches the routes: everything up to the blank line, and the body behind it.
structure ApiRequest where
  head : Bytes
  body : Bytes

structure ApiReply where
  status : Nat
  body   : String
  deriving DecidableEq, Repr

def maxRequestBytes : Nat := 192 * 1024

-- The text between the quotes that follow the key.
def jsonString (body : Bytes) (key : String) : Option String := do
  let text       ← Bytes.fromUtf8 body
  let (_, after) ← Text.splitOnce ("\"" ++ key ++ "\":\"").toList text.toList
  let (value, _) ← Text.splitOnce ['"'] after
  if value.isEmpty ∨ '\\' ∈ value ∨ value.any Text.isControl then
    none
  else
    return .ofList value

def hexDecode (value : String) : Option Bytes :=
  if value.isEmpty then none else Bytes.fromHex value

def exportBody (artifact : Bytes) : String :=
  "\x7b\"schema_version\":2,\"artifact_hex\":\"" ++ Bytes.toHex artifact ++ "\"\x7d"

def recoveryExport (aead : Aead) (services : ArtifactServices) (store : EncryptedStore)
    (nonce : Option Nonce) (now : UInt64) : FileProgram (ApiReply × EncryptedStore) := do
  match ← store.exportRecoveryArtifact services now with
  | .error _     => return (⟨503, "recovery_export_unavailable"⟩, store)
  | .ok artifact =>
    match ← store.put aead nonce .recovery "exported" (Bytes.utf8 "v1") with
    | (.error _, store) => return (⟨503, "recovery_export_unavailable"⟩, store)
    | (.ok (), store)   => return (⟨200, exportBody artifact⟩, store)

-- A body that is too large is refused when it is read, and so is the whole when it is parsed.
def recoveryStage (services : ArtifactServices) (store : EncryptedStore) (request : ApiRequest) :
    FileProgram ApiReply :=
  if request.body.length > maxRequestBytes then
    return ⟨413, "request_too_large"⟩
  else if (request.head ++ request.body).length > maxRequestBytes then
    return ⟨400, "invalid_request"⟩
  else
    match jsonString request.body "artifact_hex" >>= hexDecode with
    | none          => return ⟨400, "invalid_recovery_artifact"⟩
    | some artifact => do
      match ← store.stageRecoveryArtifact services artifact with
      | .ok ()   => return ⟨202, "\x7b\"staged\":true,\"restart_required\":true\x7d"⟩
      | .error _ => return ⟨422, "invalid_recovery_artifact"⟩

end Daemon
