import AnotherDimension.Daemon.Operations
import AnotherDimension.Delivery.Endpoint

-- How members enter a group: the route `session/add-member`, which returns the welcomes, and the
-- route `pairing/approve`, which writes them to a relay.

open Storage

namespace RelayEndpoint

def forPublicOriginWithPin (value : String) (tlsCertificatePin : Option (ByteBlock 32)) :
    Except RelayError RelayEndpoint :=
  match Uri.parse value with
  | some { scheme := some scheme, authority := some authority, path, query } =>
    let host := hostOf authority
    if path ≠ "/" ∨ query.isSome then
      .error .invalidEndpoint
    else if scheme = "http" ∧ (!isLoopback host ∨ tlsCertificatePin.isSome) then
      .error .unsupportedTransport
    else if scheme = "https" ∧ tlsCertificatePin.isNone then
      .error .trustRequired
    else if scheme ≠ "http" ∧ scheme ≠ "https" then
      .error .unsupportedTransport
    else
      .ok {
        origin            := scheme ++ "://" ++ authority
        path              := "/api/v1/invite-codes"
        capability        := "public-rendezvous"
        tlsCertificatePin := tlsCertificatePin
        tlsServerName     := host
      }
  | _                                                                        =>
    .error .invalidEndpoint

end RelayEndpoint

-- What becomes of a welcome that is sent to a relay. It may be there although the daemon sees an
-- error.
inductive WelcomeWrite
  | written
  | lost
  | refused
  deriving DecidableEq, Repr

-- What `pairing/approve` has to do once the pairing is approved.
structure PendingAdmission where
  keyPackages    : List Bytes
  code           : String
  conversationId : String
  endpoint       : RelayEndpoint
  deriving DecidableEq

namespace Daemon

variable {σ : Type} (services : Services σ) (d : Daemon σ)

def addMembers (conversationId : String) (keyPackages : List Bytes) :
    Except SessionCatalogError (List Bytes) × Daemon σ :=
  let (result, catalog, store) :=
    d.catalog.addMembersBatch services.mls conversationId keyPackages d.store
  (result, { d with catalog, store })

-- The loop over the welcomes: whether all writes were answered, and the welcomes the relay has. The
-- outcome of a write is given by its place.
def writeWelcomes (writes : Nat → WelcomeWrite) : (place : Nat) → List Bytes → Bool × List Bytes
  | _, []                      => (true, [])
  | place, welcome :: welcomes =>
    match writes place with
    | .written =>
      let (ok, stored) := writeWelcomes writes (place + 1) welcomes
      (ok, welcome :: stored)
    | .lost    => (false, [welcome])
    | .refused => (false, [])

def established : HttpReply := ⟨200, "\x7b\"state\":\"established\",\"approved\":true\x7d"⟩

-- What there is to do; `none` when there are no members to add.
def pendingAdmission (relayTlsPin : Option (ByteBlock 32)) :
    Except HttpReply (Option PendingAdmission) :=
  if d.authority.pendingKeyPackages.isEmpty then
    .ok none
  else
    match d.authority.pendingRendezvousCodes.getLast?, d.authority.pendingConversationId with
    | some code, some conversationId =>
      match RelayEndpoint.forPublicOriginWithPin d.authority.relayOrigin relayTlsPin with
      | .error _     => .error ⟨503, "relay_unavailable"⟩
      | .ok endpoint => .ok <| some {
          keyPackages := d.authority.pendingKeyPackages, code, conversationId, endpoint }
    | _, _                           => .ok none

-- The first occurrence of the code goes, and all packages.
def clearPending (code : String) : Daemon σ :=
  { d with authority := { d.authority with
      pendingKeyPackages     := []
      pendingRendezvousCodes := d.authority.pendingRendezvousCodes.erase code } }

-- The pairing is approved and the contact registered before anything else.
def approveContact (now : UInt64) : Except OperationError Unit × Daemon σ :=
  match d.approvePairing now with
  | (.error e, d) => (.error e, d)
  | (.ok (), d)   => d.registerApprovedContact now

-- The members are added, and then their welcomes written. Returns the reply and the welcomes that
-- the relay has.
def admitPending (pending : PendingAdmission) (writes : Nat → WelcomeWrite) :
    HttpReply × List Bytes × Daemon σ :=
  match d.addMembers services pending.conversationId pending.keyPackages with
  | (.error _, d)     => (⟨503, "session_unavailable"⟩, [], d)
  | (.ok welcomes, d) =>
    match writeWelcomes writes 0 welcomes with
    | (false, stored) => (⟨503, "pairing_rendezvous_unavailable"⟩, stored, d)
    | (true, stored)  => (established, stored, d.clearPending pending.code)

-- The route `pairing/approve`.
def approve (relayTlsPin : Option (ByteBlock 32)) (now : UInt64) (writes : Nat → WelcomeWrite) :
    Except OperationError HttpReply × List Bytes × Daemon σ :=
  match d.approveContact now with
  | (.error e, d) => (.error e, [], d)
  | (.ok (), d)   =>
    match d.pendingAdmission relayTlsPin with
    | .error reply        => (.ok reply, [], d)
    | .ok none            => (.ok established, [], d)
    | .ok (some pending)  =>
      let (reply, stored, d) := d.admitPending services pending writes
      (.ok reply, stored, d)

end Daemon

-- A request that adds members. What the relay does with the welcomes is not part of the request,
-- and neither is the time.
inductive AdmissionRequest
  | addMember (conversationId : String) (keyPackages : List Bytes)
  | approve (now : UInt64) (writes : Nat → WelcomeWrite)

-- A request, or the start of a new process.
inductive AdmissionEvent
  | request (request : AdmissionRequest)
  | restart (outcomes : List CommitOutcome)

namespace Daemon

variable {σ : Type} (services : Services σ) (relayTlsPin : Option (ByteBlock 32)) (d : Daemon σ)

-- The daemon after the request.
def handleAdmission : AdmissionRequest → Daemon σ
  | .addMember conversationId keyPackages => (d.addMembers services conversationId keyPackages).snd
  | .approve now writes                   => (d.approve services relayTlsPin now writes).snd.snd

-- The packages whose welcome the request returned, or the relay has.
def delivered : AdmissionRequest → List Bytes
  | .addMember conversationId keyPackages =>
    if (d.addMembers services conversationId keyPackages).fst.isOk then keyPackages else []
  | .approve now writes                   =>
    d.authority.pendingKeyPackages.take
      (d.approve services relayTlsPin now writes).snd.fst.length

-- A daemon that cannot be started again stays as it is.
def admissionStep : AdmissionEvent → Daemon σ
  | .request request  => d.handleAdmission services relayTlsPin request
  | .restart outcomes => (d.restart services outcomes).getD d

end Daemon
