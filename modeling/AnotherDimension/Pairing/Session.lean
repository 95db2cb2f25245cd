import AnotherDimension.Library.Json
import AnotherDimension.Pairing.Peer
import AnotherDimension.Storage.Store

-- The pairing of the daemon with a peer.

open FileProgram Storage

inductive PairingState
  | idle
  | inviteCreated
  | verified
  | established
  | rejected
  deriving DecidableEq, Repr

inductive PairingError
  | invalidTransition
  | selfInvite
  | expired
  | duplicate
  | safetyMismatch
  | bindingChanged
  deriving DecidableEq, Repr

structure PairingSession where
  localAccountId : String
  localDeviceId  : String
  state          : PairingState
  peer           : Option VerifiedInvite
  safetyVerified : Bool
  deriving DecidableEq, Repr

namespace PairingSession

-- `Sha256::digest`
variable (sha256 : Bytes → ByteBlock 32)

def new (localAccountId localDeviceId : String) : PairingSession where
  localAccountId := localAccountId
  localDeviceId  := localDeviceId
  state          := .idle
  peer           := none
  safetyVerified := false

variable (session : PairingSession)

def markInviteCreated : Except PairingError Unit × PairingSession :=
  match session.state with
  | .verified => (.error .invalidTransition, session)
  | _         => (.ok (), { session with state := .inviteCreated })

def verifyPeer (peer : VerifiedInvite) (now : UInt64) : Except PairingError Unit × PairingSession :=
  if !validVerifiedPeer peer then
    (.error .invalidTransition, session)
  else if peer.accountId = session.localAccountId then
    (.error .selfInvite, session)
  else if peer.expiresAt ≤ now then
    (.error .expired, session)
  else
    match session.state with
    | .verified    => (.error .duplicate, session)
    | .established =>
      match session.peer with
      | none         => (.error .invalidTransition, session)
      | some trusted =>
        if trusted.accountId = peer.accountId then
          (.error .bindingChanged, session)
        else
          (.ok (), { session with peer := some peer, safetyVerified := true })
    | _            =>
      (.ok (), { session with peer := some peer, state := .verified, safetyVerified := false })

def approve (now : UInt64) : Except PairingError Unit × PairingSession :=
  match session.peer with
  | none      => (.error .invalidTransition, session)
  | some peer =>
    if peer.expiresAt ≤ now then
      (.error .expired, session)
    else if session.state = .established then
      (.error .duplicate, session)
    else if session.state ≠ .verified then
      (.error .invalidTransition, session)
    else if !session.safetyVerified then
      (.error .invalidTransition, session)
    else
      (.ok (), { session with state := .established })

-- The number two people compare: a hash of both accounts and both devices, each pair in order.
def safetyNumberFor (peer : VerifiedInvite) : String :=
  let sorted (a b : String) := if b < a then (b, a) else (a, b)
  let accounts := sorted session.localAccountId peer.accountId
  let devices := sorted session.localDeviceId peer.deviceId
  let transcript := "another-dimension/safety/v1\naccount-a=" ++ accounts.fst ++
    "\naccount-b=" ++ accounts.snd ++ "\ndevice-a=" ++ devices.fst ++ "\ndevice-b=" ++ devices.snd
  "sha256-" ++ Bytes.toHex (sha256 <| Bytes.utf8 transcript).val

def safetyNumber : Option String :=
  session.peer.map <| session.safetyNumberFor sha256

def confirmSafety (value : String) : Except PairingError Unit × PairingSession :=
  if !(session.state = .verified ∨ (session.state = .established ∧ !session.safetyVerified)) then
    (.error .invalidTransition, session)
  else if !session.safetyVerified ∧ session.safetyNumber sha256 ≠ some (Text.trim value) then
    (.error .safetyMismatch, session)
  else
    (.ok (), { session with safetyVerified := true })

def unverifySafety : Except PairingError Unit × PairingSession :=
  if session.state ≠ .established ∨ !session.safetyVerified then
    (.error .invalidTransition, session)
  else
    (.ok (), { session with safetyVerified := false })

def canMessage : Bool :=
  session.state = .established && session.safetyVerified

def canMessageAt (now : UInt64) : Bool :=
  session.canMessage && session.peer.any fun peer => now < max peer.expiresAt now

-- Both `reject` and `invalidate_binding` end a pairing.
def ended : PairingSession :=
  { session with state := .rejected, peer := none, safetyVerified := false }

def reject : Except PairingError Unit × PairingSession :=
  if session.state = .verified ∨ session.state = .established then
    (.ok (), session.ended)
  else
    (.error .invalidTransition, session)

def invalidateBinding : Except PairingError Unit × PairingSession :=
  if session.state = .established then
    (.ok (), session.ended)
  else
    (.error .invalidTransition, session)

end PairingSession

-- A call of one of the operations that change the pairing.
inductive PairingOp
  | markInviteCreated
  | verifyPeer (peer : VerifiedInvite) (now : UInt64)
  | approve (now : UInt64)
  | confirmSafety (value : String)
  | unverifySafety
  | reject
  | invalidateBinding

namespace PairingSession

variable (sha256 : Bytes → ByteBlock 32)

def perform (session : PairingSession) : PairingOp → Except PairingError Unit × PairingSession
  | .markInviteCreated   => session.markInviteCreated
  | .verifyPeer peer now => session.verifyPeer peer now
  | .approve now         => session.approve now
  | .confirmSafety value => session.confirmSafety sha256 value
  | .unverifySafety      => session.unverifySafety
  | .reject              => session.reject
  | .invalidateBinding   => session.invalidateBinding

def step (session : PairingSession) (op : PairingOp) : PairingSession :=
  (session.perform sha256 op).snd

end PairingSession
