import AnotherDimension.Storage.Durable
import AnotherDimension.Attachments.Descriptor

-- A conversation's MLS session: the library's state, with the daemon's limits and checkpoints.

inductive SessionError
  | provider
  | identityTooLarge
  | unsupportedMessage
  | invalidWire
  | tooLarge
  | crypto
  | notJoined
  | openMls
  | storage
  deriving DecidableEq, Repr

-- What the library finds in a message that it could process.
inductive MlsContent
  | application (plaintext : Bytes)
  | commit
  | other
  deriving DecidableEq, Repr

-- A member of a group, at its place in the tree.
structure Leaf where
  index      : Nat
  credential : Bytes
  deriving DecidableEq, Repr

-- The MLS library. A state holds the provider's storage, the credential with its signature key and
-- the group, if there is one; an operation that fails leaves the state as it was. `addMembers`
-- merges its own commit, and `process` merges the commit it was given. The two steps of a removal
-- also say what they leave when they fail; a commit is its serialization, if it has one.
structure Mls (σ : Type) where
  new                : (identity : Bytes) → Except SessionError σ
  createGroup        : σ → Except SessionError σ
  keyPackage         : σ → Except SessionError (Bytes × σ)
  addMembers         : σ → (keyPackage : Bytes) → Except SessionError ((Bytes × Bytes) × σ)
  members            : σ → Option (List Leaf)
  removeMembers      : σ → (index : Nat) → Option (Option Bytes) × σ
  mergePendingCommit : σ → Option Unit × σ
  joinWelcome        : σ → (welcome : Bytes) → Except SessionError σ
  createMessage      : σ → (plaintext : Bytes) → Except SessionError (Bytes × σ)
  process            : σ → (wire : Bytes) → Except SessionError (MlsContent × σ)
  snapshot           : σ → Except SessionError Bytes
  restore            : Bytes → Except SessionError σ

structure MlsSession (σ : Type) where
  state    : σ
  poisoned : Bool
  deriving DecidableEq

namespace MlsSession

open Storage

def maxIdentityBytes : Nat := 1024

def maxMessageBytes : Nat := 64 * 1024

def maxWireBytes : Nat := 4 * 1024 * 1024

def maxSnapshotBytes : Nat := 4 * 1024 * 1024

variable {σ : Type} (mls : Mls σ)

def new (identity : Bytes) : Except SessionError (MlsSession σ) :=
  if identity.isEmpty ∨ identity.length > maxIdentityBytes then
    .error .identityTooLarge
  else
    (mls.new identity).map ({ state := ·, poisoned := false })

variable (session : MlsSession σ)

-- `ensure_usable`, and then the library's operation on the state.
def ifUsable {α : Type} (operation : σ → Except SessionError (α × σ)) :
    Except SessionError α × MlsSession σ :=
  if session.poisoned then
    (.error .storage, session)
  else
    match operation session.state with
    | .error e        => (.error e, session)
    | .ok (a, state) => (.ok a, { session with state })

theorem ifUsable_ok {α : Type} {operation : σ → Except SessionError (α × σ)}
    {session session' : MlsSession σ} {a : α} (h : session.ifUsable operation = (.ok a, session')) :
    session.poisoned = false ∧
      ∃ state, operation session.state = .ok (a, state) ∧ session' = { session with state } := by
  unfold ifUsable at h
  split at h
  case isTrue => cases h
  case isFalse hp =>
    split at h <;> cases h
    case h_2 state ho => exact ⟨by simpa using hp, state, ho, rfl⟩

theorem ifUsable_error {α : Type} {operation : σ → Except SessionError (α × σ)}
    {session session' : MlsSession σ} {e : SessionError}
    (h : session.ifUsable operation = (.error e, session')) : session' = session := by
  unfold ifUsable at h
  split at h
  case isTrue => cases h; rfl
  case isFalse => split at h <;> cases h; rfl

def createGroup : Except SessionError Unit × MlsSession σ :=
  session.ifUsable fun state => (mls.createGroup state).map ((), ·)

def keyPackage : Except SessionError Bytes × MlsSession σ :=
  session.ifUsable mls.keyPackage

-- Of the commit and the welcome only the welcome is kept.
def addMember (keyPackage : Bytes) : Except SessionError Bytes × MlsSession σ :=
  session.ifUsable fun state =>
    (mls.addMembers state keyPackage).map fun ((_, welcome), state) => (welcome, state)

-- The first leaf with the credential is removed. Each step that fails leaves the group as it is.
def removeMember (credential : Bytes) : Except SessionError (Option Bytes) × MlsSession σ :=
  if session.poisoned then
    (.error .storage, session)
  else
    match mls.members session.state with
    | none        => (.error .notJoined, session)
    | some leaves =>
      match leaves.find? (·.credential = credential) with
      | none        => (.ok none, session)
      | some member =>
        match mls.removeMembers session.state member.index with
        | (none, state)        => (.error .openMls, { session with state })
        | (some commit, state) =>
          match mls.mergePendingCommit state with
          | (none, state)    => (.error .openMls, { session with state })
          | (some (), state) =>
            match commit with
            | none      => (.error .invalidWire, { session with state })
            | some wire => (.ok (some wire), { session with state })

def join (welcome : Bytes) : Except SessionError Unit × MlsSession σ :=
  session.ifUsable fun state =>
    if welcome.length > maxWireBytes then
      .error .tooLarge
    else
      (mls.joinWelcome state welcome).map ((), ·)

def encrypt (plaintext : Bytes) : Except SessionError Bytes × MlsSession σ :=
  session.ifUsable fun state =>
    if plaintext.length > maxMessageBytes then .error .tooLarge else mls.createMessage state plaintext

-- A message of another kind is refused after the library has processed it.
def decryptDelivery (wire : Bytes) : Except SessionError (Option Bytes) × MlsSession σ :=
  let processed := session.ifUsable fun state =>
    if wire.length > maxWireBytes then .error .tooLarge else mls.process state wire
  match processed with
  | (.error e, session)                        => (.error e, session)
  | (.ok (.application plaintext), session) => (.ok (some plaintext), session)
  | (.ok .commit, session)                     => (.ok none, session)
  | (.ok .other, session)                      => (.error .unsupportedMessage, session)

def decrypt (wire : Bytes) : Except SessionError Bytes × MlsSession σ :=
  match session.decryptDelivery mls wire with
  | (.error e, session)             => (.error e, session)
  | (.ok none, session)             => (.error .unsupportedMessage, session)
  | (.ok (some plaintext), session) => (.ok plaintext, session)

def encryptAttachment (descriptor : AttachmentDescriptor) :
    Except SessionError Bytes × MlsSession σ :=
  session.encrypt mls <| attachmentMessagePrefix ++ descriptor.encoded

-- `fromSlice` is what `serde_json` reads. The state has moved also when there is no descriptor.
def decryptAttachment (fromSlice : Bytes → Option AttachmentDescriptor) (wire : Bytes) :
    Except SessionError AttachmentDescriptor × MlsSession σ :=
  match session.decrypt mls wire with
  | (.error e, session)    => (.error e, session)
  | (.ok payload, session) =>
    match Bytes.stripPrefix attachmentMessagePrefix payload with
    | none         => (.error .unsupportedMessage, session)
    | some encoded =>
      match fromSlice encoded with
      | none            => (.error .invalidWire, session)
      | some descriptor => (.ok descriptor, session)

def snapshotBytes : Except SessionError Bytes :=
  if session.poisoned then
    .error .storage
  else
    match mls.snapshot session.state with
    | .error e  => .error e
    | .ok bytes => if bytes.length > maxSnapshotBytes then .error .tooLarge else .ok bytes

-- `session_key`
def key (conversationId : String) : RecordKey :=
  (.protocolSession, "mls/session/" ++ conversationId)

def persist (store : DurableStore) (conversationId : String) :
    Except SessionError Unit × DurableStore :=
  match session.snapshotBytes mls with
  | .error e  => (.error e, store)
  | .ok bytes =>
    match store.put (key conversationId).fst (key conversationId).snd bytes with
    | (.error _, store) => (.error .storage, store)
    | (.ok (), store)   => (.ok (), store)

def persistOrPoison (store : DurableStore) (conversationId : String) :
    Except SessionError Unit × MlsSession σ × DurableStore :=
  match session.persist mls store conversationId with
  | (.error e, store) => (.error e, { session with poisoned := true }, store)
  | (.ok (), store)   => (.ok (), session, store)

-- An operation on the session, and its checkpoint when it succeeded.
def andPersist {α : Type} (operation : MlsSession σ → Except SessionError α × MlsSession σ)
    (store : DurableStore) (conversationId : String) :
    Except SessionError α × MlsSession σ × DurableStore :=
  match operation session with
  | (.error e, session) => (.error e, session, store)
  | (.ok a, session)    =>
    match session.persistOrPoison mls store conversationId with
    | (.error e, session, store) => (.error e, session, store)
    | (.ok (), session, store)   => (.ok a, session, store)

def createGroupAndPersist (store : DurableStore) (conversationId : String) :
    Except SessionError Unit × MlsSession σ × DurableStore :=
  session.andPersist mls (createGroup mls) store conversationId

def addMemberAndPersist (keyPackage : Bytes) (store : DurableStore) (conversationId : String) :
    Except SessionError Bytes × MlsSession σ × DurableStore :=
  session.andPersist mls (addMember mls · keyPackage) store conversationId

-- Without such a member there is nothing to checkpoint.
def removeMemberAndPersist (credential : Bytes) (store : DurableStore) (conversationId : String) :
    Except SessionError (Option Bytes) × MlsSession σ × DurableStore :=
  match session.removeMember mls credential with
  | (.error e, session)         => (.error e, session, store)
  | (.ok none, session)         => (.ok none, session, store)
  | (.ok (some commit), session) =>
    match session.persistOrPoison mls store conversationId with
    | (.error e, session, store) => (.error e, session, store)
    | (.ok (), session, store)   => (.ok (some commit), session, store)

def joinAndPersist (welcome : Bytes) (store : DurableStore) (conversationId : String) :
    Except SessionError Unit × MlsSession σ × DurableStore :=
  session.andPersist mls (join mls · welcome) store conversationId

def restore (store : DurableStore) (conversationId : String) : Except SessionError (MlsSession σ) :=
  match store.get (key conversationId).fst (key conversationId).snd with
  | none       => .error .storage
  | some bytes =>
    if bytes.length > maxSnapshotBytes then
      .error .tooLarge
    else
      (mls.restore bytes).map ({ state := ·, poisoned := false })

end MlsSession
