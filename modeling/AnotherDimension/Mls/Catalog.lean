import AnotherDimension.Mls.Session

-- The daemon's sessions, by conversation.

inductive SessionCatalogError
  | invalidConversation
  | duplicateConversation
  | unknownConversation
  | session (error : SessionError)
  deriving DecidableEq, Repr

inductive DeviceRemovalError
  | catalog (error : SessionCatalogError)
  | storageUnavailable
  deriving DecidableEq, Repr

structure MlsSessionCatalog (σ : Type) where
  sessions : Std.ExtTreeMap String (MlsSession σ)
  deriving DecidableEq

namespace MlsSessionCatalog

variable {σ : Type}

def new : MlsSessionCatalog σ where
  sessions := ∅

variable (mls : Mls σ) (catalog : MlsSessionCatalog σ)

def get (conversationId : String) : Option (MlsSession σ) :=
  catalog.sessions[conversationId]?

def insert (conversationId : String) (session : MlsSession σ) : MlsSessionCatalog σ where
  sessions := catalog.sessions.insert conversationId session

def conversationIds : List String :=
  catalog.sessions.keys

-- `get_mut`: the operation works on the session of the conversation, if there is one.
def withSession {α : Type} (conversationId : String)
    (operation : MlsSession σ → Except SessionError α × MlsSession σ) :
    Except SessionCatalogError α × MlsSessionCatalog σ :=
  if !validConversationId conversationId then
    (.error .invalidConversation, catalog)
  else
    match catalog.get conversationId with
    | none         => (.error .unknownConversation, catalog)
    | some session =>
      ((operation session).fst.mapError .session,
        catalog.insert conversationId (operation session).snd)

-- The same for an operation that also writes to the store.
def withStoredSession {α : Type} (conversationId : String) (store : DurableStore)
    (operation : MlsSession σ → Except SessionError α × MlsSession σ × DurableStore) :
    Except SessionCatalogError α × MlsSessionCatalog σ × DurableStore :=
  if !validConversationId conversationId then
    (.error .invalidConversation, catalog, store)
  else
    match catalog.get conversationId with
    | none         => (.error .unknownConversation, catalog, store)
    | some session =>
      let (result, session, store) := operation session
      (result.mapError .session, catalog.insert conversationId session, store)

-- A session enters the catalog with its first checkpoint, and not at all when that fails.
def insertNew {α : Type} (conversationId : String) (identity : Bytes) (store : DurableStore)
    (operation : MlsSession σ → Except SessionError α × MlsSession σ × DurableStore) :
    Except SessionCatalogError α × MlsSessionCatalog σ × DurableStore :=
  match MlsSession.new mls identity with
  | .error e    => (.error (.session e), catalog, store)
  | .ok session =>
    match operation session with
    | (.error e, _, store)    => (.error (.session e), catalog, store)
    | (.ok a, session, store) => (.ok a, catalog.insert conversationId session, store)

def create (conversationId : String) (identity : Bytes) (store : DurableStore) :
    Except SessionCatalogError Unit × MlsSessionCatalog σ × DurableStore :=
  if !validConversationId conversationId then
    (.error .invalidConversation, catalog, store)
  else if conversationId ∈ catalog.sessions then
    (.error .duplicateConversation, catalog, store)
  else
    catalog.insertNew mls conversationId identity store fun session =>
      session.createGroupAndPersist mls store conversationId

-- A session that is there joins again.
def join (conversationId : String) (identity welcome : Bytes) (store : DurableStore) :
    Except SessionCatalogError Unit × MlsSessionCatalog σ × DurableStore :=
  if !validConversationId conversationId then
    (.error .invalidConversation, catalog, store)
  else if conversationId ∈ catalog.sessions then
    catalog.withStoredSession conversationId store fun session =>
      session.joinAndPersist mls welcome store conversationId
  else
    catalog.insertNew mls conversationId identity store fun session =>
      session.joinAndPersist mls welcome store conversationId

-- The group and the key package of `prepare`, before the checkpoint.
def prepareSession (session : MlsSession σ) : Except SessionError Bytes × MlsSession σ :=
  match session.createGroup mls with
  | (.error e, session) => (.error e, session)
  | (.ok (), session)   => session.keyPackage mls

def prepare (conversationId : String) (identity : Bytes) (store : DurableStore) :
    Except SessionCatalogError Bytes × MlsSessionCatalog σ × DurableStore :=
  if !validConversationId conversationId then
    (.error .invalidConversation, catalog, store)
  else if conversationId ∈ catalog.sessions then
    (.error .duplicateConversation, catalog, store)
  else
    catalog.insertNew mls conversationId identity store fun session =>
      session.andPersist mls (prepareSession mls) store conversationId

def restore (conversationId : String) (store : DurableStore) :
    Except SessionCatalogError Unit × MlsSessionCatalog σ :=
  if !validConversationId conversationId then
    (.error .invalidConversation, catalog)
  else if conversationId ∈ catalog.sessions then
    (.error .duplicateConversation, catalog)
  else
    match MlsSession.restore mls store conversationId with
    | .error e    => (.error (.session e), catalog)
    | .ok session => (.ok (), catalog.insert conversationId session)

-- The conversations with a checkpoint in the store.
def storedConversationIds (store : DurableStore) : List String :=
  (store.recordsWithPrefix .protocolSession "mls/session/").filterMap fun entry =>
    Text.stripPrefix "mls/session/" entry.fst

-- The loop of `restore_all`.
def restoreEach (store : DurableStore) :
    MlsSessionCatalog σ → List String → Except SessionCatalogError Unit × MlsSessionCatalog σ
  | catalog, []                                    => (.ok (), catalog)
  | catalog, conversationId :: conversationIds =>
    match catalog.restore mls conversationId store with
    | (.error e, catalog) => (.error e, catalog)
    | (.ok (), catalog)   => restoreEach store catalog conversationIds

def restoreAll (store : DurableStore) : Except SessionCatalogError Nat × MlsSessionCatalog σ :=
  let ids := storedConversationIds store
  let (result, catalog) := restoreEach mls store catalog ids
  (result.map fun _ => ids.length, catalog)

-- The session is gone also when its checkpoint could not be deleted.
def remove (conversationId : String) (store : DurableStore) :
    Except SessionCatalogError Unit × MlsSessionCatalog σ × DurableStore :=
  if !validConversationId conversationId then
    (.error .invalidConversation, catalog, store)
  else
    match catalog.get conversationId with
    | none   => (.error .unknownConversation, catalog, store)
    | some _ =>
      let catalog : MlsSessionCatalog σ := { sessions := catalog.sessions.erase conversationId }
      match store.delete (MlsSession.key conversationId).fst (MlsSession.key conversationId).snd with
      | (.error _, store) => (.error (.session .storage), catalog, store)
      | (.ok _, store)    => (.ok (), catalog, store)

def lock : MlsSessionCatalog σ :=
  new

-- The loop of `add_members_batch`: a checkpoint after every member.
def addMembers (conversationId : String) :
    MlsSession σ → DurableStore → List Bytes →
      Except SessionError (List Bytes) × MlsSession σ × DurableStore
  | session, store, []                        => (.ok [], session, store)
  | session, store, keyPackage :: keyPackages =>
    match session.addMemberAndPersist mls keyPackage store conversationId with
    | (.error e, session, store)     => (.error e, session, store)
    | (.ok welcome, session, store) =>
      let (result, session, store) := addMembers conversationId session store keyPackages
      (result.map (welcome :: ·), session, store)

def addMembersBatch (conversationId : String) (keyPackages : List Bytes) (store : DurableStore) :
    Except SessionCatalogError (List Bytes) × MlsSessionCatalog σ × DurableStore :=
  catalog.withStoredSession conversationId store fun session =>
    addMembers mls conversationId session store keyPackages

def removeGroupMember (conversationId : String) (credential : Bytes) (store : DurableStore) :
    Except SessionCatalogError (Option Bytes) × MlsSessionCatalog σ × DurableStore :=
  catalog.withStoredSession conversationId store fun session =>
    session.removeMemberAndPersist mls credential store conversationId

-- The loop of `remove_device_unpersisted`: the commit and the checkpoint of every conversation
-- with such a member. It stops at the first error.
def removeDeviceFrom (credential : Bytes) : MlsSessionCatalog σ → List String →
    Except SessionError (List (String × Bytes × Bytes)) × MlsSessionCatalog σ
  | catalog, []                                    => (.ok [], catalog)
  | catalog, conversationId :: conversationIds =>
    match catalog.get conversationId with
    | none         => removeDeviceFrom credential catalog conversationIds
    | some session =>
      match session.removeMember mls credential with
      | (.error e, session)          => (.error e, catalog.insert conversationId session)
      | (.ok none, session)          =>
        removeDeviceFrom credential (catalog.insert conversationId session) conversationIds
      | (.ok (some commit), session) =>
        let catalog := catalog.insert conversationId session
        match session.snapshotBytes mls with
        | .error e       => (.error e, catalog)
        | .ok checkpoint =>
          let (result, catalog) := removeDeviceFrom credential catalog conversationIds
          (result.map ((conversationId, commit, checkpoint) :: ·), catalog)

def removeDeviceUnpersisted (credential : Bytes) :
    Except SessionCatalogError (List (String × Bytes × Bytes)) × MlsSessionCatalog σ :=
  let (result, catalog) := removeDeviceFrom mls credential catalog catalog.conversationIds
  (result.mapError .session, catalog)

def poisonAll : MlsSessionCatalog σ where
  sessions := catalog.sessions.map fun _ session => { session with poisoned := true }

-- What `devices/revoke` and `session/remove-device` do before they deliver the commits; the first
-- also stores the registry.
def removeDevice (credential : Bytes) (registry : Option Bytes) (store : DurableStore) :
    Except DeviceRemovalError (List (String × Bytes × Bytes)) × MlsSessionCatalog σ × DurableStore :=
  match catalog.removeDeviceUnpersisted mls credential with
  | (.error e, catalog)    => (.error (.catalog e), catalog.poisonAll, store)
  | (.ok commits, catalog) =>
    let mutations := registry.toList.map (.put .device "registry") ++
      commits.map fun (conversationId, _, checkpoint) =>
        .put (MlsSession.key conversationId).fst (MlsSession.key conversationId).snd checkpoint
    match store.applyBatch mutations with
    | (.error _, store) => (.error .storageUnavailable, catalog.poisonAll, store)
    | (.ok (), store)   => (.ok commits, catalog, store)

def sendUnpersisted (conversationId : String) (plaintext : Bytes) :
    Except SessionCatalogError Bytes × MlsSessionCatalog σ :=
  catalog.withSession conversationId (MlsSession.encrypt mls · plaintext)

def receiveDeliveryUnpersisted (conversationId : String) (wire : Bytes) :
    Except SessionCatalogError (Option Bytes) × MlsSessionCatalog σ :=
  catalog.withSession conversationId (MlsSession.decryptDelivery mls · wire)

def receiveAttachmentUnpersisted (fromSlice : Bytes → Option AttachmentDescriptor)
    (conversationId : String) (wire : Bytes) :
    Except SessionCatalogError AttachmentDescriptor × MlsSessionCatalog σ :=
  catalog.withSession conversationId (MlsSession.decryptAttachment mls · fromSlice wire)

def sendAttachmentUnpersisted (conversationId : String) (descriptor : AttachmentDescriptor) :
    Except SessionCatalogError Bytes × MlsSessionCatalog σ :=
  catalog.withSession conversationId (MlsSession.encryptAttachment mls · descriptor)

def checkpointBytes (conversationId : String) : Except SessionCatalogError Bytes :=
  if !validConversationId conversationId then
    .error .invalidConversation
  else
    match catalog.get conversationId with
    | none         => .error .unknownConversation
    | some session => (session.snapshotBytes mls).mapError .session

def poison (conversationId : String) : MlsSessionCatalog σ :=
  match catalog.get conversationId with
  | none         => catalog
  | some session => catalog.insert conversationId { session with poisoned := true }

end MlsSessionCatalog
