import AnotherDimension.Daemon.State
import AnotherDimension.Delivery.Endpoint

-- The two ways in which a daemon takes in what a relay holds for it: `process_sync_items` for one
-- conversation on a request, and `process_inbox_items` for all conversations in the background.

open Storage

namespace RelayItem

def envelopePrefix : String := "ADENV1."

-- The envelope of an item that passes all checks made before it is opened.
def validated {σ : Type} (services : Services σ) (capability : String) (now : UInt64)
    (item : RelayItem) : Option RelayEnvelope :=
  match Text.stripPrefix envelopePrefix item.envelope with
  | none      => none
  | some wire =>
    match RelayEnvelope.fromWire services.readWire wire now with
    | .error _     => none
    | .ok envelope =>
      if envelope.mailbox ≠ capability ∨
          Bytes.toHex (services.sha256 <| Bytes.utf8 item.envelope).val ≠ item.id then
        none
      else
        some envelope

end RelayItem

namespace Daemon

variable {σ : Type} (services : Services σ)

-- What was found in a message and is to be stored with it.
structure Staged where
  authority : InviteAuthority
  mutations : List RecordMutation
  rendered  : Option String

-- The contact of the conversation, if there is one, shows the message.
def stageContact (authority : InviteAuthority) (conversationId : String) (plaintext : Bytes)
    (now : UInt64) (background : Bool) : InviteAuthority × List RecordMutation :=
  match authority.stageContactMessage conversationId plaintext now background with
  | (.error _, authority) => (authority, [])
  | (.ok (), authority)   =>
    (authority, [.put ContactDirectory.directoryKey.fst ContactDirectory.directoryKey.snd
      authority.contacts.snapshotBytes])

-- `json_escape`
def jsonEscape (s : String) : String :=
  .ofList <| s.toList.flatMap fun c => if c = '\\' ∨ c = '"' then ['\\', c] else [c]

def stageAttachment (authority : InviteAuthority) (conversationId digest relayId : String)
    (descriptor : AttachmentDescriptor) (now : UInt64) (background : Bool) : Staged :=
  let (encoded, authority) := authority.stageReceivedAttachment digest descriptor
  let (authority, contacts) := stageContact authority conversationId
    (Bytes.utf8 "[encrypted attachment]") now background
  { authority
    mutations := .put (InviteAuthority.receivedKey digest).fst
      (InviteAuthority.receivedKey digest).snd encoded :: contacts
    rendered  := some <| "\x7b\"id\":\"" ++ jsonEscape relayId ++ "\",\"digest\":\"" ++
      jsonEscape digest ++ "\",\"attachment_id\":\"" ++ jsonEscape digest ++ "\"\x7d" }

def incomingMutation (conversationId : String) (message : MessagePayload) : RecordMutation :=
  .put (StoredMessage.key services.sha256 conversationId message.id).fst
    (StoredMessage.key services.sha256 conversationId message.id).snd
    (StoredMessage.ofPayload conversationId message "incoming").encoded

-- `,"message_id":…` and so on, for a message that has these fields.
def renderedMetadata (message : Option MessagePayload) (now : UInt64) : String :=
  message.elim "" fun item => ",\"message_id\":\"" ++ jsonEscape item.id ++ "\",\"created_at\":" ++
    Json.number item.createdAt ++ ",\"expires_at\":" ++ Json.number item.expiresAt ++
    ",\"expired\":" ++ Json.bool (item.isExpired now)

-- In `process_sync_items` a plaintext of any kind reaches the contact, an expired message apart.
def stageSyncMessage (authority : InviteAuthority) (conversationId digest relayId : String)
    (plaintext : Bytes) (now : UInt64) (background : Bool) : Staged :=
  let message := MessagePayload.decode services.readMessage plaintext
  let expired := message.any (·.isExpired now)
  let displayText := message.elim plaintext fun item => Bytes.utf8 item.text
  let incoming := (message.filter fun _ => !expired).toList.map <|
    incomingMutation services conversationId
  let (authority, contacts) := if expired then (authority, []) else
    stageContact authority conversationId displayText now background
  { authority
    mutations := incoming ++ contacts
    rendered  := some <| "\x7b\"id\":\"" ++ jsonEscape relayId ++ "\",\"digest\":\"" ++
      jsonEscape digest ++ "\",\"plaintext\":\"" ++
      (if expired then "" else Bytes.toHex displayText) ++ "\"" ++ renderedMetadata message now ++
      " \x7d" }

def stageSync (authority : InviteAuthority) (conversationId digest relayId : String)
    (now : UInt64) (background : Bool) : Option Bytes → Staged
  | none           => { authority, mutations := [], rendered := none }
  | some plaintext =>
    match attachmentDescriptorFromPlaintext services.readDescriptor plaintext with
    | some descriptor =>
      stageAttachment authority conversationId digest relayId descriptor now background
    | none            =>
      stageSyncMessage services authority conversationId digest relayId plaintext now background

-- In `process_inbox_items` only an attachment or an unexpired message is shown.
def stageInboxMessage (authority : InviteAuthority) (conversationId : String) (plaintext : Bytes)
    (now : UInt64) : Staged :=
  match MessagePayload.decode services.readMessage plaintext with
  | none         => { authority, mutations := [], rendered := none }
  | some message =>
    if message.expiresAt = 0 ∨ message.expiresAt > now then
      let (authority, contacts) :=
        stageContact authority conversationId (Bytes.utf8 message.text) now true
      { authority
        mutations := incomingMutation services conversationId message :: contacts
        rendered  := none }
    else
      { authority, mutations := [], rendered := none }

def stageInbox (authority : InviteAuthority) (conversationId digest relayId : String)
    (now : UInt64) : Option Bytes → Staged
  | none           => { authority, mutations := [], rendered := none }
  | some plaintext =>
    match attachmentDescriptorFromPlaintext services.readDescriptor plaintext with
    | some descriptor => stageAttachment authority conversationId digest relayId descriptor now true
    | none            => stageInboxMessage services authority conversationId plaintext now

-- `register_recipient_received` and then `mark_decrypted`: whether both went well.
def markReceived (ledger : DeliveryLedger) (digest relayId : String) : Bool × DeliveryLedger :=
  match ledger.registerRecipientReceived digest relayId with
  | (.error _, ledger) => (false, ledger)
  | (.ok _, ledger)    =>
    match ledger.markDecrypted digest with
    | (.error _, ledger) => (false, ledger)
    | (.ok _, ledger)    => (true, ledger)

variable (d : Daemon σ)

def checkpointMutation (conversationId : String) (checkpoint : Bytes) : RecordMutation :=
  .put (MlsSession.key conversationId).fst (MlsSession.key conversationId).snd checkpoint

def ledgerMutation (ledger : DeliveryLedger) : RecordMutation :=
  .put DeliveryLedger.ledgerKey.fst DeliveryLedger.ledgerKey.snd ledger.encodedBytes

-- The batch with the checkpoint, what was staged and the ledger. When it fails the session is
-- poisoned and the rest read back.
def commitReceived (conversationId : String) (mutations : List RecordMutation) : Bool × Daemon σ :=
  match d.store.applyBatch mutations with
  | (.ok (), store)   => (true, { d with store })
  | (.error _, store) =>
    (false, ({ d with store }.poison conversationId).restoreStaged services)

section Sync

variable (conversationId : String) (background : Bool) (now : UInt64)

-- The part of the loop after a message was decrypted, with its plaintext if it has one.
def storeSynced (relayId digest : String) (plaintext : Option Bytes) :
    Except HttpReply (Option String) × Daemon σ :=
  match d.catalog.checkpointBytes services.mls conversationId with
  | .error _       => (.error ⟨503, "session_storage_unavailable"⟩, d.poison conversationId)
  | .ok checkpoint =>
    let staged :=
      stageSync services d.authority conversationId digest relayId now background plaintext
    let (marked, ledger) := markReceived d.ledger digest relayId
    let d := { d with authority := staged.authority, ledger }
    if !marked then
      (.error ⟨503, "delivery_state_unavailable"⟩, d.poison conversationId)
    else
      let mutations := checkpointMutation conversationId checkpoint ::
        (staged.mutations ++ [ledgerMutation ledger])
      match d.commitReceived services conversationId mutations with
      | (false, d) => (.error ⟨503, "message_storage_unavailable"⟩, d)
      | (true, d)  => (.ok staged.rendered, d)

-- One turn of the loop. An envelope that was received before is not opened again.
def syncItem (relayId : String) (envelope : RelayEnvelope) :
    Except HttpReply (Option String) × Daemon σ :=
  match envelope.digest services.sha256 with
  | .error _   => (.error ⟨502, "invalid_relay_envelope"⟩, d)
  | .ok digest =>
    if (d.ledger.get digest).any fun record =>
        record.state = .recipientReceived || record.state = .decrypted then
      (.ok none, d)
    else
      match d.catalog.receiveDeliveryUnpersisted services.mls conversationId envelope.ciphertext with
      | (.error _, catalog)      => (.error ⟨409, "message_decrypt_failed"⟩, { d with catalog })
      | (.ok plaintext, catalog) =>
        { d with catalog }.storeSynced services conversationId background now relayId digest plaintext

-- The ids to acknowledge and the messages to show.
structure SyncProcessResult where
  acknowledgedIds : List String
  messages        : List String
  deriving DecidableEq, Repr

def syncItems : Daemon σ → List (String × RelayEnvelope) →
    Except HttpReply SyncProcessResult × Daemon σ
  | d, []                           => (.ok ⟨[], []⟩, d)
  | d, (relayId, envelope) :: items =>
    match d.syncItem services conversationId background now relayId envelope with
    | (.error e, d)     => (.error e, d)
    | (.ok rendered, d) =>
      let (result, d) := syncItems d items
      (result.map fun r => ⟨relayId :: r.acknowledgedIds, rendered.toList ++ r.messages⟩, d)

-- The first pass: every item is checked before any is opened.
def validateItems (capability : String) (now : UInt64) :
    List RelayItem → Option (List (String × RelayEnvelope))
  | []            => some []
  | item :: items =>
    match item.validated services capability now with
    | none          => none
    | some envelope => (validateItems capability now items).map ((item.id, envelope) :: ·)

def processSyncItems (capability : String) (items : List RelayItem) :
    Except HttpReply SyncProcessResult × Daemon σ :=
  match validateItems services capability now items with
  | none           => (.error ⟨502, "invalid_relay_envelope"⟩, d)
  | some validated => syncItems services conversationId background now d validated

end Sync

section Inbox

variable (now : UInt64)

-- The part of the loop after a message was decrypted in the conversation. Only a failed batch
-- poisons the session.
def storeInbox (conversationId relayId digest : String) (plaintext : Option Bytes) :
    Except RelayError Unit × Daemon σ :=
  match d.catalog.checkpointBytes services.mls conversationId with
  | .error _       => (.error .invalidResponse, d)
  | .ok checkpoint =>
    let staged := stageInbox services d.authority conversationId digest relayId now plaintext
    let (marked, ledger) := markReceived d.ledger digest relayId
    let d := { d with authority := staged.authority, ledger }
    if !marked then
      (.error .invalidResponse, d)
    else
      let mutations := checkpointMutation conversationId checkpoint ::
        (staged.mutations ++ [ledgerMutation ledger])
      match d.commitReceived services conversationId mutations with
      | (false, d) => (.error .invalidResponse, d)
      | (true, d)  => (.ok (), d)

-- The loop over the conversations: whether one of them could open the ciphertext.
def tryConversations (relayId digest : String) (ciphertext : Bytes) :
    Daemon σ → List String → Except RelayError Bool × Daemon σ
  | d, []                                => (.ok false, d)
  | d, conversationId :: conversationIds =>
    match d.catalog.receiveDeliveryUnpersisted services.mls conversationId ciphertext with
    | (.error _, catalog)      =>
      tryConversations relayId digest ciphertext { d with catalog } conversationIds
    | (.ok plaintext, catalog) =>
      match { d with catalog }.storeInbox services now conversationId relayId digest plaintext with
      | (.error e, d) => (.error e, d)
      | (.ok (), d)   => (.ok true, d)

-- How an item was dealt with.
inductive InboxOutcome
  | known
  | delivered
  | skipped
  deriving DecidableEq, Repr

-- One turn of the loop.
def inboxItem (capability : String) (conversationIds : List String) (item : RelayItem) :
    Except RelayError InboxOutcome × Daemon σ :=
  match item.validated services capability now with
  | none          => (.error .invalidResponse, d)
  | some envelope =>
    match envelope.digest services.sha256 with
    | .error _   => (.error .invalidResponse, d)
    | .ok digest =>
      if (d.ledger.get digest).any fun record => record.state = .decrypted then
        (.ok .known, d)
      else
        match tryConversations services now item.id digest envelope.ciphertext d
            conversationIds with
        | (.error e, d)   => (.error e, d)
        | (.ok true, d)   => (.ok .delivered, d)
        | (.ok false, d)  => (.ok .skipped, d)

-- The number of messages and the ids to acknowledge.
def inboxItems (capability : String) (conversationIds : List String) :
    Daemon σ → List RelayItem → Except RelayError (Nat × List String) × Daemon σ
  | d, []            => (.ok (0, []), d)
  | d, item :: items =>
    match d.inboxItem services now capability conversationIds item with
    | (.error e, d)    => (.error e, d)
    | (.ok outcome, d) =>
      let (result, d) := inboxItems capability conversationIds d items
      (result.map fun (processed, ids) =>
        (if outcome = .delivered then processed + 1 else processed,
          if outcome = .skipped then ids else item.id :: ids), d)

-- The ledger is written once more at the end.
def processInboxItems (capability : String) (items : List RelayItem) :
    Except RelayError (Nat × List String) × Daemon σ :=
  match inboxItems services now capability d.catalog.conversationIds d items with
  | (.error e, d)     => (.error e, d)
  | (.ok received, d) =>
    match d.persistLedger with
    | (.error _, d) => (.error .invalidResponse, d)
    | (.ok (), d)   => (.ok received, d)

end Inbox

-- What can happen to a daemon that only receives.
inductive ReceiveEvent
  | sync (conversationId : String) (background : Bool) (now : UInt64) (capability : String)
      (items : List RelayItem)
  | inbox (now : UInt64) (capability : String) (items : List RelayItem)
  | restart (outcomes : List CommitOutcome)

-- A daemon that cannot be started again stays as it is.
def receive : ReceiveEvent → Daemon σ
  | .sync conversationId background now capability items =>
    (d.processSyncItems services conversationId background now capability items).snd
  | .inbox now capability items                          =>
    (d.processInboxItems services now capability items).snd
  | .restart outcomes                                    => (d.restart services outcomes).getD d

end Daemon
