import AnotherDimension.Daemon.Receive
import AnotherDimension.Storage.Theorems.Durable

-- What the two receive loops can do to a daemon, one small step after the other.

open Storage Relation

namespace MlsSession

variable {σ : Type} {mls : Mls σ} {session session' : MlsSession σ} {wire : Bytes}
  {plaintext : Option Bytes} {e : SessionError}

-- The content of a message that is handed on.
def Yields : MlsContent → Option Bytes → Prop
  | .application bytes, plaintext => plaintext = some bytes
  | .commit, plaintext            => plaintext = none
  | .other, _                     => False

-- The library opened the message, and the session has moved on.
def Opened (mls : Mls σ) (session session' : MlsSession σ) (wire : Bytes)
    (plaintext : Option Bytes) : Prop :=
  session.poisoned = false ∧ ∃ content state, mls.process session.state wire = .ok (content, state) ∧
    Yields content plaintext ∧ session' = { session with state }

theorem decryptDelivery_ok (h : session.decryptDelivery mls wire = (.ok plaintext, session')) :
    session.Opened mls session' wire plaintext := by
  simp only [decryptDelivery] at h
  split at h
  case h_1 => cases h
  case h_4 => cases h
  all_goals
    rename_i hx
    cases h
    have ⟨hp, state, ho, hs⟩ := ifUsable_ok hx
    split at ho
    case isTrue  => cases ho
    case isFalse => exact ⟨hp, _, state, ho, rfl, hs⟩

end MlsSession

namespace MlsSessionCatalog

variable {σ : Type} {mls : Mls σ} {catalog catalog' : MlsSessionCatalog σ} {conversationId : String}
  {wire : Bytes} {plaintext : Option Bytes}

theorem withSession_ok {α : Type} {operation : MlsSession σ → Except SessionError α × MlsSession σ}
    {a : α} (h : catalog.withSession conversationId operation = (.ok a, catalog')) :
    ∃ session session', catalog.get conversationId = some session ∧
      operation session = (.ok a, session') ∧ catalog' = catalog.insert conversationId session' := by
  unfold withSession at h
  split at h
  case isTrue => cases h
  case isFalse =>
    split at h
    case h_1 => cases h
    case h_2 session hs =>
      match ho : operation session with
      | (.error e, _)     => simp [ho, Except.mapError] at h
      | (.ok a', session') =>
        simp only [ho, Except.mapError, Prod.mk.injEq, Except.ok.injEq] at h
        exact ⟨session, session', hs, h.left ▸ ho, h.right.symm⟩

theorem receiveDeliveryUnpersisted_ok
    (h : catalog.receiveDeliveryUnpersisted mls conversationId wire = (.ok plaintext, catalog')) :
    ∃ session session', catalog.get conversationId = some session ∧
      session.Opened mls session' wire plaintext ∧
      catalog' = catalog.insert conversationId session' := by
  have ⟨session, session', hs, ho, hc⟩ := withSession_ok h
  exact ⟨session, session', hs, MlsSession.decryptDelivery_ok ho, hc⟩

end MlsSessionCatalog

namespace Daemon

variable {σ : Type} {services : Services σ} {conversationId relayId digest capability : String}
  {staged : Staged} {poisons ok background : Bool} {now : UInt64} {plaintext : Option Bytes}
  {d d' : Daemon σ}

-- The batch a received message is stored with.
def batch (conversationId : String) (checkpoint : Bytes) (staged : Staged)
    (ledger : DeliveryLedger) : List RecordMutation :=
  checkpointMutation conversationId checkpoint :: (staged.mutations ++ [ledgerMutation ledger])

def poisonIf (d : Daemon σ) (poisons : Bool) (conversationId : String) : Daemon σ :=
  if poisons then d.poison conversationId else d

-- How storing a message that was opened can end. Only the loops' handling of the first two cases
-- differs: one of them poisons the session.
inductive Stores (services : Services σ) (conversationId relayId digest : String) (staged : Staged)
    (poisons : Bool) (d : Daemon σ) : Bool → Daemon σ → Prop
  | unsaved {e} (checkpoint : d.catalog.checkpointBytes services.mls conversationId = .error e) :
    Stores services conversationId relayId digest staged poisons d false
      (d.poisonIf poisons conversationId)
  | unmarked {ledger} (marked : markReceived d.ledger digest relayId = (false, ledger)) :
    Stores services conversationId relayId digest staged poisons d false
      ({ d with authority := staged.authority, ledger }.poisonIf poisons conversationId)
  | refused {checkpoint ledger e store}
    (saved : d.catalog.checkpointBytes services.mls conversationId = .ok checkpoint)
    (marked : markReceived d.ledger digest relayId = (true, ledger))
    (failed : d.store.applyBatch (batch conversationId checkpoint staged ledger) =
      (.error e, store)) :
    Stores services conversationId relayId digest staged poisons d false
      (({ d with authority := staged.authority, ledger, store }.poison conversationId).restoreStaged
        services)
  | accepted {checkpoint ledger store}
    (saved : d.catalog.checkpointBytes services.mls conversationId = .ok checkpoint)
    (marked : markReceived d.ledger digest relayId = (true, ledger))
    (applied : d.store.applyBatch (batch conversationId checkpoint staged ledger) =
      (.ok (), store)) :
    Stores services conversationId relayId digest staged poisons d true
      { d with authority := staged.authority, ledger, store }

@[simp]
theorem poison_store (d : Daemon σ) (conversationId : String) :
    (d.poison conversationId).store = d.store := rfl

@[simp]
theorem poisonIf_store (d : Daemon σ) (poisons : Bool) (conversationId : String) :
    (d.poisonIf poisons conversationId).store = d.store := by
  cases poisons <;> rfl

@[simp]
theorem restoreStaged_store (d : Daemon σ) : (d.restoreStaged services).store = d.store := by
  unfold restoreStaged
  split <;> rfl

theorem Stores.store (h : Stores services conversationId relayId digest staged poisons d ok d') :
    d'.store = d.store ∨ ∃ checkpoint ledger,
      d'.store = (d.store.applyBatch (batch conversationId checkpoint staged ledger)).snd := by
  cases h
  case unsaved                      => exact .inl <| poisonIf_store ..
  case unmarked                     => exact .inl <| poisonIf_store ..
  case refused checkpoint ledger _ _ _ _ hf =>
    exact .inr ⟨checkpoint, ledger, by simp [hf]⟩
  case accepted checkpoint ledger _ _ _ ha  => exact .inr ⟨checkpoint, ledger, by simp [ha]⟩

theorem storeSynced_stores (services : Services σ) (d : Daemon σ) (conversationId : String)
    (background : Bool) (now : UInt64) (relayId digest : String) (plaintext : Option Bytes) :
    Stores services conversationId relayId digest
      (stageSync services d.authority conversationId digest relayId now background plaintext) true d
      (d.storeSynced services conversationId background now relayId digest plaintext).fst.isOk
      (d.storeSynced services conversationId background now relayId digest plaintext).snd := by
  simp only [storeSynced]
  cases hc : d.catalog.checkpointBytes services.mls conversationId
  case error e => exact .unsaved hc
  case ok checkpoint =>
    match hm : markReceived d.ledger digest relayId with
    | (false, ledger) => exact .unmarked hm
    | (true, ledger)  =>
      simp only [Bool.not_true, Bool.false_eq_true, ↓reduceIte, commitReceived]
      match hb : d.store.applyBatch _ with
      | (.error e, store) => exact .refused hc hm hb
      | (.ok (), store)   => exact .accepted hc hm hb

theorem storeInbox_stores (services : Services σ) (d : Daemon σ) (now : UInt64)
    (conversationId relayId digest : String) (plaintext : Option Bytes) :
    Stores services conversationId relayId digest
      (stageInbox services d.authority conversationId digest relayId now plaintext) false d
      (d.storeInbox services now conversationId relayId digest plaintext).fst.isOk
      (d.storeInbox services now conversationId relayId digest plaintext).snd := by
  simp only [storeInbox]
  cases hc : d.catalog.checkpointBytes services.mls conversationId
  case error e => exact .unsaved hc
  case ok checkpoint =>
    match hm : markReceived d.ledger digest relayId with
    | (false, ledger) => exact .unmarked hm
    | (true, ledger)  =>
      simp only [Bool.not_true, Bool.false_eq_true, ↓reduceIte, commitReceived]
      match hb : d.store.applyBatch _ with
      | (.error e, store) => exact .refused hc hm hb
      | (.ok (), store)   => exact .accepted hc hm hb

-- What one of the two loops stages for a plaintext.
def IsStaged (services : Services σ) (authority : InviteAuthority)
    (conversationId digest relayId : String) (now : UInt64) (plaintext : Option Bytes)
    (staged : Staged) : Prop :=
  (∃ background,
    staged = stageSync services authority conversationId digest relayId now background plaintext) ∨
  staged = stageInbox services authority conversationId digest relayId now plaintext

-- The steps of the two loops, for the items of a batch and the conversations in which they may be
-- opened.
inductive ReceiveStep (services : Services σ) (capability : String) (now : UInt64)
    (items : List RelayItem) (allowed : String → Prop) : Daemon σ → Daemon σ → Prop
  | tried {d : Daemon σ} {conversationId wire e catalog} (permitted : allowed conversationId)
    (failed : d.catalog.receiveDeliveryUnpersisted services.mls conversationId wire =
      (.error e, catalog)) :
    ReceiveStep services capability now items allowed d { d with catalog }
  | opened {d d' : Daemon σ} {conversationId digest envelope plaintext catalog staged poisons ok}
    (item : RelayItem) (mem : item ∈ items) (permitted : allowed conversationId)
    (valid : item.validated services capability now = some envelope)
    (digested : envelope.digest services.sha256 = .ok digest)
    (unknown : (d.ledger.get digest).all fun record => record.state ≠ .decrypted)
    (received : d.catalog.receiveDeliveryUnpersisted services.mls conversationId
      envelope.ciphertext = (.ok plaintext, catalog))
    (staging : IsStaged services d.authority conversationId digest item.id now plaintext staged)
    (stores : Stores services conversationId item.id digest staged poisons { d with catalog } ok
      d') :
    ReceiveStep services capability now items allowed d d'
  | persisted {d d' : Daemon σ} {result} (persist : d.persistLedger = (result, d')) :
    ReceiveStep services capability now items allowed d d'

-- A run of such steps.
def Receives (services : Services σ) (capability : String) (now : UInt64)
    (items : List RelayItem) (allowed : String → Prop) : Daemon σ → Daemon σ → Prop :=
  ReflTransGen (ReceiveStep services capability now items allowed)

variable {allowed : String → Prop} {item : RelayItem} {items all : List RelayItem}
  {envelope : RelayEnvelope}

theorem validateItems_cons {validated : List (String × RelayEnvelope)}
    (h : validateItems services capability now (item :: items) = some validated) :
    ∃ envelope rest, item.validated services capability now = some envelope ∧
      validateItems services capability now items = some rest ∧
      validated = (item.id, envelope) :: rest := by
  simp only [validateItems] at h
  split at h
  case h_1 => cases h
  case h_2 envelope he =>
    have ⟨rest, hr, hv⟩ := Option.map_eq_some_iff.mp h
    exact ⟨envelope, rest, he, hr, hv.symm⟩

theorem syncItem_receives (d : Daemon σ) (conversationId : String) (background : Bool)
    (hm : item ∈ all) (hv : item.validated services capability now = some envelope) :
    Receives services capability now all (· = conversationId) d
      (d.syncItem services conversationId background now item.id envelope).snd := by
  simp only [syncItem]
  split
  case h_1 => exact .refl
  case h_2 digest hd =>
    split
    case isTrue => exact .refl
    case isFalse hn =>
      split
      case h_1 e catalog ho => exact .single <| .tried rfl ho
      case h_2 plaintext catalog ho =>
        have hn : (d.ledger.get digest).all fun record => record.state ≠ .decrypted := by
          cases hr : d.ledger.get digest <;> simp_all
        exact .single <| .opened item hm rfl hv hd hn ho (.inl ⟨background, rfl⟩) <|
          storeSynced_stores services { d with catalog } conversationId background now item.id
            digest plaintext

theorem syncItems_receives {validated : List (String × RelayEnvelope)} (hm : items ⊆ all)
    (hv : validateItems services capability now items = some validated) :
    Receives services capability now all (· = conversationId) d
      (syncItems services conversationId background now d validated).snd := by
  induction items generalizing d validated
  case nil =>
    cases hv
    exact .refl
  case cons item items hi =>
    have ⟨envelope, rest, he, hr, hc⟩ := validateItems_cons hv
    have ⟨hm, hms⟩ := List.cons_subset.mp hm
    have hs := syncItem_receives d conversationId background hm he
    subst hc
    simp only [syncItems]
    split
    case h_1 hx => simpa only [hx] using hs
    case h_2 hx =>
      rw [hx] at hs
      exact hs.trans <| hi hms hr

theorem processSyncItems_receives (items : List RelayItem) :
    Receives services capability now items (· = conversationId) d
      (d.processSyncItems services conversationId background now capability items).snd := by
  unfold processSyncItems
  split
  case h_1    => exact .refl
  case h_2 hv => exact syncItems_receives (List.Subset.refl _) hv

theorem tryConversations_receives {conversationIds : List String} (hm : item ∈ all)
    (hv : item.validated services capability now = some envelope)
    (hd : envelope.digest services.sha256 = .ok digest)
    (hn : (d.ledger.get digest).all fun record => record.state ≠ .decrypted)
    (ha : ∀ conversationId ∈ conversationIds, allowed conversationId) :
    Receives services capability now all allowed d
      (tryConversations services now item.id digest envelope.ciphertext d conversationIds).snd := by
  induction conversationIds generalizing d
  case nil => exact .refl
  case cons conversationId conversationIds hi =>
    have ⟨hc, ha⟩ := List.forall_mem_cons.mp ha
    simp only [tryConversations]
    split
    case h_1 e catalog ho =>
      exact .head (.tried hc ho) <| hi (d := { d with catalog }) hn ha
    case h_2 plaintext catalog ho =>
      have hs := storeInbox_stores services { d with catalog } now conversationId item.id digest
        plaintext
      have hr : Receives services capability now all allowed d _ :=
        .single <| .opened item hm hc hv hd hn ho (.inr rfl) hs
      split <;> rename_i hx <;> simpa only [hx] using hr

theorem inboxItem_receives (d : Daemon σ) {conversationIds : List String} (hm : item ∈ all)
    (ha : ∀ conversationId ∈ conversationIds, allowed conversationId) :
    Receives services capability now all allowed d
      (d.inboxItem services now capability conversationIds item).snd := by
  simp only [inboxItem]
  split
  case h_1 => exact .refl
  case h_2 envelope hv =>
    split
    case h_1 => exact .refl
    case h_2 digest hd =>
      split
      case isTrue => exact .refl
      case isFalse hn =>
        have hn : (d.ledger.get digest).all fun record => record.state ≠ .decrypted := by
          cases hr : d.ledger.get digest <;> simp_all
        have ht := tryConversations_receives hm hv hd hn ha
        split <;> rename_i hx <;> simpa only [hx] using ht

theorem inboxItems_receives (d : Daemon σ) {conversationIds : List String} (hm : items ⊆ all)
    (ha : ∀ conversationId ∈ conversationIds, allowed conversationId) :
    Receives services capability now all allowed d
      (inboxItems services now capability conversationIds d items).snd := by
  induction items generalizing d
  case nil => exact .refl
  case cons item items hi =>
    have ⟨hm, hms⟩ := List.cons_subset.mp hm
    have hs : Receives services capability now all allowed d _ := inboxItem_receives d hm ha
    simp only [inboxItems]
    split
    case h_1 hx => simpa only [hx] using hs
    case h_2 hx =>
      rw [hx] at hs
      exact hs.trans <| hi _ hms

theorem processInboxItems_receives (items : List RelayItem) :
    Receives services capability now items (· ∈ d.catalog.conversationIds) d
      (d.processInboxItems services now capability items).snd := by
  have hs : Receives services capability now items (· ∈ d.catalog.conversationIds) d _ :=
    inboxItems_receives d (List.Subset.refl _) fun _ h => h
  unfold processInboxItems
  split
  case h_1 hx => simpa only [hx] using hs
  case h_2 hx =>
    rw [hx] at hs
    split <;> rename_i hp <;> exact hs.tail (.persisted hp)

-- A plaintext that some session can get out of an item of the batch.
def IsPlaintext (services : Services σ) (capability : String) (now : UInt64)
    (items : List RelayItem) (digest : String) (plaintext : Bytes) : Prop :=
  ∃ item ∈ items, ∃ envelope, item.validated services capability now = some envelope ∧
    envelope.digest services.sha256 = .ok digest ∧
    ∃ state state', services.mls.process state envelope.ciphertext =
      .ok (.application plaintext, state')

-- The writes to the store that receiving a batch can lead to.
inductive ReceivedMutation (services : Services σ) (capability : String) (now : UInt64)
    (items : List RelayItem) (allowed : String → Prop) : RecordMutation → Prop
  | checkpoint (conversationId : String) (bytes : Bytes) :
    ReceivedMutation services capability now items allowed (checkpointMutation conversationId bytes)
  | ledger (ledger : DeliveryLedger) :
    ReceivedMutation services capability now items allowed (ledgerMutation ledger)
  | contacts (bytes : Bytes) :
    ReceivedMutation services capability now items allowed
      (.put ContactDirectory.directoryKey.fst ContactDirectory.directoryKey.snd bytes)
  | message {conversationId digest plaintext payload} (permitted : allowed conversationId)
    (sent : IsPlaintext services capability now items digest plaintext)
    (decoded : MessagePayload.decode services.readMessage plaintext = some payload)
    (unexpired : payload.isExpired now = false) :
    ReceivedMutation services capability now items allowed
      (incomingMutation services conversationId payload)
  | attachment {digest plaintext descriptor}
    (sent : IsPlaintext services capability now items digest plaintext)
    (decoded : attachmentDescriptorFromPlaintext services.readDescriptor plaintext =
      some descriptor) :
    ReceivedMutation services capability now items allowed
      (.put (InviteAuthority.receivedKey digest).fst (InviteAuthority.receivedKey digest).snd
        descriptor.encoded)

section Mutations

variable {authority : InviteAuthority} {mutation : RecordMutation} {bytes : Bytes}

theorem stageContact_mutations (authority : InviteAuthority) (conversationId : String)
    (bytes : Bytes) (now' : UInt64) (background : Bool)
    (h : mutation ∈ (stageContact authority conversationId bytes now' background).snd) :
    ReceivedMutation services capability now items allowed mutation := by
  simp only [stageContact] at h
  split at h
  case h_1 => cases h
  case h_2 =>
    rw [List.mem_singleton.mp h]
    exact .contacts _

theorem stageAttachment_mutations {descriptor : AttachmentDescriptor}
    (hp : IsPlaintext services capability now items digest bytes)
    (hd : attachmentDescriptorFromPlaintext services.readDescriptor bytes = some descriptor)
    (h : mutation ∈ (stageAttachment authority conversationId digest relayId descriptor now
      background).mutations) :
    ReceivedMutation services capability now items allowed mutation := by
  obtain rfl | h := List.mem_cons.mp h
  case inl => exact .attachment hp hd
  case inr => exact stageContact_mutations _ _ _ _ _ h

theorem stageSyncMessage_mutations (ha : allowed conversationId)
    (hp : IsPlaintext services capability now items digest bytes)
    (h : mutation ∈ (stageSyncMessage services authority conversationId digest relayId bytes now
      background).mutations) :
    ReceivedMutation services capability now items allowed mutation := by
  simp only [stageSyncMessage, List.mem_append, List.mem_map, Option.mem_toList,
    Option.filter_eq_some_iff] at h
  obtain ⟨payload, ⟨hd, he⟩, rfl⟩ | h := h
  case inl => exact .message ha hp hd (by simpa [hd] using he)
  case inr =>
    split at h
    case isTrue  => cases h
    case isFalse => exact stageContact_mutations _ _ _ _ _ h

theorem stageInboxMessage_mutations (ha : allowed conversationId)
    (hp : IsPlaintext services capability now items digest bytes)
    (h : mutation ∈ (stageInboxMessage services authority conversationId bytes now).mutations) :
    ReceivedMutation services capability now items allowed mutation := by
  simp only [stageInboxMessage] at h
  split at h
  case h_1 => cases h
  case h_2 payload hd =>
    split at h
    case isFalse => cases h
    case isTrue he =>
      have hu : payload.isExpired now = false := by
        obtain he | he := he
        case inl => simp [MessagePayload.isExpired, he]
        case inr => simp [MessagePayload.isExpired, UInt64.not_le.mpr he]
      obtain rfl | h := List.mem_cons.mp h
      case inl => exact .message ha hp hd hu
      case inr => exact stageContact_mutations _ _ _ _ _ h

theorem IsStaged.mutations (h : IsStaged services authority conversationId digest relayId now
      plaintext staged) (ha : allowed conversationId)
    (hp : ∀ bytes ∈ plaintext, IsPlaintext services capability now items digest bytes) :
    ∀ mutation ∈ staged.mutations,
      ReceivedMutation services capability now items allowed mutation := by
  intro mutation hm
  match plaintext with
  | none       => obtain ⟨_, rfl⟩ | rfl := h <;> cases hm
  | some bytes =>
    have hp := hp bytes rfl
    obtain ⟨background, rfl⟩ | rfl := h
    case inl =>
      simp only [stageSync] at hm
      split at hm
      case h_1 hd => exact stageAttachment_mutations hp hd hm
      case h_2    => exact stageSyncMessage_mutations ha hp hm
    case inr =>
      simp only [stageInbox] at hm
      split at hm
      case h_1 hd => exact stageAttachment_mutations hp hd hm
      case h_2    => exact stageInboxMessage_mutations ha hp hm

theorem batch_mutations (conversationId : String) (checkpoint : Bytes) (ledger : DeliveryLedger)
    (hs : ∀ m ∈ staged.mutations, ReceivedMutation services capability now items allowed m) :
    ∀ m ∈ batch conversationId checkpoint staged ledger,
      ReceivedMutation services capability now items allowed m := by
  intro m hm
  obtain rfl | hm := List.mem_cons.mp hm
  case inl => exact .checkpoint _ _
  obtain hm | hm := List.mem_append.mp hm
  case inl => exact hs m hm
  case inr => exact List.mem_singleton.mp hm ▸ .ledger _

theorem opened_isPlaintext {catalog catalog' : MlsSessionCatalog σ} (hm : item ∈ items)
    (hv : item.validated services capability now = some envelope)
    (hd : envelope.digest services.sha256 = .ok digest)
    (ho : catalog.receiveDeliveryUnpersisted services.mls conversationId envelope.ciphertext =
      (.ok plaintext, catalog')) :
    ∀ bytes ∈ plaintext, IsPlaintext services capability now items digest bytes := by
  rintro bytes rfl
  have ⟨_, _, _, ⟨_, content, state, hx, hy, _⟩, _⟩ :=
    MlsSessionCatalog.receiveDeliveryUnpersisted_ok ho
  match content, hy with
  | .application _, rfl => exact ⟨item, hm, envelope, hv, hd, _, state, hx⟩

-- A property of records that each of these writes keeps is kept by receiving a batch.
theorem ReceiveStep.allRecords {p : Records → Prop}
    (hm : ∀ m, ReceivedMutation services capability now items allowed m →
      ∀ records, p records → p (m.apply records))
    (h : ReceiveStep services capability now items allowed d d') (hp : d.store.AllRecords p) :
    d'.store.AllRecords p := by
  cases h
  case tried => exact hp
  case persisted hr =>
    unfold persistLedger at hr
    cases hr
    exact hp.put <| hm _ (.ledger d.ledger) _ hp.memory
  case opened hi ha hv hd hn ho hg hs =>
    have hg := hg.mutations ha <| opened_isPlaintext hi hv hd ho
    obtain hs | ⟨checkpoint, ledger, hs⟩ := hs.store
    case inl => exact hs ▸ hp
    case inr =>
      exact hs ▸ hp.applyBatch fun m h => hm m <| batch_mutations _ checkpoint ledger hg m h

theorem Receives.allRecords {p : Records → Prop}
    (hm : ∀ m, ReceivedMutation services capability now items allowed m →
      ∀ records, p records → p (m.apply records))
    (h : Receives services capability now items allowed d d') (hp : d.store.AllRecords p) :
    d'.store.AllRecords p := by
  induction h
  case refl       => exact hp
  case tail hs hp => exact hs.allRecords hm hp

end Mutations

end Daemon
