import AnotherDimension.Daemon.Theorems.Inbound
import AnotherDimension.Library.Run

-- What may be acknowledged to a relay: in every run of the two receive loops, with commits that
-- fail in any way and restarts in between, only what a later start finds on the disk.

open Storage

namespace Daemon

open DeliveryLedger

variable {σ : Type} {services : Services σ} {conversationId digest capability : String}
  {now : UInt64} {ledger : DeliveryLedger} {d d' : Daemon σ} {items : List RelayItem}
  {item : RelayItem} {envelope : RelayEnvelope} {offers : String → UInt64 → RelayItem → Prop}
  {before : String → Prop} {acknowledged : DeliveryLedger → Prop} {ids : List String}

-- The items that the event brings, with their mailbox and the time.
def ReceiveEvent.Offers : ReceiveEvent → String → UInt64 → RelayItem → Prop
  | .sync _ _ now capability items, capability', now', item =>
    capability' = capability ∧ now' = now ∧ item ∈ items
  | .inbox now capability items, capability', now', item    =>
    capability' = capability ∧ now' = now ∧ item ∈ items
  | .restart _, _, _, _                                     => False

-- The ids that are to be acknowledged to the relay.
def acknowledgedIds (services : Services σ) (d : Daemon σ) : ReceiveEvent → List String
  | .sync conversationId background now capability items =>
    (d.processSyncItems services conversationId background now capability items).fst.toOption.elim []
      (·.acknowledgedIds)
  | .inbox now capability items                          =>
    (d.processInboxItems services now capability items).fst.toOption.elim [] (·.snd)
  | .restart _                                           => []

-- The ledger is that of the store, in memory and on the disk.
structure Starts (d : Daemon σ) : Prop where
  unlocked : d.store.store.locked = false
  valid    : d.ledger.Valid
  memory   : d.ledger.HeldIn d.store.records
  durable  : d.ledger.HeldIn d.store.durable

theorem Starts.inSync (h : d.Starts) : d.InSync services offers d.ledger.Knows where
  unlocked := h.unlocked
  valid    := h.valid
  memory   := ⟨h.memory, fun _ hk => .inl hk⟩
  durable  := ⟨d.ledger, ⟨h.durable, fun _ hk => .inl hk⟩, .refl _⟩

variable {event : ReceiveEvent}

-- Each id belongs to an item of the event that the ledger knows.
def AcknowledgesOf (services : Services σ) (event : ReceiveEvent) (ids : List String)
    (ledger : DeliveryLedger) : Prop :=
  ∀ id ∈ ids, ∃ capability now item, event.Offers capability now item ∧ item.id = id ∧
    ∃ envelope digest, item.validated services capability now = some envelope ∧
      envelope.digest services.sha256 = .ok digest ∧ ledger.Knows digest

theorem Acknowledges.of (h : Acknowledges services capability now items ids ledger)
    (ho : ∀ item ∈ items, event.Offers capability now item) :
    AcknowledgesOf services event ids ledger := by
  intro id hid
  obtain ⟨item, hm, he, hk⟩ := h id hid
  exact ⟨capability, now, item, ho item hm, he, hk⟩

theorem reopened_locked (s : DurableStore) (outcomes : List CommitOutcome) :
    (s.reopened outcomes).store.locked = false := rfl

theorem restart_overflows (reads : services.ReadsLedgers)
    (hd : d.Overflows) (outcomes : List CommitOutcome) : d.restart services outcomes = none := by
  obtain ⟨ledger, hheld, hmax⟩ := hd.durable
  have hr := restore_toOption_of_overflow reads (reopened_locked d.store outcomes) hheld hmax
  cases hx : DeliveryLedger.restore services.readLedger (d.store.reopened outcomes).store
  case ok    => rw [hx] at hr; cases hr
  case error =>
    simp only [restart, hx]
    split
    case h_1 h => cases h
    case h_2   => rfl

theorem restart_keeps (reads : services.ReadsLedgers)
    (hd : d.InSync services offers before) {outcomes : List CommitOutcome}
    (h : d.restart services outcomes = some d') :
    d'.InSync services offers before ∧ d.ledger.Extends d'.ledger := by
  obtain ⟨ledger, hr, hext⟩ := hd.durable
  simp only [restart] at h
  split at h
  case h_2 => cases h
  case h_1 hx =>
    cases h
    obtain ⟨hv, rfl⟩ := (restore_eq_ok_iff reads (reopened_locked d.store outcomes) hr.held).mp hx
    exact ⟨⟨rfl, hv, hr, _, hr, .refl _⟩, hext⟩

theorem receive_overflows (reads : services.ReadsLedgers)
    (hd : d.Overflows) (event : ReceiveEvent) : (d.receive services event).Overflows := by
  cases event
  case sync conversationId background now capability items =>
    simp only [receive, processSyncItems]
    split
    case h_1    => exact hd
    case h_2 hv => exact syncItems_overflows reads hd hv
  case inbox now capability items =>
    have hi := inboxItems_overflows d.catalog.conversationIds capability now items reads hd
    simp only [receive, processInboxItems]
    split <;> rename_i hx <;> rw [hx] at hi
    case h_1 => exact hi
    case h_2 =>
      have hp := persistLedger_overflows hi
      split <;> rename_i hy <;> rw [hy] at hp <;> exact hp
  case restart outcomes =>
    rw [receive, restart_overflows reads hd]
    exact hd

theorem AcknowledgesOf.nil : AcknowledgesOf services event [] ledger := by
  simp [AcknowledgesOf]

theorem AcknowledgesOf.elim {α ε : Type} {result : Except ε α} {ids : α → List String}
    (h : ∀ a, result = .ok a → AcknowledgesOf services event (ids a) ledger) :
    AcknowledgesOf services event (result.toOption.elim [] ids) ledger := by
  cases result
  case error => exact .nil
  case ok a  => exact h a rfl

theorem processInboxItems_keeps (reads : services.ReadsLedgers)
    (hd : d.InSync services offers before) (ho : ∀ item ∈ items, offers capability now item) :
    Keeps services offers before
      (fun ledger => ∀ result, (d.processInboxItems services now capability items).fst = .ok result →
        Acknowledges services capability now items result.snd ledger)
      d (d.processInboxItems services now capability items).snd := by
  have hi := inboxItems_keeps d.catalog.conversationIds reads hd ho
  unfold processInboxItems
  split <;> rename_i hx <;> rw [hx] at hi
  case h_1 => exact hi.imp fun _ _ => by simp
  case h_2 =>
    refine hi.trans (fun hd' hk => ?_) fun hv => ?_
    case refine_1 =>
      have hp := persistLedger_keeps hd'
      split <;> rename_i hy <;> have hl := persistLedger_ledger hy <;> rw [hy] at hp
      case h_1 => exact .inl ⟨hp, hl ▸ .refl _, by simp⟩
      case h_2 =>
        refine .inl ⟨hp, hl ▸ .refl _, ?_⟩
        rintro _ ⟨⟩
        rw [hl]
        exact hk _ rfl
    case refine_2 =>
      have hp := persistLedger_overflows hv
      split <;> rename_i hy <;> rw [hy] at hp <;> exact hp

-- What one event does, as long as the ledger does not become too large.
theorem receive_keeps (reads : services.ReadsLedgers)
    (hd : d.InSync services offers before)
    (ho : ∀ capability now item, event.Offers capability now item → offers capability now item) :
    Keeps services offers before (AcknowledgesOf services event (d.acknowledgedIds services event))
      d (d.receive services event) := by
  cases event
  case sync conversationId background now capability items =>
    simp only [receive, acknowledgedIds, processSyncItems]
    cases hv : validateItems services capability now items
    case none      => exact hd.keeps .nil
    case some rest =>
      refine (syncItems_keeps reads hd (fun item hi => ho _ _ item ⟨rfl, rfl, hi⟩) hv).imp
        fun _ hk => .elim fun result hr => (hk result hr).of fun item hi => ⟨rfl, rfl, hi⟩
  case inbox now capability items =>
    simp only [receive, acknowledgedIds]
    refine (processInboxItems_keeps reads hd fun item hi => ho _ _ item ⟨rfl, rfl, hi⟩).imp
      fun _ hk => .elim fun result hr => (hk result hr).of fun item hi => ⟨rfl, rfl, hi⟩
  case restart outcomes =>
    simp only [receive, acknowledgedIds]
    cases hx : d.restart services outcomes
    case none => exact hd.keeps .nil
    case some =>
      obtain ⟨hs, he⟩ := restart_keeps reads hd hx
      exact .inl ⟨hs, he, .nil⟩

variable {events events₁ events₂ : List ReceiveEvent}

def Offered (events : List ReceiveEvent) (capability : String) (now : UInt64) (item : RelayItem) :
    Prop :=
  ∃ event ∈ events, event.Offers capability now item

-- A restart finds the envelope in the ledger, and with it what the envelope carried unless it was
-- known before the run.
def Finds (services : Services σ) (events : List ReceiveEvent) (before : String → Prop)
    (d : Daemon σ) (digest : String) : Prop :=
  ∃ ledger : DeliveryLedger, ledger.HeldIn d.store.durable ∧ ledger.Knows digest ∧
    (before digest ∨ Carries services (Offered events) d.store.durable digest)

theorem InSync.finds (h : d.InSync services (Offered events) before) (hk : d.ledger.Knows digest) :
    d.Finds services events before digest := by
  obtain ⟨ledger, hr, he⟩ := h.durable
  have hk := (he digest).left hk
  exact ⟨ledger, hr.held, hk, (hr.carried digest hk).imp id And.right⟩

theorem Keeps.resolve (h : Keeps services offers before acknowledged d d')
    (hs : d'.ledger.records.size ≤ maxRecords) :
    d'.InSync services offers before ∧ d.ledger.Extends d'.ledger ∧ acknowledged d'.ledger :=
  h.resolve_right fun ho => Nat.not_lt.mpr hs ho.ledger

-- The step of a run in which the ledger never gets too large.
theorem receive_inSync (reads : services.ReadsLedgers)
    (hd : d.InSync services (Offered events) before) (hm : event ∈ events)
    (hs : (d.receive services event).ledger.records.size ≤ maxRecords) :
    (d.receive services event).InSync services (Offered events) before ∧
      d.ledger.Extends (d.receive services event).ledger ∧
      AcknowledgesOf services event (d.acknowledgedIds services event)
        (d.receive services event).ledger :=
  (receive_keeps reads hd fun _ _ _ ho => ⟨event, hm, ho⟩).resolve hs

theorem inSync_states (reads : services.ReadsLedgers)
    (start : d.Starts)
    (fits : ∀ s ∈ Run.states (receive services) d events, s.ledger.records.size ≤ maxRecords) :
    ∀ s ∈ Run.states (receive services) d events,
      s.InSync services (Offered events) d.ledger.Knows := by
  have hm : Run.Meets (receive services) (fun _ event => event ∈ events) d events :=
    .of_forall_mem fun _ h => h
  exact (hm.and (.of_forall_next fits)).forall_states
    (fun _ _ hs hc => (receive_inSync reads hs hc.left hc.right).left) start.inSync

-- The two loops pass over an envelope that was opened.
theorem syncItem_of_hasOpened (hd : envelope.digest services.sha256 = .ok digest)
    (ho : d.ledger.HasOpened digest) (conversationId : String) (background : Bool) (now : UInt64)
    (relayId : String) :
    d.syncItem services conversationId background now relayId envelope = (.ok none, d) := by
  obtain ⟨record, hr, hs⟩ := ho
  simp [syncItem, hd, hr, hs]

theorem inboxItem_of_hasOpened (hv : item.validated services capability now = some envelope)
    (hd : envelope.digest services.sha256 = .ok digest) (ho : d.ledger.HasOpened digest)
    (conversationIds : List String) :
    d.inboxItem services now capability conversationIds item = (.ok .known, d) := by
  obtain ⟨record, hr, hs⟩ := ho
  simp [inboxItem, hv, hd, hr, hs]

-- A batch of such envelopes is acknowledged as a whole, and changes nothing.
theorem processSyncItems_of_hasOpened {background : Bool}
    (h : ∀ item ∈ items, ∃ envelope digest, item.validated services capability now = some envelope ∧
      envelope.digest services.sha256 = .ok digest ∧ d.ledger.HasOpened digest) :
    d.processSyncItems services conversationId background now capability items =
      (.ok ⟨items.map (·.id), []⟩, d) := by
  obtain ⟨validated, hv, hs⟩ : ∃ validated,
      validateItems services capability now items = some validated ∧
      syncItems services conversationId background now d validated =
        (.ok ⟨items.map (·.id), []⟩, d) := by
    induction items
    case nil => exact ⟨[], rfl, rfl⟩
    case cons item items hi =>
      obtain ⟨⟨envelope, digest, hv, hd, ho⟩, h⟩ := List.forall_mem_cons.mp h
      obtain ⟨validated, hvs, hs⟩ := hi h
      refine ⟨(item.id, envelope) :: validated, by simp [validateItems, hv, hvs], ?_⟩
      rw [syncItems, syncItem_of_hasOpened hd ho]
      simp [hs, Except.map]
  rw [processSyncItems, hv]
  exact hs

-- A daemon that has opened an envelope and is offered it again.
def closedMls : Mls Unit where
  new                := fun _ => .error .openMls
  createGroup        := fun _ => .error .openMls
  keyPackage         := fun _ => .error .openMls
  addMembers         := fun _ _ => .error .openMls
  members            := fun _ => none
  removeMembers      := fun _ _ => (none, ())
  mergePendingCommit := fun _ => (none, ())
  joinWelcome        := fun _ _ => .error .openMls
  createMessage      := fun _ _ => .error .openMls
  process            := fun _ _ => .error .openMls
  snapshot           := fun _ => .error .openMls
  restore            := fun _ => .error .openMls

def offeredEnvelope : RelayEnvelope :=
  .created "mailbox" [7] 300 RelayEnvelope.zeroPadding (RelayEnvelope.zeroPadding 16)

-- The reader knows the text of every ledger.
noncomputable def offeredServices : Services Unit where
  mls            := closedMls
  sha256         := fun _ => .fill 32 0
  readWire       := fun _ => some offeredEnvelope.wire
  readMessage    := fun _ => none
  readDescriptor := fun _ => none
  readLedger     := fun bytes => (Function.partialInv encodedBytes bytes).map (·.records)
  readDirectory  := fun _ => none
  readPairing    := fun _ => none

def offeredItem : RelayItem where
  id       := Bytes.toHex (.replicate 32 0)
  envelope := "ADENV1."

def offeredLedger : DeliveryLedger :=
  (markReceived .empty offeredItem.id offeredItem.id).snd

def offeredDaemon : Daemon Unit where
  authority := {
    accountId              := "own"
    deviceId               := "laptop"
    relayOrigin            := "http://127.0.0.1:8787"
    inboxUrl               := none
    pairing                := .new "own" "laptop"
    contacts               := ⟨∅⟩
    receivedAttachments    := ∅
    pendingRendezvousCodes := []
    pendingConversationId  := none
    pendingKeyPackages     := [] }
  catalog   := .new
  store     :=
    let records := (∅ : Records).insert ledgerKey offeredLedger.encodedBytes
    ⟨{ EncryptedStore.sampleStore with records }, [records], []⟩
  ledger    := offeredLedger

def offeredEvent : ReceiveEvent :=
  .sync "talk" false 1 "mailbox" [offeredItem]

theorem offeredServices_reads : offeredServices.ReadsLedgers := by
  intro ledger
  simp [offeredServices, Function.partialInv_left encodedBytes_injective]

theorem offeredLedger_marks : DeliveryLedger.empty.Marks offeredItem.id offeredLedger :=
  markReceived_true (isHexDigest_toHex (.fill 32 0)) (by decide) (Prod.ext (by decide) rfl)

theorem offeredDaemon_starts : offeredDaemon.Starts where
  unlocked := rfl
  valid    := offeredLedger_marks.valid valid_empty (by decide)
  memory   := heldIn_insert_self _ _
  durable  := heldIn_insert_self _ _

theorem offeredEnvelope_wellFormed : offeredEnvelope.WellFormed :=
  RelayEnvelope.created_wellFormed _ _
    (⟨by decide, by decide, by decide, by decide, by decide⟩ :
      RelayEnvelope.IsRequest "mailbox" [7] 300 1)

theorem offeredItem_validated :
    offeredItem.validated offeredServices "mailbox" 1 = some offeredEnvelope := by
  have hs : Text.stripPrefix RelayItem.envelopePrefix offeredItem.envelope = some "" := by decide
  exact validated_of_wellFormed offeredEnvelope_wellFormed (by decide) rfl hs rfl rfl

theorem offeredEnvelope_digest :
    offeredEnvelope.digest offeredServices.sha256 = .ok offeredItem.id := by
  rw [RelayEnvelope.digest, offeredEnvelope_wellFormed.toWire_eq]
  rfl

theorem offeredDaemon_process :
    offeredDaemon.processSyncItems offeredServices "talk" false 1 "mailbox" [offeredItem] =
      (.ok ⟨[offeredItem.id], []⟩, offeredDaemon) :=
  processSyncItems_of_hasOpened <| List.forall_mem_singleton.mpr
    ⟨_, _, offeredItem_validated, offeredEnvelope_digest, offeredLedger_marks.opened⟩

theorem offeredDaemon_fits :
    ∀ s ∈ Run.states (receive offeredServices) offeredDaemon [offeredEvent],
      s.ledger.records.size ≤ maxRecords := by
  have hs : (receive offeredServices offeredDaemon offeredEvent).ledger.records.size ≤ maxRecords := by
    rw [offeredEvent, receive, offeredDaemon_process]
    exact offeredDaemon_starts.valid.size
  exact List.forall_mem_cons.mpr
    ⟨offeredDaemon_starts.valid.size, List.forall_mem_singleton.mpr hs⟩

end Daemon
