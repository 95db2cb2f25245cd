import AnotherDimension.Daemon.Theorems.Acknowledged

-- The two receive loops agree: a batch that `process_sync_items` accepts is taken in by
-- `process_inbox_items` with the same effect.

open Storage

namespace DeliveryLedger

variable {ledger ledger' : DeliveryLedger} {digest digest' : String}

-- The envelope was received but, for all the ledger says, not opened.
def IsHalfReceived (ledger : DeliveryLedger) (digest : String) : Prop :=
  ∃ record, ledger.get digest = some record ∧ record.state = .recipientReceived

theorem Marks.not_isHalfReceived (hm : ledger.Marks digest ledger')
    (h : ¬ledger.IsHalfReceived digest') : ¬ledger'.IsHalfReceived digest' := by
  rintro ⟨record, hr, hs⟩
  by_cases hk : digest' = digest
  case pos =>
    obtain ⟨opened, ho, hs'⟩ := hm.opened
    rw [← hk, hr] at ho
    cases ho
    rw [hs] at hs'
    cases hs'
  case neg =>
    rw [hm.others digest' hk] at hr
    exact h ⟨record, hr, hs⟩

end DeliveryLedger

namespace Daemon

open DeliveryLedger

variable {σ : Type} {services : Services σ} {conversationId digest relayId capability : String}
  {now : UInt64} {plaintext : Option Bytes} {authority : InviteAuthority} {d d₁ : Daemon σ}
  {items : List RelayItem} {item : RelayItem} {envelope : RelayEnvelope}
  {rendered : Option String}

-- The plaintext is an attachment or a message.
def IsRecognized (services : Services σ) (bytes : Bytes) : Prop :=
  (attachmentDescriptorFromPlaintext services.readDescriptor bytes).isSome ∨
    (MessagePayload.decode services.readMessage bytes).isSome

-- Of a recognized plaintext the two loops store the same.
theorem stage_agree (authority : InviteAuthority) (conversationId digest relayId : String)
    (now : UInt64) (h : ∀ bytes ∈ plaintext, IsRecognized services bytes) :
    (stageSync services authority conversationId digest relayId now true plaintext).authority =
        (stageInbox services authority conversationId digest relayId now plaintext).authority ∧
      (stageSync services authority conversationId digest relayId now true plaintext).mutations =
        (stageInbox services authority conversationId digest relayId now plaintext).mutations := by
  cases plaintext
  case none => exact ⟨rfl, rfl⟩
  case some bytes =>
    cases hd : attachmentDescriptorFromPlaintext services.readDescriptor bytes
    case some descriptor => simp [stageSync, stageInbox, hd]
    case none =>
      cases hm : MessagePayload.decode services.readMessage bytes
      case none => simpa [IsRecognized, hd, hm] using h bytes rfl
      case some message =>
        have he : (message.expiresAt = 0 ∨ message.expiresAt > now) ↔
            message.isExpired now = false := by
          simp only [MessagePayload.isExpired, Bool.and_eq_false_iff, decide_eq_false_iff_not,
            not_not, UInt64.not_le]
        simp only [stageSync, stageInbox, hd, stageSyncMessage, stageInboxMessage, hm, he]
        by_cases hx : message.isExpired now <;> simp [hx, Option.filter]

theorem storeInbox_of_storeSynced (hr : ∀ bytes ∈ plaintext, IsRecognized services bytes)
    (h : d.storeSynced services conversationId true now relayId digest plaintext =
      (.ok rendered, d₁)) :
    d.storeInbox services now conversationId relayId digest plaintext = (.ok (), d₁) := by
  obtain ⟨ha, hm⟩ := stage_agree d.authority conversationId digest relayId now hr
  simp only [storeSynced] at h
  simp only [storeInbox]
  cases hc : d.catalog.checkpointBytes services.mls conversationId <;> simp only [hc] at h ⊢
  case error => cases h
  case ok checkpoint =>
    rcases hk : markReceived d.ledger digest relayId with ⟨_ | _, ledger⟩ <;> simp only [hk] at h ⊢
    case false => simp at h
    case true =>
      rw [ha, hm] at h
      simp only [Bool.not_true, Bool.false_eq_true, if_false] at h ⊢
      split at h
      case h_1 => cases h
      case h_2 hb =>
        rw [Prod.mk.injEq] at h
        rw [h.right]

theorem yields_application {content : MlsContent} {bytes : Bytes}
    (h : MlsSession.Yields content (some bytes)) : content = .application bytes := by
  cases content
  case application => exact congrArg _ (Option.some.inj h).symm
  case commit      => cases h
  case other       => cases h

-- The conditions on an item: what it holds is recognized when it is opened, and it is not known
-- without having been opened.
structure IsAgreeable (services : Services σ) (capability : String) (now : UInt64)
    (ledger : DeliveryLedger) (item : RelayItem) : Prop where
  recognized : ∀ envelope, item.validated services capability now = some envelope →
    ∀ state state' bytes,
      services.mls.process state envelope.ciphertext = .ok (.application bytes, state') →
        IsRecognized services bytes
  settled    : ∀ envelope digest, item.validated services capability now = some envelope →
    envelope.digest services.sha256 = .ok digest → ¬ledger.IsHalfReceived digest

theorem inboxItem_of_syncItem (ha : IsAgreeable services capability now d.ledger item)
    (hv : item.validated services capability now = some envelope)
    (h : d.syncItem services conversationId true now item.id envelope = (.ok rendered, d₁)) :
    (∃ outcome ≠ InboxOutcome.skipped,
      d.inboxItem services now capability [conversationId] item = (.ok outcome, d₁)) ∧
    ∀ digest, ¬d.ledger.IsHalfReceived digest → ¬d₁.ledger.IsHalfReceived digest := by
  simp only [syncItem] at h
  cases hd : envelope.digest services.sha256 <;> simp only [hd] at h
  case error => cases h
  case ok digest =>
    simp only [inboxItem, hv, hd]
    split at h
    case isTrue hk =>
      cases h
      obtain ⟨record, hr, hs⟩ := (Option.any_eq_true _ _).mp hk
      have hs : record.state = .decrypted := by
        simp only [Bool.or_eq_true, decide_eq_true_eq] at hs
        exact hs.resolve_left fun hs => ha.settled envelope digest hv hd ⟨record, hr, hs⟩
      exact ⟨⟨.known, by decide, by simp [hr, hs]⟩, fun _ hn => hn⟩
    case isFalse hk =>
      have hn : ¬(d.ledger.get digest).any fun record => record.state = .decrypted := by
        intro hn
        refine hk ?_
        obtain ⟨record, hr, hs⟩ := (Option.any_eq_true _ _).mp hn
        simp [hr, hs]
      simp only [hn, tryConversations]
      rcases hx : d.catalog.receiveDeliveryUnpersisted services.mls conversationId
        envelope.ciphertext with ⟨_ | plaintext, catalog⟩ <;> simp only [hx] at h ⊢
      case error => cases h
      case ok =>
        have hr : ∀ bytes ∈ plaintext, IsRecognized services bytes := by
          rintro bytes rfl
          obtain ⟨_, _, ⟨_, content, state, hp, hy, _⟩⟩ := opened_of_received hx
          rw [yields_application hy] at hp
          exact ha.recognized envelope hv _ state bytes hp
        refine ⟨⟨.delivered, by decide, by simp [storeInbox_of_storeSynced hr h]⟩, fun digest' hn => ?_⟩
        have hs := storeSynced_stores services { d with catalog } conversationId true now item.id
          digest plaintext
        rw [h] at hs
        cases hs
        case accepted hm _ =>
          exact (markReceived_true (isHexDigest_of_digest hd) (validText_of_validated hv)
            hm).not_isHalfReceived hn

theorem inboxItems_of_syncItems {validated : List (String × RelayEnvelope)}
    {result : SyncProcessResult}
    (ha : ∀ item ∈ items, IsAgreeable services capability now d.ledger item)
    (hv : validateItems services capability now items = some validated)
    (h : syncItems services conversationId true now d validated = (.ok result, d₁)) :
    ∃ processed, inboxItems services now capability [conversationId] d items =
      (.ok (processed, result.acknowledgedIds), d₁) := by
  induction items generalizing d validated result
  case nil =>
    cases hv
    cases h
    exact ⟨0, rfl⟩
  case cons item items hi =>
    obtain ⟨envelope, rest, he, hr, rfl⟩ := validateItems_cons hv
    obtain ⟨ha, has⟩ := List.forall_mem_cons.mp ha
    simp only [syncItems] at h
    rcases hx : d.syncItem services conversationId true now item.id envelope with
      ⟨_ | rendered, d₂⟩ <;> simp only [hx] at h
    case error => cases h
    case ok =>
      obtain ⟨⟨outcome, ho, hitem⟩, hhalf⟩ := inboxItem_of_syncItem ha he hx
      rw [Prod.mk.injEq] at h
      obtain ⟨hres, rfl⟩ := h
      obtain ⟨tail, ht, rfl⟩ := Except.map_eq_ok.mp hres
      have has : ∀ item ∈ items, IsAgreeable services capability now d₂.ledger item :=
        fun item hm => ⟨(has item hm).recognized,
          fun envelope digest h₁ h₂ => hhalf digest ((has item hm).settled envelope digest h₁ h₂)⟩
      obtain ⟨processed, hp⟩ := hi has hr (Prod.ext ht rfl)
      refine ⟨if outcome = .delivered then processed + 1 else processed, ?_⟩
      rw [inboxItems, hitem]
      simp [hp, Except.map, ho]

-- The daemon that is offered an envelope again, with one conversation.
def pathsDaemon : Daemon Unit :=
  { offeredDaemon with catalog := MlsSessionCatalog.new.insert "talk" ⟨(), false⟩ }

end Daemon
