import AnotherDimension.Daemon.Theorems.Receive
import AnotherDimension.Delivery.Theorems.Envelope
import AnotherDimension.Delivery.Theorems.Received

-- What the two receive loops make of a message that was opened: the mark in the ledger and the
-- records that hold what it carried.

open Storage

namespace Daemon

open DeliveryLedger

variable {ledger ledger' : DeliveryLedger} {digest relayId : String}

theorem markReceived_true (hd : LedgerOp.IsHexDigest digest)
    (hr : DeliveryRecord.validText DeliveryRecord.maxRelayIdBytes relayId)
    (h : markReceived ledger digest relayId = (true, ledger')) : ledger.Marks digest ledger' := by
  simp only [markReceived] at h
  rcases hx : ledger.registerRecipientReceived digest relayId with ⟨_ | _, ledger₁⟩ <;>
    simp only [hx] at h
  case error => cases h
  case ok =>
    rcases hy : ledger₁.markDecrypted digest with ⟨_ | _, ledger₂⟩ <;> simp only [hy] at h
    case error => cases h
    case ok =>
      cases h
      obtain ⟨hothers₁, hsize₁⟩ := registerRecipientReceived_ok hx
      obtain ⟨hopened, hothers₂, hsize₂, hvalid⟩ := markDecrypted_ok hy
      refine ⟨hopened, fun key hn => (hothers₂ key hn).trans (hothers₁ key hn),
        hsize₁.trans_eq hsize₂.symm, fun hl hm => hvalid ?_⟩
      have hv := valid_registerRecipientReceived hl hd hr
      rw [hx] at hv
      exact hv (hsize₂ ▸ hm)

-- What is refused changes nothing: the record is there, in another state.
theorem markReceived_false (hd : LedgerOp.IsHexDigest digest)
    (h : markReceived ledger digest relayId = (false, ledger')) : ledger' = ledger := by
  have hk : digest.isEmpty = false := by simpa using (Bool.and_eq_true_iff.mp hd.isKey).left
  simp only [markReceived, registerRecipientReceived, hk, Bool.false_eq_true, if_false] at h
  split_ifs at h
  case pos hm =>
    obtain ⟨record, hr⟩ := Option.ne_none_iff_exists'.mp (get_eq_none_iff.not.mpr (not_not.mpr hm))
    rcases hy : ledger.markDecrypted digest with ⟨_ | _, ledger₂⟩ <;> simp only [hy] at h
    case ok    => cases h
    case error =>
      cases h
      have hu : record.markDecrypted.snd = record := by
        have he : record.markDecrypted.fst.isOk = false := by
          simp only [markDecrypted, withRecord, hr] at hy
          rw [Prod.mk.injEq] at hy
          rw [hy.left]
          rfl
        unfold DeliveryRecord.markDecrypted at he ⊢
        split_ifs at he ⊢ <;> first | rfl | cases he
      have hs := withRecord_eq_self hr hu
      rw [markDecrypted] at hy
      rwa [hy] at hs
  case neg hm =>
    -- The record that was just entered can be marked.
    exfalso
    simp [markDecrypted, withRecord, DeliveryLedger.get, insertNew, DeliveryRecord.markDecrypted] at h

end Daemon

namespace Daemon

open DeliveryLedger RecordMutation

variable {σ : Type} {services : Services σ} {conversationId digest relayId capability : String}
  {now : UInt64} {plaintext : Option Bytes} {authority : InviteAuthority} {staged : Staged}
  {records : Records}

-- An item that holds a well-formed envelope for the mailbox is accepted until it expires.
theorem validated_of_wellFormed {services : Services σ} {item : RelayItem}
    {envelope : RelayEnvelope} {text : String} (hw : envelope.WellFormed)
    (ht : now < envelope.expiresAt ∧
      envelope.expiresAt ≤ now.saturatingAdd RelayEnvelope.maxEnvelopeTtlSeconds)
    (hr : services.readWire text = some envelope.wire)
    (hs : Text.stripPrefix RelayItem.envelopePrefix item.envelope = some text)
    (hm : envelope.mailbox = capability)
    (hi : Bytes.toHex (services.sha256 <| Bytes.utf8 item.envelope).val = item.id) :
    item.validated services capability now = some envelope := by
  simp [RelayItem.validated, hs, RelayEnvelope.fromWire, hr, hw.ofWire_eq_ok_iff.mpr ht, hm, hi]

-- What a plaintext carries is in the records: a descriptor under the digest, or a message under its
-- id unless it had expired. Any other text is only shown.
def IsStored (services : Services σ) (records : Records) (conversationId digest : String)
    (now : UInt64) (plaintext : Bytes) : Prop :=
  (∀ descriptor ∈ attachmentDescriptorFromPlaintext services.readDescriptor plaintext,
    records[InviteAuthority.receivedKey digest]? = some descriptor.encoded) ∧
  (attachmentDescriptorFromPlaintext services.readDescriptor plaintext = none →
    ∀ message ∈ MessagePayload.decode services.readMessage plaintext,
      message.isExpired now = false →
        StoredMessage.key services.sha256 conversationId message.id ∈ records)

theorem IsStored.insert {bytes : Bytes} (h : IsStored services records conversationId digest now bytes)
    {key : RecordKey} (hk : key ≠ InviteAuthority.receivedKey digest) (value : Bytes) :
    IsStored services (records.insert key value) conversationId digest now bytes := by
  refine ⟨fun descriptor hd => ?_, fun hn message hm he => ?_⟩
  case refine_1 => simpa [Std.ExtTreeMap.getElem?_insert, hk] using h.left descriptor hd
  case refine_2 => exact Std.ExtTreeMap.mem_insert.mpr (.inr (h.right hn message hm he))

-- The keys that a message of the conversation can write to.
inductive IsStagedKey (services : Services σ) (conversationId digest : String) : RecordKey → Prop
  | checkpoint : IsStagedKey services conversationId digest (MlsSession.key conversationId)
  | attachment : IsStagedKey services conversationId digest (InviteAuthority.receivedKey digest)
  | contacts   : IsStagedKey services conversationId digest ContactDirectory.directoryKey
  | message (id : String) :
    IsStagedKey services conversationId digest (StoredMessage.key services.sha256 conversationId id)

theorem IsStagedKey.ne_ledgerKey {key : RecordKey}
    (h : IsStagedKey services conversationId digest key) : key ≠ ledgerKey := by
  cases h <;> intro he <;> cases congrArg Prod.fst he

theorem IsStagedKey.eq_of_receivedKey {digest' : String}
    (h : IsStagedKey services conversationId digest (InviteAuthority.receivedKey digest')) :
    digest' = digest := by
  generalize hk : InviteAuthority.receivedKey digest' = key at h
  cases h
  case attachment => exact (String.append_right_inj _).mp (congrArg Prod.snd hk)
  all_goals cases congrArg Prod.fst hk

-- A mutation that puts a record under one of these keys.
def IsStagedPut (services : Services σ) (conversationId digest : String) (m : RecordMutation) : Prop :=
  ∃ key value, IsStagedKey services conversationId digest key ∧ m = .put key.fst key.snd value

theorem stageContact_eq (authority : InviteAuthority) (conversationId : String) (bytes : Bytes)
    (now : UInt64) (background : Bool) :
    (stageContact authority conversationId bytes now background).snd = [] ∨
      ∃ value, (stageContact authority conversationId bytes now background).snd =
        [.put ContactDirectory.directoryKey.fst ContactDirectory.directoryKey.snd value] := by
  simp only [stageContact]
  split
  case h_1 => exact .inl rfl
  case h_2 => exact .inr ⟨_, rfl⟩

theorem stageContact_puts {bytes : Bytes} {background : Bool} :
    ∀ m ∈ (stageContact authority conversationId bytes now background).snd,
      IsStagedPut services conversationId digest m := by
  intro m hm
  obtain h | ⟨value, h⟩ := stageContact_eq authority conversationId bytes now background
  case inl => rw [h] at hm; cases hm
  case inr =>
    rw [h, List.mem_singleton] at hm
    exact ⟨_, value, .contacts, hm⟩

theorem IsStored.stageContact {bytes text : Bytes} {background : Bool}
    (h : IsStored services records conversationId digest now bytes) :
    IsStored services
      (applyAll (stageContact authority conversationId text now background).snd records)
      conversationId digest now bytes := by
  obtain hc | ⟨value, hc⟩ := stageContact_eq authority conversationId text now background <;> rw [hc]
  case inl => exact h
  case inr => exact h.insert (fun he => by cases congrArg Prod.fst he) value

-- Both loops write to these keys only, and what they write holds what was carried.
structure StagesFor (services : Services σ) (conversationId digest : String) (now : UInt64)
    (plaintext : Option Bytes) (staged : Staged) : Prop where
  puts   : ∀ m ∈ staged.mutations, IsStagedPut services conversationId digest m
  stored : ∀ bytes ∈ plaintext, ∀ records,
    IsStored services (applyAll staged.mutations records) conversationId digest now bytes

theorem stageAttachment_stagesFor {bytes : Bytes} {descriptor : AttachmentDescriptor}
    {background : Bool}
    (hd : attachmentDescriptorFromPlaintext services.readDescriptor bytes = some descriptor) :
    StagesFor services conversationId digest now (some bytes)
      (stageAttachment authority conversationId digest relayId descriptor now background) where
  puts := List.forall_mem_cons.mpr ⟨⟨_, _, .attachment, rfl⟩, stageContact_puts⟩
  stored := by
    rintro _ ⟨⟩ records
    have hs : IsStored services
        (records.insert (InviteAuthority.receivedKey digest) descriptor.encoded) conversationId
        digest now bytes := by
      refine ⟨fun descriptor' h => ?_, fun hn => ?_⟩
      case refine_1 =>
        cases hd.symm.trans h
        simp
      case refine_2 => cases hd.symm.trans hn
    exact hs.stageContact

-- The record of a message holds it, whatever is written to the contacts afterwards.
theorem isStored_incoming {bytes : Bytes} {message : MessagePayload} (records : Records)
    (hn : attachmentDescriptorFromPlaintext services.readDescriptor bytes = none)
    (hm : MessagePayload.decode services.readMessage bytes = some message) :
    IsStored services ((incomingMutation services conversationId message).apply records)
      conversationId digest now bytes := by
  refine ⟨fun descriptor h => (by cases hn.symm.trans h), fun _ message' h _ => ?_⟩
  cases hm.symm.trans h
  exact Std.ExtTreeMap.mem_insert.mpr (.inl Std.ReflCmp.compare_self)

theorem isStored_of_not_message {bytes : Bytes} (records : Records)
    (hn : attachmentDescriptorFromPlaintext services.readDescriptor bytes = none)
    (hm : ∀ message ∈ MessagePayload.decode services.readMessage bytes, message.isExpired now) :
    IsStored services records conversationId digest now bytes := by
  refine ⟨fun descriptor h => (by cases hn.symm.trans h), fun _ message h he => ?_⟩
  rw [hm message h] at he
  cases he

theorem stageSync_stagesFor (authority : InviteAuthority) (relayId : String) (background : Bool) :
    StagesFor services conversationId digest now plaintext
      (stageSync services authority conversationId digest relayId now background plaintext) := by
  cases plaintext
  case none => exact ⟨by simp [stageSync], by simp⟩
  case some bytes =>
    cases hd : attachmentDescriptorFromPlaintext services.readDescriptor bytes
    case some descriptor =>
      simp only [stageSync, hd]
      exact stageAttachment_stagesFor hd
    case none =>
      simp only [stageSync, hd, stageSyncMessage]
      cases hm : MessagePayload.decode services.readMessage bytes
      case none =>
        refine ⟨stageContact_puts, ?_⟩
        rintro _ ⟨⟩ records
        exact (isStored_of_not_message records hd (by simp [hm])).stageContact
      case some message =>
        by_cases he : message.isExpired now
        case pos =>
          simp only [Option.any_some, he, Option.filter_some, Bool.not_true, Bool.false_eq_true,
            if_true, if_false, Option.toList_none, List.map_nil, List.nil_append]
          refine ⟨by simp, ?_⟩
          rintro _ ⟨⟩ records
          exact isStored_of_not_message records hd (by simp [hm, he])
        case neg =>
          simp only [Bool.not_eq_true] at he
          simp only [Option.any_some, he, Option.filter_some, Bool.not_false, Bool.false_eq_true,
            if_true, if_false, Option.toList_some, List.map_cons, List.map_nil, List.cons_append,
            List.nil_append]
          refine ⟨List.forall_mem_cons.mpr ⟨⟨_, _, .message message.id, rfl⟩, stageContact_puts⟩, ?_⟩
          rintro _ ⟨⟩ records
          exact (isStored_incoming records hd hm).stageContact

theorem stageInbox_stagesFor (authority : InviteAuthority) (relayId : String) :
    StagesFor services conversationId digest now plaintext
      (stageInbox services authority conversationId digest relayId now plaintext) := by
  cases plaintext
  case none => exact ⟨by simp [stageInbox], by simp⟩
  case some bytes =>
    cases hd : attachmentDescriptorFromPlaintext services.readDescriptor bytes
    case some descriptor =>
      simp only [stageInbox, hd]
      exact stageAttachment_stagesFor hd
    case none =>
      simp only [stageInbox, hd, stageInboxMessage]
      cases hm : MessagePayload.decode services.readMessage bytes
      case none =>
        refine ⟨by simp, ?_⟩
        rintro _ ⟨⟩ records
        exact isStored_of_not_message records hd (by simp [hm])
      case some message =>
        simp only
        split
        case isTrue he =>
          refine ⟨List.forall_mem_cons.mpr ⟨⟨_, _, .message message.id, rfl⟩, stageContact_puts⟩, ?_⟩
          rintro _ ⟨⟩ records
          exact (isStored_incoming records hd hm).stageContact
        case isFalse he =>
          obtain ⟨h₁, h₂⟩ := not_or.mp he
          refine ⟨by simp, ?_⟩
          rintro _ ⟨⟩ records
          refine isStored_of_not_message records hd fun message' h => ?_
          cases hm.symm.trans h
          simp [MessagePayload.isExpired, h₁, UInt64.not_lt.mp h₂]

theorem IsStaged.stagesFor
    (h : IsStaged services authority conversationId digest relayId now plaintext staged) :
    StagesFor services conversationId digest now plaintext staged := by
  obtain ⟨background, rfl⟩ | rfl := h
  case inl => exact stageSync_stagesFor authority relayId background
  case inr => exact stageInbox_stagesFor authority relayId

end Daemon
