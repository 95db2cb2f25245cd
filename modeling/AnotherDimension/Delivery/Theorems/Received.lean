import AnotherDimension.Delivery.Theorems.Restore

-- What the ledger knows of the envelopes that were received, and when it can be read back.

open Storage

namespace DeliveryLedger

variable {ledger ledger' : DeliveryLedger} {digest relayId : String} {records : Records}
  {store : EncryptedStore} {fromSlice : Bytes → Option (Std.ExtTreeMap String DeliveryRecord)}

-- The envelope of the digest was received.
def Knows (ledger : DeliveryLedger) (digest : String) : Prop :=
  ∃ record, ledger.get digest = some record ∧
    (record.state = .recipientReceived ∨ record.state = .decrypted)

-- The envelope of the digest was opened.
def HasOpened (ledger : DeliveryLedger) (digest : String) : Prop :=
  ∃ record, ledger.get digest = some record ∧ record.state = .decrypted

instance : Decidable (ledger.HasOpened digest) :=
  decidable_of_iff ((ledger.get digest).any fun record => record.state = .decrypted) <| by
    simp [HasOpened, Option.any_eq_true]

theorem HasOpened.knows (h : ledger.HasOpened digest) : ledger.Knows digest := by
  obtain ⟨record, hr, hs⟩ := h
  exact ⟨record, hr, .inr hs⟩

-- The records are those of a store that `persist` wrote the ledger to, or that has none.
def HeldIn (ledger : DeliveryLedger) (records : Records) : Prop :=
  records[ledgerKey]? = some ledger.encodedBytes ∨ records[ledgerKey]? = none ∧ ledger = empty

theorem HeldIn.insert (h : ledger.HeldIn records) {key : RecordKey} (hk : key ≠ ledgerKey)
    (value : Bytes) : ledger.HeldIn (records.insert key value) := by
  have hg : (records.insert key value)[ledgerKey]? = records[ledgerKey]? := by
    simp [Std.ExtTreeMap.getElem?_insert, hk]
  unfold HeldIn
  rwa [hg]

theorem heldIn_insert_self (ledger : DeliveryLedger) (records : Records) :
    ledger.HeldIn (records.insert ledgerKey ledger.encodedBytes) :=
  .inl (by simp)

-- Restoring such a ledger succeeds exactly when it is valid.
theorem restore_eq_ok_iff (reads : ∀ ledger, fromSlice (encodedBytes ledger) = some ledger.records)
    (hl : store.locked = false) (h : ledger.HeldIn store.records) :
    restore fromSlice store = .ok ledger' ↔ ledger.Valid ∧ ledger' = ledger := by
  have hg : store.get ledgerKey.fst ledgerKey.snd = store.records[ledgerKey]? := by
    simp [EncryptedStore.get, hl]
  obtain h | ⟨h, rfl⟩ := h
  case inl =>
    simp only [restore, hg, h, reads]
    by_cases hv : ledger.Valid
    case pos =>
      rw [if_neg (valid_iff.mp hv), Except.ok.injEq]
      exact ⟨fun he => ⟨hv, he.symm⟩, fun he => he.right.symm⟩
    case neg =>
      rw [if_pos (not_not.mp (valid_iff.not.mp hv))]
      simp [hv]
  case inr => simp [restore, hg, h, valid_empty, eq_comm]

theorem restore_toOption_of_overflow
    (reads : ∀ ledger, fromSlice (encodedBytes ledger) = some ledger.records)
    (hl : store.locked = false) (h : ledger.HeldIn store.records)
    (hm : maxRecords < ledger.records.size) : (restore fromSlice store).toOption = none := by
  cases hr : restore fromSlice store
  case error => rfl
  case ok    =>
    have hv := ((restore_eq_ok_iff reads hl h).mp hr).left
    exact absurd hv.size (Nat.not_le.mpr hm)

-- Nothing that the ledger knows or has opened is forgotten.
def Extends (ledger ledger' : DeliveryLedger) : Prop :=
  ∀ digest, (ledger.Knows digest → ledger'.Knows digest) ∧
    (ledger.HasOpened digest → ledger'.HasOpened digest)

theorem Extends.refl (ledger : DeliveryLedger) : ledger.Extends ledger :=
  fun _ => ⟨id, id⟩

theorem Extends.trans {ledger₁ ledger₂ ledger₃ : DeliveryLedger} (h₁ : ledger₁.Extends ledger₂)
    (h₂ : ledger₂.Extends ledger₃) : ledger₁.Extends ledger₃ :=
  fun digest => ⟨(h₂ digest).left ∘ (h₁ digest).left, (h₂ digest).right ∘ (h₁ digest).right⟩

-- Marking an envelope as received and opened touches no other record.
structure Marks (ledger : DeliveryLedger) (digest : String) (ledger' : DeliveryLedger) : Prop where
  opened : ledger'.HasOpened digest
  others : ∀ key ≠ digest, ledger'.get key = ledger.get key
  size   : ledger.records.size ≤ ledger'.records.size
  valid  : ledger.Valid → ledger'.records.size ≤ maxRecords → ledger'.Valid

theorem Marks.extends (hm : ledger.Marks digest ledger') : ledger.Extends ledger' := by
  intro key
  by_cases hk : key = digest
  case pos => exact hk ▸ ⟨fun _ => hm.opened.knows, fun _ => hm.opened⟩
  case neg => simp [Knows, HasOpened, hm.others key hk]

theorem withRecord_eq_self {α : Type} {record : DeliveryRecord}
    {update : DeliveryRecord → Except EnvelopeError α × DeliveryRecord}
    (hr : ledger.get digest = some record) (hu : (update record).snd = record) :
    (ledger.withRecord digest update).snd = ledger := by
  have hi : ledger.records.insert digest record = ledger.records := by
    refine Std.ExtTreeMap.ext_getElem? fun key => ?_
    rw [Std.ExtTreeMap.getElem?_insert]
    split
    case isTrue hk =>
      rw [← Std.LawfulEqCmp.compare_eq_iff_eq.mp hk]
      exact hr.symm
    case isFalse => rfl
  rw [withRecord, hr]
  simp only [hu, hi]

theorem registerRecipientReceived_ok {new : Bool}
    (h : ledger.registerRecipientReceived digest relayId = (.ok new, ledger')) :
    (∀ key ≠ digest, ledger'.get key = ledger.get key) ∧
      ledger.records.size ≤ ledger'.records.size := by
  unfold registerRecipientReceived at h
  split_ifs at h <;> cases h
  case pos => exact ⟨fun _ _ => rfl, Nat.le_refl _⟩
  case neg =>
    refine ⟨fun key hn => ?_, Std.ExtTreeMap.size_le_size_insert⟩
    simp [get, insertNew, Std.ExtTreeMap.getElem?_insert, hn.symm]

theorem markDecrypted_ok {new : Bool} (h : ledger.markDecrypted digest = (.ok new, ledger')) :
    ledger'.HasOpened digest ∧ (∀ key ≠ digest, ledger'.get key = ledger.get key) ∧
      ledger'.records.size = ledger.records.size ∧ (ledger.Valid → ledger'.Valid) := by
  cases hg : ledger.get digest
  case none => simp [markDecrypted, withRecord, hg] at h
  case some record =>
    have hs : (ledger.markDecrypted digest).snd.records.size = ledger.records.size :=
      ledger.size_withRecord digest _
    have hget (key : String) : (ledger.markDecrypted digest).snd.get key =
        if digest = key then some record.markDecrypted.snd else ledger.get key :=
      get_withRecord hg key
    have hv (hl : ledger.Valid) : (ledger.markDecrypted digest).snd.Valid :=
      valid_withRecord hl fun _ hr => DeliveryRecord.markDecrypted_valid hr
    have hm : record.markDecrypted.fst.isOk := by
      simp only [markDecrypted, withRecord, hg, Prod.mk.injEq] at h
      rw [h.left]
      rfl
    rw [h] at hs hget hv
    refine ⟨⟨record.markDecrypted.snd, by simp [hget], ?_⟩, fun key hn => ?_, hs, hv⟩
    case refine_1 =>
      unfold DeliveryRecord.markDecrypted at hm ⊢
      split_ifs at hm ⊢
      case pos hp => exact hp
      case pos    => cases hm
      case neg    => rfl
    case refine_2 => rw [hget, if_neg hn.symm]

end DeliveryLedger
