import AnotherDimension.Library.JsonReader
import AnotherDimension.Library.Lines
import AnotherDimension.Library.Reader
import AnotherDimension.Library.Run
import AnotherDimension.Delivery.Persist
import AnotherDimension.Storage.Theorems.Holds

-- Which runs of ledger operations leave a ledger that can be restored.

open FileProgram Storage

@[simp]
theorem DeliveryState.validTransition_retryable (source : DeliveryState) :
    source.validTransition .retryable = false := by
  cases source <;> rfl

namespace DeliveryState

theorem name_injective : Function.Injective name := by
  intro s₁ s₂
  cases s₁ <;> cases s₂ <;> simp [name]

end DeliveryState

namespace DeliveryRecord

variable {record : DeliveryRecord} {key : String}

-- A retry finds an attempt left and an envelope to send, or does nothing.
def CanRetry (record : DeliveryRecord) : Prop :=
  record.state.isSettled ∨ record.attempts < 5 ∧ record.wire.isSome

-- There is an envelope and a place to send it to.
def IsSendable (record : DeliveryRecord) : Prop :=
  record.wire.isSome ∧ record.destination.isSome

theorem transition_valid_iff (h : record.validPersistedRecord key) (state : DeliveryState) :
    (record.transition state).snd.validPersistedRecord key ↔
      (record.state.validTransition state → state = .queued → record.IsSendable) := by
  unfold transition
  split
  case isTrue ht =>
    simp only [validPersistedRecord, Bool.and_eq_true] at h ⊢
    cases state <;> simp_all [IsSendable]
  case isFalse => simp_all

theorem acknowledgeRecipient_valid (h : record.validPersistedRecord key) :
    record.acknowledgeRecipient.snd.validPersistedRecord key := by
  unfold acknowledgeRecipient
  split_ifs <;> simp_all [validPersistedRecord]

theorem markDecrypted_valid (h : record.validPersistedRecord key) :
    record.markDecrypted.snd.validPersistedRecord key := by
  unfold markDecrypted
  split_ifs <;> simp_all [validPersistedRecord]

theorem cancel_valid (h : record.validPersistedRecord key) :
    record.cancel.snd.validPersistedRecord key := by
  unfold cancel
  split <;> simp_all [validPersistedRecord, validText]

theorem expireDue_valid (h : record.validPersistedRecord key) (now : UInt64) :
    (record.expireDue now).validPersistedRecord key := by
  unfold expireDue
  split <;> simp_all [validPersistedRecord, validText]

theorem markFailed_valid (h : record.validPersistedRecord key) :
    record.markFailed.snd.validPersistedRecord key := by
  unfold markFailed
  split <;> simp_all [validPersistedRecord, validText]

theorem bindRelayId_valid (h : record.validPersistedRecord key) {relayId : String}
    (hr : validText maxRelayIdBytes relayId) :
    (record.bindRelayId relayId).snd.validPersistedRecord key := by
  simp_all [bindRelayId, validPersistedRecord]

theorem acceptRetry_valid (h : record.validPersistedRecord key) (expectedState : DeliveryState)
    {relayId : String} (hr : validText maxRelayIdBytes relayId) :
    (record.acceptRetry expectedState relayId).snd.validPersistedRecord key := by
  unfold acceptRetry
  split <;> simp_all [validPersistedRecord]

theorem scheduleRetry_valid_iff (h : record.validPersistedRecord key) (now : UInt64) :
    (record.scheduleRetry now).snd.validPersistedRecord key ↔ record.CanRetry := by
  have ha : (record.attempts.saturatingAdd 1).toNat = min (record.attempts.toNat + 1) 255 :=
    record.attempts.toNat_saturatingAdd 1
  unfold scheduleRetry CanRetry
  split
  case isTrue hs  => simp [h, hs]
  case isFalse hs =>
    simp only [hs, Bool.false_eq_true, false_or]
    split
    case isTrue hl =>
      have hn : ¬record.attempts < 5 := by
        rw [UInt8.lt_iff_toNat_lt] at hl ⊢
        simp at hl ⊢
        omega
      simp [hn, validPersistedRecord, UInt8.not_le.mpr hl]
    case isFalse hl =>
      have hn : record.attempts < 5 := by
        rw [UInt8.lt_iff_toNat_lt] at hl ⊢
        simp at hl ⊢
        omega
      have hp : 0 < record.attempts.saturatingAdd 1 := by
        rw [UInt8.lt_iff_toNat_lt, ha]
        simp
      simp_all [validPersistedRecord, UInt8.not_lt.mp hl]

theorem ifCurrent_valid_iff (h : record.validPersistedRecord key) (expectedState : DeliveryState)
    {update : Except EnvelopeError Bool × DeliveryRecord} :
    (record.ifCurrent expectedState update).snd.validPersistedRecord key ↔
      (record.state = expectedState → update.snd.validPersistedRecord key) := by
  unfold ifCurrent
  split <;> simp_all

end DeliveryRecord

namespace LedgerOp

def IsHexDigest (digest : String) : Prop :=
  digest.length = 64 ∧
    digest.toList.all fun c => c.isDigit || ('a' ≤ c && c ≤ 'f') || ('A' ≤ c && c ≤ 'F')

theorem IsHexDigest.isKey {digest : String} (h : IsHexDigest digest) :
    !digest.isEmpty && digest.utf8ByteSize ≤ DeliveryRecord.maxDigestBytes := by
  have ha : ∀ c ∈ digest.toList, c.val ≤ 127 := by
    intro c hc
    have hc := List.all_eq_true.mp h.right c hc
    simp only [Bool.or_eq_true, Bool.and_eq_true, decide_eq_true_eq] at hc
    obtain (hc | hc) | hc := hc
    case inl.inl => exact Text.ascii_of_isDigit hc
    case inl.inr => exact UInt32.le_trans hc.right (by decide)
    case inr     => exact UInt32.le_trans hc.right (by decide)
  have hs : digest.utf8ByteSize = 64 := by
    rw [← String.utf8Len_toList, Text.utf8Len_of_ascii ha]
    exact h.left
  simp [String.isEmpty, hs, DeliveryRecord.maxDigestBytes]

-- The inputs are digests in hexadecimal, and texts that are not empty and within their limits.
def Admissible : LedgerOp → Prop
  | registerEncryptedWithDestination digest wire _ destination
  | registerQueuedWithDestination digest wire _ destination =>
    IsHexDigest digest ∧ DeliveryRecord.validText DeliveryRecord.maxWireBytes wire ∧
      DeliveryRecord.validText DeliveryRecord.maxDestinationBytes destination
  | bindRelayId digest relayId | registerRecipientReceived digest relayId
  | acceptRetry digest _ relayId =>
    IsHexDigest digest ∧ DeliveryRecord.validText DeliveryRecord.maxRelayIdBytes relayId
  | discardIfState digest _ | transition digest _ | acknowledgeRecipient digest
  | markDecrypted digest | cancel digest | scheduleRetry digest _
  | scheduleRetryIfCurrent digest _ _ | markFailed digest | markFailedIfCurrent digest _ =>
    IsHexDigest digest
  | expireDue _ => True

instance (digest : String) : Decidable (IsHexDigest digest) :=
  inferInstanceAs <| Decidable (_ ∧ _)

instance : (op : LedgerOp) → Decidable op.Admissible
  | registerEncryptedWithDestination .. | registerQueuedWithDestination .. =>
    inferInstanceAs <| Decidable (_ ∧ _ ∧ _)
  | bindRelayId .. | registerRecipientReceived .. | acceptRetry .. =>
    inferInstanceAs <| Decidable (_ ∧ _)
  | discardIfState .. | transition .. | acknowledgeRecipient .. | markDecrypted .. | cancel ..
  | scheduleRetry .. | scheduleRetryIfCurrent .. | markFailed .. | markFailedIfCurrent .. =>
    inferInstanceAs <| Decidable (IsHexDigest _)
  | expireDue _ => .isTrue trivial

end LedgerOp

namespace DeliveryLedger

variable {ledger : DeliveryLedger} {op : LedgerOp} {store store' : EncryptedStore}
  {fromSlice : Bytes → Option (Std.ExtTreeMap String DeliveryRecord)}

-- The store holds the ledger as `persist` writes it.
def IsHeldBy (ledger : DeliveryLedger) (store : EncryptedStore) : Prop :=
  store.get ledgerKey.fst ledgerKey.snd = some ledger.encodedBytes

-- The ledger comes back unchanged from every store that holds it.
def Restores (fromSlice : Bytes → Option (Std.ExtTreeMap String DeliveryRecord))
    (ledger : DeliveryLedger) : Prop :=
  ∀ store, ledger.IsHeldBy store → restore fromSlice store = .ok ledger

-- The call does not put a record into a state that `restore` refuses.
def KeepsValid (ledger : DeliveryLedger) : LedgerOp → Prop
  | .registerQueuedWithDestination digest wire _ destination =>
    ledger.get digest = none → wire.isSome ∧ destination.isSome
  | .transition digest .queued                               =>
    ∀ record ∈ ledger.get digest, record.state.validTransition .queued → record.IsSendable
  | .scheduleRetry digest _                                  =>
    ∀ record ∈ ledger.get digest, record.CanRetry
  | .scheduleRetryIfCurrent digest expectedState _           =>
    ∀ record ∈ ledger.get digest, record.state = expectedState → record.CanRetry
  | _                                                        => True

-- The test of `restore`.
structure Valid (ledger : DeliveryLedger) : Prop where
  size    : ledger.records.size ≤ maxRecords
  records : ∀ key record, ledger.get key = some record → record.validPersistedRecord key

theorem valid_iff : ledger.Valid ↔ ¬(ledger.records.size > maxRecords ∨
    ledger.records.toList.any fun (key, record) => !record.validPersistedRecord key) := by
  have hl : (ledger.records.toList.any fun (key, record) => !record.validPersistedRecord key) =
      false ↔ ∀ key record, ledger.get key = some record → record.validPersistedRecord key := by
    simp [Std.ExtTreeMap.mem_toList_iff_getElem?_eq_some, get]
  simp only [not_or, Nat.not_lt, Bool.not_eq_true, hl]
  exact ⟨fun h => ⟨h.size, h.records⟩, fun h => ⟨h.left, h.right⟩⟩

theorem restores_iff_valid (round : fromSlice ledger.encodedBytes = some ledger.records) :
    ledger.Restores fromSlice ↔ ledger.Valid := by
  have hr (store : EncryptedStore) (h : ledger.IsHeldBy store) : restore fromSlice store =
      if ledger.records.size > maxRecords ∨
          ledger.records.toList.any fun (key, record) => !record.validPersistedRecord key then
        .error .corruptStore
      else
        .ok ledger := by
    simp only [restore, show store.get _ _ = _ from h, round]
  rw [valid_iff]
  constructor
  case mp =>
    intro h
    have ⟨store, hs⟩ := EncryptedStore.exists_holds ledgerKey ledger.encodedBytes
    have hr := (hr store hs).symm.trans (h store hs)
    split at hr
    case isTrue     => cases hr
    case isFalse hv => exact hv
  case mpr =>
    intro h store hs
    rw [hr store hs, if_neg h]

-- A store in which the ledger was persisted holds it.
theorem persist_isHeldBy {aead : Aead} {nonce : Option Nonce} {disk disk' : Disk}
    {fates rest : List Fate} (hl : store.locked = false)
    (h : (ledger.persist aead store nonce).exec disk fates = (disk', some ((.ok (), store'), rest))) :
    ledger.IsHeldBy store' :=
  EncryptedStore.put_holds hl h

-- Only the record the operation works on matters.
theorem valid_withRecord_iff (h : ledger.Valid) {α : Type} {digest : String}
    {update : DeliveryRecord → Except EnvelopeError α × DeliveryRecord}
    {cond : DeliveryRecord → Prop}
    (hu : ∀ record : DeliveryRecord, record.validPersistedRecord digest →
      ((update record).snd.validPersistedRecord digest ↔ cond record)) :
    (ledger.withRecord digest update).snd.Valid ↔ ∀ record ∈ ledger.get digest, cond record := by
  have hs := ledger.size_withRecord digest update
  match hr : ledger.get digest with
  | none        => simp [withRecord, hr, h]
  | some record =>
    have hu := hu record <| h.records digest record hr
    have hget (key : String) : (ledger.withRecord digest update).snd.get key =
        if digest = key then some (update record).snd else ledger.get key := get_withRecord hr key
    simp only [Option.mem_some, forall_eq', ← hu]
    constructor
    case mp  => exact fun hv => hv.records digest _ (by simp [hget])
    case mpr =>
      intro hv
      refine ⟨hs ▸ h.size, fun key r hk => ?_⟩
      rw [hget] at hk
      split at hk
      case isTrue he => cases hk; exact he ▸ hv
      case isFalse   => exact h.records key r hk

theorem valid_withRecord (h : ledger.Valid) {α : Type} {digest : String}
    {update : DeliveryRecord → Except EnvelopeError α × DeliveryRecord}
    (hu : ∀ record : DeliveryRecord, record.validPersistedRecord digest →
      (update record).snd.validPersistedRecord digest) :
    (ledger.withRecord digest update).snd.Valid :=
  (valid_withRecord_iff h fun record hr => iff_true_intro <| hu record hr).mpr fun _ _ => trivial

theorem valid_insertNew_iff (h : ledger.Valid) {record : DeliveryRecord}
    (hs : (ledger.insertNew record).records.size ≤ maxRecords) :
    (ledger.insertNew record).Valid ↔ record.validPersistedRecord record.digest := by
  have hget (key : String) : (ledger.insertNew record).get key =
      if record.digest = key then some record else ledger.get key := by
    simp [get, insertNew, Std.ExtTreeMap.getElem?_insert]
  constructor
  case mp  => exact fun hv => hv.records record.digest record (by simp [hget])
  case mpr =>
    intro hr
    refine ⟨hs, fun key r hk => ?_⟩
    rw [hget] at hk
    split at hk
    case isTrue he => cases hk; exact he ▸ hr
    case isFalse   => exact h.records key r hk

theorem valid_discardIfState (h : ledger.Valid) (digest : String) (expectedState : DeliveryState) :
    (ledger.discardIfState digest expectedState).snd.Valid := by
  unfold discardIfState
  split
  case isFalse => exact h
  case isTrue  =>
    refine ⟨Std.ExtTreeMap.size_erase_le.trans h.size, fun key r hk => h.records key r ?_⟩
    simp only [get, Std.ExtTreeMap.getElem?_erase] at hk
    split at hk
    case isTrue  => cases hk
    case isFalse => exact hk

theorem valid_expireDue (h : ledger.Valid) (now : UInt64) : (ledger.expireDue now).snd.Valid := by
  refine ⟨by simpa [expireDue] using h.size, fun key r hk => ?_⟩
  simp only [expireDue, get, Std.ExtTreeMap.getElem?_map, Option.map_eq_some_iff] at hk
  obtain ⟨record, hr, rfl⟩ := hk
  exact DeliveryRecord.expireDue_valid (h.records key record hr) now

-- The state an envelope is registered in decides what it has to come with.
theorem valid_registerAs_iff (h : ledger.Valid) {state : DeliveryState} {digest : String}
    {wire destination : Option String} {expiresAt : Option UInt64}
    (hd : LedgerOp.IsHexDigest digest)
    (hw : DeliveryRecord.validText DeliveryRecord.maxWireBytes wire)
    (ht : DeliveryRecord.validText DeliveryRecord.maxDestinationBytes destination)
    (hs : (ledger.registerAs state digest wire expiresAt destination).snd.records.size ≤ maxRecords) :
    (ledger.registerAs state digest wire expiresAt destination).snd.Valid ↔
      (ledger.get digest = none → state ≠ .retryable ∧
        (state = .queued → wire.isSome ∧ destination.isSome)) := by
  have hk := hd.isKey
  have hm : digest ∈ ledger.records ↔ ledger.get digest ≠ none := by simp [get_eq_none_iff]
  have he : digest.isEmpty = false := by simpa using (Bool.and_eq_true_iff.mp hk).left
  simp only [registerAs, he, hm, Bool.false_eq_true, false_or] at hs ⊢
  split
  case isTrue hn  => simp [h, hn]
  case isFalse hn =>
    simp only [hn, ↓reduceIte] at hs
    have hn : ledger.get digest = none := by simpa using hn
    rw [valid_insertNew_iff h hs]
    cases state <;>
      simp_all [DeliveryRecord.validPersistedRecord, DeliveryRecord.validText]

theorem valid_registerRecipientReceived (h : ledger.Valid) {digest relayId : String}
    (hd : LedgerOp.IsHexDigest digest)
    (hr : DeliveryRecord.validText DeliveryRecord.maxRelayIdBytes relayId)
    (hs : (ledger.registerRecipientReceived digest relayId).snd.records.size ≤ maxRecords) :
    (ledger.registerRecipientReceived digest relayId).snd.Valid := by
  have hk := hd.isKey
  unfold registerRecipientReceived at hs ⊢
  split_ifs at hs ⊢
  case neg =>
    rw [valid_insertNew_iff h hs]
    simp_all [DeliveryRecord.validPersistedRecord, DeliveryRecord.validText]
  all_goals exact h

-- The condition says exactly which calls keep the ledger valid.
theorem valid_step_iff (h : ledger.Valid) (ha : op.Admissible)
    (hs : (ledger.step op).records.size ≤ maxRecords) :
    (ledger.step op).Valid ↔ ledger.KeepsValid op := by
  -- Most calls keep every ledger valid.
  have always {p : Prop} (hp : p) : p ↔ True := iff_true_intro hp
  match op with
  | .registerEncryptedWithDestination digest wire expiresAt destination =>
    have ⟨hd, hw, ht⟩ := ha
    exact (valid_registerAs_iff h hd hw ht hs).trans <| by simp [KeepsValid]
  | .registerQueuedWithDestination digest wire expiresAt destination    =>
    have ⟨hd, hw, ht⟩ := ha
    exact (valid_registerAs_iff h hd hw ht hs).trans <| by simp [KeepsValid]
  | .registerRecipientReceived digest relayId                           =>
    exact always <| valid_registerRecipientReceived h ha.left ha.right hs
  | .discardIfState digest expectedState                                =>
    exact always <| valid_discardIfState h digest expectedState
  | .expireDue now                                                      =>
    exact always <| valid_expireDue h now
  | .transition digest state                                            =>
    refine (valid_withRecord_iff h fun _ hr => DeliveryRecord.transition_valid_iff hr state).trans ?_
    cases state <;> simp [KeepsValid]
  | .acknowledgeRecipient digest                                        =>
    exact always <| valid_withRecord h fun _ => DeliveryRecord.acknowledgeRecipient_valid
  | .bindRelayId digest relayId                                         =>
    exact always <| valid_withRecord h fun _ hr => DeliveryRecord.bindRelayId_valid hr ha.right
  | .markDecrypted digest                                               =>
    exact always <| valid_withRecord h fun _ => DeliveryRecord.markDecrypted_valid
  | .cancel digest                                                      =>
    exact always <| valid_withRecord h fun _ => DeliveryRecord.cancel_valid
  | .scheduleRetry digest now                                           =>
    exact valid_withRecord_iff h fun _ hr => DeliveryRecord.scheduleRetry_valid_iff hr now
  | .scheduleRetryIfCurrent digest expectedState now                    =>
    exact valid_withRecord_iff h fun record hr =>
      (DeliveryRecord.ifCurrent_valid_iff hr expectedState).trans <|
        imp_congr_right fun _ => DeliveryRecord.scheduleRetry_valid_iff hr now
  | .markFailed digest                                                  =>
    exact always <| valid_withRecord h fun _ => DeliveryRecord.markFailed_valid
  | .markFailedIfCurrent digest expectedState                           =>
    exact always <| valid_withRecord h fun _ hr =>
      (DeliveryRecord.ifCurrent_valid_iff hr expectedState).mpr fun _ =>
        DeliveryRecord.markFailed_valid hr
  | .acceptRetry digest expectedState relayId                           =>
    exact always <| valid_withRecord h fun _ hr =>
      DeliveryRecord.acceptRetry_valid hr expectedState ha.right

-- The inputs of the call are within their limits, and the number of records stays so.
def WithinLimits (ledger : DeliveryLedger) (op : LedgerOp) : Prop :=
  op.Admissible ∧ (ledger.step op).records.size ≤ maxRecords

theorem valid_empty : empty.Valid where
  size    := by simp [empty]
  records := by simp [empty, get]

def sampleDigest : String :=
  "6b86b273ff34fce19d6b804eff5a3f5747ada4eaa22f1d49c01e52ddb7875b4b"

def sampleSend : LedgerOp :=
  .registerQueuedWithDestination sampleDigest (some "wire") (some 1700604800)
    (some "https://relay/inbox")

-- An envelope that could not be sent six times in a row.
def failingOps : List LedgerOp :=
  sampleSend :: [0, 5, 15, 35, 75, 155].map (.scheduleRetry sampleDigest ·)

instance (ledger : DeliveryLedger) (op : LedgerOp) : Decidable (ledger.WithinLimits op) :=
  inferInstanceAs <| Decidable (_ ∧ _)

end DeliveryLedger

-- The text of a ledger tells what it holds.

def DeliveryRecord.toValue (record : DeliveryRecord) : JsonValue :=
  .object [
    ("digest", .string record.digest),
    ("state", .string record.state.name),
    ("attempts", .u64 record.attempts.toUInt64),
    ("next_retry_at", record.nextRetryAt.elim .null .u64),
    ("relay_id", record.relayId.elim .null .string),
    ("wire", record.wire.elim .null .string),
    ("expires_at", record.expiresAt.elim .null .u64),
    ("destination", record.destination.elim .null .string)
  ]

theorem DeliveryRecord.reads_toJson (record : DeliveryRecord) :
    Json.Reads record.toJson record.toValue :=
  Json.reads_object <|
    .cons ⟨rfl, Json.reads_string _⟩ <| .cons ⟨rfl, Json.reads_string _⟩ <|
    .cons ⟨rfl, Json.reads_u64 _⟩ <| .cons ⟨rfl, Json.reads_option Json.reads_u64 _⟩ <|
    .cons ⟨rfl, Json.reads_option Json.reads_string _⟩ <|
    .cons ⟨rfl, Json.reads_option Json.reads_string _⟩ <|
    .cons ⟨rfl, Json.reads_option Json.reads_u64 _⟩ <|
    .cons ⟨rfl, Json.reads_option Json.reads_string _⟩ .nil

theorem DeliveryRecord.toValue_injective : Function.Injective toValue := by
  intro record₁ record₂ h
  simp only [toValue, JsonValue.object.injEq, List.cons.injEq, Prod.mk.injEq, true_and, and_true,
    JsonValue.string.injEq] at h
  obtain ⟨hd, hs, ha, hn, hr, hw, he, ht⟩ := h
  obtain ⟨_, _, _, _, _, _, _, _⟩ := record₁
  obtain ⟨_, _, _, _, _, _, _, _⟩ := record₂
  cases hd
  cases DeliveryState.name_injective hs
  cases UInt8.toUInt64_inj.mp <| JsonValue.u64_injective ha
  cases JsonValue.elim_u64_injective hn
  cases JsonValue.elim_string_injective hr
  cases JsonValue.elim_string_injective hw
  cases JsonValue.elim_u64_injective he
  cases JsonValue.elim_string_injective ht
  rfl

namespace DeliveryLedger

theorem encodedBytes_injective : Function.Injective encodedBytes := by
  intro ledger₁ ledger₂ h
  have hr (ledger : DeliveryLedger) :=
    Json.reads_object_toList DeliveryRecord.reads_toJson ledger.records
  have hv := (hr ledger₁).unique <| Bytes.utf8_injective h ▸ hr ledger₂
  cases ledger₁
  cases ledger₂
  exact congrArg mk <|
    Json.members_toList_injective DeliveryRecord.toValue_injective (JsonValue.object.inj hv)

-- A reader for the texts of some ledgers.
def readerOf (ledgers : List DeliveryLedger) (bytes : Bytes) :
    Option (Std.ExtTreeMap String DeliveryRecord) :=
  (ledgers.find? (·.encodedBytes = bytes)).map (·.records)

theorem readerOf_encodedBytes {ledgers : List DeliveryLedger} (hl : ledger ∈ ledgers) :
    readerOf ledgers ledger.encodedBytes = some ledger.records :=
  Reader.of_encode_of_congr (fun _ _ he => congrArg records <| encodedBytes_injective he) hl

-- An envelope that could not be sent once, was sent, and one that was received.
def sampleOps : List LedgerOp := [
  sampleSend,
  .scheduleRetryIfCurrent sampleDigest .queued 1700000000,
  .acceptRetry sampleDigest .retryable "relay-1",
  .registerRecipientReceived sampleDigest.toUpper "relay-2",
  .markDecrypted sampleDigest.toUpper,
  .expireDue 1700604800
]

end DeliveryLedger
