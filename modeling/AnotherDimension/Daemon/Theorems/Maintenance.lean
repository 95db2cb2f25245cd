import AnotherDimension.Daemon.Maintenance
import AnotherDimension.Daemon.Theorems.MessageList
import AnotherDimension.Daemon.Theorems.Operations
import AnotherDimension.Daemon.Theorems.Receive
import AnotherDimension.Delivery.Theorems.Restore

-- What a tick leaves of the messages and deliveries that have expired.

open Storage

namespace DeliveryRecord

variable {record : DeliveryRecord} {now : UInt64}

-- The record has expired, and nothing has come of it.
def IsOverdue (now : UInt64) (record : DeliveryRecord) : Prop :=
  record.expiresAt.any (· ≤ now) ∧
    record.state ≠ .failed ∧ record.state ≠ .decrypted ∧ record.state ≠ .cancelled

-- The record after the answer to its retry.
def retried (now : UInt64) (record : DeliveryRecord) : Except RelayError String → DeliveryRecord
  | .ok id       => (record.acceptRetry record.state id).snd
  | .error error =>
    if error = .expired ∨ error = .invalidEndpoint ∨ error = .invalidResponse then
      (record.ifCurrent record.state record.markFailed).snd
    else
      (record.ifCurrent record.state (record.scheduleRetry now)).snd

-- The answer ends the delivery.
def IsEndedBy (record : DeliveryRecord) : Except RelayError String → Prop
  | .ok _        => False
  | .error error =>
    error = .expired ∨ error = .invalidEndpoint ∨ error = .invalidResponse ∨ 5 ≤ record.attempts

theorem ifCurrent_self (record : DeliveryRecord) (update : Except EnvelopeError Bool × DeliveryRecord) :
    record.ifCurrent record.state update = update :=
  if_neg (not_not_intro rfl)

-- A retry changes neither the digest nor the expiry.
theorem retried_same (now : UInt64) (record : DeliveryRecord) (answer : Except RelayError String) :
    (record.retried now answer).digest = record.digest ∧
      (record.retried now answer).expiresAt = record.expiresAt := by
  cases answer
  case ok id => simp [retried, acceptRetry]
  case error error =>
    simp only [retried, ifCurrent_self]
    split
    case isTrue =>
      unfold markFailed
      split <;> exact ⟨rfl, rfl⟩
    case isFalse =>
      simp only [scheduleRetry]
      split
      case isTrue  => exact ⟨rfl, rfl⟩
      case isFalse => split <;> exact ⟨rfl, rfl⟩

theorem lt_saturatingAdd_iff (attempts : UInt8) : 5 < attempts.saturatingAdd 1 ↔ 5 ≤ attempts := by
  rw [UInt8.lt_iff_toNat_lt, UInt8.le_iff_toNat_le, UInt8.toNat_saturatingAdd]
  have := attempts.toNat_lt
  simp only [UInt8.reduceToNat]
  omega

theorem state_of_isRetry (h : record.isRetry now) :
    record.state = .retryable ∨ record.state = .queued := by
  simp only [isRetry, Bool.and_eq_true, Bool.or_eq_true, decide_eq_true_eq] at h
  exact h.left.left.left

-- What the answer makes of the state of a record that was due.
theorem retried_state (h : record.isRetry now) (answer : Except RelayError String) :
    record.IsEndedBy answer ∧ (record.retried now answer).state = .failed ∨
      ¬record.IsEndedBy answer ∧ ((record.retried now answer).state = .relayAccepted ∨
        (record.retried now answer).state = .retryable) := by
  have hs := state_of_isRetry h
  cases answer
  case ok => exact .inr ⟨not_false, .inl (by simp [retried, acceptRetry])⟩
  case error error =>
    simp only [retried, ifCurrent_self, IsEndedBy]
    by_cases he : error = .expired ∨ error = .invalidEndpoint ∨ error = .invalidResponse
    case pos =>
      have hf : record.state ≠ .failed := by obtain hs | hs := hs <;> simp [hs]
      refine .inl ⟨by tauto, ?_⟩
      rw [if_pos he, markFailed, if_neg hf]
    case neg =>
      have hn : record.state.isSettled = false := by
        obtain hs | hs := hs <;> simp [hs, DeliveryState.isSettled]
      simp only [if_neg he, scheduleRetry, hn, Bool.false_eq_true, if_false, lt_saturatingAdd_iff]
      by_cases ha : 5 ≤ record.attempts
      case pos => exact .inl ⟨by tauto, by rw [if_pos ha]⟩
      case neg => exact .inr ⟨by tauto, .inr (by rw [if_neg ha])⟩

theorem isOverdue_retried_iff (h : record.isRetry now) (answer : Except RelayError String) :
    (record.retried now answer).IsOverdue now ↔
      record.IsOverdue now ∧ ¬record.IsEndedBy answer := by
  have ho : record.IsOverdue now ↔ record.expiresAt.any (· ≤ now) := by
    refine and_iff_left ?_
    obtain hs | hs := state_of_isRetry h <;> simp [hs]
  rw [ho, IsOverdue, (retried_same now record answer).right]
  refine and_congr_right fun _ => ?_
  obtain ⟨he, hs⟩ | ⟨he, hs | hs⟩ := retried_state h answer <;> simp [he, hs]

end DeliveryRecord

namespace DeliveryLedger

variable {ledger : DeliveryLedger} {record : DeliveryRecord} {now : UInt64}

-- Every record is filed under its digest.
def IsKeyed (ledger : DeliveryLedger) : Prop :=
  ∀ key record, ledger.get key = some record → record.digest = key

-- No record is overdue.
def IsSettled (now : UInt64) (ledger : DeliveryLedger) : Prop :=
  ∀ key record, ledger.get key = some record → ¬record.IsOverdue now

theorem IsKeyed.withRecord (h : ledger.IsKeyed) {α : Type} {digest : String}
    {update : DeliveryRecord → Except EnvelopeError α × DeliveryRecord}
    (hu : ∀ record, (update record).snd.digest = record.digest) :
    (ledger.withRecord digest update).snd.IsKeyed := by
  intro key record hr
  cases hg : ledger.get digest
  case none =>
    rw [DeliveryLedger.withRecord, hg] at hr
    exact h key record hr
  case some old =>
    rw [get_withRecord hg] at hr
    split at hr
    case isTrue hk =>
      cases hr
      rw [hu, h digest old hg, hk]
    case isFalse => exact h key record hr

theorem IsKeyed.insertNew (h : ledger.IsKeyed) (record : DeliveryRecord) :
    (ledger.insertNew record).IsKeyed := by
  intro key r hr
  simp only [get, DeliveryLedger.insertNew, Std.ExtTreeMap.getElem?_insert,
    Std.LawfulEqCmp.compare_eq_iff_eq] at hr
  split at hr
  case isTrue hk => cases hr; exact hk
  case isFalse   => exact h key r hr

theorem isKeyed_of_restore {fromSlice : Bytes → Option (Std.ExtTreeMap String DeliveryRecord)}
    {store : EncryptedStore} (h : restore fromSlice store = .ok ledger) : ledger.IsKeyed := by
  unfold restore at h
  split at h
  case h_1 =>
    cases h
    intro key record hr
    simp [get, empty] at hr
  case h_2 =>
    split at h
    case h_1 => cases h
    case h_2 records _ =>
      split at h
      case isTrue => cases h
      case isFalse hv =>
        cases h
        intro key record hr
        have hv := (valid_iff.mpr hv).records key record hr
        simp only [DeliveryRecord.validPersistedRecord, Bool.and_eq_true, decide_eq_true_eq] at hv
        tauto

theorem IsKeyed.get_dueRetry (h : ledger.IsKeyed) (hm : record ∈ ledger.dueRetries now) :
    ledger.get record.digest = some record := by
  obtain ⟨⟨key, hk⟩, -⟩ := mem_dueRetries.mp hm
  rw [h key record hk, hk]

theorem IsKeyed.nodup_dueRetries (h : ledger.IsKeyed) (now : UInt64) :
    ((ledger.dueRetries now).map (·.digest)).Nodup := by
  have hd : ledger.records.toList.Pairwise _ := Std.ExtTreeMap.distinct_keys_toList
  have hm (e) (he : e ∈ ledger.records.toList) : e.snd.digest = e.fst :=
    h e.fst e.snd <| Std.ExtTreeMap.mem_toList_iff_getElem?_eq_some.mp he
  rw [dueRetries, List.filter_map, List.map_map, List.Nodup, List.pairwise_map]
  refine (List.Pairwise.and_mem.mp hd).filter _ |>.imp fun {e₁ e₂} hp he => hp.right.right ?_
  rw [← hm e₁ hp.left, ← hm e₂ hp.right.left]
  simpa using he

theorem expireDue_get (ledger : DeliveryLedger) (now : UInt64) (key : String) :
    (ledger.expireDue now).snd.get key = (ledger.get key).map (·.expireDue now) := by
  simp [expireDue, get]

theorem isSettled_expireDue (ledger : DeliveryLedger) (now : UInt64) :
    (ledger.expireDue now).snd.IsSettled now := by
  intro key record h
  rw [expireDue_get, Option.map_eq_some_iff] at h
  obtain ⟨old, -, rfl⟩ := h
  unfold DeliveryRecord.expireDue
  split
  case isTrue => exact fun ho => ho.right.left rfl
  case isFalse hd =>
    intro ho
    simp only [DeliveryRecord.isDue, Bool.and_eq_true, decide_eq_true_eq] at hd
    exact hd ⟨⟨ho.left, ho.right.right.left⟩, ho.right.right.right⟩

theorem IsKeyed.expireDue (h : ledger.IsKeyed) (now : UInt64) :
    (ledger.expireDue now).snd.IsKeyed := by
  intro key record hr
  rw [expireDue_get, Option.map_eq_some_iff] at hr
  obtain ⟨old, ho, rfl⟩ := hr
  rw [← h key old ho, DeliveryRecord.expireDue]
  split <;> rfl

theorem expireDue_pos_iff : (ledger.expireDue now).fst > 0 ↔
    ∃ key record, ledger.get key = some record ∧ record.isDue now := by
  simp [expireDue, List.countP_pos_iff, Std.ExtTreeMap.mem_toList_iff_getElem?_eq_some, get]

-- Where nothing is due, nothing is marked.
theorem expireDue_eq_self (h : (ledger.expireDue now).fst = 0) :
    (ledger.expireDue now).snd = ledger := by
  have hn (key : String) (record : DeliveryRecord) (hr : ledger.records[key]? = some record) :
      record.isDue now = false := by
    have hc := List.countP_eq_zero.mp h (key, record) <|
      Std.ExtTreeMap.mem_toList_iff_getElem?_eq_some.mpr hr
    simpa using hc
  refine congrArg DeliveryLedger.mk <| Std.ExtTreeMap.ext_getElem? fun key => ?_
  rw [Std.ExtTreeMap.getElem?_map]
  cases hr : ledger.records[key]?
  case none        => rfl
  case some record => simp [DeliveryRecord.expireDue, hn key record hr]

end DeliveryLedger

namespace Daemon

variable {σ : Type} {services : Services σ} {read : Bytes → Option StoredMessage}
  {relayTlsPin : Option (ByteBlock 32)} {now : UInt64} {d d' : Daemon σ}

-- No message that has expired is left.
def MessagesGone (read : Bytes → Option StoredMessage) (now : UInt64) (store : DurableStore) : Prop :=
  ∀ key bytes message, MessageQuery.messagePrefix.toList.isPrefixOf key.toList →
    store.get .message key = some bytes → read bytes = some message → ¬message.isExpired now

-- No record of the stored ledger is overdue.
def StoredSettled (services : Services σ) (now : UInt64) (store : DurableStore) : Prop :=
  ∀ bytes records,
    store.get DeliveryLedger.ledgerKey.fst DeliveryLedger.ledgerKey.snd = some bytes →
    services.readLedger bytes = some records → (DeliveryLedger.mk records).IsSettled now

-- The store holds the ledger.
def Holds (d : Daemon σ) : Prop :=
  d.store.get DeliveryLedger.ledgerKey.fst DeliveryLedger.ledgerKey.snd = some d.ledger.encodedBytes

-- The stored messages are the same.
def SameMessages (d d' : Daemon σ) : Prop :=
  ∀ key, d'.store.get .message key = d.store.get .message key

theorem SameMessages.gone_iff (h : SameMessages d d') :
    MessagesGone read now d'.store ↔ MessagesGone read now d.store := by
  simp only [MessagesGone, h _]

theorem persisted_ok (h : ∀ result ∈ d.persisted.fst, result = .ok ()) :
    d.persisted.snd.ledger = d.ledger ∧ d.persisted.snd.Holds ∧ SameMessages d d.persisted.snd := by
  have hp : d.store.put DeliveryLedger.ledgerKey.fst DeliveryLedger.ledgerKey.snd
      d.ledger.encodedBytes = (.ok (), d.persisted.snd.store) :=
    Prod.ext (h _ (List.mem_singleton_self _)) rfl
  have hne (key : String) : DeliveryLedger.ledgerKey ≠ (.message, key) := by
    simp [DeliveryLedger.ledgerKey]
  exact ⟨rfl, DurableStore.get_put hp, fun key => DurableStore.get_put_of_ne (hne key)⟩

-- The end of a pairing changes no delivery and no message.
theorem invalidateRelayBinding_frame (d : Daemon σ) :
    d.invalidateRelayBinding.snd.ledger = d.ledger ∧
      ∀ cls key, cls ≠ .contact →
        d.invalidateRelayBinding.snd.store.get cls key = d.store.get cls key := by
  unfold invalidateRelayBinding changePairing
  rcases d.authority.pairing.invalidateBinding with ⟨_ | _, pairing⟩
  case error => exact ⟨rfl, fun _ _ _ => rfl⟩
  case ok =>
    simp only [write_snd]
    refine ⟨rfl, fun cls key hc => DurableStore.get_put_of_ne fun he => hc ?_⟩
    exact (congrArg Prod.fst he).symm

-- One turn of the loop over the retries.
theorem finishDueRetry_ok {record : DeliveryRecord} {answer : Except RelayError String}
    (hg : d.ledger.get record.digest = some record)
    (hw : ∀ result ∈ (d.finishDueRetry now record answer).fst, result = .ok ()) :
    (∀ key, (d.finishDueRetry now record answer).snd.snd.ledger.get key =
      if record.digest = key then some (record.retried now answer) else d.ledger.get key) ∧
    (d.finishDueRetry now record answer).snd.snd.Holds ∧
    SameMessages d (d.finishDueRetry now record answer).snd.snd := by
  cases answer
  case ok id =>
    have ha : d.ledger.acceptRetry record.digest record.state id =
        (.ok true, (d.ledger.acceptRetry record.digest record.state id).snd) := by
      simp [DeliveryLedger.acceptRetry, DeliveryLedger.withRecord, hg, DeliveryRecord.acceptRetry]
    simp only [finishDueRetry] at hw ⊢
    rw [ha] at hw ⊢
    obtain ⟨hl, hh, hm⟩ := persisted_ok hw
    exact ⟨fun key => DeliveryLedger.get_withRecord hg key, hh, hm⟩
  case error error =>
    simp only [finishDueRetry, DeliveryRecord.retried] at hw ⊢
    by_cases he : error = .expired
    case pos =>
      obtain ⟨hi, hs⟩ := d.invalidateRelayBinding_frame
      rw [if_pos he] at hw ⊢
      rw [if_pos (.inl he), ← hi]
      obtain ⟨hl, hh, hm⟩ := persisted_ok hw
      exact ⟨fun key => DeliveryLedger.get_withRecord (hi ▸ hg) key, hh,
        fun key => (hm key).trans (hs .message key (by decide))⟩
    case neg =>
      rw [if_neg he] at hw ⊢
      by_cases he' : error = .invalidEndpoint ∨ error = .invalidResponse
      case pos =>
        rw [if_pos he'] at hw ⊢
        rw [if_pos (.inr he')]
        obtain ⟨hl, hh, hm⟩ := persisted_ok hw
        exact ⟨fun key => DeliveryLedger.get_withRecord hg key, hh, hm⟩
      case neg =>
        rw [if_neg he'] at hw ⊢
        rw [if_neg (not_or.mpr ⟨he, he'⟩)]
        obtain ⟨hl, hh, hm⟩ := persisted_ok hw
        exact ⟨fun key => DeliveryLedger.get_withRecord hg key, hh, hm⟩

-- The loop, for records that are in the ledger under their digests.
theorem retryEach_ok {post : RelayEndpoint → RelayEnvelope → Except RelayError String}
    {records : List DeliveryRecord} (hn : (records.map (·.digest)).Nodup)
    (hg : ∀ record ∈ records, d.ledger.get record.digest = some record)
    (hw : ∀ result ∈ (retryEach services relayTlsPin now post d records).fst, result = .ok ()) :
    (∀ record ∈ records,
      (retryEach services relayTlsPin now post d records).snd.ledger.get record.digest =
        some (record.retried now (retryResult services relayTlsPin now post record))) ∧
    (∀ key, key ∉ records.map (·.digest) →
      (retryEach services relayTlsPin now post d records).snd.ledger.get key = d.ledger.get key) ∧
    (records ≠ [] → (retryEach services relayTlsPin now post d records).snd.Holds) ∧
    SameMessages d (retryEach services relayTlsPin now post d records).snd := by
  induction records generalizing d
  case nil => exact ⟨by simp, fun _ _ => rfl, fun h => absurd rfl h, fun _ => rfl⟩
  case cons record records hi =>
    obtain ⟨hnr, hns⟩ := List.nodup_cons.mp hn
    obtain ⟨hgr, hgs⟩ := List.forall_mem_cons.mp hg
    simp only [retryEach] at hw ⊢
    obtain ⟨hwr, hws⟩ := List.forall_mem_append.mp hw
    obtain ⟨hl, hh, hm⟩ := finishDueRetry_ok hgr hwr
    have hgs' (r : DeliveryRecord) (hr : r ∈ records) :
        (d.finishDueRetry now record
          (retryResult services relayTlsPin now post record)).snd.snd.ledger.get r.digest =
            some r := by
      rw [hl, if_neg, hgs r hr]
      exact fun he => hnr <| List.mem_map.mpr ⟨r, hr, he.symm⟩
    obtain ⟨hrs, hother, hholds, hsame⟩ := hi hns hgs' hws
    refine ⟨List.forall_mem_cons.mpr ⟨?_, hrs⟩, fun key hk => ?_, fun _ => ?_,
      fun key => (hsame key).trans (hm key)⟩
    case refine_1 => rw [hother _ hnr, hl, if_pos rfl]
    case refine_2 =>
      obtain ⟨hkr, hks⟩ := not_or.mp <| mt List.mem_cons.mpr hk
      rw [hother _ hks, hl, if_neg (Ne.symm hkr)]
    case refine_3 =>
      cases records
      case nil  => exact hh
      case cons => exact hholds (List.cons_ne_nil _ _)

-- The records that a tick retries.
def nextRetries (now : UInt64) (d : Daemon σ) : List DeliveryRecord :=
  (d.ledger.dueRetries now).take maxAutomaticRetriesPerTick

theorem isRetry_of_mem_nextRetries {record : DeliveryRecord} (h : record ∈ d.nextRetries now) :
    record.isRetry now :=
  (DeliveryLedger.mem_dueRetries.mp <| List.mem_of_mem_take h).right

theorem nextRetries_eq_nil : d.nextRetries now = [] ↔ d.ledger.dueRetries now = [] := by
  simp [nextRetries, maxAutomaticRetriesPerTick]

section

variable {post : RelayEndpoint → RelayEnvelope → Except RelayError String} (hk : d.ledger.IsKeyed)

include hk

theorem get_nextRetry {record : DeliveryRecord} (h : record ∈ d.nextRetries now) :
    d.ledger.get record.digest = some record :=
  hk.get_dueRetry <| List.mem_of_mem_take h

theorem nodup_nextRetries (now : UInt64) : ((d.nextRetries now).map (·.digest)).Nodup :=
  (hk.nodup_dueRetries now).sublist <| (List.take_sublist _ _).map _

variable (hw : ∀ result ∈ (d.retryDue services relayTlsPin now post).fst, result = .ok ())

include hw

-- The retries of a tick leave an overdue record behind unless they end it.
theorem isSettled_retryDue_iff :
    (d.retryDue services relayTlsPin now post).snd.ledger.IsSettled now ↔
      ∀ key record, d.ledger.get key = some record → record.IsOverdue now →
        record ∈ d.nextRetries now ∧
          record.IsEndedBy (retryResult services relayTlsPin now post record) := by
  obtain ⟨hrs, hother, -⟩ :=
    retryEach_ok (nodup_nextRetries hk now) (fun _ => get_nextRetry hk) hw
  constructor
  case mp =>
    intro h key record hr ho
    by_cases hm : record ∈ d.nextRetries now
    case pos =>
      refine ⟨hm, by_contra fun hne => h _ _ (hrs record hm) ?_⟩
      exact (DeliveryRecord.isOverdue_retried_iff (isRetry_of_mem_nextRetries hm) _).mpr ⟨ho, hne⟩
    case neg =>
      refine absurd ho <| h key record ?_
      rw [← hr]
      refine hother key fun hc => hm ?_
      obtain ⟨r, hr', rfl⟩ := List.mem_map.mp hc
      cases (get_nextRetry hk hr').symm.trans hr
      exact hr'
  case mpr =>
    intro h key record hr ho
    by_cases hm : key ∈ (d.nextRetries now).map (·.digest)
    case pos =>
      obtain ⟨r, hr', rfl⟩ := List.mem_map.mp hm
      cases (hrs r hr').symm.trans hr
      obtain ⟨ho, hne⟩ :=
        (DeliveryRecord.isOverdue_retried_iff (isRetry_of_mem_nextRetries hr') _).mp ho
      exact hne (h _ r (get_nextRetry hk hr') ho).right
    case neg =>
      have hr := (hother key hm).symm.trans hr
      exact hm <| List.mem_map.mpr ⟨record, (h key record hr ho).left, hk key record hr⟩

theorem sameMessages_retryDue : SameMessages d (d.retryDue services relayTlsPin now post).snd :=
  (retryEach_ok (nodup_nextRetries hk now) (fun _ => get_nextRetry hk) hw).right.right.right

theorem holds_retryDue (h : d.ledger.dueRetries now ≠ []) :
    (d.retryDue services relayTlsPin now post).snd.Holds :=
  (retryEach_ok (nodup_nextRetries hk now) (fun _ => get_nextRetry hk) hw).right.right.left <|
    mt nextRetries_eq_nil.mp h

end

theorem retryDue_of_none {post : RelayEndpoint → RelayEnvelope → Except RelayError String}
    (h : d.ledger.dueRetries now = []) : d.retryDue services relayTlsPin now post = ([], d) := by
  simp [retryDue, h, retryEach]

theorem deleteMessages_ok {store : DurableStore} {keys : List String}
    (h : ∀ result ∈ (deleteMessages store keys).fst, result = .ok ()) :
    (deleteMessages store keys).snd.records =
        OrderedMap.eraseAll store.records (keys.map (RecordClass.message, ·)) ∧
      (deleteMessages store keys).snd.store.locked = store.store.locked := by
  induction keys generalizing store
  case nil => exact ⟨rfl, rfl⟩
  case cons key keys hi =>
    simp only [deleteMessages] at h ⊢
    obtain ⟨hr, hrs⟩ := List.forall_mem_cons.mp h
    rcases hd : store.delete .message key with ⟨_ | found, store'⟩ <;> rw [hd] at hr hrs
    case error => cases hr
    case ok =>
      obtain ⟨he, -, hl, hl'⟩ := DurableStore.delete_ok hd
      obtain ⟨hrec, hlock⟩ := hi hrs
      exact ⟨by rw [hrec, he]; rfl, by rw [hlock, hl, hl']⟩

-- The entry of a message that has expired.
def IsExpiredEntry (read : Bytes → Option StoredMessage) (now : UInt64) (entry : String × Bytes) :
    Prop :=
  ∃ message, read entry.snd = some message ∧ message.isExpired now

theorem mem_expiredMessages {store : DurableStore} {key : String} :
    key ∈ expiredMessages read now store ↔ ∃ bytes,
      (key, bytes) ∈ (MessageQuery.entries store).take maxRecords ∧
        IsExpiredEntry read now (key, bytes) := by
  simp only [expiredMessages, DurableStore.recordsWithPrefix_eq_take, List.mem_filterMap,
    Prod.exists, Option.map_eq_some_iff, Option.filter_eq_some_iff, MessageQuery.entries,
    IsExpiredEntry]
  constructor
  case mp =>
    rintro ⟨key', bytes, hm, message, hr, rfl⟩
    exact ⟨bytes, hm, message, hr⟩
  case mpr =>
    rintro ⟨bytes, hm, message, hr⟩
    exact ⟨key, bytes, hm, message, hr, rfl⟩

theorem messagesGone_iff {store : DurableStore} : MessagesGone read now store ↔
    ∀ entry ∈ MessageQuery.entries store, ¬IsExpiredEntry read now entry := by
  constructor
  case mp =>
    rintro h ⟨key, bytes⟩ hm ⟨message, hr, he⟩
    obtain ⟨hp, hg⟩ := DurableStore.mem_entriesWithPrefix.mp hm
    exact h key bytes message hp hg hr he
  case mpr =>
    intro h key bytes message hp hg hr he
    exact h (key, bytes) (DurableStore.mem_entriesWithPrefix.mpr ⟨hp, hg⟩) ⟨message, hr, he⟩

section

variable {store : DurableStore}
  (hw : ∀ result ∈ (deleteMessages store (expiredMessages read now store)).fst, result = .ok ())

include hw

theorem get_deleteMessages (cls : RecordClass) (key : String) :
    (deleteMessages store (expiredMessages read now store)).snd.get cls key =
      if cls = .message ∧ key ∈ expiredMessages read now store then none else store.get cls key := by
  obtain ⟨hr, hl⟩ := deleteMessages_ok hw
  have hm : (cls, key) ∈ (expiredMessages read now store).map (RecordClass.message, ·) ↔
      cls = .message ∧ key ∈ expiredMessages read now store := by
    simp [and_comm, @eq_comm _ cls]
  simp only [DurableStore.get, EncryptedStore.get, hl,
    show (deleteMessages store (expiredMessages read now store)).snd.store.records = _ from hr,
    OrderedMap.getElem?_eraseAll, hm, DurableStore.records]
  split <;> simp

-- All but the first records of the class are out of reach of a tick.
theorem messagesGone_deleteMessages_iff :
    MessagesGone read now (deleteMessages store (expiredMessages read now store)).snd ↔
      ∀ entry ∈ (MessageQuery.entries store).drop maxRecords, ¬IsExpiredEntry read now entry := by
  have hn := store.nodup_entriesWithPrefix .message MessageQuery.messagePrefix
  rw [← MessageQuery.entries, ← List.take_append_drop maxRecords (MessageQuery.entries store),
    List.map_append, List.nodup_append] at hn
  rw [messagesGone_iff]
  constructor
  case mp =>
    rintro h ⟨key, bytes⟩ hm he
    refine h (key, bytes) (DurableStore.mem_entriesWithPrefix.mpr ?_) he
    obtain ⟨hp, hg⟩ := DurableStore.mem_entriesWithPrefix.mp (List.mem_of_mem_drop hm)
    refine ⟨hp, ?_⟩
    rw [get_deleteMessages hw, if_neg, hg]
    rintro ⟨-, hk⟩
    obtain ⟨bytes', hm', -⟩ := mem_expiredMessages.mp hk
    exact hn.right.right key (List.mem_map.mpr ⟨_, hm', rfl⟩) key (List.mem_map.mpr ⟨_, hm, rfl⟩) rfl
  case mpr =>
    rintro h ⟨key, bytes⟩ hm he
    obtain ⟨hp, hg⟩ := DurableStore.mem_entriesWithPrefix.mp hm
    rw [get_deleteMessages hw] at hg
    split at hg
    case isTrue => cases hg
    case isFalse hk =>
      have hm : (key, bytes) ∈ MessageQuery.entries store :=
        DurableStore.mem_entriesWithPrefix.mpr ⟨hp, hg⟩
      rw [← List.take_append_drop maxRecords (MessageQuery.entries store), List.mem_append] at hm
      cases hm
      case inl hm => exact hk ⟨rfl, mem_expiredMessages.mpr ⟨bytes, hm, he⟩⟩
      case inr hm => exact h _ hm he

end

theorem expire_ok (hw : ∀ result ∈ (d.expire read now).fst, result = .ok ()) :
    (d.expire read now).snd.ledger = (d.ledger.expireDue now).snd ∧
    (MessagesGone read now (d.expire read now).snd.store ↔
      ∀ entry ∈ (MessageQuery.entries d.store).drop maxRecords, ¬IsExpiredEntry read now entry) ∧
    ((d.ledger.expireDue now).fst > 0 → (d.expire read now).snd.Holds) ∧
    ((d.ledger.expireDue now).fst = 0 →
      ∀ key, (d.expire read now).snd.store.get .outbox key = d.store.get .outbox key) := by
  simp only [expire] at hw ⊢
  by_cases he : (d.ledger.expireDue now).fst > 0
  case pos =>
    simp only [if_pos he] at hw ⊢
    obtain ⟨hd, hp⟩ := List.forall_mem_append.mp hw
    obtain ⟨hl, hh, hm⟩ := persisted_ok hp
    refine ⟨hl, ?_, fun _ => hh, fun h => absurd he (by omega)⟩
    rw [hm.gone_iff, messagesGone_deleteMessages_iff hd]
  case neg =>
    simp only [if_neg he] at hw ⊢
    refine ⟨trivial, messagesGone_deleteMessages_iff hw, fun h => absurd h he, fun _ key => ?_⟩
    rw [get_deleteMessages hw, if_neg]
    simp

theorem markReceived_isKeyed {ledger : DeliveryLedger} (h : ledger.IsKeyed)
    (digest relayId : String) : (markReceived ledger digest relayId).snd.IsKeyed := by
  have hr : (ledger.registerRecipientReceived digest relayId).snd.IsKeyed := by
    unfold DeliveryLedger.registerRecipientReceived
    split_ifs
    case pos => exact h
    case pos => exact h
    case neg => exact h.insertNew _
  have hm {ledger : DeliveryLedger} (h : ledger.IsKeyed) :
      (ledger.markDecrypted digest).snd.IsKeyed := by
    refine h.withRecord fun record => ?_
    unfold DeliveryRecord.markDecrypted
    split_ifs <;> rfl
  unfold markReceived
  rcases hx : ledger.registerRecipientReceived digest relayId with ⟨_ | _, registered⟩ <;>
    simp only [hx] at hr ⊢
  case error => exact hr
  case ok =>
    have hm := hm hr
    rcases hy : registered.markDecrypted digest with ⟨_ | _, decrypted⟩ <;> simp only [hy] at hm ⊢ <;>
      exact hm

theorem restoreStaged_isKeyed (h : d.ledger.IsKeyed) :
    (d.restoreStaged services).ledger.IsKeyed := by
  simp only [restoreStaged]
  cases hr : DeliveryLedger.restore services.readLedger d.store.store
  case error => exact h
  case ok    => exact DeliveryLedger.isKeyed_of_restore hr

section

variable {capability : String} {items : List RelayItem} {allowed : String → Prop}

theorem Stores.isKeyed {conversationId relayId digest : String} {staged : Staged}
    {poisons ok : Bool}
    (h : Stores services conversationId relayId digest staged poisons d ok d')
    (hk : d.ledger.IsKeyed) : d'.ledger.IsKeyed := by
  have hm := markReceived_isKeyed hk digest relayId
  cases h
  case unsaved               => cases poisons <;> exact hk
  case unmarked hx           => rw [hx] at hm; cases poisons <;> exact hm
  case refused hx _          => rw [hx] at hm; exact restoreStaged_isKeyed hm
  case accepted hx _         => rw [hx] at hm; exact hm

theorem Receives.isKeyed (h : Receives services capability now items allowed d d')
    (hk : d.ledger.IsKeyed) : d'.ledger.IsKeyed := by
  induction h
  case refl => exact hk
  case tail hs hi =>
    cases hs
    case tried         => exact hi
    case persisted hp  => cases hp; exact hi
    case opened hst    => exact hst.isKeyed hi

-- The ledger is written when all items were taken in.
theorem holds_processInboxItems
    (h : (d.processInboxItems services now capability items).fst.isOk) :
    (d.processInboxItems services now capability items).snd.Holds := by
  unfold processInboxItems at h ⊢
  rcases hx : inboxItems services now capability d.catalog.conversationIds d items with
    ⟨_ | _, d₁⟩ <;> simp only [hx] at h ⊢
  case error => cases h
  case ok =>
    rcases hy : d₁.persistLedger with ⟨_ | _, d₂⟩ <;> simp only [hy] at h ⊢
    case error => cases h
    case ok =>
      have hp : ∀ result ∈ d₁.persisted.fst, result = .ok () :=
        List.forall_mem_singleton.mpr (congrArg Prod.fst hy)
      obtain rfl : d₁.persisted.snd = d₂ := congrArg Prod.snd hy
      exact (persisted_ok hp).right.left

end

theorem StoredSettled.congr_get {store store' : DurableStore}
    (h : ∀ key, store'.get .outbox key = store.get .outbox key) :
    StoredSettled services now store' ↔ StoredSettled services now store := by
  simp only [StoredSettled, DeliveryLedger.ledgerKey, h]

-- A ledger that the store holds is read back.
theorem Holds.storedSettled_iff (h : d.Holds)
    (round : services.readLedger d.ledger.encodedBytes = some d.ledger.records) :
    StoredSettled services now d.store ↔ d.ledger.IsSettled now := by
  constructor
  case mp => exact fun hs => hs _ _ h round
  case mpr =>
    intro hs bytes records hb hr
    cases hb.symm.trans h
    cases hr.symm.trans round
    exact hs

-- Nothing that has expired is left, in memory and in the store.
structure LeavesNothing (services : Services σ) (read : Bytes → Option StoredMessage)
    (now : UInt64) (d : Daemon σ) : Prop where
  messages : MessagesGone read now d.store
  ledger   : d.ledger.IsSettled now
  stored   : StoredSettled services now d.store

-- When a tick that got no items finishes what has expired: there are no messages, and the retries
-- end all deliveries.
def SettlesByRetries (services : Services σ) (read : Bytes → Option StoredMessage)
    (relayTlsPin : Option (ByteBlock 32)) (now : UInt64)
    (post : RelayEndpoint → RelayEnvelope → Except RelayError String) (d : Daemon σ) : Prop :=
  MessagesGone read now d.store ∧
  (∀ key record, d.ledger.get key = some record → record.IsOverdue now →
    record ∈ d.nextRetries now ∧
      record.IsEndedBy (retryResult services relayTlsPin now post record)) ∧
  (d.ledger.dueRetries now ≠ [] ∨ StoredSettled services now d.store)

-- When a tick that took in the items of the inbox does, and how taking them in ended: no expired
-- message is out of its reach, and it has a reason to write the ledger or need not write it.
def SettlesByExpiry (services : Services σ) (read : Bytes → Option StoredMessage) (now : UInt64)
    (d : Daemon σ) (ok : Bool) : Prop :=
  (∀ entry ∈ (MessageQuery.entries d.store).drop maxRecords, ¬IsExpiredEntry read now entry) ∧
  (ok ∨ (∃ key record, d.ledger.get key = some record ∧ record.isDue now) ∨
    d.ledger.dueRetries now ≠ [] ∨ StoredSettled services now d.store)

theorem leavesNothing_retryDue_iff
    {post : RelayEndpoint → RelayEnvelope → Except RelayError String} (hk : d.ledger.IsKeyed)
    (hw : ∀ result ∈ (d.retryDue services relayTlsPin now post).fst, result = .ok ())
    (round : services.readLedger
      (d.retryDue services relayTlsPin now post).snd.ledger.encodedBytes =
        some (d.retryDue services relayTlsPin now post).snd.ledger.records) :
    (d.retryDue services relayTlsPin now post).snd.LeavesNothing services read now ↔
      d.SettlesByRetries services read relayTlsPin now post := by
  have hm : MessagesGone read now _ ↔ MessagesGone read now d.store :=
    (sameMessages_retryDue hk hw).gone_iff
  have hl := isSettled_retryDue_iff hk hw
  by_cases hd : d.ledger.dueRetries now = []
  case neg =>
    have hs : StoredSettled services now _ ↔ _ := (holds_retryDue hk hw hd).storedSettled_iff round
    exact ⟨fun h => ⟨hm.mp h.messages, hl.mp h.ledger, .inl hd⟩,
      fun h => ⟨hm.mpr h.left, hl.mpr h.right.left, hs.mpr (hl.mpr h.right.left)⟩⟩
  case pos =>
    have hr : d.retryDue services relayTlsPin now post = ([], d) := retryDue_of_none hd
    rw [hr] at hm hl ⊢
    exact ⟨fun h => ⟨h.messages, hl.mp h.ledger, .inr h.stored⟩,
      fun h => ⟨h.left, hl.mpr h.right.left, h.right.right.resolve_left (not_not_intro hd)⟩⟩

-- For a daemon that has taken in the items of the inbox; it holds its ledger when that went well.
theorem leavesNothing_expire_iff
    {post : RelayEndpoint → RelayEnvelope → Except RelayError String} {ok : Bool}
    (hk : d.ledger.IsKeyed) (hok : ok → d.Holds)
    (he : ∀ result ∈ (d.expire read now).fst, result = .ok ())
    (hw : ∀ result ∈ ((d.expire read now).snd.retryDue services relayTlsPin now post).fst,
      result = .ok ())
    (round : services.readLedger
      ((d.expire read now).snd.retryDue services relayTlsPin now post).snd.ledger.encodedBytes =
        some ((d.expire read now).snd.retryDue services relayTlsPin now post).snd.ledger.records) :
    ((d.expire read now).snd.retryDue services relayTlsPin now post).snd.LeavesNothing services
        read now ↔
      d.SettlesByExpiry services read now ok := by
  obtain ⟨hl, hm, hh, hs⟩ := expire_ok he
  have hset : (d.expire read now).snd.ledger.IsSettled now :=
    hl ▸ d.ledger.isSettled_expireDue now
  -- Where no retry is due the ledger that is read back is the one that was marked.
  have hround (hd : (d.expire read now).snd.ledger.dueRetries now = []) :
      services.readLedger (d.expire read now).snd.ledger.encodedBytes =
        some (d.expire read now).snd.ledger.records := by
    rwa [retryDue_of_none hd] at round
  rw [leavesNothing_retryDue_iff (hl ▸ hk.expireDue now) hw round]
  refine and_congr hm ((and_iff_right fun key record hr ho => absurd ho (hset key record hr)).trans ?_)
  by_cases hx : (d.ledger.expireDue now).fst > 0
  case pos =>
    refine iff_of_true ?_ (.inr <| .inl <| DeliveryLedger.expireDue_pos_iff.mp hx)
    by_cases hd : (d.expire read now).snd.ledger.dueRetries now = []
    case pos => exact .inr <| ((hh hx).storedSettled_iff (hround hd)).mpr hset
    case neg => exact .inl hd
  case neg =>
    have hx0 : (d.ledger.expireDue now).fst = 0 := by omega
    have hl : (d.expire read now).snd.ledger = d.ledger :=
      hl.trans (DeliveryLedger.expireDue_eq_self hx0)
    rw [hl] at hround hset ⊢
    rw [StoredSettled.congr_get (hs hx0), ← DeliveryLedger.expireDue_pos_iff]
    constructor
    case mp => exact fun h => .inr (.inr h)
    case mpr =>
      rintro (h | h | h)
      case inl =>
        by_cases hd : d.ledger.dueRetries now = []
        case pos => exact .inr <| ((hok h).storedSettled_iff (hround hd)).mpr hset
        case neg => exact .inl hd
      case inr.inl => exact absurd h hx
      case inr.inr => exact h

theorem settlesByRetries_invalidateRelayBinding_iff
    {post : RelayEndpoint → RelayEnvelope → Except RelayError String} :
    d.invalidateRelayBinding.snd.SettlesByRetries services read relayTlsPin now post ↔
      d.SettlesByRetries services read relayTlsPin now post := by
  obtain ⟨hl, hs⟩ := d.invalidateRelayBinding_frame
  have hm : SameMessages d d.invalidateRelayBinding.snd := fun key => hs .message key (by decide)
  rw [SettlesByRetries, SettlesByRetries, hm.gone_iff, nextRetries, nextRetries, hl,
    StoredSettled.congr_get fun key => hs .outbox key (by decide)]

-- When a tick leaves nothing behind.
def Settles (services : Services σ) (read : Bytes → Option StoredMessage)
    (relayTlsPin : Option (ByteBlock 32)) (now : UInt64) (answers : TickAnswers) (d : Daemon σ) :
    Prop :=
  match d.fetched relayTlsPin answers with
  | .ok (some (capability, items)) =>
    (d.processInboxItems services now capability items).snd.SettlesByExpiry services read now
      (d.processInboxItems services now capability items).fst.isOk
  | _                              =>
    d.SettlesByRetries services read relayTlsPin now answers.post

-- The writes of the tick went well, and `serde_json` reads back the ledger that the tick ends with.
theorem leavesNothing_iff (services : Services σ) (read : Bytes → Option StoredMessage)
    (relayTlsPin : Option (ByteBlock 32)) (now : UInt64) (answers : TickAnswers) (d : Daemon σ)
    (keyed : d.ledger.IsKeyed)
    (written : ∀ result ∈ (d.runMaintenanceTick services read relayTlsPin now answers).fst,
      result = .ok ())
    (round : services.readLedger
      (d.runMaintenanceTick services read relayTlsPin now answers).snd.snd.ledger.encodedBytes =
        some (d.runMaintenanceTick services read relayTlsPin now answers).snd.snd.ledger.records) :
    (d.runMaintenanceTick services read relayTlsPin now answers).snd.snd.LeavesNothing services
        read now ↔
      d.Settles services read relayTlsPin now answers := by
  simp only [runMaintenanceTick, Settles] at written round ⊢
  rcases hf : d.fetched relayTlsPin answers with error | _ | ⟨capability, items⟩ <;>
    simp only [hf] at written round ⊢
  case error =>
    by_cases he : error = .expired
    case pos =>
      have hl := d.invalidateRelayBinding_frame.left
      simp only [if_pos he] at written round ⊢
      rw [leavesNothing_retryDue_iff (hl ▸ keyed) written round,
        settlesByRetries_invalidateRelayBinding_iff]
    case neg =>
      simp only [if_neg he] at written round ⊢
      exact leavesNothing_retryDue_iff keyed written round
  case ok.none => exact leavesNothing_retryDue_iff keyed written round
  case ok.some =>
    have hk : (d.processInboxItems services now capability items).snd.ledger.IsKeyed :=
      (processInboxItems_receives items).isKeyed keyed
    have hh : (d.processInboxItems services now capability items).fst.isOk →
        (d.processInboxItems services now capability items).snd.Holds :=
      holds_processInboxItems
    simp only [takeIn] at written round ⊢
    generalize d.processInboxItems services now capability items = received at *
    obtain ⟨he, hw⟩ := List.forall_mem_append.mp written
    exact leavesNothing_expire_iff hk hh he hw round

-- A library that is not asked anything.
def sampleMls : Mls Unit where
  new                := fun _ => .error .openMls
  createGroup        := fun _ => .error .openMls
  keyPackage         := fun _ => .error .openMls
  addMembers         := fun _ _ => .error .openMls
  members            := fun _ => none
  removeMembers      := fun _ _ => (none, ())
  mergePendingCommit := fun _ => (none, ())
  joinWelcome        := fun _ _ => .error .openMls
  createMessage      := fun _ _ => .error .openMls
  process            := fun _ _ => .error .openMls
  snapshot           := fun _ => .error .openMls
  restore            := fun _ => .error .openMls

def sampleServices : Services Unit where
  mls            := sampleMls
  sha256         := sampleSha256
  readWire       := fun _ => none
  readMessage    := fun _ => none
  readDescriptor := fun _ => none
  readLedger     := DeliveryLedger.readerOf [.empty]
  readDirectory  := fun _ => none
  readPairing    := fun _ => none

-- A daemon with a message that has expired, and one that has not.
def sampleWithMessages (inboxUrl : Option String) : Daemon Unit :=
  let d := sample []
  { d with
    authority := { d.authority with inboxUrl }
    store     := MessageQuery.sampleStore }

-- Relays without any items.
def sampleAnswers : TickAnswers where
  sync := fun _ => .ok []
  post := fun _ _ => .error .connect

def sampleTick (inboxUrl : Option String) :
    List (Except StorageError Unit) × Nat × Daemon Unit :=
  (sampleWithMessages inboxUrl).runMaintenanceTick sampleServices MessageQuery.sampleRead none
    1700000100 sampleAnswers

theorem sampleWithMessages_isKeyed (inboxUrl : Option String) :
    (sampleWithMessages inboxUrl).ledger.IsKeyed := by
  intro key record hr
  simp [sampleWithMessages, sample, DeliveryLedger.empty, DeliveryLedger.get] at hr

-- Without an inbox the expired message stays.
theorem sampleTick_not_leavesNothing :
    (∀ result ∈ (sampleTick none).fst, result = .ok ()) ∧
      ¬(sampleTick none).snd.snd.LeavesNothing sampleServices MessageQuery.sampleRead
        1700000100 := by
  let key := "messages/07df01118a02dc5ad978fab6c949019eff434d680127e0189e206a285b9a9f79"
  let message := MessageQuery.sampleExpired
  obtain ⟨hw, hkey, hget, hread, he⟩ : (∀ result ∈ (sampleTick none).fst, result = .ok ()) ∧
      MessageQuery.messagePrefix.toList.isPrefixOf key.toList ∧
      (sampleTick none).snd.snd.store.get .message key = some message.encoded ∧
      MessageQuery.sampleRead message.encoded = some message ∧ message.isExpired 1700000100 := by
    decide +kernel
  exact ⟨hw, fun h => h.messages key message.encoded message hkey hget hread he⟩

def sampleInboxUrl : String :=
  "http://127.0.0.1:8787/api/v1/inbox/" ++ .ofList (List.replicate 43 'o')

-- With an inbox it goes.
theorem sampleTick_leavesNothing_iff :
    (∀ result ∈ (sampleTick sampleInboxUrl).fst, result = .ok ()) ∧
    ((sampleTick sampleInboxUrl).snd.snd.LeavesNothing sampleServices MessageQuery.sampleRead
        1700000100 ↔
      (sampleWithMessages sampleInboxUrl).Settles sampleServices MessageQuery.sampleRead none
        1700000100 sampleAnswers) := by
  obtain ⟨hw, hr⟩ : (∀ result ∈ (sampleTick sampleInboxUrl).fst, result = .ok ()) ∧
      sampleServices.readLedger (sampleTick sampleInboxUrl).snd.snd.ledger.encodedBytes =
        some (sampleTick sampleInboxUrl).snd.snd.ledger.records := by
    decide +kernel
  refine ⟨hw, ?_⟩
  unfold sampleTick at hw hr ⊢
  exact leavesNothing_iff sampleServices MessageQuery.sampleRead none 1700000100 sampleAnswers
    (sampleWithMessages sampleInboxUrl) (sampleWithMessages_isKeyed _) hw hr

end Daemon
