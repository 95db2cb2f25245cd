import AnotherDimension.Library.Decode
import AnotherDimension.Library.OrderedMap
import AnotherDimension.Library.Run
import AnotherDimension.Delivery.Persist

-- When the ledger stays small enough to be stored and restored.

open Storage

namespace DeliveryRecord

variable {record : DeliveryRecord}

-- The bytes of an optional text in JSON, beyond those of `null`.
def textBytes (text : Option String) : Nat :=
  text.elim 0 fun text => (Json.string text).utf8ByteSize

-- What a record can take at most in the ledger, however its state and its times change: its texts
-- and everything else.
def reserve (key : String) (record : DeliveryRecord) : Nat :=
  (Json.string key).utf8ByteSize + (Json.string record.digest).utf8ByteSize +
    textBytes record.relayId + textBytes record.wire + textBytes record.destination + 192

theorem utf8ByteSize_option_string_le (text : Option String) :
    (Json.option Json.string text).utf8ByteSize ≤ textBytes text + 4 := by
  cases text
  case none => decide
  case some => simp [Json.option, textBytes]

theorem utf8ByteSize_option_number_le (n : Option UInt64) :
    (Json.option Json.number n).utf8ByteSize ≤ 20 := by
  cases n
  case none   => decide
  case some n => exact Json.utf8ByteSize_number_le n

theorem utf8ByteSize_state_le (state : DeliveryState) :
    (Json.string state.name).utf8ByteSize ≤ 19 := by
  cases state <;> decide

-- The names of the fields, and the punctuation around them and their values.
theorem utf8ByteSize_fieldNames :
    (["digest", "state", "attempts", "next_retry_at", "relay_id", "wire", "expires_at",
      "destination"].map fun name => (Json.string name).utf8ByteSize + 2) =
      [10, 9, 12, 17, 12, 8, 14, 15] := by
  decide

theorem utf8ByteSize_toJson_le (key : String) (record : DeliveryRecord) :
    (Json.string key).utf8ByteSize + record.toJson.utf8ByteSize + 2 ≤ record.reserve key := by
  have hs := utf8ByteSize_state_le record.state
  have ha := Json.utf8ByteSize_number_le record.attempts.toUInt64
  have hn := utf8ByteSize_option_number_le record.nextRetryAt
  have hr := utf8ByteSize_option_string_le record.relayId
  have hw := utf8ByteSize_option_string_le record.wire
  have he := utf8ByteSize_option_number_le record.expiresAt
  have hd := utf8ByteSize_option_string_le record.destination
  have hb : "\x7b".utf8ByteSize = 1 ∧ "\x7d".utf8ByteSize = 1 := by decide
  have hm := Json.utf8ByteSize_members_le [
    ("digest", Json.string record.digest), ("state", Json.string record.state.name),
    ("attempts", Json.number record.attempts.toUInt64),
    ("next_retry_at", Json.option Json.number record.nextRetryAt),
    ("relay_id", Json.option Json.string record.relayId),
    ("wire", Json.option Json.string record.wire),
    ("expires_at", Json.option Json.number record.expiresAt),
    ("destination", Json.option Json.string record.destination)]
  have hf := utf8ByteSize_fieldNames
  simp only [List.map_cons, List.map_nil, List.cons.injEq, and_true, List.sum_cons,
    List.sum_nil] at hf hm
  simp only [toJson, Json.object, String.utf8ByteSize_append, hb, reserve]
  omega

-- What the operations do to the reserve of a record: only a new relay id adds to it.

theorem transition_reserve (key : String) (state : DeliveryState) :
    (record.transition state).snd.reserve key = record.reserve key := by
  unfold transition
  split <;> rfl

theorem acknowledgeRecipient_reserve (key : String) :
    record.acknowledgeRecipient.snd.reserve key = record.reserve key := by
  unfold acknowledgeRecipient
  split_ifs <;> rfl

theorem markDecrypted_reserve (key : String) :
    record.markDecrypted.snd.reserve key = record.reserve key := by
  unfold markDecrypted
  split_ifs <;> rfl

theorem scheduleRetry_reserve (key : String) (now : UInt64) :
    (record.scheduleRetry now).snd.reserve key = record.reserve key := by
  unfold scheduleRetry
  split
  case isTrue  => rfl
  case isFalse => dsimp only; split <;> rfl

theorem cancel_reserve_le (key : String) : record.cancel.snd.reserve key ≤ record.reserve key := by
  unfold cancel
  split <;> simp [reserve, textBytes]

theorem expireDue_reserve_le (key : String) (now : UInt64) :
    (record.expireDue now).reserve key ≤ record.reserve key := by
  unfold expireDue
  split <;> simp [reserve, textBytes]

theorem markFailed_reserve_le (key : String) :
    record.markFailed.snd.reserve key ≤ record.reserve key := by
  unfold markFailed
  split
  case isTrue  => rfl
  case isFalse =>
    simp only [reserve, textBytes, Option.elim_none]
    omega

theorem ifCurrent_reserve_le (key : String) (expectedState : DeliveryState)
    {update : Except EnvelopeError Bool × DeliveryRecord}
    (h : update.snd.reserve key ≤ record.reserve key) :
    (record.ifCurrent expectedState update).snd.reserve key ≤ record.reserve key := by
  unfold ifCurrent
  split
  case isTrue  => rfl
  case isFalse => exact h

theorem bindRelayId_reserve_le (key relayId : String) :
    (record.bindRelayId relayId).snd.reserve key ≤
      record.reserve key + (Json.string relayId).utf8ByteSize := by
  simp only [bindRelayId, reserve, textBytes, Option.elim_some]
  omega

theorem acceptRetry_reserve_le (key relayId : String) (expectedState : DeliveryState) :
    (record.acceptRetry expectedState relayId).snd.reserve key ≤
      record.reserve key + (Json.string relayId).utf8ByteSize := by
  unfold acceptRetry
  split
  case isTrue  => exact Nat.le_add_right _ _
  case isFalse =>
    simp only [reserve, textBytes, Option.elim_some]
    omega

end DeliveryRecord

namespace DeliveryLedger

variable {ledger : DeliveryLedger} {op : LedgerOp}

def reserved (ledger : DeliveryLedger) : Nat :=
  2 + OrderedMap.total DeliveryRecord.reserve ledger.records

-- The ledger is within the limits of `restore` and of a record of the store.
def Fits (ledger : DeliveryLedger) : Prop :=
  ledger.records.size ≤ maxRecords ∧ ledger.encodedBytes.length ≤ maxValueBytes

-- A new record finds room for itself.
def HasRoomFor (ledger : DeliveryLedger) (digest : String) (texts : List (Option String)) : Prop :=
  ledger.get digest = none → ledger.records.size < maxRecords ∧
    ledger.reserved + 2 * (Json.string digest).utf8ByteSize +
      (texts.map DeliveryRecord.textBytes).sum + 192 ≤ maxValueBytes

-- A call that adds a record or a relay id finds room for it. No other call needs any.
def HasRoom (ledger : DeliveryLedger) : LedgerOp → Prop
  | .registerEncryptedWithDestination digest wire _ destination
  | .registerQueuedWithDestination digest wire _ destination =>
    ledger.HasRoomFor digest [wire, destination]
  | .registerRecipientReceived digest relayId                =>
    ledger.HasRoomFor digest [some relayId]
  | .bindRelayId digest relayId | .acceptRetry digest _ relayId =>
    ledger.get digest ≠ none →
      ledger.reserved + (Json.string relayId).utf8ByteSize ≤ maxValueBytes
  | _                                                        => True

instance (ledger : DeliveryLedger) (digest : String) (texts : List (Option String)) :
    Decidable (ledger.HasRoomFor digest texts) :=
  inferInstanceAs <| Decidable (_ = none → _ ∧ _ ≤ _)

instance (ledger : DeliveryLedger) : (op : LedgerOp) → Decidable (ledger.HasRoom op)
  | .registerEncryptedWithDestination .. | .registerQueuedWithDestination ..
  | .registerRecipientReceived .. => inferInstanceAs <| Decidable (ledger.HasRoomFor _ _)
  | .bindRelayId .. | .acceptRetry .. => inferInstanceAs <| Decidable (_ ≠ none → _ ≤ _)
  | .discardIfState .. | .transition .. | .acknowledgeRecipient .. | .markDecrypted ..
  | .cancel .. | .expireDue .. | .scheduleRetry .. | .scheduleRetryIfCurrent .. | .markFailed ..
  | .markFailedIfCurrent .. => .isTrue trivial

theorem length_encodedBytes_le (ledger : DeliveryLedger) :
    ledger.encodedBytes.length ≤ ledger.reserved := by
  have hb : "\x7b".utf8ByteSize = 1 ∧ "\x7d".utf8ByteSize = 1 := by decide
  have braces {m t : Nat} (h : m ≤ t) : 1 + m + 1 ≤ 2 + t := by omega
  rw [encodedBytes, Bytes.length_utf8, Json.object, String.utf8ByteSize_append,
    String.utf8ByteSize_append, hb.left, hb.right, reserved]
  refine braces <| (Json.utf8ByteSize_members_le _).trans ?_
  rw [List.map_map]
  exact List.sum_le_sum fun e _ => DeliveryRecord.utf8ByteSize_toJson_le e.fst e.snd

-- The number of records and the reserve are within the limits.
structure Bounded (ledger : DeliveryLedger) : Prop where
  size     : ledger.records.size ≤ maxRecords
  reserved : ledger.reserved ≤ maxValueBytes

theorem Bounded.fits (h : ledger.Bounded) : ledger.Fits :=
  ⟨h.size, ledger.length_encodedBytes_le.trans h.reserved⟩

theorem reserved_withRecord_le (ledger : DeliveryLedger) {α : Type} {digest : String} (extra : Nat)
    {update : DeliveryRecord → Except EnvelopeError α × DeliveryRecord}
    (hu : ∀ record : DeliveryRecord,
      (update record).snd.reserve digest ≤ record.reserve digest + extra) :
    (ledger.withRecord digest update).snd.reserved ≤ ledger.reserved + extra := by
  match hr : ledger.get digest with
  | none        => simp [DeliveryLedger.withRecord, hr]
  | some record =>
    have ht := OrderedMap.total_of_some DeliveryRecord.reserve (k := digest) (v := record) hr
    have hu := hu record
    rw [DeliveryLedger.withRecord, hr]
    simp only [DeliveryLedger.reserved, OrderedMap.total_insert]
    omega

theorem Bounded.withRecord (h : ledger.Bounded) {α : Type} {digest : String} (extra : Nat)
    {update : DeliveryRecord → Except EnvelopeError α × DeliveryRecord}
    (hu : ∀ record : DeliveryRecord,
      (update record).snd.reserve digest ≤ record.reserve digest + extra)
    (hx : ledger.get digest ≠ none → ledger.reserved + extra ≤ maxValueBytes) :
    (ledger.withRecord digest update).snd.Bounded := by
  match hr : ledger.get digest with
  | none        => simpa [DeliveryLedger.withRecord, hr] using h
  | some record =>
    refine ⟨(size_withRecord ..).trans_le h.size, ?_⟩
    exact (ledger.reserved_withRecord_le extra hu).trans <| hx (by simp [hr])

-- Calls that add nothing keep the bounds.
theorem Bounded.withRecord_of_le (h : ledger.Bounded) {α : Type} {digest : String}
    {update : DeliveryRecord → Except EnvelopeError α × DeliveryRecord}
    (hu : ∀ record : DeliveryRecord, (update record).snd.reserve digest ≤ record.reserve digest) :
    (ledger.withRecord digest update).snd.Bounded :=
  h.withRecord 0 hu fun _ => h.reserved

theorem reserved_insertNew {record : DeliveryRecord} (hn : ledger.get record.digest = none) :
    (ledger.insertNew record).reserved = ledger.reserved + record.reserve record.digest := by
  have hn : ledger.records[record.digest]? = none := hn
  simp only [DeliveryLedger.reserved, DeliveryLedger.insertNew, OrderedMap.total_insert_of_none _ hn]
  omega

theorem bounded_insertNew {record : DeliveryRecord} {texts : List (Option String)}
    (hn : ledger.get record.digest = none)
    (hr : record.reserve record.digest = 2 * (Json.string record.digest).utf8ByteSize +
      (texts.map DeliveryRecord.textBytes).sum + 192)
    (hx : ledger.HasRoomFor record.digest texts) : (ledger.insertNew record).Bounded := by
  obtain ⟨hs, hb⟩ := hx hn
  have hm : record.digest ∉ ledger.records := get_eq_none_iff.mp hn
  refine ⟨?_, ?_⟩
  case refine_1 => simpa [DeliveryLedger.insertNew, Std.ExtTreeMap.size_insert, hm] using hs
  case refine_2 =>
    rw [reserved_insertNew hn]
    omega

theorem reserved_registerAs_le (ledger : DeliveryLedger) (state : DeliveryState) (digest : String)
    (wire : Option String) (expiresAt : Option UInt64) (destination : Option String) :
    (ledger.registerAs state digest wire expiresAt destination).snd.reserved ≤ ledger.reserved +
      (2 * (Json.string digest).utf8ByteSize + DeliveryRecord.textBytes wire +
        DeliveryRecord.textBytes destination + 192) := by
  unfold DeliveryLedger.registerAs
  split
  case isTrue     => exact Nat.le_add_right _ _
  case isFalse hn =>
    rw [reserved_insertNew (get_eq_none_iff.mpr (not_or.mp hn).right)]
    simp only [DeliveryRecord.reserve, DeliveryRecord.textBytes, Option.elim_none]
    omega

theorem size_registerAs_le (ledger : DeliveryLedger) (state : DeliveryState) (digest : String)
    (wire : Option String) (expiresAt : Option UInt64) (destination : Option String) :
    (ledger.registerAs state digest wire expiresAt destination).snd.records.size ≤
      ledger.records.size + 1 := by
  unfold DeliveryLedger.registerAs
  split
  case isTrue  => exact Nat.le_add_right _ _
  case isFalse => exact Std.ExtTreeMap.size_insert_le

theorem Bounded.registerAs (h : ledger.Bounded) {state : DeliveryState} {digest : String}
    {wire destination : Option String} {expiresAt : Option UInt64}
    (hx : ledger.HasRoomFor digest [wire, destination]) :
    (ledger.registerAs state digest wire expiresAt destination).snd.Bounded := by
  unfold DeliveryLedger.registerAs
  split
  case isTrue     => exact h
  case isFalse hn =>
    have hn : ledger.get digest = none := get_eq_none_iff.mpr (not_or.mp hn).right
    refine bounded_insertNew hn ?_ hx
    simp [DeliveryRecord.reserve, DeliveryRecord.textBytes]
    omega

theorem Bounded.registerRecipientReceived (h : ledger.Bounded) {digest relayId : String}
    (hx : ledger.HasRoomFor digest [some relayId]) :
    (ledger.registerRecipientReceived digest relayId).snd.Bounded := by
  unfold DeliveryLedger.registerRecipientReceived
  split_ifs
  case pos    => exact h
  case pos    => exact h
  case neg hn =>
    refine bounded_insertNew (get_eq_none_iff.mpr hn) ?_ hx
    simp [DeliveryRecord.reserve, DeliveryRecord.textBytes]
    omega

theorem Bounded.discardIfState (h : ledger.Bounded) (digest : String)
    (expectedState : DeliveryState) : (ledger.discardIfState digest expectedState).snd.Bounded := by
  unfold DeliveryLedger.discardIfState
  split
  case isFalse   => exact h
  case isTrue ha =>
    match hr : ledger.get digest with
    | none        => simp [hr] at ha
    | some record =>
      have ht := OrderedMap.total_of_some DeliveryRecord.reserve hr
      have hb := h.reserved
      refine ⟨Std.ExtTreeMap.size_erase_le.trans h.size, ?_⟩
      simp only [DeliveryLedger.reserved] at hb ⊢
      omega

theorem Bounded.expireDue (h : ledger.Bounded) (now : UInt64) :
    (ledger.expireDue now).snd.Bounded := by
  refine ⟨by simpa [DeliveryLedger.expireDue] using h.size, le_trans ?_ h.reserved⟩
  exact Nat.add_le_add_left
    (OrderedMap.total_map_le fun key _ => DeliveryRecord.expireDue_reserve_le key now) 2

-- A call that finds room keeps the bounds.
theorem Bounded.step (h : ledger.Bounded) (hx : ledger.HasRoom op) : (ledger.step op).Bounded := by
  match op with
  | .registerEncryptedWithDestination digest wire expiresAt destination => exact h.registerAs hx
  | .registerQueuedWithDestination digest wire expiresAt destination    => exact h.registerAs hx
  | .registerRecipientReceived digest relayId        => exact h.registerRecipientReceived hx
  | .discardIfState digest expectedState             => exact h.discardIfState digest expectedState
  | .expireDue now                                   => exact h.expireDue now
  | .bindRelayId digest relayId                      =>
    exact h.withRecord _ (fun _ => DeliveryRecord.bindRelayId_reserve_le digest relayId) hx
  | .acceptRetry digest expectedState relayId        =>
    exact h.withRecord _
      (fun _ => DeliveryRecord.acceptRetry_reserve_le digest relayId expectedState) hx
  | .transition digest state                         =>
    exact h.withRecord_of_le fun _ => (DeliveryRecord.transition_reserve digest state).le
  | .acknowledgeRecipient digest                     =>
    exact h.withRecord_of_le fun _ => (DeliveryRecord.acknowledgeRecipient_reserve digest).le
  | .markDecrypted digest                            =>
    exact h.withRecord_of_le fun _ => (DeliveryRecord.markDecrypted_reserve digest).le
  | .cancel digest                                   =>
    exact h.withRecord_of_le fun _ => DeliveryRecord.cancel_reserve_le digest
  | .scheduleRetry digest now                        =>
    exact h.withRecord_of_le fun _ => (DeliveryRecord.scheduleRetry_reserve digest now).le
  | .scheduleRetryIfCurrent digest expectedState now =>
    exact h.withRecord_of_le fun _ => DeliveryRecord.ifCurrent_reserve_le digest expectedState
      (DeliveryRecord.scheduleRetry_reserve digest now).le
  | .markFailed digest                               =>
    exact h.withRecord_of_le fun _ => DeliveryRecord.markFailed_reserve_le digest
  | .markFailedIfCurrent digest expectedState        =>
    exact h.withRecord_of_le fun _ => DeliveryRecord.ifCurrent_reserve_le digest expectedState
      (DeliveryRecord.markFailed_reserve_le digest)

theorem bounded_empty : empty.Bounded where
  size     := by simp [empty]
  reserved := by decide

-- In a run whose calls all find room, the ledger always fits.
theorem fits_of_hasRoom (ops : List LedgerOp) (room : Run.Meets step HasRoom empty ops) :
    ∀ ledger ∈ Run.states step empty ops, ledger.Fits := by
  have hb := room.forall_states (fun _ _ h hx => Bounded.step h hx) bounded_empty
  exact fun ledger hl => (hb ledger hl).fits

-- Digests of received envelopes, all different.
def inboundDigest (n : Nat) : String :=
  Bytes.toHex (Bytes.ofNat 32 n)

theorem inboundDigest_injOn {m n : Nat} (hm : m < 256 ^ 32) (hn : n < 256 ^ 32)
    (h : inboundDigest m = inboundDigest n) : m = n := by
  have hb := congrArg Bytes.toNat <| Bytes.toHex_injective h
  rwa [Bytes.toNat_ofNat_of_lt hm, Bytes.toNat_ofNat_of_lt hn] at hb

-- The calls of receiving one envelope after the other.
def inboundOps (n : Nat) : List LedgerOp :=
  (List.range n).flatMap fun i =>
    [.registerRecipientReceived (inboundDigest i) "relay", .markDecrypted (inboundDigest i)]

-- Every received envelope adds a record, and none is ever removed.
theorem inboundOps_records (n : Nat) (h : n < 256 ^ 32) :
    ((inboundOps n).foldl step empty).records.size = n ∧
      ∀ i, n ≤ i → i < 256 ^ 32 → inboundDigest i ∉ ((inboundOps n).foldl step empty).records := by
  induction n
  case zero      => simp [inboundOps, empty]
  case succ n hi =>
    have ⟨hs, hm⟩ := hi (Nat.lt_of_succ_lt h)
    have hops : inboundOps (n + 1) = inboundOps n ++
        [.registerRecipientReceived (inboundDigest n) "relay", .markDecrypted (inboundDigest n)] := by
      simp [inboundOps, List.range_succ]
    have hfresh := hm n le_rfl (Nat.lt_of_succ_lt h)
    have hempty : (inboundDigest n).isEmpty = false := by
      have hl : (inboundDigest n).length = 64 := by simp [inboundDigest, Bytes.length_toHex]
      by_contra he
      simp [String.isEmpty_iff.mp <| Bool.not_eq_false _ ▸ he] at hl
    rw [hops, List.foldl_append]
    generalize (inboundOps n).foldl step empty = ledger at *
    simp only [List.foldl_cons, List.foldl_nil, step, markDecrypted, size_withRecord,
      mem_withRecord, registerRecipientReceived, hempty, hfresh, Bool.false_eq_true, ↓reduceIte,
      insertNew]
    refine ⟨by simp [Std.ExtTreeMap.size_insert, hfresh, hs], fun i hn hl => ?_⟩
    rw [Std.ExtTreeMap.mem_insert, not_or, Std.LawfulEqOrd.compare_eq_iff_eq]
    refine ⟨fun he => ?_, hm i (Nat.le_of_succ_le hn) hl⟩
    have := inboundDigest_injOn (Nat.lt_of_succ_lt h) hl he
    omega

-- One envelope more than the limit, and the next start refuses the ledger.
theorem inboundOps_not_fits : ¬((inboundOps 4097).foldl step empty).Fits := by
  intro h
  have hs := (inboundOps_records 4097 (by norm_num)).left
  have hl := h.left
  rw [hs] at hl
  exact absurd hl (by decide)

-- An envelope that is sent at the second attempt and expires, and one that is received.
def roomyOps : List LedgerOp := [
  .registerQueuedWithDestination (inboundDigest 0) (some "wire") (some 604800)
    (some "https://relay/inbox"),
  .scheduleRetryIfCurrent (inboundDigest 0) .queued 0,
  .acceptRetry (inboundDigest 0) .retryable "relay-1",
  .registerRecipientReceived (inboundDigest 1) "relay-2",
  .markDecrypted (inboundDigest 1),
  .expireDue 604800
]

theorem utf8ByteSize_inboundDigest (n : Nat) :
    (Json.string (inboundDigest n)).utf8ByteSize = 66 := by
  rw [inboundDigest, (Json.isPlain_toHex _).utf8ByteSize_string, Bytes.utf8ByteSize_toHex,
    Bytes.length_ofNat]

theorem roomyOps_fit :
    Run.Meets step HasRoom empty roomyOps ∧
      ∀ ledger ∈ Run.states step empty roomyOps, ledger.Fits := by
  have hs : DeliveryRecord.textBytes "wire" = 6 ∧
      DeliveryRecord.textBytes "https://relay/inbox" = 21 ∧
      (Json.string "relay-1").utf8ByteSize = 9 ∧ DeliveryRecord.textBytes "relay-2" = 9 := by
    decide
  have h₀ := utf8ByteSize_inboundDigest 0
  have h₁ := utf8ByteSize_inboundDigest 1
  have hv : maxValueBytes = 4194304 := rfl
  have room : Run.Meets step HasRoom empty roomyOps := by
    unfold roomyOps
    generalize inboundDigest 0 = digest₀, inboundDigest 1 = digest₁ at *
    -- No call adds more than a few hundred bytes.
    have he : empty.reserved = 2 := rfl
    have hq : (empty.step (.registerQueuedWithDestination digest₀ (some "wire") (some 604800)
        (some "https://relay/inbox"))).reserved ≤ _ :=
      reserved_registerAs_le ..
    have hz : (empty.step (.registerQueuedWithDestination digest₀ (some "wire") (some 604800)
        (some "https://relay/inbox"))).records.size ≤ 1 :=
      size_registerAs_le ..
    have hr (ledger : DeliveryLedger) :
        (ledger.step (.scheduleRetryIfCurrent digest₀ .queued 0)).reserved ≤ _ :=
      ledger.reserved_withRecord_le 0 fun record =>
        record.ifCurrent_reserve_le digest₀ .queued (record.scheduleRetry_reserve digest₀ 0).le
    have ha (ledger : DeliveryLedger) :
        (ledger.step (.acceptRetry digest₀ .retryable "relay-1")).reserved ≤ _ :=
      ledger.reserved_withRecord_le _ fun record =>
        record.acceptRetry_reserve_le digest₀ "relay-1" .retryable
    refine ⟨fun _ => ⟨by decide, ?_⟩, trivial, fun _ => ?_, fun _ => ⟨?_, ?_⟩, trivial, trivial,
      trivial⟩
    case refine_1 =>
      simp only [List.map_cons, List.map_nil, List.sum_cons, List.sum_nil]
      omega
    case refine_2 => 
      generalize empty.step _ = queued at *
      have := hr queued
      omega
    case refine_3 => 
      exact ((size_withRecord ..).trans <| size_withRecord ..).trans_lt <| hz.trans_lt (by decide)
    case refine_4 =>
      generalize empty.step _ = queued at *
      have := hr queued
      generalize queued.step _ = retried at *
      have := ha retried
      simp only [List.map_cons, List.map_nil, List.sum_cons, List.sum_nil]
      omega
  exact ⟨room, fits_of_hasRoom roomyOps room⟩

end DeliveryLedger
