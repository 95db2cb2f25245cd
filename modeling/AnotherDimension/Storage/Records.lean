import AnotherDimension.Library.Fallible
import AnotherDimension.Library.OrderedMap
import AnotherDimension.Library.Text

-- The record map of the encrypted store and its plaintext encoding.

inductive StorageError
  | io
  | weakPassphrase
  | invalidPassphrase
  | corruptStore
  | authenticationFailed
  | rollbackDetected
  | recordTooLarge
  | tooManyRecords
  | osKeyStoreUnavailable
  | locked
  deriving DecidableEq, Repr

inductive RecordClass
  | accountRoot
  | device
  | protocolSession
  | transcript
  | recovery
  | account
  | contact
  | conversation
  | message
  | outbox
  | inbox
  | attachment
  | seen
  deriving DecidableEq, Repr

namespace RecordClass

def toByte : RecordClass → UInt8
  | accountRoot     => 1
  | device          => 2
  | protocolSession => 3
  | transcript      => 4
  | recovery        => 5
  | account         => 6
  | contact         => 7
  | conversation    => 8
  | message         => 9
  | outbox          => 10
  | inbox           => 11
  | attachment      => 12
  | seen            => 13

def fromByte (value : UInt8) : Except StorageError RecordClass :=
  match value with
  | 1  => .ok accountRoot
  | 2  => .ok device
  | 3  => .ok protocolSession
  | 4  => .ok transcript
  | 5  => .ok recovery
  | 6  => .ok account
  | 7  => .ok contact
  | 8  => .ok conversation
  | 9  => .ok message
  | 10 => .ok outbox
  | 11 => .ok inbox
  | 12 => .ok attachment
  | 13 => .ok seen
  | _  => .error .corruptStore

@[simp]
theorem fromByte_toByte (c : RecordClass) : fromByte c.toByte = .ok c := by
  cases c <;> rfl

theorem toByte_injective : Function.Injective toByte := fun c₁ c₂ h => by
  simpa [h] using (fromByte_toByte c₁).symm

instance : Ord RecordClass where
  compare := compareOn toByte

instance : Std.TransOrd RecordClass :=
  inferInstanceAs <| Std.TransCmp (compareOn toByte)

instance : Std.LawfulEqOrd RecordClass where
  compare_self    := show compareOn toByte _ _ = .eq from Std.ReflCmp.compare_self
  eq_of_compare h := toByte_injective <| Std.LawfulEqOrd.eq_of_compare h

end RecordClass

abbrev RecordKey := RecordClass × String

namespace RecordKey

-- The order of the tuple `(RecordClass, String)`.
def cmp : RecordKey → RecordKey → Ordering :=
  compareLex (compareOn Prod.fst) (compareOn Prod.snd)

instance : Std.TransCmp cmp :=
  inferInstanceAs <| Std.TransCmp (compareLex (compareOn Prod.fst) (compareOn Prod.snd))

instance : Std.LawfulEqCmp cmp :=
  OrderedMap.lawfulEqCmp_lex

end RecordKey

abbrev Records := Std.ExtTreeMap RecordKey Bytes RecordKey.cmp

instance : DecidableEq Records :=
  inferInstanceAs <| DecidableEq (Std.ExtTreeMap RecordKey Bytes RecordKey.cmp)

namespace Storage

def maxRecords : Nat := 4096

def maxKeyBytes : Nat := 256

def maxValueBytes : Nat := 4 * 1024 * 1024

def validateRecordKey (key : String) : Except StorageError Unit :=
  if key.isEmpty ∨ key.utf8ByteSize > maxKeyBytes ∨
      (Bytes.utf8 key).any (fun byte => byte == 0 || (byte < 32 || byte == 127)) then
    .error .recordTooLarge
  else
    .ok ()

-- One record of the plaintext: class, lengths, key and value.
def encodeRecord (entry : RecordKey × Bytes) : Bytes :=
  let ((cls, key), value) := entry
  [cls.toByte] ++ Bytes.ofNat 2 key.utf8ByteSize ++ Bytes.ofNat 4 value.length ++
    Bytes.utf8 key ++ value

def encodeEntries : List (RecordKey × Bytes) → Except StorageError Bytes
  | []            => .ok []
  | entry :: rest => do
    validateRecordKey entry.fst.snd
    if entry.snd.length > maxValueBytes then
      .error .recordTooLarge
    else
      return encodeRecord entry ++ (← encodeEntries rest)

def payloadMagic : Bytes := Bytes.utf8 "ADPAY1"

def encodeRecords (records : Records) : Except StorageError Bytes :=
  if records.size > maxRecords then
    .error .tooManyRecords
  else do
    return payloadMagic ++ Bytes.ofNat 4 records.size ++ (← encodeEntries records.toList)

-- The loop over the remaining bytes, with `count` records still to come.
def decodeEntries : (count : Nat) → Bytes → Records → Except StorageError Records
  | 0, bytes, records         => if bytes = [] then .ok records else .error .corruptStore
  | count + 1, bytes, records =>
    if bytes.length < 7 then
      .error .corruptStore
    else do
      let cls      ← RecordClass.fromByte (bytes.headD 0)
      let keyLen   := Bytes.toNat (bytes.drop 1 |>.take 2)
      let valueLen := Bytes.toNat (bytes.drop 3 |>.take 4)
      let bytes    := bytes.drop 7
      if keyLen > maxKeyBytes ∨ valueLen > maxValueBytes ∨ bytes.length < keyLen + valueLen then
        .error .corruptStore
      else
        match Bytes.fromUtf8 (bytes.take keyLen) with
        | none     => .error .corruptStore
        | some key =>
          validateRecordKey key
          let value := bytes.drop keyLen |>.take valueLen
          if (cls, key) ∈ records then
            .error .corruptStore
          else
            decodeEntries count (bytes.drop (keyLen + valueLen)) (records.insert (cls, key) value)

def decodeRecords (bytes : Bytes) : Except StorageError Records :=
  if bytes.length < 10 ∨ bytes.take 6 ≠ payloadMagic then
    .error .corruptStore
  else
    let count := Bytes.toNat (bytes.drop 6 |>.take 4)
    if count > maxRecords then
      .error .tooManyRecords
    else
      decodeEntries count (bytes.drop 10) ∅

theorem utf8ByteSize_le_of_validateRecordKey {key : String} (h : validateRecordKey key = .ok ()) :
    key.utf8ByteSize ≤ maxKeyBytes := by
  by_contra hk
  simp [validateRecordKey, Nat.lt_of_not_le hk] at h

theorem decodeEntries_encodeRecord {entry : RecordKey × Bytes} {records : Records}
    (hk : validateRecordKey entry.fst.snd = .ok ()) (hv : entry.snd.length ≤ maxValueBytes)
    (hn : entry.fst ∉ records) (count : Nat) (rest : Bytes) :
    decodeEntries (count + 1) (encodeRecord entry ++ rest) records =
      decodeEntries count rest (records.insert entry.fst entry.snd) := by
  obtain ⟨⟨cls, key⟩, value⟩ := entry
  have hl := utf8ByteSize_le_of_validateRecordKey hk
  obtain ⟨k₁, k₂, hb₂⟩ : ∃ k₁ k₂, Bytes.ofNat 2 key.utf8ByteSize = [k₁, k₂] := ⟨_, _, rfl⟩
  obtain ⟨v₁, v₂, v₃, v₄, hb₄⟩ : ∃ v₁ v₂ v₃ v₄, Bytes.ofNat 4 value.length = [v₁, v₂, v₃, v₄] :=
    ⟨_, _, _, _, rfl⟩
  have hk₂ : Bytes.toNat [k₁, k₂] = key.utf8ByteSize := by
    rw [← hb₂, Bytes.toNat_ofNat_of_lt]
    exact lt_of_le_of_lt hl (by decide)
  have hv₄ : Bytes.toNat [v₁, v₂, v₃, v₄] = value.length := by
    rw [← hb₄, Bytes.toNat_ofNat_of_lt]
    exact lt_of_le_of_lt hv (by decide)
  have ht : (Bytes.utf8 key ++ (value ++ rest)).take key.utf8ByteSize = Bytes.utf8 key :=
    List.take_left' <| Bytes.length_utf8 key
  have hd : (Bytes.utf8 key ++ (value ++ rest)).drop key.utf8ByteSize = value ++ rest :=
    List.drop_left' <| Bytes.length_utf8 key
  simp only at hk hv hn
  simp [decodeEntries, encodeRecord, hb₂, hb₄, hk₂, hv₄, ht, hd, ← List.drop_drop, hk, hn,
    Nat.not_lt.mpr hl, Nat.not_lt.mpr hv, bind, Except.bind, ← Nat.add_assoc]

theorem encodeEntries_cons {entry : RecordKey × Bytes} {rest : List (RecordKey × Bytes)}
    {bytes : Bytes} (h : encodeEntries (entry :: rest) = .ok bytes) :
    validateRecordKey entry.fst.snd = .ok () ∧ entry.snd.length ≤ maxValueBytes ∧
      ∃ tail, encodeEntries rest = .ok tail ∧ bytes = encodeRecord entry ++ tail := by
  have ⟨_, hk, h⟩ := Except.bind_eq_ok.mp h
  split at h
  case isTrue => cases h
  case isFalse hv =>
    have ⟨tail, ht, h⟩ := Except.bind_eq_ok.mp h
    cases h
    exact ⟨hk, Nat.not_lt.mp hv, tail, ht, rfl⟩

theorem decodeEntries_encodeEntries {entries : List (RecordKey × Bytes)} {records : Records}
    {bytes : Bytes} (h : encodeEntries entries = .ok bytes)
    (hd : entries.Pairwise fun e₁ e₂ => ¬RecordKey.cmp e₁.fst e₂.fst = .eq)
    (hn : ∀ e ∈ entries, e.fst ∉ records) :
    decodeEntries entries.length bytes records = .ok (records.insertMany entries) := by
  induction entries generalizing records bytes
  case nil =>
    cases h
    simp [decodeEntries]
  case cons entry rest hi =>
    have ⟨hk, hv, tail, ht, hb⟩ := encodeEntries_cons h
    have ⟨he, hr⟩ := List.pairwise_cons.mp hd
    rw [hb, List.length_cons, decodeEntries_encodeRecord hk hv (hn _ List.mem_cons_self),
      Std.ExtTreeMap.insertMany_cons]
    refine hi ht hr fun e h => ?_
    have hm := hn e <| List.mem_cons_of_mem _ h
    simpa [Std.ExtTreeMap.mem_insert, he e h] using hm

-- Whatever the store can encode decodes to the same records.
theorem decodeRecords_encodeRecords {records : Records} {bytes : Bytes}
    (h : encodeRecords records = .ok bytes) : decodeRecords bytes = .ok records := by
  have hs : records.size ≤ maxRecords := by
    by_contra hs
    simp [encodeRecords, Nat.lt_of_not_le hs] at h
  simp only [encodeRecords, gt_iff_lt, Nat.not_lt.mpr hs, ↓reduceIte] at h
  have ⟨body, hb, he⟩ := Except.bind_eq_ok.mp h
  obtain ⟨n₁, n₂, n₃, n₄, hn⟩ :
      ∃ n₁ n₂ n₃ n₄, Bytes.ofNat 4 records.size = [n₁, n₂, n₃, n₄] := ⟨_, _, _, _, rfl⟩
  have hc : Bytes.toNat [n₁, n₂, n₃, n₄] = records.size := by
    rw [← hn, Bytes.toNat_ofNat_of_lt]
    exact lt_of_le_of_lt hs (by decide)
  have hp : payloadMagic = [65, 68, 80, 65, 89, 49] := by decide
  have hd : decodeEntries records.toList.length body ∅ = .ok (.insertMany ∅ records.toList) :=
    decodeEntries_encodeEntries hb Std.ExtTreeMap.distinct_keys_toList (by simp)
  cases he
  rw [OrderedMap.insertMany_toList, Std.ExtTreeMap.length_toList] at hd
  simp [decodeRecords, hn, hp, hc, Nat.not_lt.mpr hs, hd]

end Storage
