import AnotherDimension.Library.Slices
import AnotherDimension.Storage.Records

-- `decode_records` as it is written, with an offset into the whole input. A slice outside of the
-- input would stop the program, which is `none` here.

namespace Storage

def decodeLoop (bytes : Bytes) :
    (count offset : Nat) → Records → Option (Except StorageError Records)
  | 0, offset, records         =>
    if offset ≠ bytes.length then some (.error .corruptStore) else some (.ok records)
  | count + 1, offset, records =>
    if bytes.length < offset + 7 then
      some (.error .corruptStore)
    else do
      match RecordClass.fromByte (← bytes[offset]?) with
      | .error e => return .error e
      | .ok cls  =>
        let keyLen   := Bytes.toNat (← bytes.slice? (offset + 1) (offset + 1 + 2))
        let valueLen := Bytes.toNat (← bytes.slice? (offset + 3) (offset + 3 + 4))
        let offset   := offset + 7
        if keyLen > maxKeyBytes ∨ valueLen > maxValueBytes ∨
            bytes.length < offset + keyLen + valueLen then
          return .error .corruptStore
        else
          match Bytes.fromUtf8 (← bytes.slice? offset (offset + keyLen)) with
          | none     => return .error .corruptStore
          | some key =>
            match validateRecordKey key with
            | .error e => return .error e
            | .ok ()   =>
              let value ← bytes.slice? (offset + keyLen) (offset + keyLen + valueLen)
              if (cls, key) ∈ records then
                return .error .corruptStore
              else
                decodeLoop bytes count (offset + keyLen + valueLen)
                  (records.insert (cls, key) value)

def decodeRecordsAt (bytes : Bytes) : Option (Except StorageError Records) :=
  if bytes.length < 10 then
    some (.error .corruptStore)
  else do
    if (← bytes.slice? 0 (0 + 6)) ≠ payloadMagic then
      return .error .corruptStore
    else
      let count := Bytes.toNat (← bytes.slice? 6 (6 + 4))
      if count > maxRecords then
        return .error .tooManyRecords
      else
        decodeLoop bytes count 10 ∅

-- The loop never leaves the input, and sees of it what `decodeEntries` is given.
theorem decodeLoop_eq {bytes : Bytes} {count offset : Nat} {records : Records}
    (h : offset ≤ bytes.length) :
    decodeLoop bytes count offset records =
      some (decodeEntries count (bytes.drop offset) records) := by
  induction count generalizing offset records
  case zero =>
    by_cases hl : bytes.length = offset
    case pos => simp [decodeLoop, decodeEntries, ← hl]
    case neg =>
      have hd : bytes.drop offset ≠ [] := by simp; omega
      simp [decodeLoop, decodeEntries, hd, Ne.symm hl]
  case succ count hi =>
    unfold decodeLoop decodeEntries
    by_cases hs : bytes.length < offset + 7
    case pos =>
      rw [if_pos hs, if_pos]
      rw [List.length_drop]
      omega
    case neg =>
      have hh : bytes[offset]? = some ((bytes.drop offset).headD 0) := by
        rw [List.getElem?_eq_getElem (by omega), List.drop_eq_getElem_cons (by omega)]
        rfl
      rw [if_neg hs, if_neg (by rw [List.length_drop]; omega), hh]
      simp only [Option.bind_eq_bind, Option.bind_some]
      cases RecordClass.fromByte ((bytes.drop offset).headD 0)
      case error => rfl
      case ok cls =>
        simp only [Bytes.slice?_add (show offset + 1 + 2 ≤ bytes.length by omega),
          Bytes.slice?_add (show offset + 3 + 4 ≤ bytes.length by omega), Option.bind_some,
          ← List.drop_drop, bind, Except.bind]
        generalize Bytes.toNat (((bytes.drop offset).drop 1).take 2) = keyLen
        generalize Bytes.toNat (((bytes.drop offset).drop 3).take 4) = valueLen
        have hl : ((bytes.drop offset).drop 7).length < keyLen + valueLen ↔
            bytes.length < offset + 7 + keyLen + valueLen := by
          simp only [List.length_drop]
          omega
        simp only [hl]
        split
        case isTrue => rfl
        case isFalse hv =>
          have hv : offset + 7 + keyLen + valueLen ≤ bytes.length := by simp at hv; omega
          rw [Bytes.slice?_add (by omega), Bytes.slice?_add (by omega)]
          simp only [Option.bind_some, ← List.drop_drop]
          cases Bytes.fromUtf8 (((bytes.drop offset).drop 7).take keyLen)
          case none     => rfl
          case some key =>
            simp only
            cases validateRecordKey key
            case error => rfl
            case ok    =>
              simp only
              split
              case isTrue  => rfl
              case isFalse => rw [hi hv]; simp [Nat.add_assoc]

theorem decodeRecordsAt_eq (bytes : Bytes) : decodeRecordsAt bytes = some (decodeRecords bytes) := by
  unfold decodeRecordsAt decodeRecords
  by_cases hl : bytes.length < 10
  case pos => simp [hl]
  case neg =>
    rw [if_neg hl, Bytes.slice?_add (by omega), Bytes.slice?_add (by omega)]
    simp only [Option.bind_eq_bind, Option.bind_some, List.drop_zero, hl, false_or]
    split
    case isTrue  => rfl
    case isFalse =>
      split
      case isTrue  => rfl
      case isFalse => exact decodeLoop_eq (by omega)

end Storage
