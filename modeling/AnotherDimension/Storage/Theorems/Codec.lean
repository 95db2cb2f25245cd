import AnotherDimension.Storage.Cursor

-- What the decoder of the records accepts is the encoding of their entries, in some order.

namespace OrderedMap

open Std

variable {κ β : Type} {cmp : κ → κ → Ordering} [TransCmp cmp] [LawfulEqCmp cmp]

-- New entries with different keys are added to those that are there.
theorem toList_insertMany_perm {entries : List (κ × β)} {t : ExtTreeMap κ β cmp}
    (hd : (entries.map Prod.fst).Nodup) (hn : ∀ e ∈ entries, e.fst ∉ t) :
    (t.insertMany entries).toList.Perm (entries ++ t.toList) := by
  induction entries generalizing t
  case nil => simp
  case cons entry entries hi =>
    have ⟨hk, hd⟩ := List.nodup_cons.mp hd
    have ⟨he, hes⟩ := List.forall_mem_cons.mp hn
    have hn' : ∀ e ∈ entries, e.fst ∉ t.insert entry.fst entry.snd := by
      intro e hm
      rw [ExtTreeMap.mem_insert, LawfulEqCmp.compare_eq_iff_eq, not_or]
      exact ⟨fun h => hk <| h ▸ List.mem_map_of_mem hm, hes e hm⟩
    have hp := toList_insert_perm t entry.fst entry.snd
    rw [erase_eq_self (by simpa using he)] at hp
    rw [ExtTreeMap.insertMany_cons]
    exact (hi hd hn').trans <| (hp.append_left entries).trans List.perm_middle

end OrderedMap

namespace RecordClass

theorem toByte_of_fromByte {byte : UInt8} {cls : RecordClass} (h : fromByte byte = .ok cls) :
    cls.toByte = byte := by
  unfold fromByte at h
  split at h <;> cases h <;> rfl

end RecordClass

namespace Storage

variable {bytes : Bytes} {count : Nat} {records records' : Records}

-- The entry fits the format.
structure ValidEntry (entry : RecordKey × Bytes) : Prop where
  key   : validateRecordKey entry.fst.snd = .ok ()
  value : entry.snd.length ≤ maxValueBytes

theorem encodeEntries_eq {entries : List (RecordKey × Bytes)} (h : ∀ e ∈ entries, ValidEntry e) :
    encodeEntries entries = .ok (entries.flatMap encodeRecord) := by
  induction entries
  case nil => rfl
  case cons entry entries hi =>
    have ⟨he, hes⟩ := List.forall_mem_cons.mp h
    simp [encodeEntries, he.key, Nat.not_lt.mpr he.value, hi hes, bind, Except.bind, pure,
      Except.pure]

theorem encodeRecords_eq (hs : records.size ≤ maxRecords)
    (hv : ∀ e ∈ records.toList, ValidEntry e) :
    encodeRecords records = .ok (payloadMagic ++ Bytes.ofNat 4 records.size ++
      records.toList.flatMap encodeRecord) := by
  simp [encodeRecords, Nat.not_lt.mpr hs, encodeEntries_eq hv, bind, Except.bind, pure, Except.pure]

-- One round of the loop takes the encoding of one new entry off the input.
theorem decodeEntries_succ_ok (h : decodeEntries (count + 1) bytes records = .ok records') :
    ∃ entry rest, ValidEntry entry ∧ entry.fst ∉ records ∧ bytes = encodeRecord entry ++ rest ∧
      decodeEntries count rest (records.insert entry.fst entry.snd) = .ok records' := by
  unfold decodeEntries at h
  split at h
  case isTrue  => cases h
  case isFalse hl =>
    obtain ⟨cls, hc, h⟩ := Except.bind_eq_ok.mp h
    replace hc := RecordClass.toByte_of_fromByte hc
    obtain ⟨byte, k₁, k₂, v₁, v₂, v₃, v₄, tail, rfl⟩ :
        ∃ byte k₁ k₂ v₁ v₂ v₃ v₄ tail, bytes = byte :: k₁ :: k₂ :: v₁ :: v₂ :: v₃ :: v₄ :: tail := by
      rcases bytes with
        _ | ⟨_, _ | ⟨_, _ | ⟨_, _ | ⟨_, _ | ⟨_, _ | ⟨_, _ | ⟨_, _⟩⟩⟩⟩⟩⟩⟩ <;>
        first
        | exact ⟨_, _, _, _, _, _, _, _, rfl⟩
        | simp at hl
    simp only [List.headD_cons, List.drop_succ_cons, List.drop_zero, List.take_succ_cons,
      List.take_zero] at hc h
    split at h
    case isTrue  => cases h
    case isFalse hn =>
      simp only [not_or, Nat.not_lt] at hn
      obtain ⟨hk, hv, ht⟩ := hn
      split at h
      case h_1 => cases h
      case h_2 key hu =>
        obtain ⟨_, hkey, h⟩ := Except.bind_eq_ok.mp h
        split at h
        case isTrue  => cases h
        case isFalse hm =>
          have hu := Bytes.utf8_of_fromUtf8 hu
          have hkl : key.utf8ByteSize = Bytes.toNat [k₁, k₂] := by
            rw [← Bytes.length_utf8, hu, List.length_take]
            omega
          have hvl : ((tail.drop (Bytes.toNat [k₁, k₂])).take
              (Bytes.toNat [v₁, v₂, v₃, v₄])).length = Bytes.toNat [v₁, v₂, v₃, v₄] := by
            rw [List.length_take, List.length_drop]
            omega
          have hsplit : tail = Bytes.utf8 key ++ ((tail.drop (Bytes.toNat [k₁, k₂])).take
              (Bytes.toNat [v₁, v₂, v₃, v₄]) ++
                tail.drop (Bytes.toNat [k₁, k₂] + Bytes.toNat [v₁, v₂, v₃, v₄])) := by
            rw [hu, ← List.drop_drop, List.take_append_drop, List.take_append_drop]
          refine ⟨((cls, key), _), _, ⟨hkey, hvl.trans_le hv⟩, hm, ?_, h⟩
          rw [encodeRecord, hc, hkl, hvl, Bytes.ofNat_toNat_of_length (by rfl),
            Bytes.ofNat_toNat_of_length (by rfl)]
          simpa using hsplit

-- Whatever the loop accepts it has consumed, entry after entry and none of them twice.
theorem decodeEntries_ok (h : decodeEntries count bytes records = .ok records') :
    ∃ entries : List (RecordKey × Bytes), entries.length = count ∧ (∀ e ∈ entries, ValidEntry e) ∧
      (entries.map Prod.fst).Nodup ∧ (∀ e ∈ entries, e.fst ∉ records) ∧
      bytes = entries.flatMap encodeRecord ∧ records' = records.insertMany entries := by
  induction count generalizing bytes records
  case zero =>
    unfold decodeEntries at h
    split at h <;> cases h
    case isTrue hb => exact ⟨[], rfl, by simp, .nil, by simp, hb, by simp⟩
  case succ count hi =>
    obtain ⟨entry, rest, hv, hm, hb, h⟩ := decodeEntries_succ_ok h
    obtain ⟨entries, hl, hvs, hd, hn, hbs, hr⟩ := hi h
    simp only [Std.ExtTreeMap.mem_insert, not_or, Std.LawfulEqCmp.compare_eq_iff_eq] at hn
    refine ⟨entry :: entries, by simp [hl], List.forall_mem_cons.mpr ⟨hv, hvs⟩, ?_,
      List.forall_mem_cons.mpr ⟨hm, fun e he => (hn e he).right⟩, by simp [hb, hbs],
      by rw [hr, Std.ExtTreeMap.insertMany_cons]⟩
    refine List.nodup_cons.mpr ⟨fun he => ?_, hd⟩
    obtain ⟨e, he, hk⟩ := List.mem_map.mp he
    exact (hn e he).left hk.symm

-- An accepted input has nothing but the header and the encodings of entries with different keys,
-- and the entries are those of the map that is returned.
theorem decodeRecords_ok (h : decodeRecords bytes = .ok records) :
    ∃ entries : List (RecordKey × Bytes), entries.length ≤ maxRecords ∧
      (∀ e ∈ entries, ValidEntry e) ∧ (entries.map Prod.fst).Nodup ∧
      bytes = payloadMagic ++ Bytes.ofNat 4 entries.length ++ entries.flatMap encodeRecord ∧
      entries.Perm records.toList := by
  unfold decodeRecords at h
  split at h
  case isTrue  => cases h
  case isFalse hl =>
    simp only [not_or, Nat.not_lt, ne_eq, not_not] at hl
    simp only at h
    split at h
    case isTrue  => cases h
    case isFalse hc =>
      have ⟨entries, hn, hv, hd, he, hb, hr⟩ := decodeEntries_ok h
      refine ⟨entries, hn.trans_le <| Nat.not_lt.mp hc, hv, hd, ?_, ?_⟩
      case refine_1 =>
        have hw : ((bytes.drop 6).take 4).length = 4 := by
          rw [List.length_take, List.length_drop]
          omega
        rw [hn, Bytes.ofNat_toNat_of_length hw, ← hl.right, ← hb]
        conv_lhs => rw [← List.take_append_drop 6 bytes, ← List.take_append_drop 4 (bytes.drop 6)]
        rw [List.drop_drop, List.append_assoc]
      case refine_2 =>
        have hp := OrderedMap.toList_insertMany_perm hd he
        rw [show (∅ : Records).toList = [] from rfl, List.append_nil] at hp
        exact hr ▸ hp.symm

end Storage
