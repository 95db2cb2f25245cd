import AnotherDimension.Library.Lines
import AnotherDimension.Mls.Provider

-- Every value of the storage has a place of its own, and what a call does to these places.

namespace EntityLabel

def all : List EntityLabel := [
  keyPackage, psk, encryptionKeyPair, signatureKeyPair, epochKeyPairs, tree, groupContext,
  interimTranscriptHash, confirmationTag, joinConfig, ownLeafNodes, groupState, queuedProposal,
  proposalQueueRefs, ownLeafNodeIndex, epochSecrets, resumptionPskStore, messageSecrets
]

theorem mem_all (label : EntityLabel) : label ∈ all := by
  cases label <;> decide

-- No label is the start of another one.
theorem prefix_free : ∀ label ∈ all, ∀ label' ∈ all, label.bytes <+: label'.bytes → label = label' := by
  decide

theorem append_injective {label label' : EntityLabel} {key key' : Bytes}
    (h : label.bytes ++ key = label'.bytes ++ key') : label = label' ∧ key = key' := by
  have hl : label = label' := by
    have hp : label.bytes <+: label'.bytes ++ key' := h ▸ List.prefix_append _ _
    obtain hp | hp := List.prefix_or_prefix_of_prefix hp (List.prefix_append _ _)
    case inl => exact prefix_free _ (mem_all _) _ (mem_all _) hp
    case inr => exact (prefix_free _ (mem_all _) _ (mem_all _) hp).symm
  cases hl
  exact ⟨rfl, List.append_cancel_left h⟩

theorem isQueue_of_isInserted {label : EntityLabel} (h : label.isInserted) :
    label.isQueue = false := by
  cases label <;> first | rfl | cases h

theorem isList_of_isInserted {label : EntityLabel} (h : label.isInserted) :
    label.isList = false := by
  cases label <;> first | rfl | cases h

theorem isInserted_of_isList {label : EntityLabel} (h : label.isList) :
    label.isInserted = false := by
  cases label <;> first | rfl | cases h

theorem head_ne_bracket : ∀ label ∈ all, label.bytes.head? ≠ some 91 := by
  decide

end EntityLabel

namespace EncryptedMlsStorage

open Serde Std

theorem buildKeyFromVec_injective {label label' : EntityLabel} {key key' : Bytes}
    (h : buildKeyFromVec label key = buildKeyFromVec label' key') : label = label' ∧ key = key' :=
  EntityLabel.append_injective <| List.append_cancel_right h

-- A serialized tuple is not a key of the storage.
theorem buildKeyFromVec_ne_pair {α β : Type} [Serde α] [Serde β] {p : α × β} {raw : Bytes}
    (h : toVec p = some raw) (label : EntityLabel) (key : Bytes) :
    buildKeyFromVec label key ≠ raw := by
  obtain ⟨text, ht, rfl⟩ := Option.map_eq_some_iff.mp h
  simp only [Serde.write, Option.bind_eq_bind, Option.bind_eq_some_iff, Option.pure_def,
    Option.some.injEq] at ht
  obtain ⟨text₁, _, text₂, _, rfl⟩ := ht
  intro he
  have hr : (Bytes.utf8 (Json.array [text₁, text₂])).head? = some 91 := by
    rw [Json.array, Bytes.utf8_append, Bytes.utf8_append]
    rfl
  have hb : (buildKeyFromVec label key).head? = label.bytes.head? := by
    rw [buildKeyFromVec, List.append_assoc, List.head?_append]
    cases label <;> rfl
  exact EntityLabel.head_ne_bracket label (EntityLabel.mem_all label) (hb ▸ he ▸ hr)

-- The value of a kind under a key.
def valueAt (storage : EncryptedMlsStorage) (label : EntityLabel) (key : Bytes) : Option Bytes :=
  storage.values[buildKeyFromVec label key]?

-- The list of a kind under a key, if it can be read.
def listAt (storage : EncryptedMlsStorage) (label : EntityLabel) (key : Bytes) :
    Option (List Bytes) :=
  (storage.valueAt label key).elim (some []) fromSlice

def placed (storage : EncryptedMlsStorage) (label : EntityLabel) (key value : Bytes) :
    EncryptedMlsStorage :=
  ⟨storage.values.insert (buildKeyFromVec label key) value⟩

section

variable {storage storage' : EncryptedMlsStorage} {label label' : EntityLabel}
  {key key' value raw : Bytes} {list : List Bytes}

theorem valueAt_placed : (storage.placed label key value).valueAt label' key' =
    if label' = label ∧ key' = key then some value else storage.valueAt label' key' := by
  simp only [valueAt, placed, ExtTreeMap.getElem?_insert, LawfulEqOrd.compare_eq_iff_eq]
  by_cases h : label' = label ∧ key' = key
  case pos => simp [h.left, h.right]
  case neg =>
    rw [if_neg h, if_neg]
    exact fun hk => h (And.imp Eq.symm Eq.symm (buildKeyFromVec_injective hk))

theorem valueAt_erase : (⟨storage.values.erase (buildKeyFromVec label key)⟩ :
    EncryptedMlsStorage).valueAt label' key' =
      if label' = label ∧ key' = key then none else storage.valueAt label' key' := by
  simp only [valueAt, ExtTreeMap.getElem?_erase, LawfulEqOrd.compare_eq_iff_eq]
  by_cases h : label' = label ∧ key' = key
  case pos => simp [h.left, h.right]
  case neg =>
    rw [if_neg h, if_neg]
    exact fun hk => h (And.imp Eq.symm Eq.symm (buildKeyFromVec_injective hk))

theorem valueAt_erase_raw (h : ∀ label key, buildKeyFromVec label key ≠ raw) :
    (⟨storage.values.erase raw⟩ : EncryptedMlsStorage).valueAt label key =
      storage.valueAt label key := by
  simp only [valueAt, ExtTreeMap.getElem?_erase, LawfulEqOrd.compare_eq_iff_eq]
  exact if_neg fun hk => h label key hk.symm

theorem toVec_nil : toVec ([] : List Bytes) = some (Bytes.utf8 "[]") := by
  rfl

theorem isSome_toVec_lists (list : List Bytes) : (toVec list).isSome :=
  isSome_toVec_list (isSome_toVec_list fun _ => rfl) list

theorem listEntry_eq : storage.listEntry label key =
    ((storage.valueAt label key).getD (Bytes.utf8 "[]"), (storage.listEntry label key).snd) := by
  simp [listEntry, valueAt, ExtTreeMap.getD_eq_getD_getElem?]

theorem fromSlice_listEntry :
    fromSlice (storage.listEntry label key).fst = storage.listAt label key := by
  rw [listEntry_eq, listAt]
  cases storage.valueAt label key
  case none   => exact fromSlice_toVec toVec_nil
  case some _ => rfl

-- The entry of a list changes the storage only where there was none.
theorem listEntry_snd : (storage.listEntry label key).snd =
    storage.placed label key ((storage.valueAt label key).getD (Bytes.utf8 "[]")) := by
  refine congrArg mk <| ExtTreeMap.ext_getElem? fun k => ?_
  simp only [ExtTreeMap.getElem?_insert, ExtTreeMap.getElem?_insertIfNew,
    LawfulEqOrd.compare_eq_iff_eq]
  by_cases hk : buildKeyFromVec label key = k
  case neg => simp [hk]
  case pos =>
    cases hv : storage.values[k]?
    case none   =>
      have hm : k ∉ storage.values := by simp [ExtTreeMap.mem_iff_isSome_getElem?, hv]
      simp [hk, valueAt, hm]
    case some v =>
      have hm : k ∈ storage.values := by simp [ExtTreeMap.mem_iff_isSome_getElem?, hv]
      rw [if_neg fun hn => hn.right (hk ▸ hm), if_pos hk, valueAt, hk, hv]
      rfl

theorem valueAt_listEntry : (storage.listEntry label key).snd.valueAt label' key' =
    if label' = label ∧ key' = key then some ((storage.valueAt label key).getD (Bytes.utf8 "[]"))
    else storage.valueAt label' key' := by
  rw [listEntry_snd, valueAt_placed]

theorem listAt_listEntry : (storage.listEntry label key).snd.listAt label' key' =
    storage.listAt label' key' := by
  rw [listAt, valueAt_listEntry]
  split
  case isTrue h =>
    obtain ⟨rfl, rfl⟩ := h
    rw [listAt]
    cases storage.valueAt label' key'
    case none   => exact fromSlice_toVec toVec_nil
    case some _ => rfl
  case isFalse => rfl

theorem placed_listEntry :
    (storage.listEntry label key).snd.placed label key value = storage.placed label key value := by
  refine congrArg mk <| ExtTreeMap.ext_getElem? fun k => ?_
  simp only [listEntry, ExtTreeMap.getElem?_insert, ExtTreeMap.getElem?_insertIfNew,
    LawfulEqOrd.compare_eq_iff_eq]
  by_cases hk : buildKeyFromVec label key = k <;> simp [hk]

theorem listAt_placed (h : toVec list = some value) : (storage.placed label key value).listAt label' key' =
    if label' = label ∧ key' = key then some list else storage.listAt label' key' := by
  rw [listAt, valueAt_placed]
  split
  case isTrue  => exact fromSlice_toVec h
  case isFalse => rfl

-- What each of the basic operations can do.

inductive Writes (storage : EncryptedMlsStorage) (label : EntityLabel) (key value : Bytes) :
    Result Unit × EncryptedMlsStorage → Prop
  | written (small : value.length ≤ maxMlsValueBytes)
    (room : buildKeyFromVec label key ∈ storage.values ∨ storage.values.size < maxMlsValues) :
    Writes storage label key value (.ok (), storage.placed label key value)
  | refused : Writes storage label key value (.error .storageLimit, storage)

theorem write_writes (storage : EncryptedMlsStorage) (label : EntityLabel) (key value : Bytes) :
    storage.Writes label key value (storage.write label key value) := by
  unfold write
  split
  case isTrue    => exact .refused
  case isFalse h =>
    split
    case isTrue     => exact .refused
    case isFalse hr =>
      refine .written (Nat.not_lt.mp h) ?_
      simpa [Decidable.or_iff_not_imp_left, ← ExtTreeMap.contains_iff_mem] using hr

inductive Appends (storage : EncryptedMlsStorage) (label : EntityLabel) (key value : Bytes) :
    Result Unit × EncryptedMlsStorage → Prop
  | appended {list : List Bytes} {encoded : Bytes} (held : storage.listAt label key = some list)
    (room : list.length < maxMlsValues) (encodes : toVec (list ++ [value]) = some encoded)
    (small : encoded.length ≤ maxMlsValueBytes) :
    Appends storage label key value (.ok (), storage.placed label key encoded)
  | refused {e : EncryptedMlsStorageError} :
    Appends storage label key value (.error e, (storage.listEntry label key).snd)

theorem append_appends (storage : EncryptedMlsStorage) (label : EntityLabel) (key value : Bytes) :
    storage.Appends label key value (storage.append label key value) := by
  simp only [append, fromSlice_listEntry]
  cases hl : storage.listAt label key
  case none      => exact .refused
  case some list =>
    simp only
    split
    case isTrue      => exact .refused
    case isFalse hr =>
      cases he : toVec (list ++ [value])
      case none         => exact .refused
      case some encoded =>
        simp only
        split
        case isTrue      => exact .refused
        case isFalse hs =>
          have h := Appends.appended hl (Nat.not_le.mp hr) he (Nat.not_lt.mp hs)
          rw [← placed_listEntry] at h
          exact h

inductive RemovesItem (storage : EncryptedMlsStorage) (label : EntityLabel) (key value : Bytes) :
    Result Unit × EncryptedMlsStorage → Prop
  | removed {list : List Bytes} {encoded : Bytes} (held : storage.listAt label key = some list)
    (encodes : toVec (list.erase value) = some encoded) :
    RemovesItem storage label key value (.ok (), storage.placed label key encoded)
  | refused (held : storage.listAt label key = none) :
    RemovesItem storage label key value
      (.error .serializationError, (storage.listEntry label key).snd)

theorem removeItem_removesItem (storage : EncryptedMlsStorage) (label : EntityLabel)
    (key value : Bytes) :
    storage.RemovesItem label key value (storage.removeItem label key value) := by
  simp only [removeItem, fromSlice_listEntry]
  cases hl : storage.listAt label key
  case none      => exact .refused hl
  case some list =>
    obtain ⟨encoded, he⟩ := Option.isSome_iff_exists.mp (isSome_toVec_lists (list.erase value))
    have h := RemovesItem.removed hl he
    rw [← placed_listEntry] at h
    simp only [he]
    exact h

end

end EncryptedMlsStorage
