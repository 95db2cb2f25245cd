import AnotherDimension.Library.Run
import AnotherDimension.Mls.Theorems.Provider

-- The proposals that are queued for a group are found in the storage, and cleared ones stay in it.

def MlsStorageCall.isOfQueue {γ ρ π : Type} : MlsStorageCall γ ρ π → Bool
  | queueProposal .. | removeProposal .. | clearProposalQueue .. => true
  | _                                                            => false

namespace EncryptedMlsStorage

open Serde

variable {γ ρ π : Type} [Serde γ] [Serde ρ] [Serde π] {storage storage' : EncryptedMlsStorage}
  {groupId : γ} {proposalRef : ρ} {proposal : π} {label : EntityLabel} {key value : Bytes}

-- The references of all queues are the same.
def SameRefs (storage storage' : EncryptedMlsStorage) : Prop :=
  ∀ key, storage'.listAt .proposalQueueRefs key = storage.listAt .proposalQueueRefs key

-- The stored proposals are the same.
def SameProposals (storage storage' : EncryptedMlsStorage) : Prop :=
  ∀ key, storage'.valueAt .queuedProposal key = storage.valueAt .queuedProposal key

theorem SameRefs.of_valueAt
    (h : ∀ key, storage'.valueAt .proposalQueueRefs key = storage.valueAt .proposalQueueRefs key) :
    SameRefs storage storage' := fun key => by
  rw [listAt, listAt, h]

theorem sameRefs_placed (h : label ≠ .proposalQueueRefs) :
    SameRefs storage (storage.placed label key value) :=
  .of_valueAt fun key => by rw [valueAt_placed, if_neg fun hl => h hl.left.symm]

theorem sameProposals_placed (h : label ≠ .queuedProposal) :
    SameProposals storage (storage.placed label key value) := fun key => by
  rw [valueAt_placed, if_neg fun hl => h hl.left.symm]

theorem sameRefs_erase (h : label ≠ .proposalQueueRefs) :
    SameRefs storage ⟨storage.values.erase (buildKeyFromVec label key)⟩ :=
  .of_valueAt fun _ => valueAt_erase.trans (if_neg fun hl => h hl.left.symm)

theorem sameProposals_erase (h : label ≠ .queuedProposal) :
    SameProposals storage ⟨storage.values.erase (buildKeyFromVec label key)⟩ := fun _ =>
  valueAt_erase.trans (if_neg fun hl => h hl.left.symm)

theorem sameProposals_listEntry (h : label ≠ .queuedProposal) :
    SameProposals storage (storage.listEntry label key).snd := fun key => by
  rw [valueAt_listEntry, if_neg fun hl => h hl.left.symm]

-- The calls for the other kinds of values leave the queues alone.

def SameQueues (storage storage' : EncryptedMlsStorage) : Prop :=
  SameRefs storage storage' ∧ SameProposals storage storage'

theorem SameQueues.refl (storage : EncryptedMlsStorage) : SameQueues storage storage :=
  ⟨fun _ => rfl, fun _ => rfl⟩

theorem ne_of_isQueue_eq_false (h : label.isQueue = false) :
    label ≠ .proposalQueueRefs ∧ label ≠ .queuedProposal := by
  constructor <;> rintro rfl <;> cases h

theorem sameQueues_placed (h : label.isQueue = false) :
    SameQueues storage (storage.placed label key value) := by
  obtain ⟨hr, hp⟩ := ne_of_isQueue_eq_false h
  exact ⟨sameRefs_placed hr, sameProposals_placed hp⟩

theorem call_other {call : MlsStorageCall γ ρ π} (h : call.isOfQueue = false) :
    SameQueues storage (storage.call call).snd := by
  cases call
  case write label key value hl =>
    simp only [EncryptedMlsStorage.call, writeSerialized]
    split
    case h_1 key value =>
      have hw := write_writes storage label key value
      generalize storage.write label key value = result at hw
      cases hw
      case written => exact sameQueues_placed (by simpa using hl.right.right)
      case refused => exact .refl storage
    case h_2 => exact .refl storage
  case insert label key value hl =>
    simp only [EncryptedMlsStorage.call, insertSerialized]
    split
    case h_1 => exact sameQueues_placed (EntityLabel.isQueue_of_isInserted hl)
    case h_2 => exact .refl storage
  case delete label key hl =>
    simp only [EncryptedMlsStorage.call, deleteSerialized]
    split
    case h_1 =>
      obtain ⟨hr, hp⟩ := ne_of_isQueue_eq_false (by simpa using hl)
      exact ⟨sameRefs_erase hr, sameProposals_erase hp⟩
    case h_2 => exact .refl storage
  case appendOwnLeafNode key value =>
    simp only [EncryptedMlsStorage.call, appendSerialized]
    split
    case h_1 key value =>
      have ha := append_appends storage .ownLeafNodes key value
      generalize storage.append .ownLeafNodes key value = result at ha
      cases ha
      case appended => exact sameQueues_placed rfl
      case refused  => exact ⟨fun _ => listAt_listEntry, sameProposals_listEntry (by decide)⟩
    case h_2 => exact .refl storage
  case queueProposal      => cases h
  case removeProposal     => cases h
  case clearProposalQueue => cases h

inductive Queues (storage : EncryptedMlsStorage) (groupId : γ) (proposalRef : ρ) (proposal : π) :
    Result Unit × EncryptedMlsStorage → Prop
  | queued {key groupKey ref value : Bytes} {list : List Bytes} {storage' : EncryptedMlsStorage}
    (pair : toVec (groupId, proposalRef) = some key) (group : toVec groupId = some groupKey)
    (reference : toVec proposalRef = some ref) (content : toVec proposal = some value)
    (held : storage.listAt .proposalQueueRefs groupKey = some list)
    (refs : ∀ k, storage'.listAt .proposalQueueRefs k =
      if k = groupKey then some (list ++ [ref]) else storage.listAt .proposalQueueRefs k)
    (proposals : ∀ k, storage'.valueAt .queuedProposal k =
      if k = key then some value else storage.valueAt .queuedProposal k) :
    Queues storage groupId proposalRef proposal (.ok (), storage')
  | refused {e : EncryptedMlsStorageError} {storage' : EncryptedMlsStorage}
    (refs : SameRefs storage storage')
    (proposals : ∀ k, toVec (groupId, proposalRef) ≠ some k →
      storage'.valueAt .queuedProposal k = storage.valueAt .queuedProposal k)
    (kept : ∀ k, (storage.valueAt .queuedProposal k).isSome →
      (storage'.valueAt .queuedProposal k).isSome) :
    Queues storage groupId proposalRef proposal (.error e, storage')

theorem queueProposal_queues (storage : EncryptedMlsStorage) (groupId : γ) (proposalRef : ρ)
    (proposal : π) : storage.Queues groupId proposalRef proposal
      (storage.queueProposal groupId proposalRef proposal) := by
  have same {e : EncryptedMlsStorageError} :
      storage.Queues groupId proposalRef proposal (.error e, storage) :=
    .refused (fun _ => rfl) (fun _ _ => rfl) fun _ h => h
  unfold queueProposal writeSerialized
  cases hk : toVec (groupId, proposalRef)
  case none => exact same
  case some key =>
    cases hv : toVec proposal
    case none => exact same
    case some value =>
      obtain ⟨groupKey, ref, hg, hr⟩ := toVec_pair hk
      have hw := write_writes storage .queuedProposal key value
      simp only [appendSerialized, hg, hr]
      generalize storage.write .queuedProposal key value = result at hw
      cases hw
      case refused => exact same
      case written =>
        have hp (k : Bytes) : (storage.placed .queuedProposal key value).valueAt .queuedProposal k =
            if k = key then some value else storage.valueAt .queuedProposal k := by
          simp [valueAt_placed]
        have ha := append_appends (storage.placed .queuedProposal key value) .proposalQueueRefs
          groupKey ref
        show storage.Queues groupId proposalRef proposal
          ((storage.placed .queuedProposal key value).append .proposalQueueRefs groupKey ref)
        generalize append _ _ _ _ = result at ha ⊢
        cases ha
        case appended list encoded held _ encodes _ =>
          rw [sameRefs_placed (by decide)] at held
          refine .queued hk hg hr hv held (fun k => ?_) fun k => ?_
          case refine_1 =>
            rw [listAt_placed encodes, sameRefs_placed (by decide)]
            simp
          case refine_2 => rw [sameProposals_placed (by decide), hp]
        case refused =>
          have same := @sameProposals_listEntry (storage.placed .queuedProposal key value)
            .proposalQueueRefs groupKey (by decide)
          refine .refused (fun k => ?_) (fun k hn => ?_) fun k hs => ?_
          case refine_1 => rw [listAt_listEntry, sameRefs_placed (by decide)]
          case refine_2 => rw [same, hp, if_neg fun h : k = key => hn (h ▸ hk)]
          case refine_3 =>
            rw [same, hp]
            split
            case isTrue  => rfl
            case isFalse => exact hs

inductive Removes (storage : EncryptedMlsStorage) (groupId : γ) (proposalRef : ρ) :
    Result Unit × EncryptedMlsStorage → Prop
  | removed {key groupKey ref : Bytes} {list : List Bytes} {storage' : EncryptedMlsStorage}
    (pair : toVec (groupId, proposalRef) = some key) (group : toVec groupId = some groupKey)
    (reference : toVec proposalRef = some ref)
    (held : storage.listAt .proposalQueueRefs groupKey = some list)
    (refs : ∀ k, storage'.listAt .proposalQueueRefs k =
      if k = groupKey then some (list.erase ref) else storage.listAt .proposalQueueRefs k)
    (proposals : ∀ k, storage'.valueAt .queuedProposal k =
      if k = key then none else storage.valueAt .queuedProposal k) :
    Removes storage groupId proposalRef (.ok (), storage')
  | refused {e : EncryptedMlsStorageError} {storage' : EncryptedMlsStorage}
    (refs : SameRefs storage storage') (proposals : SameProposals storage storage')
    (unread : ∀ groupKey ref, toVec groupId = some groupKey → toVec proposalRef = some ref →
      storage.listAt .proposalQueueRefs groupKey = none) :
    Removes storage groupId proposalRef (.error e, storage')

theorem removeProposal_removes (storage : EncryptedMlsStorage) (groupId : γ) (proposalRef : ρ) :
    storage.Removes groupId proposalRef (storage.removeProposal groupId proposalRef) := by
  rw [removeProposal]
  cases hg : toVec groupId
  case none => exact .refused (fun _ => rfl) (fun _ => rfl) (by simp [hg])
  case some groupKey =>
    cases hr : toVec proposalRef
    case none => exact .refused (fun _ => rfl) (fun _ => rfl) (by simp [hr])
    case some ref =>
      obtain ⟨key, hk⟩ := toVec_pair_of hg hr
      have hi := removeItem_removesItem storage .proposalQueueRefs groupKey ref
      simp only [hk, deleteSerialized, delete]
      generalize storage.removeItem .proposalQueueRefs groupKey ref = result at hi
      cases hi
      case refused held =>
        refine .refused (fun _ => listAt_listEntry) (sameProposals_listEntry (by decide))
          fun k _ hk _ => ?_
        cases hg.symm.trans hk
        exact held
      case removed list encoded held encodes =>
        refine .removed hk hg hr held (fun k => ?_) fun k => ?_
        case refine_1 =>
          rw [sameRefs_erase (by decide), listAt_placed encodes]
          simp
        case refine_2 =>
          rw [valueAt_erase, sameProposals_placed (by decide)]
          simp

inductive Clears (storage : EncryptedMlsStorage) (groupId : γ) :
    Result Unit × EncryptedMlsStorage → Prop
  | cleared {groupKey : Bytes} {storage' : EncryptedMlsStorage}
    (group : toVec groupId = some groupKey)
    (refs : ∀ k, storage'.listAt .proposalQueueRefs k =
      if k = groupKey then some [] else storage.listAt .proposalQueueRefs k)
    (proposals : SameProposals storage storage') : Clears storage groupId (.ok (), storage')
  | refused {e : EncryptedMlsStorageError} {storage' : EncryptedMlsStorage}
    (refs : SameRefs storage storage') (proposals : SameProposals storage storage') :
    Clears storage groupId (.error e, storage')

-- The loop removes keys that no value stands under.
theorem removeRaw_valueAt (groupId : γ) (refs : List ρ) (storage : EncryptedMlsStorage) (label : EntityLabel)
    (key : Bytes) :
    (removeRaw groupId refs storage).snd.valueAt label key = storage.valueAt label key := by
  induction refs generalizing storage
  case nil => rfl
  case cons proposalRef refs hi =>
    rw [removeRaw]
    cases hk : toVec (groupId, proposalRef)
    case none     => rfl
    case some raw => exact (hi _).trans (valueAt_erase_raw (buildKeyFromVec_ne_pair hk))

theorem clearProposalQueue_clears (storage : EncryptedMlsStorage) (groupId : γ) :
    storage.Clears groupId (storage.clearProposalQueue ρ groupId) := by
  rw [clearProposalQueue]
  cases hq : (storage.queuedProposalRefs groupId : Result (List ρ))
  case error => exact .refused (fun _ => rfl) fun _ => rfl
  case ok refs =>
    have hv := removeRaw_valueAt groupId refs storage
    rcases hr : removeRaw groupId refs storage with ⟨_ | _, storage'⟩ <;> simp only [hr] at hv ⊢
    case error => exact .refused (.of_valueAt (hv _)) (hv _)
    case ok =>
      unfold deleteSerialized
      cases hg : toVec groupId
      case none          => exact .refused (.of_valueAt (hv _)) (hv _)
      case some groupKey =>
        refine .cleared hg (fun k => ?_) fun k => ?_
        case refine_1 =>
          simp only [listAt, valueAt_erase, hv, true_and]
          split <;> rfl
        case refine_2 => exact (sameProposals_erase (by decide) k).trans (hv _ k)

end EncryptedMlsStorage

-- What the queues are for: the proposals of each group, in the order in which they were queued.
abbrev ProposalQueues (γ ρ π : Type) := γ → List (ρ × π)

namespace ProposalQueues

variable {γ ρ π : Type} [DecidableEq γ] [DecidableEq ρ]

def apply (queues : ProposalQueues γ ρ π) : MlsStorageCall γ ρ π → ProposalQueues γ ρ π
  | .queueProposal groupId proposalRef proposal =>
    Function.update queues groupId (queues groupId ++ [(proposalRef, proposal)])
  | .removeProposal groupId proposalRef          =>
    Function.update queues groupId ((queues groupId).filter (·.fst ≠ proposalRef))
  | .clearProposalQueue groupId                  => Function.update queues groupId []
  | _                                            => queues

-- No reference is queued that is in the queue already.
def IsFresh (queues : ProposalQueues γ ρ π) : MlsStorageCall γ ρ π → Prop
  | .queueProposal groupId proposalRef _ => proposalRef ∉ (queues groupId).map Prod.fst
  | _                                    => True

theorem apply_other {queues : ProposalQueues γ ρ π} {call : MlsStorageCall γ ρ π}
    (h : call.isOfQueue = false) : queues.apply call = queues := by
  cases call
  case queueProposal      => cases h
  case removeProposal     => cases h
  case clearProposalQueue => cases h
  all_goals rfl

theorem map_fst_filter {ρ π : Type} [DecidableEq ρ] {entries : List (ρ × π)} (proposalRef : ρ)
    (h : (entries.map Prod.fst).Nodup) :
    (entries.filter (·.fst ≠ proposalRef)).map Prod.fst =
      (entries.map Prod.fst).erase proposalRef := by
  rw [h.erase_eq_filter, List.filter_map]
  congr 2
  funext entry
  simp [bne, Function.comp_apply, beq_eq_decide]

end ProposalQueues

namespace EncryptedMlsStorage

open Serde

variable {γ ρ π : Type} [Serde γ] [Serde ρ] [Serde π] {storage storage' : EncryptedMlsStorage}
  {queues : ProposalQueues γ ρ π} {groupId : γ}

def Serializes {α : Type} [Serde α] (a : α) (bytes : Bytes) : Prop :=
  toVec a = some bytes

-- The storage holds the queues.
structure Refines (storage : EncryptedMlsStorage) (queues : ProposalQueues γ ρ π) : Prop where
  refs      : ∀ groupId groupKey, toVec groupId = some groupKey →
    ∃ list, storage.listAt .proposalQueueRefs groupKey = some list ∧
      List.Forall₂ Serializes ((queues groupId).map Prod.fst) list
  proposals : ∀ groupId, ∀ entry ∈ queues groupId, ∃ key value,
    toVec (groupId, entry.fst) = some key ∧ toVec entry.snd = some value ∧
      storage.valueAt .queuedProposal key = some value
  nodup     : ∀ groupId, ((queues groupId).map Prod.fst).Nodup

namespace Refines

theorem empty : Refines .empty (fun _ => [] : ProposalQueues γ ρ π) where
  refs _ _ _         := ⟨[], rfl, .nil⟩
  proposals _ _ h    := absurd h List.not_mem_nil
  nodup _            := .nil

theorem same (h : Refines storage queues) (hr : SameRefs storage storage')
    (hp : SameProposals storage storage') : Refines storage' queues where
  refs groupId groupKey hg       := hr groupKey ▸ h.refs groupId groupKey hg
  proposals groupId entry hentry := by
    obtain ⟨key, value, hk, hv, hs⟩ := h.proposals groupId entry hentry
    exact ⟨key, value, hk, hv, (hp key).trans hs⟩
  nodup                          := h.nodup

theorem mapM_fromSlice {α : Type} [Serde α] [LawfulSerde α] {as : List α} {list : List Bytes}
    (h : List.Forall₂ Serializes as list) : list.mapM fromSlice = some as :=
  Option.mapM_eq_some_iff.mpr <| h.flip.imp fun _ _ ha => fromSlice_toVec ha

variable [LawfulSerde ρ]

theorem queuedProposalRefs_of_listAt {groupKey : Bytes} {list : List Bytes} {refs : List ρ}
    (hg : toVec groupId = some groupKey)
    (hl : storage.listAt .proposalQueueRefs groupKey = some list)
    (hr : List.Forall₂ Serializes refs list) : storage.queuedProposalRefs groupId = .ok refs := by
  replace hr := mapM_fromSlice hr
  simp only [EncryptedMlsStorage.queuedProposalRefs, readListSerialized, hg, orSerializationError]
  show storage.readList _ groupKey = _
  unfold readList
  rw [listAt, valueAt] at hl
  cases hv : storage.values[buildKeyFromVec .proposalQueueRefs groupKey]?
  case none =>
    rw [hv] at hl
    cases hl
    exact congrArg _ (Option.some.inj hr)
  case some bytes =>
    rw [hv] at hl
    replace hl : fromSlice bytes = some list := hl
    simp [hl, hr, orSerializationError]

theorem queuedProposalRefs (h : Refines storage queues) (hg : (toVec groupId).isSome) :
    storage.queuedProposalRefs groupId = .ok ((queues groupId).map Prod.fst) := by
  obtain ⟨groupKey, hg⟩ := Option.isSome_iff_exists.mp hg
  obtain ⟨list, hl, hr⟩ := h.refs groupId groupKey hg
  exact queuedProposalRefs_of_listAt hg hl hr

-- The queue that is read is the queue.
theorem queuedProposals [LawfulSerde π] (h : Refines storage queues) (hg : (toVec groupId).isSome) :
    storage.queuedProposals groupId = .ok (queues groupId) := by
  unfold EncryptedMlsStorage.queuedProposals
  refine Except.bind_eq_ok.mpr ⟨_, h.queuedProposalRefs hg, ?_⟩
  refine Except.mapM_eq_ok_iff.mpr <| List.forall₂_map_left_iff.mpr <| List.forall₂_same.mpr ?_
  intro entry he
  obtain ⟨key, value, hk, hv, hs⟩ := h.proposals groupId entry he
  have hr : storage.read .queuedProposal key = .ok (some entry.snd) := by
    rw [valueAt] at hs
    simp [EncryptedMlsStorage.read, hs, fromSlice_toVec hv, orSerializationError, Except.map]
  refine Except.bind_eq_ok.mpr ⟨key, by simp [hk, orSerializationError], ?_⟩
  exact Except.bind_eq_ok.mpr ⟨_, hr, rfl⟩

theorem serializes_erase [DecidableEq ρ] {refs : List ρ} {list : List Bytes} {proposalRef : ρ}
    {ref : Bytes} (h : List.Forall₂ Serializes refs list) (hr : toVec proposalRef = some ref) :
    List.Forall₂ Serializes (refs.erase proposalRef) (list.erase ref) := by
  induction h
  case nil => exact .nil
  case cons first bytes refs list hf ht hi =>
    by_cases he : first = proposalRef
    case pos =>
      have hb : bytes = ref := Option.some.inj <| (he ▸ hf : toVec proposalRef = _).symm.trans hr
      simpa [he, hb] using ht
    case neg =>
      have hb : bytes ≠ ref := fun hb => he (toVec_injective (hb ▸ hf) hr)
      rw [List.erase_cons_tail (by simpa using he), List.erase_cons_tail (by simpa using hb)]
      exact .cons hf hi

variable [LawfulSerde γ] [DecidableEq γ]

-- Where one group gets a new queue, and only its proposals change.
theorem update {groupKey : Bytes} {list : List Bytes} {entries : List (ρ × π)}
    (h : Refines storage queues) (group : toVec groupId = some groupKey)
    (refs : ∀ k, storage'.listAt .proposalQueueRefs k =
      if k = groupKey then some list else storage.listAt .proposalQueueRefs k)
    (others : ∀ k, (∀ proposalRef : ρ, toVec (groupId, proposalRef) ≠ some k) →
      storage'.valueAt .queuedProposal k = storage.valueAt .queuedProposal k)
    (held : List.Forall₂ Serializes (entries.map Prod.fst) list)
    (stored : ∀ entry ∈ entries, ∃ key value, toVec (groupId, entry.fst) = some key ∧
      toVec entry.snd = some value ∧ storage'.valueAt .queuedProposal key = some value)
    (nodup : (entries.map Prod.fst).Nodup) :
    Refines storage' (Function.update queues groupId entries) := by
  refine ⟨fun g gk hg => ?_, fun g => ?_, fun g => ?_⟩
  all_goals by_cases hgroup : g = groupId
  case pos =>
    cases hgroup
    cases hg.symm.trans group
    exact ⟨list, by simp [refs], by simpa using held⟩
  case neg =>
    have hk : gk ≠ groupKey := fun hk => hgroup (toVec_injective (hk ▸ hg) group)
    simpa [refs, hk, hgroup] using h.refs g gk hg
  case pos =>
    cases hgroup
    simpa using stored
  case neg =>
    rw [Function.update_of_ne hgroup]
    intro entry he
    obtain ⟨key, value, hk, hv, hs⟩ := h.proposals g entry he
    refine ⟨key, value, hk, hv, (others key fun r hr => hgroup ?_).trans hs⟩
    exact congrArg Prod.fst (toVec_injective hk hr)
  case pos =>
    cases hgroup
    simpa using nodup
  case neg => simpa [hgroup] using h.nodup g

variable [DecidableEq ρ] {proposalRef : ρ} {proposal : π}

theorem queue {result : Result Unit × EncryptedMlsStorage} (h : Refines storage queues)
    (fresh : proposalRef ∉ (queues groupId).map Prod.fst)
    (hq : storage.Queues groupId proposalRef proposal result) :
    Refines result.snd
      (if result.fst.isOk then queues.apply (.queueProposal groupId proposalRef proposal)
      else queues) := by
  cases hq
  case queued key groupKey ref value list storage' pair group reference content held refs proposals =>
    obtain ⟨_, hl, hs⟩ := h.refs groupId groupKey group
    cases held.symm.trans hl
    refine h.update group refs (fun k hk => ?_) ?_ (fun entry he => ?_) ?_
    case refine_1 => rw [proposals, if_neg fun he : k = key => hk _ (he ▸ pair)]
    case refine_2 =>
      rw [List.map_append]
      exact List.rel_append hs (.cons reference .nil)
    case refine_3 =>
      obtain hm | hm := List.mem_append.mp he
      case inl =>
        obtain ⟨k, v, hk, hv, hs⟩ := h.proposals groupId entry hm
        refine ⟨k, v, hk, hv, ?_⟩
        rw [proposals, if_neg fun hkey : k = key => ?_, hs]
        cases toVec_injective hk (hkey ▸ pair)
        exact fresh (List.mem_map_of_mem hm)
      case inr =>
        cases List.mem_singleton.mp hm
        exact ⟨key, value, pair, content, by simp [proposals]⟩
    case refine_4 =>
      rw [List.map_append]
      exact (h.nodup groupId).append (List.nodup_singleton _) (by simpa using fresh)
  case refused refs proposals _ =>
    refine ⟨fun g gk hg => (refs gk).symm ▸ h.refs g gk hg, fun g entry he => ?_, h.nodup⟩
    obtain ⟨key, value, hk, hv, hs⟩ := h.proposals g entry he
    refine ⟨key, value, hk, hv, ?_⟩
    rw [proposals key fun hp => ?_, hs]
    cases toVec_injective hk hp
    exact fresh (List.mem_map_of_mem he)

theorem remove {result : Result Unit × EncryptedMlsStorage} (h : Refines storage queues)
    (hr : storage.Removes groupId proposalRef result) :
    Refines result.snd
      (if result.fst.isOk then queues.apply (.removeProposal groupId proposalRef) else queues) := by
  cases hr
  case removed key groupKey ref list storage' pair group reference held refs proposals =>
    obtain ⟨_, hl, hs⟩ := h.refs groupId groupKey group
    cases held.symm.trans hl
    have hf := ProposalQueues.map_fst_filter proposalRef (h.nodup groupId)
    refine h.update group refs (fun k hk => ?_) ?_ (fun entry he => ?_) ?_
    case refine_1 => rw [proposals, if_neg fun he : k = key => hk _ (he ▸ pair)]
    case refine_2 =>
      rw [hf]
      exact serializes_erase hs reference
    case refine_3 =>
      obtain ⟨he, hne⟩ := List.mem_filter.mp he
      obtain ⟨k, v, hk, hv, hs⟩ := h.proposals groupId entry he
      refine ⟨k, v, hk, hv, ?_⟩
      rw [proposals, if_neg fun hkey : k = key => ?_, hs]
      cases toVec_injective hk (hkey ▸ pair)
      simp at hne
    case refine_4 =>
      rw [hf]
      exact (h.nodup groupId).erase _
  case refused refs proposals _ => exact h.same refs proposals

theorem clear {result : Result Unit × EncryptedMlsStorage} (h : Refines storage queues)
    (hc : storage.Clears groupId result) :
    Refines result.snd
      (if result.fst.isOk then queues.apply (.clearProposalQueue groupId) else queues) := by
  cases hc
  case cleared group refs proposals =>
    exact h.update group refs (fun k _ => proposals k) .nil (fun _ he => absurd he List.not_mem_nil)
      .nil
  case refused refs proposals => exact h.same refs proposals

-- What one call does to the storage it does to the queues, when it succeeds.
theorem call {call : MlsStorageCall γ ρ π} (h : Refines storage queues) (fresh : queues.IsFresh call) :
    Refines (storage.call call).snd
      (if (storage.call call).fst.isOk then queues.apply call else queues) := by
  cases hq : call.isOfQueue
  case false =>
    rw [ProposalQueues.apply_other hq, ite_self]
    obtain ⟨refs, proposals⟩ := @call_other _ _ _ _ _ _ storage _ hq
    exact h.same refs proposals
  case true =>
    cases call
    case queueProposal groupId proposalRef proposal =>
      exact h.queue fresh (queueProposal_queues storage groupId proposalRef proposal)
    case removeProposal groupId proposalRef =>
      exact h.remove (removeProposal_removes storage groupId proposalRef)
    case clearProposalQueue groupId =>
      exact h.clear (clearProposalQueue_clears storage groupId)
    all_goals cases hq

end Refines

-- The storage and beside it the queues that the successful calls make.
def track [DecidableEq γ] [DecidableEq ρ] (state : EncryptedMlsStorage × ProposalQueues γ ρ π)
    (call : MlsStorageCall γ ρ π) : EncryptedMlsStorage × ProposalQueues γ ρ π :=
  ((state.fst.call call).snd,
    if (state.fst.call call).fst.isOk then state.snd.apply call else state.snd)

-- Whatever else is written and whichever calls fail, the queue of a group is read as it is.
theorem queuedProposals_run [LawfulSerde γ] [LawfulSerde ρ] [LawfulSerde π] [DecidableEq γ]
    [DecidableEq ρ] {calls : List (MlsStorageCall γ ρ π)}
    (fresh : Run.Meets track (fun state call => state.snd.IsFresh call) (.empty, fun _ => []) calls) :
    ∀ state ∈ Run.states track (.empty, fun _ => []) calls,
      ∀ groupId, (toVec groupId).isSome →
        state.fst.queuedProposals groupId = .ok (state.snd groupId) := by
  intro state hs groupId hg
  refine Refines.queuedProposals ?_ hg
  exact fresh.forall_states (fun state _ (h : Refines state.fst state.snd) => h.call) .empty state hs

-- A proposal for a group, taken back again.
def queueCalls : List (MlsStorageCall UInt8 UInt8 UInt64) :=
  [.queueProposal 1 2 3, .removeProposal 1 2, .clearProposalQueue 1]

theorem queueCalls_fresh :
    Run.Meets track (fun state call => state.snd.IsFresh call) (.empty, fun _ => []) queueCalls :=
  ⟨List.not_mem_nil, trivial, trivial, trivial⟩

theorem queueCalls_queuedProposals :
    (queueCalls.foldl track (.empty, fun _ => [])).fst.queuedProposals (1 : UInt8) =
      .ok ((queueCalls.foldl track (.empty, fun _ => [])).snd 1) :=
  queuedProposals_run queueCalls_fresh _ Run.foldl_mem_states 1 rfl

theorem error_of_orSerializationError {α : Type} {result : Option α} {e : EncryptedMlsStorageError}
    (h : orSerializationError result = .error e) : e = .serializationError := by
  cases result <;> cases h
  rfl

theorem error_of_queuedProposalRefs {e : EncryptedMlsStorageError}
    (h : (storage.queuedProposalRefs groupId : Result (List ρ)) = .error e) :
    e = .serializationError := by
  obtain h | ⟨key, _, h⟩ := Except.bind_eq_error.mp h
  case inl => exact error_of_orSerializationError h
  case inr =>
    unfold readList at h
    split at h
    case h_1 => cases h
    case h_2 =>
      split at h
      case h_1 => exact (Except.error.inj h).symm
      case h_2 => exact error_of_orSerializationError h

-- Reading a queue has one error only.
theorem error_of_queuedProposals {e : EncryptedMlsStorageError}
    (h : (storage.queuedProposals groupId : Result (List (ρ × π))) = .error e) :
    e = .serializationError := by
  obtain h | ⟨refs, _, h⟩ := Except.bind_eq_error.mp h
  case inl => exact error_of_queuedProposalRefs h
  case inr =>
    obtain ⟨proposalRef, _, h⟩ := Except.exists_of_mapM_eq_error h
    obtain h | ⟨key, _, h⟩ := Except.bind_eq_error.mp h
    case inl => exact error_of_orSerializationError h
    case inr =>
      obtain h | ⟨found, _, h⟩ := Except.bind_eq_error.mp h
      case inl =>
        unfold EncryptedMlsStorage.read at h
        split at h
        case h_1 => cases h
        case h_2 value _ =>
          cases hv : (fromSlice value : Option π) <;> rw [hv] at h <;> cases h
          rfl
      case inr =>
        cases found <;> cases h
        rfl

-- A reference on the list whose proposal is gone.
theorem queuedProposals_of_missing [LawfulSerde ρ] {refs : List ρ} {proposalRef : ρ} {key : Bytes}
    (hr : storage.queuedProposalRefs groupId = .ok refs) (hm : proposalRef ∈ refs)
    (hk : toVec (groupId, proposalRef) = some key) (hv : storage.valueAt .queuedProposal key = none) :
    (storage.queuedProposals groupId : Result (List (ρ × π))) = .error .serializationError := by
  cases hq : (storage.queuedProposals groupId : Result (List (ρ × π)))
  case error e => rw [error_of_queuedProposals hq]
  case ok entries =>
    obtain ⟨refs', hr', hq⟩ := Except.bind_eq_ok.mp hq
    cases hr.symm.trans hr'
    obtain ⟨entry, he⟩ := Except.exists_of_mapM_eq_ok hq hm
    rw [valueAt] at hv
    simp [hk, orSerializationError, EncryptedMlsStorage.read, hv, bind, Except.bind] at he

end EncryptedMlsStorage
