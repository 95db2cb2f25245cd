import AnotherDimension.Mls.Theorems.Proposals

-- What the limits of the storage amount to over all of its calls.

namespace EncryptedMlsStorage

open Serde Std

variable {γ ρ π : Type} [Serde γ] [Serde ρ] [Serde π] {storage storage' : EncryptedMlsStorage}

-- The changes that calls are made of.
inductive Move (storage : EncryptedMlsStorage) : EncryptedMlsStorage → Prop
  | put {label : EntityLabel} {key value : Bytes} (small : value.length ≤ maxMlsValueBytes)
    (plain : label.isList = false)
    (room : buildKeyFromVec label key ∈ storage.values ∨ storage.values.size < maxMlsValues) :
    Move storage (storage.placed label key value)
  | insert {label : EntityLabel} {key value : Bytes} (inserted : label.isInserted) :
    Move storage (storage.placed label key value)
  | grow {label : EntityLabel} {key encoded : Bytes} {list : List Bytes} (grows : label.isList)
    (encodes : toVec list = some encoded) (short : list.length ≤ maxMlsValues)
    (small : encoded.length ≤ maxMlsValueBytes) :
    Move storage (storage.placed label key encoded)
  | shrink {label : EntityLabel} {key encoded value : Bytes} {list : List Bytes}
    (grows : label.isList) (held : storage.listAt label key = some list)
    (encodes : toVec (list.erase value) = some encoded) :
    Move storage (storage.placed label key encoded)
  | entry {label : EntityLabel} {key : Bytes} (grows : label.isList) :
    Move storage (storage.listEntry label key).snd
  | erase {raw : Bytes} : Move storage ⟨storage.values.erase raw⟩

def Moves : EncryptedMlsStorage → EncryptedMlsStorage → Prop :=
  Relation.ReflTransGen Move

theorem writeSerialized_moves {label : EntityLabel} {key value : Option Bytes}
    (plain : label.isList = false) :
    Moves storage (storage.writeSerialized label key value).snd := by
  unfold writeSerialized
  split
  case h_1 key value =>
    have hw := write_writes storage label key value
    generalize storage.write label key value = result at hw ⊢
    cases hw
    case written small room => exact .single (.put small plain room)
    case refused            => exact .refl
  case h_2 => exact .refl

theorem appendSerialized_moves {label : EntityLabel} {key value : Option Bytes}
    (grows : label.isList) : Moves storage (storage.appendSerialized label key value).snd := by
  unfold appendSerialized
  split
  case h_1 key value =>
    have ha := append_appends storage label key value
    generalize storage.append label key value = result at ha ⊢
    cases ha
    case appended room encodes small =>
      exact .single (.grow grows encodes (by simpa using room) small)
    case refused => exact .single (.entry grows)
  case h_2 => exact .refl

theorem deleteSerialized_moves {label : EntityLabel} {key : Option Bytes} :
    Moves storage (storage.deleteSerialized label key).snd := by
  unfold deleteSerialized
  split
  case h_1 => exact .single .erase
  case h_2 => exact .refl

theorem removeRaw_moves (groupId : γ) (refs : List ρ) (storage : EncryptedMlsStorage) :
    Moves storage (removeRaw groupId refs storage).snd := by
  induction refs generalizing storage
  case nil => exact .refl
  case cons proposalRef refs hi =>
    rw [removeRaw]
    split
    case h_1 => exact .refl
    case h_2 => exact .head .erase (hi _)

theorem call_moves (storage : EncryptedMlsStorage) (call : MlsStorageCall γ ρ π) :
    Moves storage (storage.call call).snd := by
  cases call
  case write label key value h =>
    exact writeSerialized_moves (by simpa using h.right.left)
  case insert label key value h =>
    simp only [EncryptedMlsStorage.call, insertSerialized]
    split
    case h_1 => exact .single (.insert h)
    case h_2 => exact .refl
  case delete => exact deleteSerialized_moves
  case appendOwnLeafNode => exact appendSerialized_moves rfl
  case queueProposal groupId proposalRef proposal =>
    simp only [EncryptedMlsStorage.call, queueProposal]
    have hw := @writeSerialized_moves storage .queuedProposal (toVec (groupId, proposalRef))
      (toVec proposal) rfl
    rcases hx : storage.writeSerialized .queuedProposal (toVec (groupId, proposalRef))
      (toVec proposal) with ⟨_ | _, storage'⟩ <;> simp only [hx] at hw ⊢
    case error => exact hw
    case ok    => exact hw.trans (appendSerialized_moves rfl)
  case removeProposal groupId proposalRef =>
    simp only [EncryptedMlsStorage.call, removeProposal]
    split
    case h_1 key value _ _ =>
      have hr := removeItem_removesItem storage .proposalQueueRefs key value
      generalize storage.removeItem .proposalQueueRefs key value = result at hr ⊢
      cases hr
      case removed held encodes =>
        exact .trans (.single (.shrink rfl held encodes)) deleteSerialized_moves
      case refused => exact .single (.entry rfl)
    case h_2 => exact .refl
  case clearProposalQueue groupId =>
    simp only [EncryptedMlsStorage.call, clearProposalQueue]
    split
    case h_1 => exact .refl
    case h_2 refs _ =>
      have hr := removeRaw_moves groupId refs storage
      rcases hx : removeRaw groupId refs storage with ⟨_ | _, storage'⟩ <;> simp only [hx] at hr ⊢
      case error => exact hr
      case ok    => exact hr.trans deleteSerialized_moves

-- The places of the kinds that are only written through `write`.
def IsChecked (storage : EncryptedMlsStorage) (place : EntityLabel × Bytes) : Prop :=
  (storage.valueAt place.fst place.snd).isSome ∧ place.fst.isInserted = false ∧
    place.fst.isList = false

structure IsBounded (storage : EncryptedMlsStorage) : Prop where
  values  : ∀ label key value, storage.valueAt label key = some value →
    label.isInserted = false → value.length ≤ maxMlsValueBytes
  lists   : ∀ label key value, storage.valueAt label key = some value → label.isList →
    ∃ list : List Bytes, toVec list = some value ∧ list.length ≤ maxMlsValues
  checked : ∀ places : Finset (EntityLabel × Bytes), (∀ place ∈ places, storage.IsChecked place) →
    places.card ≤ maxMlsValues

theorem card_le_size {places : Finset (EntityLabel × Bytes)}
    (h : ∀ place ∈ places, (storage.valueAt place.fst place.snd).isSome) :
    places.card ≤ storage.values.size := by
  have hi : Set.InjOn (fun place : EntityLabel × Bytes => buildKeyFromVec place.fst place.snd)
      places := fun place _ place' _ he =>
    Prod.ext (buildKeyFromVec_injective he).left (buildKeyFromVec_injective he).right
  rw [← Finset.card_image_of_injOn hi, ← ExtTreeMap.length_keys]
  refine (Finset.card_le_card fun k hk => ?_).trans (List.toFinset_card_le _)
  obtain ⟨place, hp, rfl⟩ := Finset.mem_image.mp hk
  rw [List.mem_toFinset, ExtTreeMap.mem_keys, ExtTreeMap.mem_iff_isSome_getElem?]
  exact h place hp

namespace IsBounded

theorem empty : IsBounded .empty where
  values _ _ _ h _   := by simp [valueAt, EncryptedMlsStorage.empty] at h
  lists _ _ _ h _    := by simp [valueAt, EncryptedMlsStorage.empty] at h
  checked places h   := by
    refine (card_le_size fun place hp => (h place hp).left).trans ?_
    simp [EncryptedMlsStorage.empty]

variable {label : EntityLabel} {key value : Bytes}

-- A value of any kind takes its place.
theorem place (h : IsBounded storage)
    (small : label.isInserted = false → value.length ≤ maxMlsValueBytes)
    (list : label.isList → ∃ list : List Bytes, toVec list = some value ∧
      list.length ≤ maxMlsValues)
    (room : label.isInserted = false → label.isList = false →
      buildKeyFromVec label key ∈ storage.values ∨ storage.values.size < maxMlsValues) :
    IsBounded (storage.placed label key value) := by
  refine ⟨fun l k v hv hi => ?_, fun l k v hv hl => ?_, fun places hp => ?_⟩
  case refine_1 =>
    rw [valueAt_placed] at hv
    split at hv
    case isTrue hk =>
      cases hv
      exact small (hk.left ▸ hi)
    case isFalse => exact h.values l k v hv hi
  case refine_2 =>
    rw [valueAt_placed] at hv
    split at hv
    case isTrue hk =>
      cases hv
      exact list (hk.left ▸ hl)
    case isFalse => exact h.lists l k v hv hl
  case refine_3 =>
    -- Only a value at a new place can add to the number, and for such a value there is room.
    by_cases hn : storage.values.size < maxMlsValues
    case pos =>
      refine (card_le_size fun place hp' => (hp place hp').left).trans ?_
      rw [placed, ExtTreeMap.size_insert]
      split <;> omega
    case neg =>
      refine h.checked places fun place hplace => ?_
      obtain ⟨hs, hi, hl⟩ := hp place hplace
      refine ⟨?_, hi, hl⟩
      rw [valueAt_placed] at hs
      split at hs
      case isTrue hk =>
        have hm := (room (hk.left ▸ hi) (hk.left ▸ hl)).resolve_right hn
        rwa [hk.left, hk.right, valueAt, ← ExtTreeMap.mem_iff_isSome_getElem?]
      case isFalse => exact hs

-- The list under a key is written in the one way the storage writes it.
theorem toVec_listAt {list : List Bytes} (h : IsBounded storage) (hl : label.isList)
    (held : storage.listAt label key = some list) :
    ∃ bytes, toVec list = some bytes ∧ bytes.length ≤ maxMlsValueBytes ∧
      list.length ≤ maxMlsValues := by
  rw [listAt] at held
  cases hv : storage.valueAt label key
  case none =>
    rw [hv] at held
    cases held
    exact ⟨_, toVec_nil, by decide, by decide⟩
  case some value =>
    rw [hv] at held
    obtain ⟨list', hs, hn⟩ := h.lists label key value hv hl
    cases (fromSlice_toVec hs).symm.trans held
    exact ⟨value, hs, h.values label key value hv (EntityLabel.isInserted_of_isList hl), hn⟩

theorem move (h : IsBounded storage) (m : Move storage storage') : IsBounded storage' := by
  cases m
  case put small plain room =>
    exact h.place (fun _ => small) (fun hl => by simp [plain] at hl) fun _ _ => room
  case insert inserted =>
    exact h.place (fun hi => by simp [inserted] at hi)
      (fun hl => by simp [EntityLabel.isList_of_isInserted inserted] at hl)
      fun hi => by simp [inserted] at hi
  case grow list grows encodes short small =>
    exact h.place (fun _ => small) (fun _ => ⟨list, encodes, short⟩) fun _ hl => by simp [grows] at hl
  case shrink encoded value list grows held encodes =>
    obtain ⟨bytes, hb, hs, hn⟩ := h.toVec_listAt grows held
    have hlen := length_toVec_of_sublist (isSome_toVec_list fun _ => rfl) List.erase_sublist hb
      encodes
    exact h.place (fun _ => hlen.trans hs) (fun _ => ⟨_, encodes, List.length_erase_le.trans hn⟩)
      fun _ hl => by simp [grows] at hl
  case entry label key grows =>
    rw [listEntry_snd]
    cases hv : storage.valueAt label key
    case none =>
      exact h.place (fun _ => by decide) (fun _ => ⟨[], toVec_nil, Nat.zero_le _⟩)
        fun _ hl => by simp [grows] at hl
    case some value =>
      exact h.place (h.values label key value hv) (h.lists label key value hv)
        fun _ hl => by simp [grows] at hl
  case erase raw =>
    have hs {l : EntityLabel} {k v : Bytes}
        (hv : (⟨storage.values.erase raw⟩ : EncryptedMlsStorage).valueAt l k = some v) :
        storage.valueAt l k = some v := by
      simp only [valueAt, ExtTreeMap.getElem?_erase] at hv
      split at hv
      case isTrue  => cases hv
      case isFalse => exact hv
    refine ⟨fun l k v hv => h.values l k v (hs hv), fun l k v hv => h.lists l k v (hs hv),
      fun places hp => h.checked places fun place hplace => ?_⟩
    obtain ⟨hsome, hi, hl⟩ := hp place hplace
    obtain ⟨v, hv⟩ := Option.isSome_iff_exists.mp hsome
    exact ⟨by rw [hs hv]; rfl, hi, hl⟩

theorem moves (h : IsBounded storage) (m : Moves storage storage') : IsBounded storage' := by
  induction m
  case refl            => exact h
  case tail _ step hi => exact hi.move step

end IsBounded

-- In every state the values that are not inserted directly are small, lists are short, and there
-- are at most so many values that are neither inserted directly nor lists.
theorem isBounded_run (calls : List (MlsStorageCall γ ρ π)) :
    ∀ storage ∈ Run.states (fun storage call => (EncryptedMlsStorage.call storage call).snd) .empty
      calls, IsBounded storage :=
  Run.invariant_states (fun storage call h => h.moves (call_moves storage call)) .empty

section

variable [DecidableEq γ] [DecidableEq ρ]

-- The proposals that were queued and have not been removed one by one. Clearing a queue is not
-- counted.
def hoarded (pairs : Finset (γ × ρ)) : MlsStorageCall γ ρ π → (ok : Bool) → Finset (γ × ρ)
  | .queueProposal groupId proposalRef _, true => insert (groupId, proposalRef) pairs
  | .removeProposal groupId proposalRef, true  => pairs.erase (groupId, proposalRef)
  | _, _                                       => pairs

def hoard (state : EncryptedMlsStorage × Finset (γ × ρ)) (call : MlsStorageCall γ ρ π) :
    EncryptedMlsStorage × Finset (γ × ρ) :=
  ((state.fst.call call).snd, hoarded state.snd call (state.fst.call call).fst.isOk)

-- The storage is bounded, and all these proposals are in it.
structure Hoards (state : EncryptedMlsStorage × Finset (γ × ρ)) : Prop where
  bounded : IsBounded state.fst
  stored  : ∀ pair ∈ state.snd, ∃ key, toVec pair = some key ∧
    (state.fst.valueAt .queuedProposal key).isSome

variable [LawfulSerde γ] [LawfulSerde ρ] {state : EncryptedMlsStorage × Finset (γ × ρ)}

theorem Hoards.call (call : MlsStorageCall γ ρ π) (h : Hoards state) : Hoards (hoard state call) := by
  refine ⟨h.bounded.moves (call_moves state.fst call), ?_⟩
  have same {storage' : EncryptedMlsStorage} (hs : SameProposals state.fst storage') :
      ∀ pair ∈ state.snd, ∃ key, toVec pair = some key ∧
        (storage'.valueAt .queuedProposal key).isSome := fun pair hp => by
    obtain ⟨key, hk, hv⟩ := h.stored pair hp
    exact ⟨key, hk, by rwa [hs key]⟩
  cases hq : call.isOfQueue
  case false =>
    have hs := (@call_other _ _ _ _ _ _ state.fst _ hq).right
    cases call
    case queueProposal      => cases hq
    case removeProposal     => cases hq
    case clearProposalQueue => cases hq
    all_goals exact same hs
  case true =>
    cases call
    case queueProposal groupId proposalRef proposal =>
      have hc := queueProposal_queues state.fst groupId proposalRef proposal
      simp only [hoard, EncryptedMlsStorage.call]
      generalize state.fst.queueProposal groupId proposalRef proposal = result at hc ⊢
      cases hc
      case queued key _ _ value _ _ pair _ _ _ _ _ proposals =>
        refine Finset.forall_mem_insert _ _ _ |>.mpr ⟨⟨key, pair, by simp [proposals]⟩, ?_⟩
        intro pair' hp
        obtain ⟨key', hk, hv⟩ := h.stored pair' hp
        refine ⟨key', hk, ?_⟩
        rw [proposals]
        split
        case isTrue  => rfl
        case isFalse => exact hv
      case refused kept =>
        intro pair hp
        obtain ⟨key, hk, hv⟩ := h.stored pair hp
        exact ⟨key, hk, kept key hv⟩
    case removeProposal groupId proposalRef =>
      have hc := removeProposal_removes state.fst groupId proposalRef
      simp only [hoard, EncryptedMlsStorage.call]
      generalize state.fst.removeProposal groupId proposalRef = result at hc ⊢
      cases hc
      case removed key _ _ _ _ pair _ _ _ _ proposals =>
        intro pair' hp
        obtain ⟨hne, hp⟩ := Finset.mem_erase.mp hp
        obtain ⟨key', hk, hv⟩ := h.stored pair' hp
        refine ⟨key', hk, ?_⟩
        rwa [proposals, if_neg fun he : key' = key => hne (toVec_injective (he ▸ hk) pair)]
      case refused proposals _ => exact same proposals
    case clearProposalQueue groupId =>
      have hc := @clearProposalQueue_clears γ ρ _ _ state.fst groupId
      simp only [hoard, EncryptedMlsStorage.call]
      generalize state.fst.clearProposalQueue ρ groupId = result at hc ⊢
      cases hc
      case cleared proposals => exact same proposals
      case refused proposals => exact same proposals
    all_goals cases hq

omit [DecidableEq γ] [DecidableEq ρ] in
theorem Hoards.card_le (h : Hoards state) : state.snd.card ≤ maxMlsValues := by
  let place (pair : γ × ρ) : EntityLabel × Bytes := (.queuedProposal, (toVec pair).getD [])
  have hi : Set.InjOn place state.snd := fun pair hp pair' hp' he => by
    obtain ⟨key, hk, _⟩ := h.stored pair hp
    obtain ⟨key', hk', _⟩ := h.stored pair' hp'
    have hkey : key = key' := by simpa [place, hk, hk'] using he
    exact toVec_injective hk (hkey ▸ hk')
  rw [← Finset.card_image_of_injOn hi]
  refine h.bounded.checked _ fun p hp => ?_
  obtain ⟨pair, hpair, rfl⟩ := Finset.mem_image.mp hp
  obtain ⟨key, hk, hv⟩ := h.stored pair hpair
  exact ⟨by simpa [place, hk] using hv, rfl, rfl⟩

-- A proposal that was queued stays in the storage until it is removed by its reference, however
-- often the queue is cleared; and the storage has room for so many of them only.
theorem hoards_run (calls : List (MlsStorageCall γ ρ π)) :
    ∀ state ∈ Run.states hoard (.empty, (∅ : Finset (γ × ρ))) calls,
      (∀ pair ∈ state.snd, ∃ key, toVec pair = some key ∧
        (state.fst.valueAt .queuedProposal key).isSome) ∧
      state.snd.card ≤ maxMlsValues := by
  intro state hs
  have h : Hoards state := Run.invariant_states (fun _ call h => h.call call)
    ⟨.empty, fun _ h => absurd h (Finset.notMem_empty _)⟩ state hs
  exact ⟨h.stored, h.card_le⟩

end

-- A proposal that is queued and cleared, and one that is queued after it.
def clearedCalls : List (MlsStorageCall UInt8 UInt8 UInt64) :=
  [.queueProposal 1 2 3, .clearProposalQueue 1, .queueProposal 1 4 5]

theorem clearedCalls_isBounded :
    IsBounded (clearedCalls.foldl (fun storage call => (EncryptedMlsStorage.call storage call).snd)
      .empty) :=
  isBounded_run clearedCalls _ Run.foldl_mem_states

theorem clearedCalls_hoards :
    (∀ pair ∈ (clearedCalls.foldl hoard (.empty, ∅)).snd, ∃ key, toVec pair = some key ∧
      ((clearedCalls.foldl hoard (.empty, ∅)).fst.valueAt .queuedProposal key).isSome) ∧
    (clearedCalls.foldl hoard (.empty, ∅)).snd.card ≤ maxMlsValues :=
  hoards_run clearedCalls _ Run.foldl_mem_states

end EncryptedMlsStorage
