import AnotherDimension.Storage.Store

-- What the operations of the store leave in memory, whatever happens to the files.

open FileProgram

namespace RecordMutation

-- The mutations before the first one that is not valid.
def validPart (mutations : List RecordMutation) : List RecordMutation :=
  mutations.takeWhile fun m => m.validate.isOk

theorem applyEach_snd (mutations : List RecordMutation) (records : Records) :
    (applyEach mutations records).snd =
      (validPart mutations).foldl (fun records m => m.apply records) records := by
  induction mutations generalizing records
  case nil => rfl
  case cons m ms hi =>
    cases h : m.validate <;> simp [applyEach, validPart, h, Except.isOk, Except.toBool]
    case ok => exact hi _

theorem applyEach_fst_eq_ok_iff (mutations : List RecordMutation) (records : Records) :
    (applyEach mutations records).fst = .ok () ↔ validPart mutations = mutations := by
  induction mutations generalizing records
  case nil => simp [applyEach, validPart]
  case cons m ms hi =>
    cases h : m.validate
    case error => simp [applyEach, validPart, h, Except.isOk, Except.toBool]
    case ok    =>
      have hv : validPart (m :: ms) = m :: validPart ms := by
        simp [validPart, h, Except.isOk, Except.toBool]
      simpa [applyEach, h, hv] using hi _

end RecordMutation

namespace EncryptedStore

open Storage

variable {aead : Aead} {store store' : EncryptedStore} {nonce : Option Nonce} {disk disk' : Disk}
  {fates rest : List Fate} {result : Except StorageError Unit}

-- A commit that returns either moves the revision or changes nothing in memory.
theorem commit_returns
    (h : (store.commit aead nonce).exec disk fates = (disk', some ((result, store'), rest))) :
    (∃ revision bytes, store.prepareCommit aead nonce = .ok (revision, bytes) ∧ result = .ok () ∧
      store' = { store with revision }) ∨ (∃ e, result = .error e ∧ store' = store) := by
  unfold commit at h
  split at h
  case h_1 e he =>
    cases h
    exact .inr ⟨e, rfl, rfl⟩
  case h_2 revision bytes hp =>
    rw [exec_bind] at h
    split at h
    case h_1 => cases h
    case h_2 result' rest' hr =>
      cases result' <;> cases h
      case error e => exact .inr ⟨e, rfl, rfl⟩
      case ok      => exact .inl ⟨revision, bytes, hp, rfl, rfl⟩

-- A batch that returns was applied in full, or did nothing, or stopped at an invalid mutation.
theorem applyBatch_returns {mutations : List RecordMutation} (hl : store.locked = false)
    (h : (store.applyBatch aead nonce mutations).exec disk fates =
      (disk', some ((result, store'), rest))) :
    let valid := RecordMutation.validPart mutations
    (valid = mutations ∧ result = .ok () ∧
      store'.records = (StoreOp.applyBatch mutations).apply store.records) ∨
    (valid = mutations ∧ ∃ e, result = .error e ∧ store' = store) ∨
    (valid ≠ mutations ∧ ∃ e, result = .error e ∧
      store' = { store with records := (StoreOp.applyBatch valid).apply store.records }) := by
  have ha := RecordMutation.applyEach_snd mutations store.records
  have hv := RecordMutation.applyEach_fst_eq_ok_iff mutations store.records
  rw [applyBatch, if_neg (by simp [hl])] at h
  split at h
  case h_1 e records he =>
    cases h
    simp only [he, reduceCtorEq, false_iff] at hv ha
    exact .inr <| .inr ⟨hv, e, rfl, by rw [ha]; rfl⟩
  case h_2 records he =>
    simp only [he, true_iff] at hv ha
    rw [exec_bind] at h
    split at h
    case h_1 => cases h
    case h_2 result' rest' hr =>
      obtain ⟨result', store'⟩ := result'
      obtain ⟨revision, bytes, -, rfl, rfl⟩ | ⟨e, rfl, rfl⟩ := commit_returns hr <;> cases h
      case inl => exact .inl ⟨hv, rfl, by rw [ha, hv]; rfl⟩
      case inr => exact .inr <| .inl ⟨hv, e, rfl, rfl⟩

-- A batch is all or nothing: an error leaves the store in memory as it was, so that whatever runs
-- on it later writes what it would have written without the batch; success applies all of it.
def AllOrNothing (aead : Aead) (store : EncryptedStore) (mutations : List RecordMutation) : Prop :=
  ∀ nonce disk fates disk' result store' rest,
    (store.applyBatch aead nonce mutations).exec disk fates =
      (disk', some ((result, store'), rest)) →
    match result with
    | .ok ()   => store'.records = (StoreOp.applyBatch mutations).apply store.records
    | .error _ =>
      store'.records = store.records ∧ store'.revision = store.revision ∧
      ∀ later fates', (StoreOp.programs aead store' later).exec disk' fates' =
        (StoreOp.programs aead store later).exec disk' fates'

theorem applyBatch_allOrNothing_iff (aead : Aead) (store : EncryptedStore)
    (mutations : List RecordMutation) (hl : store.locked = false) :
    AllOrNothing aead store mutations ↔
      let valid := RecordMutation.validPart mutations
      valid = mutations ∨ (StoreOp.applyBatch valid).apply store.records = store.records := by
  constructor
  case mp =>
    -- The batch that stops early needs no file, so any disk shows the leak.
    intro h
    by_contra hn
    have ⟨hv, hr⟩ := not_or.mp hn
    have hf := mt (RecordMutation.applyEach_fst_eq_ok_iff mutations store.records).mp hv
    have ha := RecordMutation.applyEach_snd mutations store.records
    match he : RecordMutation.applyEach mutations store.records with
    | (.ok (), _)         => exact hf <| by rw [he]
    | (.error e, records) =>
      have h' := h none (fun _ => none) [] _ (.error e) { store with records } [] <| by
        rw [applyBatch, if_neg (by simp [hl]), he]
        rfl
      exact hr <| ha.symm.trans <| by simpa [he] using h'.left
  case mpr =>
    intro h nonce disk fates disk' result store' rest he
    obtain ⟨-, rfl, hr⟩ | ⟨-, e, rfl, rfl⟩ | ⟨hv, e, rfl, rfl⟩ := applyBatch_returns hl he
    case inl     => exact hr
    case inr.inl => exact ⟨rfl, rfl, fun _ _ => rfl⟩
    case inr.inr =>
      have hr := h.resolve_left hv
      refine ⟨hr, rfl, fun later fates' => ?_⟩
      rw [hr]

-- An empty store at revision 0, and a directory that holds nothing.
def sampleStore : EncryptedStore where
  path     := "store"
  key      := ⟨List.replicate 32 7, by decide⟩
  salt     := ⟨List.replicate 16 5, by decide⟩
  revision := 0
  records  := ∅
  locked   := false

def sampleNonce : Option Nonce :=
  some ⟨List.replicate 12 3, by decide⟩

def emptyDisk : Disk := fun _ => none

-- The second mutation has an empty key, after the first one was applied.
def leakingBatch : List RecordMutation :=
  [.put .device "a" [1], .put .device "" [2]]

theorem applyBatch_leaks : ¬AllOrNothing .sample sampleStore leakingBatch := by
  intro h
  have h' := (h none emptyDisk [] _ (.error .recordTooLarge)
    { sampleStore with records := (RecordMutation.applyEach leakingBatch ∅).snd } [] rfl).left
  exact absurd h' (by decide)

theorem applyBatch_allOrNothing_valid :
    sampleStore.locked = false ∧ AllOrNothing .sample sampleStore [.put .device "a" [1]] :=
  ⟨rfl, (applyBatch_allOrNothing_iff .sample sampleStore _ rfl).mpr <| .inl (by decide)⟩

end EncryptedStore
