import AnotherDimension.Library.OrderedMap
import AnotherDimension.Storage.Durable
import AnotherDimension.Storage.Theorems.Atomic
import AnotherDimension.Storage.Theorems.Batch

-- What the operations of the durable store do, and that the encrypted store refines it.

open FileProgram Storage EncryptedStore

namespace RecordMutation

variable {mutations : List RecordMutation} {mutation : RecordMutation} {records records' : Records}
  {e : StorageError}

-- The records after all of the mutations.
def applyAll (mutations : List RecordMutation) (records : Records) : Records :=
  mutations.foldl (fun records m => m.apply records) records

theorem applyEach_ok (h : applyEach mutations records = (.ok (), records')) :
    records' = applyAll mutations records := by
  have hv := (applyEach_fst_eq_ok_iff mutations records).mp (congrArg Prod.fst h)
  have hs := applyEach_snd mutations records
  rw [hv, h] at hs
  exact hs

-- The last mutation of a batch that is not valid was not applied.
theorem applyEach_concat_error
    (h : applyEach (mutations ++ [mutation]) records = (.error e, records')) :
    records' = (applyEach mutations records).snd := by
  induction mutations generalizing records
  case nil =>
    simp only [List.nil_append, applyEach] at h
    split at h
    case h_1 => cases h; rfl
    case h_2 => cases h
  case cons m ms hi =>
    simp only [List.cons_append, applyEach] at h ⊢
    cases hm : m.validate <;> simp only [hm] at h ⊢
    case error => cases h; rfl
    case ok    => exact hi h

-- A property that every mutation keeps is kept by all of them.
theorem applyAll_of_forall {p : Records → Prop}
    (hm : ∀ m ∈ mutations, ∀ records, p records → p (m.apply records)) (hr : p records) :
    p (applyAll mutations records) := by
  induction mutations generalizing records
  case nil => exact hr
  case cons m ms hi =>
    obtain ⟨h₁, h₂⟩ := List.forall_mem_cons.mp hm
    exact hi h₂ <| h₁ records hr

end RecordMutation

namespace DurableStore

variable {s s' : DurableStore} {records : Records} {e : StorageError}

theorem commit_ok (h : s.commit = (.ok (), s')) :
    s.store.locked = false ∧ s.outcomes.head?.all (· = .done) ∧ ∃ revision,
      s' = { store := { s.store with revision }, revisions := s.records :: s.revisions,
             outcomes := s.outcomes.tail } := by
  unfold commit at h
  split_ifs at h
  case neg hl _ =>
    split at h
    case h_1 => cases h
    case h_2 => split at h <;> cases h <;> simp_all
  all_goals cases h

-- A failed commit changes nothing in memory.
theorem commit_error (h : s.commit = (.error e, s')) :
    s'.store = s.store ∧ s'.outcomes <:+ s.outcomes ∧
      (s'.revisions = s.revisions ∨
        s.outcomes.head? = some .replaced ∧ s'.revisions = s.records :: s.revisions) := by
  unfold commit at h
  split_ifs at h
  case neg =>
    split at h
    case h_1 => cases h; simp
    case h_2 => split at h <;> cases h <;> simp_all
  all_goals
    cases h
    simp

theorem commitRecords_ok (h : s.commitRecords records = (.ok (), s')) :
    s.store.locked = false ∧ s.outcomes.head?.all (· = .done) ∧ ∃ revision,
      s' = { store := { s.store with records, revision }, revisions := records :: s.revisions,
             outcomes := s.outcomes.tail } := by
  unfold commitRecords at h
  split at h
  case h_1 hc => cases h; exact commit_ok hc
  case h_2    => cases h

theorem commitRecords_error (h : s.commitRecords records = (.error e, s')) :
    s'.store = s.store ∧ s'.outcomes <:+ s.outcomes ∧
      (s'.revisions = s.revisions ∨
        s.outcomes.head? = some .replaced ∧ s'.revisions = records :: s.revisions) := by
  unfold commitRecords at h
  split at h
  case h_1 => cases h
  case h_2 hc =>
    cases h
    have ⟨hs, ho⟩ := commit_error hc
    exact ⟨by simp [withRecords, DurableStore.records, hs], ho⟩

section

variable {cls : RecordClass} {key : String} {value : Bytes}

-- A record that was written is in memory and on the disk.
theorem put_ok (h : s.put cls key value = (.ok (), s')) :
    s'.records = s.records.insert (cls, key) value ∧ s'.durable = s'.records ∧
      s'.store.locked = false := by
  unfold put at h
  split at h
  case isTrue => cases h
  case isFalse =>
    split at h
    case h_1 => cases h
    case h_2 =>
      split at h
      case isTrue => cases h
      case isFalse =>
        obtain ⟨hl, _, _, rfl⟩ := commitRecords_ok h
        exact ⟨rfl, rfl, hl⟩

theorem put_error (h : s.put cls key value = (.error e, s')) : s'.store = s.store := by
  unfold put at h
  split at h
  case isTrue => cases h; rfl
  case isFalse =>
    split at h
    case h_1 => cases h; rfl
    case h_2 =>
      split at h
      case isTrue => cases h; rfl
      case isFalse => exact (commitRecords_error h).left

theorem unlocked_of_put_ok (h : s.put cls key value = (.ok (), s')) : s.store.locked = false := by
  unfold put at h
  split at h
  case isTrue     => cases h
  case isFalse hl => simpa using hl

theorem get_put (h : s.put cls key value = (.ok (), s')) : s'.get cls key = some value := by
  obtain ⟨hr, -, hl⟩ := put_ok h
  rw [get, EncryptedStore.get, hl, show s'.store.records = _ from hr]
  simp

-- What a restart finds after a write, however it ended.
theorem durable_put (s : DurableStore) (cls : RecordClass) (key : String) (value : Bytes) :
    (s.put cls key value).snd.durable = s.durable ∨
      (s.put cls key value).snd.durable = s.records.insert (cls, key) value := by
  rcases h : s.put cls key value with ⟨e | _, s'⟩
  case ok =>
    obtain ⟨hr, hd, -⟩ := put_ok h
    exact .inr (hd.trans hr)
  case error =>
    unfold put at h
    split at h
    case isTrue => cases h; exact .inl rfl
    case isFalse =>
      split at h
      case h_1 => cases h; exact .inl rfl
      case h_2 =>
        split at h
        case isTrue => cases h; exact .inl rfl
        case isFalse =>
          obtain ⟨-, -, hd | ⟨-, hd⟩⟩ := commitRecords_error h
          case inl => exact .inl (by rw [durable, hd, durable])
          case inr => exact .inr (by rw [durable, hd]; rfl)

-- Records of other keys are not touched.
theorem get_put_of_ne {cls' : RecordClass} {key' : String} (hne : (cls, key) ≠ (cls', key')) :
    (s.put cls key value).snd.get cls' key' = s.get cls' key' := by
  rcases h : s.put cls key value with ⟨_ | _, s'⟩
  case error => simp only [get, put_error h]
  case ok =>
    obtain ⟨hr, -, hl⟩ := put_ok h
    simp only [get, EncryptedStore.get, hl, unlocked_of_put_ok h, show s'.store.records = _ from hr]
    simp [Std.ExtTreeMap.getElem?_insert, hne, records]

theorem delete_ok {found : Bool} (h : s.delete cls key = (.ok found, s')) :
    s'.records = s.records.erase (cls, key) ∧ (s' = s ∨ s'.durable = s'.records) ∧
      s.store.locked = false ∧ s'.store.locked = false := by
  unfold delete at h
  split at h
  case isTrue => cases h
  case isFalse hl =>
    rw [Bool.not_eq_true] at hl
    cases hr : s.records[(cls, key)]? <;> simp only [hr] at h
    case none =>
      cases h
      exact ⟨(OrderedMap.erase_eq_self hr).symm, .inl rfl, hl, hl⟩
    case some =>
      rcases hc : s.commitRecords (s.records.erase (cls, key)) with ⟨_ | _, s''⟩ <;>
        simp only [hc] at h
      case error => cases h
      case ok =>
        cases h
        obtain ⟨_, _, _, rfl⟩ := commitRecords_ok hc
        exact ⟨rfl, .inr rfl, hl, hl⟩

theorem delete_error (h : s.delete cls key = (.error e, s')) : s'.store = s.store := by
  unfold delete at h
  split at h
  case isTrue => cases h; rfl
  case isFalse =>
    cases hr : s.records[(cls, key)]? <;> simp only [hr] at h
    case none => cases h
    case some =>
      rcases hc : s.commitRecords (s.records.erase (cls, key)) with ⟨_ | _, s''⟩ <;>
        simp only [hc] at h
      case error =>
        cases h
        exact (commitRecords_error hc).left
      case ok => cases h

end

section

variable {mutations : List RecordMutation} {mutation : RecordMutation}

theorem applyBatch_ok (h : s.applyBatch mutations = (.ok (), s')) :
    s'.records = RecordMutation.applyAll mutations s.records ∧ s'.durable = s'.records ∧
      s'.store.locked = false := by
  unfold applyBatch at h
  split at h
  case isTrue => cases h
  case isFalse =>
    split at h
    case h_1 => cases h
    case h_2 hx =>
      obtain ⟨hl, _, _, rfl⟩ := commitRecords_ok h
      rw [RecordMutation.applyEach_ok hx]
      exact ⟨rfl, rfl, hl⟩

-- A failed batch leaves in memory what comes before a mutation that is not valid, or all of the old
-- records; the file is replaced only by the records of the whole batch.
theorem applyBatch_error (hl : s.store.locked = false)
    (h : s.applyBatch (mutations ++ [mutation]) = (.error e, s')) :
    s'.store.locked = false ∧
      (s'.records = s.records ∨ s'.records = (RecordMutation.applyEach mutations s.records).snd) ∧
      (s'.durable = s.durable ∨
        s'.durable = RecordMutation.applyAll (mutations ++ [mutation]) s.records) := by
  unfold applyBatch at h
  rw [if_neg (by simp [hl])] at h
  split at h
  case h_1 hx =>
    cases h
    exact ⟨hl, .inr (RecordMutation.applyEach_concat_error hx), .inl rfl⟩
  case h_2 hx =>
    obtain ⟨hs, _, hr⟩ := commitRecords_error h
    refine ⟨by rw [hs]; exact hl, .inl (by rw [records, hs, records]), ?_⟩
    obtain hr | ⟨_, hr⟩ := hr
    case inl => exact .inl (by rw [durable, hr, durable])
    case inr =>
      right
      rw [durable, hr, RecordMutation.applyEach_ok hx]
      rfl

end

-- The property holds of the records in memory and of every revision.
structure AllRecords (p : Records → Prop) (s : DurableStore) : Prop where
  memory    : p s.records
  revisions : ∀ records ∈ s.revisions, p records

namespace AllRecords

variable {p : Records → Prop}

theorem durable (h : s.AllRecords p) (he : p ∅) : p s.durable := by
  unfold DurableStore.durable
  match hr : s.revisions with
  | []           => exact he
  | records :: _ => exact h.revisions records (by simp [hr])

theorem commitRecords (h : s.AllRecords p) (hr : p records) :
    (s.commitRecords records).snd.AllRecords p := by
  match hc : s.commitRecords records with
  | (.ok (), s')   =>
    have ⟨_, _, _, hs⟩ := commitRecords_ok hc
    rw [hs]
    exact ⟨hr, List.forall_mem_cons.mpr ⟨hr, h.revisions⟩⟩
  | (.error _, s') =>
    obtain ⟨hs, _, hv | ⟨_, hv⟩⟩ := commitRecords_error hc
    case inl => exact ⟨by simpa [DurableStore.records, hs] using h.memory, hv ▸ h.revisions⟩
    case inr =>
      exact ⟨by simpa [DurableStore.records, hs] using h.memory,
        hv ▸ List.forall_mem_cons.mpr ⟨hr, h.revisions⟩⟩

theorem put (h : s.AllRecords p) {cls : RecordClass} {key : String} {value : Bytes}
    (hm : p (s.records.insert (cls, key) value)) : (s.put cls key value).snd.AllRecords p := by
  unfold DurableStore.put
  split
  case isTrue => exact h
  split
  case h_1 => exact h
  split
  case isTrue  => exact h
  case isFalse => exact h.commitRecords hm

theorem delete (h : s.AllRecords p) {cls : RecordClass} {key : String}
    (hm : p (s.records.erase (cls, key))) : (s.delete cls key).snd.AllRecords p := by
  unfold DurableStore.delete
  split
  case isTrue => exact h
  split
  case h_1 => exact h
  case h_2 => exact h.commitRecords hm

theorem applyEach {mutations : List RecordMutation}
    (hm : ∀ m ∈ mutations, ∀ records, p records → p (m.apply records)) (hr : p records) :
    p (RecordMutation.applyEach mutations records).snd := by
  induction mutations generalizing records
  case nil => exact hr
  case cons m mutations hi =>
    have ⟨h₁, h₂⟩ := List.forall_mem_cons.mp hm
    unfold RecordMutation.applyEach
    split
    case h_1 => exact hr
    case h_2 => exact hi h₂ <| h₁ records hr

theorem applyBatch (h : s.AllRecords p) {mutations : List RecordMutation}
    (hm : ∀ m ∈ mutations, ∀ records, p records → p (m.apply records)) :
    (s.applyBatch mutations).snd.AllRecords p := by
  have ha := applyEach hm h.memory
  unfold DurableStore.applyBatch
  split
  case isTrue => exact h
  split <;> rename_i hx <;> rw [hx] at ha
  case h_1 => exact ⟨ha, h.revisions⟩
  case h_2 => exact h.commitRecords ha

theorem reopened (h : s.AllRecords p) (he : p ∅) (outcomes : List CommitOutcome) :
    (s.reopened outcomes).AllRecords p :=
  ⟨h.durable he, h.revisions⟩

end AllRecords

-- The next commit is to have this outcome.
def expecting (s : DurableStore) (outcome : CommitOutcome) : DurableStore :=
  { s with outcomes := outcome :: s.outcomes }

theorem commit_refused (s : DurableStore) :
    ∃ e s', (s.expecting .refused).commit = (.error e, s') ∧ s'.store = s.store := by
  unfold commit
  split_ifs
  case neg => split <;> exact ⟨_, _, rfl, rfl⟩
  all_goals exact ⟨_, _, rfl, rfl⟩

section Refinement

variable {aead : Aead} {nonce : Option Nonce} {disk disk' : Disk} {fates rest : List Fate}
  {result : Except StorageError Unit} {store' : EncryptedStore} {op : StoreOp}

-- What was returned, and the store in memory, are those of the durable store.
def Refines (result : Except StorageError Unit) (store : EncryptedStore)
    (outcome : Except StorageError Unit × DurableStore) : Prop :=
  outcome.fst.isOk = result.isOk ∧ outcome.snd.store = store

theorem commit_refines
    (h : (s.store.commit aead nonce).exec disk fates = (disk', some ((result, store'), rest))) :
    ∃ outcome ≠ .replaced, Refines result store' (s.expecting outcome).commit := by
  obtain ⟨revision, bytes, hp, rfl, rfl⟩ | ⟨e, rfl, rfl⟩ := commit_returns h
  case inl =>
    unfold prepareCommit at hp
    split_ifs at hp
    case neg hl hs =>
      split at hp
      case h_1 => cases hp
      case h_2 hr =>
        obtain ⟨_, _, he⟩ := Except.map_eq_ok.mp hp
        cases he
        refine ⟨.done, by decide, ?_⟩
        simp [commit, expecting, DurableStore.records, hl, hs, hr, Refines, Except.isOk,
          Except.toBool]
  case inr =>
    obtain ⟨_, _, hc, hs⟩ := commit_refused s
    exact ⟨.refused, by decide, by rw [hc]; exact ⟨rfl, hs⟩⟩

-- The three operations go on after their commit in different words, but to the same effect.
theorem commitRecords_refines {α : Type} {f : Except StorageError Unit → α} {value : α}
    {next : Except StorageError Unit × EncryptedStore → FileProgram (α × EncryptedStore)}
    (h : ({ s.store with records }.commit aead nonce >>= next).exec disk fates =
      (disk', some ((value, store'), rest)))
    (hok : ∀ store, next (.ok (), store) = done (f (.ok ()), store))
    (he : ∀ e, next (.error e, { s.store with records }) = done (f (.error e), s.store)) :
    ∃ outcome ≠ .replaced, ∃ result, value = f result ∧
      Refines result store' ((s.expecting outcome).commitRecords records) := by
  rw [exec_bind] at h
  match hc : ({ s.store with records }.commit aead nonce).exec disk fates with
  | (_, none)                               => rw [hc] at h; cases h
  | (disk₁, some ((result, store₁), rest₁)) =>
    have ⟨outcome, hne, hr⟩ := commit_refines (s := s.withRecords records) hc
    refine ⟨outcome, hne, result, ?_⟩
    have hx : (s.expecting outcome).withRecords records =
      (s.withRecords records).expecting outcome := rfl
    rw [commitRecords, hx]
    have h : (next (result, store₁)).exec disk₁ rest₁ = (disk', some ((value, store'), rest)) := by
      simpa only [hc] using h
    match result, ((s.withRecords records).expecting outcome).commit, hr with
    | .ok (), (.ok (), s'), hr     =>
      rw [hok] at h
      cases h
      exact ⟨rfl, hr⟩
    | .error e, (.error _, s'), hr =>
      have hs : store₁ = { s.store with records } := by
        obtain ⟨_, _, _, hn, _⟩ | ⟨_, _, hs⟩ := commit_returns hc
        case inl => cases hn
        case inr => exact hs
      rw [hs, he] at h
      cases h
      have hd : s'.store = store₁ := hr.right
      exact ⟨rfl, rfl, by simp [withRecords, hd, hs, expecting, DurableStore.records]⟩

-- In memory the encrypted store does what the durable store does, whatever happens to its files.
theorem perform_refines
    (h : (op.program aead s.store nonce).exec disk fates =
      (disk', some ((result, store'), rest))) :
    ∃ outcome ≠ .replaced, Refines result store' ((s.expecting outcome).perform op) := by
  have hl (outcome) : (s.expecting outcome).store.locked = s.store.locked := rfl
  have hr (outcome) : (s.expecting outcome).records = s.store.records := rfl
  cases op
  case put cls key value =>
    simp only [StoreOp.program, EncryptedStore.put] at h
    simp only [perform, put, hl, hr]
    cases hk : validateRecordKey key
    case error =>
      simp only [hk] at h ⊢
      split_ifs at h ⊢ <;> cases h <;> exact ⟨.done, by decide, rfl, rfl⟩
    case ok =>
      simp only [hk] at h ⊢
      split_ifs at h ⊢
      case pos => cases h; exact ⟨.done, by decide, rfl, rfl⟩
      case pos => cases h; exact ⟨.done, by decide, rfl, rfl⟩
      obtain ⟨outcome, hne, result, hv, hf⟩ := commitRecords_refines (s := s) (f := id) h
        (fun _ => rfl) fun e => by
          cases hp : s.store.records[(cls, key)]?
          case none     => simp [OrderedMap.erase_insert_self value hp]
          case some old => simp [OrderedMap.insert_insert_self value hp]
      exact ⟨outcome, hne, hv ▸ hf⟩
  case delete cls key =>
    simp only [StoreOp.program, EncryptedStore.delete] at h
    simp only [perform, delete, hl, hr]
    split_ifs at h ⊢
    case pos => cases h; exact ⟨.done, by decide, rfl, rfl⟩
    cases hp : s.store.records[(cls, key)]?
    case none => rw [hp] at h; cases h; exact ⟨.done, by decide, rfl, rfl⟩
    case some =>
      simp only [hp, FileProgram.bind_assoc] at h
      obtain ⟨outcome, hne, result, hv, hf⟩ := commitRecords_refines (s := s) (f := id) h
        (fun _ => rfl) fun e => by simp [OrderedMap.insert_erase_self hp, Except.map]
      refine ⟨outcome, hne, ?_⟩
      rw [hv]
      simpa [Refines] using hf
  case applyBatch mutations =>
    simp only [StoreOp.program, EncryptedStore.applyBatch] at h
    simp only [perform, applyBatch, hl, hr]
    split_ifs at h ⊢
    case pos => cases h; exact ⟨.done, by decide, rfl, rfl⟩
    rcases hm : RecordMutation.applyEach mutations s.store.records with ⟨e | _, records⟩
    case error => rw [hm] at h; cases h; exact ⟨.done, by decide, rfl, rfl⟩
    case ok    =>
      simp only [hm] at h ⊢
      obtain ⟨outcome, hne, result, hv, hf⟩ := commitRecords_refines (s := s) (f := id) h
        (fun _ => rfl) fun _ => rfl
      exact ⟨outcome, hne, hv ▸ hf⟩

-- The store file holds the records a restart is to find, and they are those in memory.
structure OnDisk (aead : Aead) (disk : Disk) (s : DurableStore) : Prop where
  synced : s.durable = s.records
  files  : FilesHold aead s.store.path s.store.key disk s.store.revision s.durable

theorem commitRecords_synced {outcome : CommitOutcome} (hne : outcome ≠ .replaced)
    (hd : s.durable = s.records) (records : Records) :
    ((s.expecting outcome).commitRecords records).snd.durable =
      ((s.expecting outcome).commitRecords records).snd.records := by
  match hc : (s.expecting outcome).commitRecords records with
  | (.ok (), s')   =>
    have ⟨_, _, _, hs⟩ := commitRecords_ok hc
    rw [hs]
    rfl
  | (.error _, s') =>
    obtain ⟨hs, _, hr | ⟨hr, _⟩⟩ := commitRecords_error hc
    case inl =>
      rw [durable, hr, DurableStore.records, hs]
      exact hd
    case inr => simp [expecting, hne] at hr

-- An operation that is not reported as failed after it replaced the store file keeps the records of
-- the newest revision in memory.
theorem perform_synced {outcome : CommitOutcome} (hne : outcome ≠ .replaced)
    (hk : op.KeepsRecords s.records) (hd : s.durable = s.records) :
    ((s.expecting outcome).perform op).snd.durable =
      ((s.expecting outcome).perform op).snd.records := by
  have hr (outcome) : (s.expecting outcome).records = s.records := rfl
  have hs : (s.expecting outcome).durable = (s.expecting outcome).records := hd
  cases op
  case put =>
    simp only [perform, put]
    split
    case isTrue => exact hs
    split
    case h_1 => exact hs
    split
    case isTrue  => exact hs
    case isFalse => exact commitRecords_synced hne hd _
  case delete =>
    simp only [perform, delete]
    split_ifs
    case pos => exact hs
    split
    case h_1 => exact hs
    case h_2 => exact commitRecords_synced hne hd _
  case applyBatch mutations =>
    simp only [perform, applyBatch, hr]
    split_ifs
    case pos => exact hs
    split
    case h_2 => exact commitRecords_synced hne hd _
    case h_1 e records he =>
      have ha := RecordMutation.applyEach_snd mutations s.records
      have hv := RecordMutation.applyEach_fst_eq_ok_iff mutations s.records
      simp only [he, reduceCtorEq, false_iff] at ha hv
      have hrec : records = s.records := ha.trans <| hk.resolve_left hv
      rw [hrec]
      exact hs

-- Under safe fates this also holds of the files.
theorem perform_onDisk (hl : s.store.locked = false) (hk : op.KeepsRecords s.records)
    (hd : s.OnDisk aead disk) (hf : failures fates ≤ 1) (hs : SafeFates fates)
    (h : (op.program aead s.store nonce).exec disk fates =
      (disk', some ((result, store'), rest))) :
    ∃ outcome ≠ .replaced, Refines result store' ((s.expecting outcome).perform op) ∧
      ((s.expecting outcome).perform op).snd.OnDisk aead disk' := by
  have ⟨outcome, hne, hr⟩ := perform_refines h
  have hy := perform_synced hne hk hd.synced
  have hh := hd.files
  rw [hd.synced] at hh
  have hout := Session.program_outcome nonce hl hk hh hf hs
  rw [h] at hout
  refine ⟨outcome, hne, hr, hy, ?_⟩
  rw [hy, DurableStore.records, hr.right]
  match result with
  | .ok ()   =>
    have ⟨_, ha, hs⟩ := hout
    simpa [hs] using ha
  | .error _ =>
    have ⟨hb, hs⟩ := hout
    simpa [hs] using hb

-- The outcome `replaced` is one the files can have: the write of the store file is reported as failed
-- after it was done. The records in memory are then the old ones and those on the disk the new ones.
theorem commit_replaced {revision : UInt64} {bytes : Bytes} (hd : s.OnDisk aead disk)
    (hp : { s.store with records }.prepareCommit aead nonce = .ok (revision, bytes)) :
    ∃ disk', ({ s.store with records }.commit aead nonce).exec disk
        [.succeeds, .succeeds, .replaced] =
          (disk', some ((.error .io, { s.store with records }), [])) ∧
      FilesHold aead s.store.path s.store.key disk' revision records := by
  have ⟨old, ho, _⟩ := hd.files.opens
  have ⟨hr, hb⟩ := prepareCommit_spec hp
  have hle : s.store.revision ≤ revision := UInt64.le_iff_toNat_le.mpr <| by simp at hr; omega
  have hx : (s.store.replaceFiles revision bytes).exec disk [.succeeds, .succeeds, .replaced] =
      (Function.update disk s.store.path (some bytes), some (.error .io, [])) := by
    rw [replaceFiles_exec_reads ho]
    simp [writeFiles, exec, FileOp.effect]
  have hs : { s.store with records }.replaceFiles revision bytes =
    s.store.replaceFiles revision bytes := rfl
  refine ⟨Function.update disk s.store.path (some bytes), ?_,
    Session.filesHold_of_newFiles hd.files hle hb ⟨by simp, .inl ?_⟩⟩
  · rw [EncryptedStore.commit, hp]
    simp only [exec_bind, hs, hx]
    rfl
  · exact Function.update_of_ne (markerPath_ne _) _ _

end Refinement

end DurableStore
