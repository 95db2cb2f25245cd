import AnotherDimension.Attachments.WorkArea
import AnotherDimension.Library.Run

-- When the maps of the attachment area agree with each other.

open Std

namespace AttachmentArea

variable {aead : Aead} {area : AttachmentArea} {blobId : String} {now : UInt64}

-- Jobs and packages have their times, and there are not too many of them.
structure IsConsistent (area : AttachmentArea) : Prop where
  jobs      : ∀ id, id ∈ area.jobs ↔ id ∈ area.jobStartedAt
  completed : ∀ id, id ∈ area.completed ↔ id ∈ area.completedCreatedAt
  oneJob    : area.jobs.size ≤ 1
  count     : area.completed.size ≤ maxCompletedAttachmentCount
  bytes     : area.completedBytes ≤ maxCompletedAttachmentBytes

-- A job leaves room for the package it becomes.
structure Inv (area : AttachmentArea) : Prop extends area.IsConsistent where
  room : area.jobs.size + area.completed.size ≤ maxCompletedAttachmentCount

-- The area stays consistent, and is as it was when the operation fails.
structure IsFaithful (aead : Aead) (area : AttachmentArea) (op : AttachmentOp) : Prop where
  consistent : (area.step aead op).IsConsistent
  unchanged  : (area.perform aead op).fst = false → area.step aead op = area

-- A job is finished when all of its bytes are there and its package has room, and an id is cancelled
-- that is not both a job and a package.
def IsAllowed (area : AttachmentArea) : AttachmentOp → Bool
  | .finish blobId _ => (area.jobs[blobId]?).all fun job =>
      job.finish.isOk && job.blob.length +
        OrderedMap.total (fun _ package => package.blob.length) (area.completed.erase blobId) ≤
          maxCompletedAttachmentBytes
  | .cancel blobId   => !decide (blobId ∈ area.jobs ∧ blobId ∈ area.completed)
  | _                => true

theorem inv_empty : empty.Inv where
  jobs      := by simp [empty]
  completed := by simp [empty]
  oneJob    := by simp [empty]
  count     := by simp [empty]
  bytes     := by
    have hnil : empty.completed.toList = [] := ExtTreeMap.toList_eq_nil_iff.mpr rfl
    rw [completedBytes, OrderedMap.total, hnil]
    exact Nat.zero_le _
  room      := by simp [empty]

theorem size_erase_le {β : Type} (t : ExtTreeMap String β) (id : String) :
    (t.erase id).size ≤ t.size :=
  ExtTreeMap.size_erase_le

theorem size_insert_le {β : Type} (t : ExtTreeMap String β) (id : String) (v : β) :
    (t.insert id v).size ≤ t.size + 1 :=
  ExtTreeMap.size_insert_le

theorem mem_erase {β : Type} {t : ExtTreeMap String β} {id : String} :
    id ∈ t.erase blobId ↔ blobId ≠ id ∧ id ∈ t := by
  simp [ExtTreeMap.mem_erase]

theorem mem_insert {β : Type} {t : ExtTreeMap String β} {id : String} {v : β} :
    id ∈ t.insert blobId v ↔ blobId = id ∨ id ∈ t := by
  simp [ExtTreeMap.mem_insert]

theorem size_insert_of_mem {β : Type} {t : ExtTreeMap String β} (v : β) (h : blobId ∈ t) :
    (t.insert blobId v).size = t.size := by
  rw [ExtTreeMap.size_insert, if_pos (ExtTreeMap.contains_iff_mem.mpr h)]

theorem size_erase_of_mem {β : Type} {t : ExtTreeMap String β} (h : blobId ∈ t) :
    (t.erase blobId).size + 1 = t.size := by
  have hpos : t.size ≠ 0 := fun hz =>
    ExtTreeMap.not_mem_empty (ExtTreeMap.eq_empty_iff_size_eq_zero.mpr hz ▸ h)
  rw [ExtTreeMap.size_erase, if_pos (ExtTreeMap.contains_iff_mem.mpr h)]
  omega

theorem Inv.start {total : Nat} {fileName mediaType : Option String} {key : Option (ByteBlock 32)}
    (inv : area.Inv) :
    (area.attachmentStart blobId total fileName mediaType key now).snd.Inv ∧
      ((area.attachmentStart blobId total fileName mediaType key now).fst.isOk = false →
        (area.attachmentStart blobId total fileName mediaType key now).snd = area) := by
  unfold attachmentStart
  split
  case isTrue => exact ⟨inv, fun _ => rfl⟩
  case isFalse =>
    split
    case isTrue => exact ⟨inv, fun _ => rfl⟩
    case isFalse h =>
      split
      case h_1 => exact ⟨inv, fun _ => rfl⟩
      case h_2 job _ =>
        refine ⟨?_, nofun⟩
        have hempty : area.jobs.isEmpty := by
          by_contra hn
          exact h (.inl hn)
        have hcount : area.completed.size < maxCompletedAttachmentCount := by
          by_contra hn
          exact h (.inr <| .inl <| Nat.not_lt.mp hn)
        have hzero : area.jobs.size = 0 :=
          ExtTreeMap.eq_empty_iff_size_eq_zero.mp (ExtTreeMap.isEmpty_iff.mp hempty)
        have hsize := size_insert_le area.jobs blobId job
        exact {
          jobs      := fun id => by rw [mem_insert, mem_insert, inv.jobs]
          completed := inv.completed
          oneJob    := hsize.trans (by omega)
          count     := inv.count
          bytes     := inv.bytes
          room      := by
            simp only
            omega }

theorem Inv.append {index : UInt32} {plaintext : Bytes} {nonce : Option (ByteBlock 12)}
    (inv : area.Inv) :
    (area.attachmentAppend aead blobId index plaintext nonce).snd.Inv ∧
      ((area.attachmentAppend aead blobId index plaintext nonce).fst.isOk = false →
        (area.attachmentAppend aead blobId index plaintext nonce).snd = area) := by
  unfold attachmentAppend
  split
  case h_1 => exact ⟨inv, fun _ => rfl⟩
  case h_2 job hj =>
    split
    case h_1 => exact ⟨inv, fun _ => rfl⟩
    case h_2 job' _ =>
      refine ⟨?_, nofun⟩
      have hmem : blobId ∈ area.jobs := ExtTreeMap.mem_iff_isSome_getElem?.mpr (hj ▸ rfl)
      have hsize := size_insert_of_mem job' hmem
      exact {
        jobs      := fun id => by
          rw [mem_insert, ← inv.jobs, or_iff_right_of_imp]
          rintro rfl
          exact hmem
        completed := inv.completed
        oneJob    := hsize ▸ inv.oneJob
        count     := inv.count
        bytes     := inv.bytes
        room      := hsize ▸ inv.room }

-- A job that is finished with success becomes a package.
theorem Inv.finish {job : AttachmentJob} {package : EncryptedAttachment} (inv : area.Inv)
    (hj : area.jobs[blobId]? = some job) (hp : job.finish = .ok package)
    (fits : package.blob.length +
      OrderedMap.total (fun _ package => package.blob.length) (area.completed.erase blobId) ≤
        maxCompletedAttachmentBytes) :
    (area.attachmentFinish blobId now).snd.Inv := by
  have hmem : blobId ∈ area.jobs := ExtTreeMap.mem_iff_isSome_getElem?.mpr (hj ▸ rfl)
  have hsize := size_erase_of_mem hmem
  have hcount := size_insert_le area.completed blobId package
  have hroom := inv.room
  simp only [attachmentFinish, hj, hp]
  exact {
    jobs      := fun id => by rw [mem_erase, mem_erase, inv.jobs]
    completed := fun id => by rw [mem_insert, mem_insert, inv.completed]
    oneJob    := (size_erase_le _ _).trans inv.oneJob
    count     := by
      simp only
      omega
    bytes     := by
      rw [completedBytes, OrderedMap.total_insert]
      exact fits
    room      := by
      simp only
      omega }

-- Removing a package together with its time.
theorem Inv.take (inv : area.Inv) : (area.takeCompletedAttachment blobId).snd.Inv where
  jobs      := inv.jobs
  completed := fun id => by
    simp only [takeCompletedAttachment]
    rw [mem_erase, mem_erase, inv.completed]
  oneJob    := inv.oneJob
  count     := (size_erase_le _ _).trans inv.count
  bytes     := (OrderedMap.total_erase_le _ _ _).trans inv.bytes
  room      := (Nat.add_le_add_left (size_erase_le _ _) _).trans inv.room

theorem Inv.purge (inv : area.Inv) : (area.purgeAttachmentState now).Inv := by
  have hjobs : (area.purgeAttachmentState now).jobs.size ≤ area.jobs.size :=
    OrderedMap.eraseAll_le size_erase_le _
  have hcompleted : (area.purgeAttachmentState now).completed.size ≤ area.completed.size :=
    OrderedMap.eraseAll_le size_erase_le _
  exact {
    jobs      := fun id => by
      simp only [purgeAttachmentState, OrderedMap.mem_eraseAll, inv.jobs]
    completed := fun id => by
      simp only [purgeAttachmentState, OrderedMap.mem_eraseAll, inv.completed]
    oneJob    := hjobs.trans inv.oneJob
    count     := hcompleted.trans inv.count
    bytes     := (OrderedMap.eraseAll_le (OrderedMap.total_erase_le _) _).trans inv.bytes
    room      := (Nat.add_le_add hjobs hcompleted).trans inv.room }

theorem getElem?_eq_none_iff {β : Type} {t : ExtTreeMap String β} :
    t[blobId]? = none ↔ blobId ∉ t := by
  rw [ExtTreeMap.mem_iff_isSome_getElem?, Bool.not_eq_true, Option.isSome_eq_false_iff,
    Option.isNone_iff_eq_none]

theorem erase_of_not_mem {β : Type} {t : ExtTreeMap String β} (h : blobId ∉ t) :
    t.erase blobId = t :=
  OrderedMap.erase_eq_self (getElem?_eq_none_iff.mpr h)

-- An id that is no package has no time of one, and so with jobs.
theorem Inv.createdAt_erase (inv : area.Inv) (h : blobId ∉ area.completed) :
    area.completedCreatedAt.erase blobId = area.completedCreatedAt :=
  erase_of_not_mem (mt (inv.completed blobId).mpr h)

theorem Inv.startedAt_erase (inv : area.Inv) (h : blobId ∉ area.jobs) :
    area.jobStartedAt.erase blobId = area.jobStartedAt :=
  erase_of_not_mem (mt (inv.jobs blobId).mpr h)

theorem Inv.cancel (inv : area.Inv) (h : ¬(blobId ∈ area.jobs ∧ blobId ∈ area.completed)) :
    (area.cancelAttachment blobId).snd.Inv := by
  unfold cancelAttachment
  split
  case isTrue hj =>
    have hc : blobId ∉ area.completed := fun hc => h ⟨hj, hc⟩
    have hsize := size_erase_le area.jobs blobId
    exact {
      jobs      := fun id => by
        simp only
        rw [mem_erase, mem_erase, inv.jobs]
      completed := by
        simp only [inv.createdAt_erase hc]
        exact inv.completed
      oneJob    := hsize.trans inv.oneJob
      count     := inv.count
      bytes     := inv.bytes
      room      := (Nat.add_le_add_right hsize _).trans inv.room }
  case isFalse hj =>
    rw [inv.startedAt_erase hj]
    split
    case isTrue => exact inv.take
    case isFalse hc =>
      simp only [inv.createdAt_erase hc]
      exact ⟨⟨inv.jobs, inv.completed, inv.oneJob, inv.count, inv.bytes⟩, inv.room⟩

theorem Inv.cancel_unchanged (inv : area.Inv) (h : (area.cancelAttachment blobId).fst = false) :
    (area.cancelAttachment blobId).snd = area := by
  unfold cancelAttachment at h ⊢
  split at h
  case isTrue => cases h
  case isFalse hj =>
    split at h
    case isTrue => cases h
    case isFalse hc =>
      have hr : blobId ∉ area.received := fun hr =>
        Bool.false_ne_true (h.symm.trans (ExtTreeMap.contains_iff_mem.mpr hr))
      rw [if_neg hj, if_neg hc, inv.startedAt_erase hj, inv.createdAt_erase hc, erase_of_not_mem hr]

theorem Inv.take_unchanged (inv : area.Inv) (h : area.completed[blobId]? = none) :
    (area.takeCompletedAttachment blobId).snd = area := by
  have hc := getElem?_eq_none_iff.mp h
  rw [takeCompletedAttachment, inv.createdAt_erase hc, erase_of_not_mem hc]

theorem Inv.takeIfEqual {expected : EncryptedAttachment} (inv : area.Inv) :
    (area.takeCompletedAttachmentIfEqual blobId expected).snd.Inv ∧
      ((area.takeCompletedAttachmentIfEqual blobId expected).fst = false →
        (area.takeCompletedAttachmentIfEqual blobId expected).snd = area) := by
  unfold takeCompletedAttachmentIfEqual
  split
  case h_1 => exact ⟨inv, fun _ => rfl⟩
  case h_2 hc =>
    split
    case isTrue  => exact ⟨inv, fun _ => rfl⟩
    case isFalse => exact ⟨inv.take, fun h => by simp [takeCompletedAttachment, hc] at h⟩

theorem blob_of_finish {job : AttachmentJob} {package : EncryptedAttachment}
    (h : job.finish = .ok package) : package.blob = job.blob := by
  unfold AttachmentJob.finish at h
  split at h
  case isTrue  => cases h
  case isFalse => rw [← Except.ok.inj h]

theorem isFaithful_finish_iff (inv : area.Inv) :
    area.IsFaithful aead (.finish blobId now) ↔ area.IsAllowed (.finish blobId now) := by
  cases hj : area.jobs[blobId]?
  case none =>
    have he : area.attachmentFinish blobId now = (.error .invalidManifest, area) := by
      simp [attachmentFinish, hj]
    refine iff_of_true ⟨?_, fun _ => ?_⟩ (by simp [IsAllowed, hj])
    all_goals simp only [step, perform, he]
    exact inv.toIsConsistent
  case some job =>
    cases hp : job.finish
    case error e =>
      have hmem : blobId ∈ area.jobs := ExtTreeMap.mem_iff_isSome_getElem?.mpr (hj ▸ rfl)
      have he : area.attachmentFinish blobId now =
          (.error e, { area with jobs := area.jobs.erase blobId }) := by
        simp [attachmentFinish, hj, hp]
      refine iff_of_false (fun h => ?_) (by simp [IsAllowed, hj, hp, Except.isOk, Except.toBool])
      have hsame := h.unchanged (by simp only [perform, he]; rfl)
      simp only [step, perform, he] at hsame
      have hjobs : area.jobs.erase blobId = area.jobs := congrArg AttachmentArea.jobs hsame
      have hgone : blobId ∉ area.jobs.erase blobId := by simp
      exact (hjobs ▸ hgone) hmem
    case ok package =>
      have hall : area.IsAllowed (.finish blobId now) ↔ package.blob.length +
          OrderedMap.total (fun _ package => package.blob.length) (area.completed.erase blobId) ≤
            maxCompletedAttachmentBytes := by
        simp [IsAllowed, hj, hp, Except.isOk, Except.toBool, blob_of_finish hp]
      rw [hall]
      constructor
      case mp =>
        intro h
        have hbytes := h.consistent.bytes
        simp only [step, perform, attachmentFinish, hj, hp, completedBytes] at hbytes
        rwa [OrderedMap.total_insert] at hbytes
      case mpr =>
        intro fits
        refine ⟨(inv.finish hj hp fits).toIsConsistent, fun h => ?_⟩
        simp only [perform, attachmentFinish, hj, hp] at h
        cases h

theorem isAllowed_cancel :
    area.IsAllowed (.cancel blobId) ↔ ¬(blobId ∈ area.jobs ∧ blobId ∈ area.completed) := by
  rw [IsAllowed, Bool.not_eq_true', decide_eq_false_iff_not]

theorem isFaithful_cancel_iff (inv : area.Inv) :
    area.IsFaithful aead (.cancel blobId) ↔ area.IsAllowed (.cancel blobId) := by
  rw [isAllowed_cancel]
  constructor
  case mp =>
    rintro h ⟨hj, hc⟩
    have hmem := (h.consistent.completed blobId).mp (by simpa [step, perform, cancelAttachment, hj])
    simp [step, perform, cancelAttachment, hj] at hmem
  case mpr => exact fun h => ⟨(inv.cancel h).toIsConsistent, inv.cancel_unchanged⟩

-- Exactly the allowed operations are faithful.
theorem isFaithful_iff (inv : area.Inv) (op : AttachmentOp) :
    area.IsFaithful aead op ↔ area.IsAllowed op := by
  cases op
  case finish => exact isFaithful_finish_iff inv
  case cancel => exact isFaithful_cancel_iff inv
  case start  => exact iff_of_true ⟨inv.start.left.toIsConsistent, inv.start.right⟩ rfl
  case append => exact iff_of_true ⟨inv.append.left.toIsConsistent, inv.append.right⟩ rfl
  case purge  => exact iff_of_true ⟨inv.purge.toIsConsistent, nofun⟩ rfl
  case takeCompleted =>
    exact iff_of_true ⟨inv.take.toIsConsistent, fun h => inv.take_unchanged <|
      Option.isNone_iff_eq_none.mp <| Option.isSome_eq_false_iff.mp h⟩ rfl
  case takeCompletedIfEqual =>
    exact iff_of_true ⟨inv.takeIfEqual.left.toIsConsistent, inv.takeIfEqual.right⟩ rfl

theorem Inv.step (inv : area.Inv) {op : AttachmentOp} (h : area.IsAllowed op) :
    (area.step aead op).Inv := by
  cases op
  case start  => exact inv.start.left
  case append => exact inv.append.left
  case purge  => exact inv.purge
  case takeCompleted => exact inv.take
  case takeCompletedIfEqual => exact inv.takeIfEqual.left
  case cancel => exact inv.cancel (isAllowed_cancel.mp h)
  case finish blobId now =>
    cases hj : area.jobs[blobId]?
    case none => simpa [AttachmentArea.step, perform, attachmentFinish, hj] using inv
    case some job =>
      cases hp : job.finish
      case error => simp [IsAllowed, hj, hp, Except.isOk, Except.toBool] at h
      case ok package =>
        refine inv.finish hj hp ?_
        simpa [IsAllowed, hj, hp, Except.isOk, Except.toBool, blob_of_finish hp] using h

theorem meets_isFaithful_iff (aead : Aead) (inv : area.Inv) (ops : List AttachmentOp) :
    Run.Meets (step aead) (IsFaithful aead) area ops ↔
      Run.Meets (step aead) (fun area op => area.IsAllowed op) area ops :=
  Run.Meets.iff_of_invariant
    (fun _ op inv h => inv.step ((isFaithful_iff inv op).mp h)) (fun _ op inv => isFaithful_iff inv op)
    inv

theorem faithful_iff (aead : Aead) (ops : List AttachmentOp) :
    ((∀ area ∈ Run.states (step aead) empty ops, area.IsConsistent) ∧
      Run.Meets (step aead) (fun area op => (area.perform aead op).fst = false →
        area.step aead op = area) empty ops) ↔
      Run.Meets (step aead) (fun area op => area.IsAllowed op) empty ops := by
  rw [← meets_isFaithful_iff aead inv_empty ops]
  constructor
  case mp =>
    rintro ⟨hstates, hmeets⟩
    exact ((Run.Meets.of_forall_next hstates).and hmeets).mono fun _ _ h => ⟨h.left, h.right⟩
  case mpr =>
    intro h
    exact ⟨h.forall_states (fun _ _ _ h => h.consistent) inv_empty.toIsConsistent,
      h.mono fun _ _ h => h.unchanged⟩

-- In every run from the empty area.
theorem consistent_and_unchanged_iff (aead : Aead) (ops : List AttachmentOp) :
    ((∀ area ∈ Run.states (step aead) empty ops, area.IsConsistent) ∧
      Run.Meets (step aead) (fun area op => (area.perform aead op).fst = false →
        area.step aead op = area) empty ops) ↔
      Run.Meets (step aead) (fun area op => area.IsAllowed op) empty ops :=
  faithful_iff aead ops

def sampleId : String := "0123456789abcdef0123456789abcdef"

-- A job is finished before its only byte was appended.
def finishedEarly : List AttachmentOp :=
  [.start sampleId 1 none none (some (.fill 32 7)) 100, .finish sampleId 101]

-- A second job with the id of a package is cancelled.
def cancelledTwice : List AttachmentOp :=
  [.start sampleId 1 none none (some (.fill 32 7)) 100, .append sampleId 0 [5] (some (.fill 12 1)),
    .finish sampleId 101, .start sampleId 1 none none (some (.fill 32 8)) 102, .cancel sampleId]

theorem finishedEarly_not_faithful :
    (¬((∀ area ∈ Run.states (step .sample) empty finishedEarly, area.IsConsistent) ∧
      Run.Meets (step .sample) (fun area op => (area.perform .sample op).fst = false →
        area.step .sample op = area) empty finishedEarly)) ∧
    ¬((∀ area ∈ Run.states (step .sample) empty cancelledTwice, area.IsConsistent) ∧
      Run.Meets (step .sample) (fun area op => (area.perform .sample op).fst = false →
        area.step .sample op = area) empty cancelledTwice) := by
  constructor
  case left =>
    rw [faithful_iff]
    decide
  case right =>
    rw [faithful_iff]
    decide

end AttachmentArea
