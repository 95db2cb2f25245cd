import AnotherDimension.Storage.Theorems.Crash

-- Old contents of the store file do not open again, as long as the marker keeps up.

open FileProgram Storage

namespace EncryptedStore

variable {aead : Aead} {store store' : EncryptedStore} {nonce : Option Nonce} {disk disk' : Disk}
  {fates rest : List Fate} {bytes : Bytes} {revision : UInt64}

-- Once a commit has replaced the store file, the marker follows without a failure.
def MarkerFollows (fates : List Fate) : Prop :=
  fates[2]? ≠ some .replaced ∧ (fates[2]? = some .succeeds → fates[3]? = some .succeeds)

-- Such a commit leaves the disk as it was at every point, or replaces both files.
theorem replaceFiles_of_markerFollows (revision : UInt64) (bytes : Bytes) {old : Bytes} (ho : disk store.path = some old)
    (hs : MarkerFollows fates) :
    let p := store.replaceFiles revision bytes
    ((p.exec disk fates).fst = disk ∧ (∀ d ∈ p.visited disk fates, d = disk) ∧
      ∀ r ∈ (p.exec disk fates).snd, r.fst = .error .io) ∨
    (∃ rest, p.exec disk fates =
      (Function.update (Function.update disk store.path (some bytes)) store.markerPath
        (some <| markerBytes revision), some (.ok (), rest)) ∧
      ∀ d ∈ p.visited disk fates, d store.path = some old ∨ d store.path = some bytes) := by
  have hne : store.markerPath ≠ store.path := markerPath_ne _
  obtain _ | ⟨_ | _ | _, fates⟩ := fates
  case nil            => left; simp [replaceFiles, exec, visited]
  case cons.untouched => left; simp [replaceFiles, exec, visited, FileOp.effect]
  case cons.replaced  => left; simp [replaceFiles, exec, visited, FileOp.effect]
  case cons.succeeds  =>
    obtain _ | ⟨_ | _ | _, fates⟩ := fates
    case nil            =>
      left; simp [replaceFiles, exec, visited, FileOp.effect, FileOp.answer, ho]
    case cons.untouched =>
      left; simp [replaceFiles, exec, visited, FileOp.effect, FileOp.answer, ho]
    case cons.replaced  =>
      left; simp [replaceFiles, exec, visited, FileOp.effect, FileOp.answer, ho]
    case cons.succeeds  =>
      simp only [replaceFiles_exec_reads ho, replaceFiles_visited_reads ho]
      obtain _ | ⟨_ | _ | _, fates⟩ := fates
      case nil            => left; simp [writeFiles, exec, visited]
      case cons.untouched => left; simp [writeFiles, exec, visited]
      case cons.replaced  => simp [MarkerFollows] at hs
      case cons.succeeds  =>
        obtain _ | ⟨_ | _ | _, fates⟩ := fates
        case nil            => simp [MarkerFollows] at hs
        case cons.untouched => simp [MarkerFollows] at hs
        case cons.replaced  => simp [MarkerFollows] at hs
        case cons.succeeds  =>
          right
          simp [writeFiles, writeMarker, exec, visited, FileOp.effect, FileOp.answer, ho, hne.symm]

end EncryptedStore

namespace StoreOp

open EncryptedStore

variable {store : EncryptedStore} {disk : Disk} {fates : List Fate}

-- So an operation leaves the disk as it was and the store at its revision, or commits the new
-- records with both files.
theorem program_of_markerFollows (aead : Aead) (nonce : Option Nonce) (op : StoreOp) {old : Bytes}
    (hl : store.locked = false) (ho : disk store.path = some old) (hm : MarkerFollows fates) :
    let p := op.program aead store nonce
    ((p.exec disk fates).fst = disk ∧ (∀ d ∈ p.visited disk fates, d = disk) ∧
      ∀ r ∈ (p.exec disk fates).snd, ∃ records, r.fst.snd = { store with records }) ∨
    (∃ revision bytes rest, revision.toNat = store.revision.toNat + 1 ∧
      Opens aead store.key bytes revision (op.apply store.records) ∧
      p.exec disk fates =
        (Function.update (Function.update disk store.path (some bytes)) store.markerPath
          (some <| markerBytes revision),
        some ((.ok (), { store with records := op.apply store.records, revision }), rest)) ∧
      ∀ d ∈ p.visited disk fates, d store.path = some old ∨ d store.path = some bytes) := by
  intro p
  obtain ⟨result, -, hx⟩ | ⟨revision, bytes, hp, hx⟩ := StoreOp.attempts aead nonce hl op
  case inl => exact .inl <| by simp [p, hx, exec, visited]
  case inr =>
    -- Nothing is done to the files after the commit.
    have hvisited : ∀ d ∈ p.visited disk fates,
        d ∈ (store.replaceFiles revision bytes).visited disk fates := by
      intro d hd
      simp only [p, hx] at hd
      obtain hd | ⟨disk', r, rest, he, hd⟩ := mem_visited_bind hd
      case inl => exact hd
      case inr =>
        have hd' : d = disk' := by cases r <;> simpa [visited] using hd
        simpa [he, hd'] using exec_mem_visited (store.replaceFiles revision bytes) disk fates
    obtain ⟨hn, hopens⟩ := prepareCommit_spec hp
    obtain ⟨hd, hv, hr⟩ | ⟨rest, he, hv⟩ := replaceFiles_of_markerFollows revision bytes ho hm
    case inl =>
      rcases hc : (store.replaceFiles revision bytes).exec disk fates with
        ⟨disk', _ | ⟨_ | _, _⟩⟩
      case none       =>
        rw [hc] at hd
        refine .inl ⟨?_, fun d h => hv d <| hvisited d h, ?_⟩
        case refine_1 => simpa only [p, hx, exec_bind, hc] using hd
        case refine_2 => simp only [p, hx, exec_bind, hc, Option.not_mem_none, false_implies,
          implies_true]
      case some.error =>
        rw [hc] at hd
        refine .inl ⟨?_, fun d h => hv d <| hvisited d h, ?_⟩
        case refine_1 => simpa only [p, hx, exec_bind, hc, pure_eq_done, exec] using hd
        case refine_2 =>
          simp only [p, hx, exec_bind, hc, pure_eq_done, exec, Option.mem_some, forall_eq']
          exact ⟨store.records, rfl⟩
      case some.ok    => simp [hc] at hr
    case inr =>
      refine .inr ⟨revision, bytes, rest, hn, hopens, ?_, fun d h => hv d <| hvisited d h⟩
      simp [p, hx, exec_bind, he, exec]

end StoreOp
