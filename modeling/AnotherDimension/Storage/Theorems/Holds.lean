import AnotherDimension.Storage.Theorems.Crash

-- The stores that hold a record.

open FileProgram Storage

namespace EncryptedStore

variable {store store' : EncryptedStore} {key : RecordKey} {bytes : Bytes}

def Holds (store : EncryptedStore) (key : RecordKey) (bytes : Bytes) : Prop :=
  store.get key.fst key.snd = some bytes

theorem exists_holds (key : RecordKey) (bytes : Bytes) : ∃ store : EncryptedStore,
    store.Holds key bytes := by
  refine ⟨{ sampleStore with records := Std.ExtTreeMap.empty.insert key bytes }, ?_⟩
  simp [Holds, get, sampleStore]

theorem put_holds {aead : Aead} {nonce : Option Nonce} {disk disk' : Disk} {fates rest : List Fate}
    (hl : store.locked = false)
    (h : (store.put aead nonce key.fst key.snd bytes).exec disk fates =
      (disk', some ((.ok (), store'), rest))) : store'.Holds key bytes := by
  have ⟨hr, hl'⟩ := StoreOp.exec_ok (.put _ _ _) hl h
  simp [Holds, get, hr, hl', StoreOp.apply]

end EncryptedStore
