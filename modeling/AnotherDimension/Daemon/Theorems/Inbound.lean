import AnotherDimension.Daemon.Theorems.Staging

-- The two receive loops keep the ledger in memory, the records in memory and the disk in sync,
-- however their commits end, as long as the ledger can be read back.

open Storage

-- `serde_json` reads every ledger that was written.
def Services.ReadsLedgers {σ : Type} (services : Services σ) : Prop :=
  ∀ ledger : DeliveryLedger, services.readLedger ledger.encodedBytes = some ledger.records

namespace Daemon

open DeliveryLedger RecordMutation

variable {σ : Type} {services : Services σ} {conversationId digest relayId capability : String}
  {now : UInt64} {plaintext : Option Bytes} {staged : Staged} {records : Records}
  {ledger ledger' : DeliveryLedger} {d d' : Daemon σ} {items : List RelayItem} {item : RelayItem}
  {envelope : RelayEnvelope}

theorem isHexDigest_toHex (block : ByteBlock 32) : LedgerOp.IsHexDigest (Bytes.toHex block.val) := by
  refine ⟨by rw [Bytes.length_toHex, block.property], List.all_eq_true.mpr fun c hc => ?_⟩
  obtain ⟨n, hn, rfl⟩ := Bytes.mem_toHex hc
  have hd : ∀ m < 16, ((Bytes.hexDigit m).isDigit || ('a' ≤ Bytes.hexDigit m &&
      Bytes.hexDigit m ≤ 'f') || ('A' ≤ Bytes.hexDigit m && Bytes.hexDigit m ≤ 'F')) = true := by
    decide
  exact hd n hn

theorem isHexDigest_of_digest (h : envelope.digest services.sha256 = .ok digest) :
    LedgerOp.IsHexDigest digest := by
  obtain ⟨text, _, rfl⟩ := Except.map_eq_ok.mp h
  exact isHexDigest_toHex _

theorem validText_of_validated (h : item.validated services capability now = some envelope) :
    DeliveryRecord.validText DeliveryRecord.maxRelayIdBytes item.id := by
  unfold RelayItem.validated at h
  split at h
  case h_1 => cases h
  case h_2 =>
    split at h
    case h_1 => cases h
    case h_2 =>
      split at h
      case isTrue => cases h
      case isFalse hi =>
        have hs : item.id.utf8ByteSize = 64 := by
          rw [← not_not.mp (not_or.mp hi).right, Bytes.utf8ByteSize_toHex,
            (services.sha256 _).property]
        simp [DeliveryRecord.validText, String.isEmpty, hs, DeliveryRecord.maxRelayIdBytes]

section Invariant

variable (services : Services σ) (offers : String → UInt64 → RelayItem → Prop)
  (before : String → Prop)

-- The envelope of the digest was offered and opened, and the records hold what it carried.
def Carries (records : Records) (digest : String) : Prop :=
  ∃ capability now item envelope conversationId plaintext, offers capability now item ∧
    item.validated services capability now = some envelope ∧
    envelope.digest services.sha256 = .ok digest ∧
    (∃ session session', MlsSession.Opened services.mls session session' envelope.ciphertext
      plaintext) ∧
    ∀ bytes ∈ plaintext, IsStored services records conversationId digest now bytes

-- The records hold the ledger, and what it knows beyond the start of the run.
structure Reflects (ledger : DeliveryLedger) (records : Records) : Prop where
  held    : ledger.HeldIn records
  carried : ∀ digest, ledger.Knows digest →
    before digest ∨ ledger.HasOpened digest ∧ Carries services offers records digest

-- The ledger is that of the records in memory, and a restart finds all it knows.
structure InSync (d : Daemon σ) : Prop where
  unlocked : d.store.store.locked = false
  valid    : d.ledger.Valid
  memory   : Reflects services offers before d.ledger d.store.records
  durable  : ∃ ledger, Reflects services offers before ledger d.store.durable ∧
    d.ledger.Extends ledger

-- A ledger with too many records cannot be read back any more.
structure Overflows (d : Daemon σ) : Prop where
  unlocked : d.store.store.locked = false
  ledger   : maxRecords < d.ledger.records.size
  memory   : ∃ ledger : DeliveryLedger, ledger.HeldIn d.store.records ∧
    maxRecords < ledger.records.size
  durable  : ∃ ledger : DeliveryLedger, ledger.HeldIn d.store.durable ∧
    maxRecords < ledger.records.size

end Invariant

variable {offers : String → UInt64 → RelayItem → Prop} {before : String → Prop}

theorem Carries.insert (h : Carries services offers records digest) {key : RecordKey}
    (hk : key ≠ InviteAuthority.receivedKey digest) (value : Bytes) :
    Carries services offers (records.insert key value) digest := by
  obtain ⟨capability, now, item, envelope, conversationId, plaintext, ho, hv, hd, hp, hs⟩ := h
  exact ⟨capability, now, item, envelope, conversationId, plaintext, ho, hv, hd, hp,
    fun bytes hb => (hs bytes hb).insert hk value⟩

theorem ledgerKey_ne_receivedKey : ledgerKey ≠ InviteAuthority.receivedKey digest :=
  fun h => by cases congrArg Prod.fst h

-- A message that was not opened before does not touch what the ledger knows.
theorem Reflects.insert (h : Reflects services offers before ledger records) {key : RecordKey}
    (hk : IsStagedKey services conversationId digest key) (hn : ¬ledger.HasOpened digest)
    (value : Bytes) : Reflects services offers before ledger (records.insert key value) where
  held    := h.held.insert hk.ne_ledgerKey value
  carried := by
    intro digest' hd
    refine (h.carried digest' hd).imp id fun hc => ⟨hc.left, hc.right.insert ?_ value⟩
    rintro rfl
    exact hn (hk.eq_of_receivedKey ▸ hc.left)

theorem StagesFor.keeps {p : Records → Prop} {checkpoint : Bytes}
    (hs : StagesFor services conversationId digest now plaintext staged)
    (hp : ∀ records key value, IsStagedKey services conversationId digest key → p records →
      p (records.insert key value)) :
    ∀ m ∈ checkpointMutation conversationId checkpoint :: staged.mutations, ∀ records, p records →
      p (m.apply records) := by
  refine List.forall_mem_cons.mpr ⟨fun records => hp records _ _ .checkpoint, fun m hm records => ?_⟩
  obtain ⟨key, value, hk, rfl⟩ := hs.puts m hm
  exact hp records key value hk

theorem applyAll_batch (conversationId : String) (checkpoint : Bytes) (staged : Staged)
    (ledger : DeliveryLedger) (records : Records) :
    applyAll (batch conversationId checkpoint staged ledger) records =
      (applyAll staged.mutations
        (records.insert (MlsSession.key conversationId) checkpoint)).insert ledgerKey
          ledger.encodedBytes := by
  simp only [applyAll, batch, List.foldl_cons, List.foldl_append, List.foldl_nil]
  rfl

theorem applyBatch_batch_error {s s' : DurableStore} {checkpoint : Bytes} {e : StorageError}
    (hl : s.store.locked = false)
    (h : s.applyBatch (batch conversationId checkpoint staged ledger) = (.error e, s')) :
    s'.store.locked = false ∧
      (s'.records = s.records ∨ s'.records = (applyEach
        (checkpointMutation conversationId checkpoint :: staged.mutations) s.records).snd) ∧
      (s'.durable = s.durable ∨
        s'.durable = applyAll (batch conversationId checkpoint staged ledger) s.records) := by
  rw [batch, ← List.cons_append] at h ⊢
  exact DurableStore.applyBatch_error hl h

-- The records of the whole batch hold the new ledger, and what was opened with it.
theorem Reflects.batch {checkpoint : Bytes} (h : Reflects services offers before ledger records)
    (hs : StagesFor services conversationId digest now plaintext staged)
    (hn : ¬ledger.HasOpened digest) (hm : ledger.Marks digest ledger')
    (ho : offers capability now item)
    (hv : item.validated services capability now = some envelope)
    (hd : envelope.digest services.sha256 = .ok digest)
    (hp : ∃ session session', MlsSession.Opened services.mls session session' envelope.ciphertext
      plaintext) :
    Reflects services offers before ledger'
      (applyAll (batch conversationId checkpoint staged ledger') records) := by
  have hr : Reflects services offers before ledger (applyAll
      (checkpointMutation conversationId checkpoint :: staged.mutations) records) :=
    applyAll_of_forall (hs.keeps fun _ _ value hk h => h.insert hk hn value) h
  rw [applyAll_batch]
  refine ⟨heldIn_insert_self _ _, fun digest' hk => ?_⟩
  by_cases he : digest' = digest
  case pos =>
    subst he
    refine .inr ⟨hm.opened, capability, now, item, envelope, conversationId, plaintext, ho, hv, hd,
      hp, fun bytes hb => ?_⟩
    exact (hs.stored bytes hb _).insert ledgerKey_ne_receivedKey _
  case neg =>
    have hg := hm.others digest' he
    refine (hr.carried digest' (by simpa [Knows, hg] using hk)).imp id fun hc => ⟨?_, ?_⟩
    case refine_1 => simpa [HasOpened, hg] using hc.left
    case refine_2 => exact hc.right.insert ledgerKey_ne_receivedKey _

theorem restoreStaged_ledger (d : Daemon σ) :
    (d.restoreStaged services).ledger =
      (DeliveryLedger.restore services.readLedger d.store.store).toOption.getD d.ledger := by
  unfold restoreStaged
  split <;> rename_i h <;> rw [h] <;> rfl

-- The state matters only in its ledger and its store.
theorem InSync.congr (h : d.InSync services offers before) (hl : d'.ledger = d.ledger)
    (hs : d'.store = d.store) : d'.InSync services offers before where
  unlocked := by rw [hs]; exact h.unlocked
  valid    := by rw [hl]; exact h.valid
  memory   := by rw [hl, hs]; exact h.memory
  durable  := by rw [hl, hs]; exact h.durable

theorem Overflows.congr (h : d.Overflows) (hl : d'.ledger = d.ledger) (hs : d'.store = d.store) :
    d'.Overflows where
  unlocked := by rw [hs]; exact h.unlocked
  ledger   := by rw [hl]; exact h.ledger
  memory   := by rw [hs]; exact h.memory
  durable  := by rw [hs]; exact h.durable

section Stores

variable {poisons ok : Bool}

@[simp]
theorem poisonIf_ledger (d : Daemon σ) (poisons : Bool) (conversationId : String) :
    (d.poisonIf poisons conversationId).ledger = d.ledger := by
  cases poisons <;> rfl

-- Storing a message that was opened keeps the ledger and the store in step, until the ledger has
-- become too large.
theorem Stores.inSync (reads : services.ReadsLedgers)
    (h : Stores services conversationId item.id digest staged poisons d ok d')
    (hd : d.InSync services offers before)
    (hs : StagesFor services conversationId digest now plaintext staged)
    (hn : ¬d.ledger.HasOpened digest) (ho : offers capability now item)
    (hv : item.validated services capability now = some envelope)
    (he : envelope.digest services.sha256 = .ok digest)
    (hp : ∃ session session', MlsSession.Opened services.mls session session' envelope.ciphertext
      plaintext) :
    d'.InSync services offers before ∧ d.ledger.Extends d'.ledger ∧
      (ok → d'.ledger.HasOpened digest) ∨ d'.Overflows := by
  have hx := isHexDigest_of_digest he
  cases h
  case unsaved =>
    exact .inl ⟨hd.congr (poisonIf_ledger ..) (poisonIf_store ..),
      by rw [poisonIf_ledger]; exact .refl _, by simp⟩
  case unmarked ledger hm =>
    cases markReceived_false hx hm
    exact .inl ⟨hd.congr (poisonIf_ledger ..) (poisonIf_store ..),
      by rw [poisonIf_ledger]; exact .refl _, by simp⟩
  case refused checkpoint ledger e store _ hm hb =>
    have hm := markReceived_true hx (validText_of_validated hv) hm
    obtain ⟨hl, hr, hdur⟩ := applyBatch_batch_error hd.unlocked hb
    have hmem : Reflects services offers before d.ledger store.records := by
      obtain hr | hr := hr
      case inl => rw [hr]; exact hd.memory
      case inr =>
        rw [hr]
        exact DurableStore.AllRecords.applyEach
          (hs.keeps fun _ _ value hk h => h.insert hk hn value) hd.memory
    have hledger : (({ d with authority := staged.authority, ledger, store }.poison
        conversationId).restoreStaged services).ledger = d.ledger := by
      rw [restoreStaged_ledger, poison_store,
        (restore_eq_ok_iff reads hl hmem.held).mpr ⟨hd.valid, rfl⟩]
      rfl
    refine .inl ⟨?_, by rw [hledger]; exact .refl _, by simp⟩
    refine ⟨?_, ?_, ?_, ?_⟩
    case refine_1 => simpa using hl
    case refine_2 => rw [hledger]; exact hd.valid
    case refine_3 => simpa [hledger] using hmem
    case refine_4 =>
      simp only [hledger, restoreStaged_store, poison_store]
      obtain hdur | hdur := hdur
      case inl => rw [hdur]; exact hd.durable
      case inr =>
        rw [hdur]
        exact ⟨ledger, hd.memory.batch hs hn hm ho hv he hp, hm.extends⟩
  case accepted checkpoint ledger store _ hm hb =>
    have hm := markReceived_true hx (validText_of_validated hv) hm
    obtain ⟨hr, hdur, hl⟩ := DurableStore.applyBatch_ok hb
    have hrec : Reflects services offers before ledger store.records := by
      rw [hr]
      exact hd.memory.batch hs hn hm ho hv he hp
    by_cases hsize : ledger.records.size ≤ maxRecords
    case pos =>
      exact .inl ⟨⟨hl, hm.valid hd.valid hsize, hrec, ledger, by simpa [hdur] using hrec, .refl _⟩,
        hm.extends, fun _ => hm.opened⟩
    case neg =>
      have hsize := Nat.not_le.mp hsize
      exact .inr ⟨hl, hsize, ⟨ledger, hrec.held, hsize⟩, ⟨ledger, by simpa [hdur] using hrec.held,
        hsize⟩⟩

-- Once it is too large, it stays so.
theorem Stores.overflows (reads : services.ReadsLedgers)
    (h : Stores services conversationId item.id digest staged poisons d ok d') (hd : d.Overflows)
    (hs : StagesFor services conversationId digest now plaintext staged)
    (hv : item.validated services capability now = some envelope)
    (he : envelope.digest services.sha256 = .ok digest) : d'.Overflows := by
  have hx := isHexDigest_of_digest he
  cases h
  case unsaved => exact hd.congr (poisonIf_ledger ..) (poisonIf_store ..)
  case unmarked ledger hm =>
    cases markReceived_false hx hm
    exact hd.congr (poisonIf_ledger ..) (poisonIf_store ..)
  case refused checkpoint ledger e store _ hm hb =>
    have hm := markReceived_true hx (validText_of_validated hv) hm
    have hsize := hd.ledger.trans_le hm.size
    obtain ⟨hl, hr, hdur⟩ := applyBatch_batch_error hd.unlocked hb
    obtain ⟨stored, hheld, hmax⟩ := hd.memory
    have hmem : stored.HeldIn store.records := by
      obtain hr | hr := hr
      case inl => rw [hr]; exact hheld
      case inr =>
        rw [hr]
        exact DurableStore.AllRecords.applyEach
          (hs.keeps fun _ _ value hk h => h.insert hk.ne_ledgerKey value) hheld
    refine ⟨?_, ?_, ?_, ?_⟩
    case refine_1 => simpa using hl
    case refine_2 =>
      rw [restoreStaged_ledger, poison_store, restore_toOption_of_overflow reads hl hmem hmax]
      exact hsize
    case refine_3 => exact ⟨stored, by simpa using hmem, hmax⟩
    case refine_4 =>
      simp only [restoreStaged_store, poison_store]
      obtain hdur | hdur := hdur
      case inl => rw [hdur]; exact hd.durable
      case inr =>
        rw [hdur, applyAll_batch]
        exact ⟨ledger, heldIn_insert_self _ _, hsize⟩
  case accepted checkpoint ledger store _ hm hb =>
    have hm := markReceived_true hx (validText_of_validated hv) hm
    have hsize := hd.ledger.trans_le hm.size
    obtain ⟨hr, hdur, hl⟩ := DurableStore.applyBatch_ok hb
    have hheld : ledger.HeldIn store.records := by
      rw [hr, applyAll_batch]
      exact heldIn_insert_self _ _
    exact ⟨hl, hsize, ⟨ledger, hheld, hsize⟩, ⟨ledger, by simpa [hdur] using hheld, hsize⟩⟩

end Stores

section Loops

variable (services) (offers : String → UInt64 → RelayItem → Prop) (before : String → Prop)

-- The step keeps ledger and store in sync and forgets nothing, and `acknowledged` holds of the
-- ledger it leaves; or the ledger has become too large.
def Keeps (acknowledged : DeliveryLedger → Prop) (d d' : Daemon σ) : Prop :=
  d'.InSync services offers before ∧ d.ledger.Extends d'.ledger ∧ acknowledged d'.ledger ∨
    d'.Overflows

-- Each of the ids is that of an item whose envelope the ledger knows.
def Acknowledges (capability : String) (now : UInt64) (items : List RelayItem) (ids : List String)
    (ledger : DeliveryLedger) : Prop :=
  ∀ id ∈ ids, ∃ item ∈ items, item.id = id ∧ ∃ envelope digest,
    item.validated services capability now = some envelope ∧
    envelope.digest services.sha256 = .ok digest ∧ ledger.Knows digest

end Loops

variable {acknowledged : DeliveryLedger → Prop} {ids : List String}

theorem Acknowledges.mono {items' : List RelayItem}
    (h : Acknowledges services capability now items ids ledger) (hi : items ⊆ items')
    (hl : ledger.Extends ledger') : Acknowledges services capability now items' ids ledger' := by
  intro id hid
  obtain ⟨item, hm, he, envelope, digest, hv, hd, hk⟩ := h id hid
  exact ⟨item, hi hm, he, envelope, digest, hv, hd, (hl digest).left hk⟩

theorem Keeps.imp {p q : DeliveryLedger → Prop} (h : Keeps services offers before p d d')
    (hi : d.ledger.Extends d'.ledger → p d'.ledger → q d'.ledger) :
    Keeps services offers before q d d' :=
  Or.imp (fun hk => ⟨hk.left, hk.right.left, hi hk.right.left hk.right.right⟩) id h

theorem InSync.keeps (h : d.InSync services offers before) (ha : acknowledged d.ledger) :
    Keeps services offers before acknowledged d d :=
  .inl ⟨h, .refl _, ha⟩

-- Two steps after each other, when the second also goes on from a ledger that is too large.
theorem Keeps.trans {p q : DeliveryLedger → Prop} {d₁ d₂ d₃ : Daemon σ}
    (h₁ : Keeps services offers before p d₁ d₂)
    (h₂ : d₂.InSync services offers before → p d₂.ledger → Keeps services offers before q d₂ d₃)
    (ho : d₂.Overflows → d₃.Overflows) : Keeps services offers before q d₁ d₃ := by
  obtain ⟨hs, he, hp⟩ | hv := h₁
  case inl =>
    exact Or.imp (fun hk => ⟨hk.left, he.trans hk.right.left, hk.right.right⟩) id (h₂ hs hp)
  case inr => exact .inr (ho hv)

theorem opened_of_received {catalog catalog' : MlsSessionCatalog σ} {wire : Bytes}
    (h : catalog.receiveDeliveryUnpersisted services.mls conversationId wire =
      (.ok plaintext, catalog')) :
    ∃ session session', MlsSession.Opened services.mls session session' wire plaintext := by
  obtain ⟨session, session', _, ho, _⟩ := MlsSessionCatalog.receiveDeliveryUnpersisted_ok h
  exact ⟨session, session', ho⟩

theorem not_hasOpened (h : ¬(ledger.get digest).any fun record => record.state = .decrypted) :
    ¬ledger.HasOpened digest := by
  rintro ⟨record, hr, hs⟩
  simp [hr, hs] at h

section Sync

variable {background : Bool}

theorem syncItem_keeps (conversationId : String) (background : Bool)
    (reads : services.ReadsLedgers)
    (hd : d.InSync services offers before) (ho : offers capability now item)
    (hv : item.validated services capability now = some envelope) :
    Keeps services offers before
      (fun ledger => (d.syncItem services conversationId background now item.id envelope).fst.isOk →
        ∃ digest, envelope.digest services.sha256 = .ok digest ∧ ledger.Knows digest)
      d (d.syncItem services conversationId background now item.id envelope).snd := by
  simp only [syncItem]
  split
  case h_1 => exact hd.keeps (by simp [Except.isOk, Except.toBool])
  case h_2 digest he =>
    split
    case isTrue hk =>
      refine hd.keeps fun _ => ⟨digest, he, ?_⟩
      obtain ⟨record, hr, hs⟩ := (Option.any_eq_true _ _).mp hk
      exact ⟨record, hr, by simpa using hs⟩
    case isFalse hn =>
      have hn : ¬d.ledger.HasOpened digest := by
        refine not_hasOpened fun h => hn ?_
        cases hr : d.ledger.get digest <;> simp_all
      split
      case h_1 catalog _ =>
        exact .inl ⟨hd.congr rfl rfl, .refl _, by simp [Except.isOk, Except.toBool]⟩
      case h_2 text catalog hx =>
        refine ((storeSynced_stores services { d with catalog } conversationId background now item.id
          digest text).inSync reads (hd.congr rfl rfl) (stageSync_stagesFor _ _ _) hn ho hv he
          (opened_of_received hx)).imp (fun hk => ⟨hk.left, hk.right.left, fun h => ?_⟩) id
        exact ⟨digest, he, (hk.right.right h).knows⟩

theorem syncItem_overflows (conversationId : String) (background : Bool)
    (reads : services.ReadsLedgers)
    (hd : d.Overflows) (hv : item.validated services capability now = some envelope) :
    (d.syncItem services conversationId background now item.id envelope).snd.Overflows := by
  simp only [syncItem]
  split
  case h_1 => exact hd
  case h_2 digest he =>
    split
    case isTrue => exact hd
    case isFalse =>
      split
      case h_1 => exact hd.congr rfl rfl
      case h_2 text catalog _ =>
        exact (storeSynced_stores services { d with catalog } conversationId background now item.id
          digest text).overflows reads (hd.congr rfl rfl) (stageSync_stagesFor _ _ _) hv he

theorem syncItems_overflows {validated : List (String × RelayEnvelope)}
    (reads : services.ReadsLedgers)
    (hd : d.Overflows) (hv : validateItems services capability now items = some validated) :
    (syncItems services conversationId background now d validated).snd.Overflows := by
  induction items generalizing d validated
  case nil => cases hv; exact hd
  case cons item items hi =>
    obtain ⟨envelope, rest, he, hr, rfl⟩ := validateItems_cons hv
    have hs := syncItem_overflows conversationId background reads hd he
    simp only [syncItems]
    split <;> rename_i hx <;> rw [hx] at hs
    case h_1 => exact hs
    case h_2 => exact hi hs hr

theorem syncItems_keeps {validated : List (String × RelayEnvelope)}
    (reads : services.ReadsLedgers)
    (hd : d.InSync services offers before) (ho : ∀ item ∈ items, offers capability now item)
    (hv : validateItems services capability now items = some validated) :
    Keeps services offers before
      (fun ledger => ∀ result,
        (syncItems services conversationId background now d validated).fst = .ok result →
          Acknowledges services capability now items result.acknowledgedIds ledger)
      d (syncItems services conversationId background now d validated).snd := by
  induction items generalizing d validated
  case nil =>
    cases hv
    refine hd.keeps ?_
    rintro _ ⟨⟩
    simp [Acknowledges]
  case cons item items hi =>
    obtain ⟨envelope, rest, he, hr, rfl⟩ := validateItems_cons hv
    obtain ⟨ho, hos⟩ := List.forall_mem_cons.mp ho
    have hs := syncItem_keeps conversationId background reads hd ho he
    simp only [syncItems]
    split <;> rename_i hx <;> rw [hx] at hs
    case h_1 => exact hs.imp fun _ _ => by simp
    case h_2 =>
      refine hs.trans (fun hd' hk => ?_) fun hv' => syncItems_overflows reads hv' hr
      refine (hi hd' hos hr).imp fun hext hack result hres => ?_
      obtain ⟨tail, ht, rfl⟩ := Except.map_eq_ok.mp hres
      obtain ⟨digest, hdig, hk⟩ := hk rfl
      refine List.forall_mem_cons.mpr ⟨⟨item, List.mem_cons_self, rfl, envelope, digest, he, hdig,
        (hext digest).left hk⟩, ?_⟩
      exact (hack tail ht).mono (List.subset_cons_self _ _) (.refl _)

end Sync

section Inbox

variable {conversationIds : List String}

theorem tryConversations_keeps (conversationIds : List String)
    (reads : services.ReadsLedgers)
    (hd : d.InSync services offers before) (ho : offers capability now item)
    (hv : item.validated services capability now = some envelope)
    (he : envelope.digest services.sha256 = .ok digest) (hn : ¬d.ledger.HasOpened digest) :
    Keeps services offers before
      (fun ledger => (tryConversations services now item.id digest envelope.ciphertext d
        conversationIds).fst = .ok true → ledger.HasOpened digest)
      d (tryConversations services now item.id digest envelope.ciphertext d conversationIds).snd := by
  induction conversationIds generalizing d
  case nil => exact hd.keeps (by simp [tryConversations])
  case cons conversationId conversationIds hi =>
    simp only [tryConversations]
    split
    case h_1 catalog _ => exact hi (d := { d with catalog }) (hd.congr rfl rfl) hn
    case h_2 text catalog hx =>
      have hs := (storeInbox_stores services { d with catalog } now conversationId item.id digest
        text).inSync reads (hd.congr rfl rfl) (stageInbox_stagesFor _ _) hn ho hv he
        (opened_of_received hx)
      split <;> rename_i hy <;> rw [hy] at hs
      case h_1 => exact Or.imp (fun hk => ⟨hk.left, hk.right.left, by simp⟩) id hs
      case h_2 =>
        exact Or.imp (fun hk => ⟨hk.left, hk.right.left, fun _ => hk.right.right rfl⟩) id hs

theorem tryConversations_overflows (conversationIds : List String)
    (reads : services.ReadsLedgers)
    (hd : d.Overflows) (hv : item.validated services capability now = some envelope)
    (he : envelope.digest services.sha256 = .ok digest) :
    (tryConversations services now item.id digest envelope.ciphertext d
      conversationIds).snd.Overflows := by
  induction conversationIds generalizing d
  case nil => exact hd
  case cons conversationId conversationIds hi =>
    simp only [tryConversations]
    split
    case h_1 catalog _ => exact hi (d := { d with catalog }) (hd.congr rfl rfl)
    case h_2 text catalog _ =>
      have hs := (storeInbox_stores services { d with catalog } now conversationId item.id digest
        text).overflows reads (hd.congr rfl rfl) (stageInbox_stagesFor _ _) hv he
      split <;> rename_i hy <;> rw [hy] at hs <;> exact hs

theorem inboxItem_keeps (conversationIds : List String)
    (reads : services.ReadsLedgers)
    (hd : d.InSync services offers before) (ho : offers capability now item) :
    Keeps services offers before
      (fun ledger => ∀ outcome,
        (d.inboxItem services now capability conversationIds item).fst = .ok outcome →
          outcome ≠ .skipped → ∃ envelope digest,
            item.validated services capability now = some envelope ∧
            envelope.digest services.sha256 = .ok digest ∧ ledger.Knows digest)
      d (d.inboxItem services now capability conversationIds item).snd := by
  simp only [inboxItem]
  split
  case h_1 => exact hd.keeps (by simp)
  case h_2 envelope hv =>
    split
    case h_1 => exact hd.keeps (by simp)
    case h_2 digest he =>
      split
      case isTrue hk =>
        obtain ⟨record, hr, hs⟩ := (Option.any_eq_true _ _).mp hk
        exact hd.keeps fun _ _ _ => ⟨envelope, digest, hv, he, record, hr, .inr (by simpa using hs)⟩
      case isFalse hn =>
        have ht := tryConversations_keeps conversationIds reads hd ho hv he (not_hasOpened hn)
        split <;> rename_i hx <;> rw [hx] at ht
        case h_1 => exact ht.imp fun _ _ => by simp
        case h_2 => exact ht.imp fun _ hk _ _ _ => ⟨envelope, digest, hv, he, (hk rfl).knows⟩
        case h_3 =>
          refine ht.imp fun _ _ outcome ho hs => absurd ?_ hs
          exact (Except.ok.inj ho).symm

theorem inboxItem_overflows (conversationIds : List String) (capability : String) (now : UInt64)
    (item : RelayItem)
    (reads : services.ReadsLedgers)
    (hd : d.Overflows) :
    (d.inboxItem services now capability conversationIds item).snd.Overflows := by
  simp only [inboxItem]
  split
  case h_1 => exact hd
  case h_2 envelope hv =>
    split
    case h_1 => exact hd
    case h_2 digest he =>
      split
      case isTrue => exact hd
      case isFalse =>
        have ht := tryConversations_overflows conversationIds reads hd hv he
        split <;> rename_i hx <;> rw [hx] at ht <;> exact ht

theorem inboxItems_overflows (conversationIds : List String) (capability : String) (now : UInt64)
    (items : List RelayItem)
    (reads : services.ReadsLedgers)
    (hd : d.Overflows) :
    (inboxItems services now capability conversationIds d items).snd.Overflows := by
  induction items generalizing d
  case nil => exact hd
  case cons item items hi =>
    have hs := inboxItem_overflows conversationIds capability now item reads hd
    simp only [inboxItems]
    split <;> rename_i hx <;> rw [hx] at hs
    case h_1 => exact hs
    case h_2 => exact hi hs

theorem inboxItems_keeps (conversationIds : List String)
    (reads : services.ReadsLedgers)
    (hd : d.InSync services offers before) (ho : ∀ item ∈ items, offers capability now item) :
    Keeps services offers before
      (fun ledger => ∀ result,
        (inboxItems services now capability conversationIds d items).fst = .ok result →
          Acknowledges services capability now items result.snd ledger)
      d (inboxItems services now capability conversationIds d items).snd := by
  induction items generalizing d
  case nil =>
    refine hd.keeps ?_
    rintro _ ⟨⟩
    simp [Acknowledges]
  case cons item items hi =>
    obtain ⟨ho, hos⟩ := List.forall_mem_cons.mp ho
    have hs := inboxItem_keeps conversationIds reads hd ho
    simp only [inboxItems]
    split <;> rename_i hx <;> rw [hx] at hs
    case h_1 => exact hs.imp fun _ _ => by simp
    case h_2 outcome _ =>
      refine hs.trans (fun hd' hk => ?_) fun hv => inboxItems_overflows _ _ _ _ reads hv
      refine (hi hd' hos).imp fun hext hack result hres => ?_
      obtain ⟨⟨count, rest⟩, ht, rfl⟩ := Except.map_eq_ok.mp hres
      have hrest := (hack _ ht).mono (List.subset_cons_self item items) (.refl _)
      simp only
      split
      case isTrue => exact hrest
      case isFalse hne =>
        obtain ⟨envelope, digest, hv, he, hk⟩ := hk outcome rfl hne
        exact List.forall_mem_cons.mpr ⟨⟨item, List.mem_cons_self, rfl, envelope, digest, hv, he,
          (hext digest).left hk⟩, hrest⟩

-- Writing the ledger once more changes nothing that is known.
theorem Reflects.persist (h : Reflects services offers before ledger records) :
    Reflects services offers before ledger (records.insert ledgerKey ledger.encodedBytes) where
  held    := heldIn_insert_self _ _
  carried := fun digest hk => (h.carried digest hk).imp id fun hc =>
    ⟨hc.left, hc.right.insert ledgerKey_ne_receivedKey _⟩

theorem persistLedger_eq (d : Daemon σ) : d.persistLedger =
    ((d.store.put ledgerKey.fst ledgerKey.snd d.ledger.encodedBytes).fst, { d with
      store := (d.store.put ledgerKey.fst ledgerKey.snd d.ledger.encodedBytes).snd }) := rfl

theorem persistLedger_ledger {result : Except StorageError Unit}
    (h : d.persistLedger = (result, d')) : d'.ledger = d.ledger := by
  rw [persistLedger_eq] at h
  cases h
  rfl

theorem put_ledger {s : DurableStore} (ledger : DeliveryLedger) (hl : s.store.locked = false) :
    (s.put ledgerKey.fst ledgerKey.snd ledger.encodedBytes).snd.store.locked = false ∧
      ((s.put ledgerKey.fst ledgerKey.snd ledger.encodedBytes).snd.records = s.records ∨
        (s.put ledgerKey.fst ledgerKey.snd ledger.encodedBytes).snd.records =
          s.records.insert ledgerKey ledger.encodedBytes) := by
  rcases h : s.put ledgerKey.fst ledgerKey.snd ledger.encodedBytes with ⟨_ | _, s'⟩
  case error =>
    have he := DurableStore.put_error h
    exact ⟨by rw [he]; exact hl, .inl (by rw [DurableStore.records, he, DurableStore.records])⟩
  case ok =>
    obtain ⟨hr, _, hl⟩ := DurableStore.put_ok h
    exact ⟨hl, .inr hr⟩

theorem persistLedger_keeps (hd : d.InSync services offers before) :
    d.persistLedger.snd.InSync services offers before := by
  rw [persistLedger_eq]
  obtain ⟨hl, hr⟩ := put_ledger d.ledger hd.unlocked
  refine ⟨hl, hd.valid, ?_, ?_⟩
  case refine_1 =>
    obtain hr | hr := hr
    case inl => simpa only [hr] using hd.memory
    case inr => simpa only [hr] using hd.memory.persist
  case refine_2 =>
    obtain hr | hr := d.store.durable_put ledgerKey.fst ledgerKey.snd d.ledger.encodedBytes
    case inl => simpa only [hr] using hd.durable
    case inr => exact ⟨d.ledger, by simpa only [hr] using hd.memory.persist, .refl _⟩

theorem persistLedger_overflows (hd : d.Overflows) : d.persistLedger.snd.Overflows := by
  rw [persistLedger_eq]
  obtain ⟨hl, hr⟩ := put_ledger d.ledger hd.unlocked
  refine ⟨hl, hd.ledger, ?_, ?_⟩
  case refine_1 =>
    obtain hr | hr := hr
    case inl => simpa only [hr] using hd.memory
    case inr => exact ⟨d.ledger, by simpa only [hr] using heldIn_insert_self _ _, hd.ledger⟩
  case refine_2 =>
    obtain hr | hr := d.store.durable_put ledgerKey.fst ledgerKey.snd d.ledger.encodedBytes
    case inl => simpa only [hr] using hd.durable
    case inr => exact ⟨d.ledger, by simpa only [hr] using heldIn_insert_self _ _, hd.ledger⟩

end Inbox

end Daemon
