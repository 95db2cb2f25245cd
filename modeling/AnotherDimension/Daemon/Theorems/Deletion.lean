import AnotherDimension.Daemon.Theorems.Operations
import AnotherDimension.Storage.Theorems.Durable

-- When the deletion of a contact takes its session along, or neither of them.

open Storage

namespace Daemon

variable {σ : Type} {d d' : Daemon σ} {accountId : String} {contact : ContactRecord}

-- The directory without the contact.
def contactsWithout (d : Daemon σ) (accountId : String) : ContactDirectory where
  contacts := d.authority.contacts.contacts.erase accountId

-- Contacts, sessions and store are as before, also for a restart.
structure IsKept (d d' : Daemon σ) : Prop where
  contacts : d'.authority.contacts = d.authority.contacts
  catalog  : d'.catalog = d.catalog
  records  : d'.store.records = d.store.records
  durable  : d'.store.durable = d.store.durable

-- The contact is gone, from memory and from the directory in the store.
structure IsGone (d d' : Daemon σ) (accountId : String) : Prop where
  contacts : d'.authority.contacts = d.contactsWithout accountId
  records  : d'.store.records[ContactDirectory.directoryKey]? =
    some (d.contactsWithout accountId).snapshotBytes
  durable  : d'.store.durable[ContactDirectory.directoryKey]? =
    some (d.contactsWithout accountId).snapshotBytes

structure SessionIsGone (d' : Daemon σ) (conversationId : String) : Prop where
  catalog : d'.catalog.get conversationId = none
  records : d'.store.records[MlsSession.key conversationId]? = none
  durable : d'.store.durable[MlsSession.key conversationId]? = none

-- An error leaves contact and session, and success leaves neither of them.
def DeletesAtomically (d : Daemon σ) (accountId : String) : Prop :=
  match d.deleteContact accountId with
  | (.error _, d') => IsKept d d'
  | (.ok (), d')   => IsGone d d' accountId ∧
    ∀ contact conversationId, d.authority.contacts.get accountId = some contact →
      contact.conversationId = some conversationId → SessionIsGone d' conversationId

-- The session can be removed: its conversation has a valid id, and its record can be deleted, or
-- there is neither a session nor a record.
def SessionGoes (d : Daemon σ) (store : DurableStore) (conversationId : String) : Prop :=
  validConversationId conversationId ∧
    match d.catalog.get conversationId with
    | none   => d.store.records[MlsSession.key conversationId]? = none
    | some _ => (store.delete (MlsSession.key conversationId).fst
      (MlsSession.key conversationId).snd).fst.isOk

-- There is no such contact, or both writes succeed.
def CanDelete (d : Daemon σ) (accountId : String) : Prop :=
  ∀ contact, d.authority.contacts.get accountId = some contact →
    ∃ store, d.store.put ContactDirectory.directoryKey.fst ContactDirectory.directoryKey.snd
        (d.contactsWithout accountId).snapshotBytes = (.ok (), store) ∧
      ∀ conversationId, contact.conversationId = some conversationId →
        d.SessionGoes store conversationId

theorem deleteContact_of_none (h : d.authority.contacts.get accountId = none) :
    d.deleteContact accountId = (.error (.contact .contactNotFound), d) := by
  simp [deleteContact, removeContact, ContactDirectory.remove, h, changeContacts, withContacts,
    InviteAuthority.withContacts]

theorem contactsWithout_ne (h : d.authority.contacts.get accountId = some contact) :
    d.contactsWithout accountId ≠ d.authority.contacts := by
  have hr : d.authority.contacts.remove accountId = (.ok contact, d.contactsWithout accountId) := by
    simp [ContactDirectory.remove, h, contactsWithout]
  have hc := ContactDirectory.remove_changes (congrArg Prod.fst hr)
  rwa [hr] at hc

-- The daemon after the first write.
def withoutContact (d : Daemon σ) (accountId : String) (store : DurableStore) : Daemon σ :=
  { d.withContacts (d.contactsWithout accountId) with store }

theorem removeContact_of_some (h : d.authority.contacts.get accountId = some contact) :
    d.removeContact accountId =
      match d.store.put ContactDirectory.directoryKey.fst ContactDirectory.directoryKey.snd
        (d.contactsWithout accountId).snapshotBytes with
      | (.error _, store) => (.error .storage, d.withoutContact accountId store)
      | (.ok (), store)   => (.ok contact, d.withoutContact accountId store) := by
  have hr : d.authority.contacts.remove accountId = (.ok contact, d.contactsWithout accountId) := by
    simp [ContactDirectory.remove, h, contactsWithout]
  rw [removeContact, hr]
  simp only [changeContacts, write, withoutContact]
  have hs : (d.withContacts (d.contactsWithout accountId)).store = d.store := rfl
  rw [hs]
  rcases d.store.put ContactDirectory.directoryKey.fst ContactDirectory.directoryKey.snd
    (d.contactsWithout accountId).snapshotBytes with ⟨_ | _, store⟩ <;> rfl

theorem not_isKept {catalog : MlsSessionCatalog σ} {store : DurableStore}
    (h : d.authority.contacts.get accountId = some contact) :
    ¬IsKept d { d.withContacts (d.contactsWithout accountId) with catalog, store } :=
  fun hk => contactsWithout_ne h hk.contacts

section

variable {store store' : DurableStore} {conversationId : String}

theorem key_ne_directoryKey : MlsSession.key conversationId ≠ ContactDirectory.directoryKey :=
  fun h => by cases congrArg Prod.fst h

-- The record of the directory, after a store that has it was left alone or lost a session.
theorem isGone_of_erase {catalog : MlsSessionCatalog σ}
    (hp : d.store.put ContactDirectory.directoryKey.fst ContactDirectory.directoryKey.snd
      (d.contactsWithout accountId).snapshotBytes = (.ok (), store))
    (hr : store'.records = store.records.erase (MlsSession.key conversationId))
    (hd : store'.durable = store'.records) :
    IsGone d { d.withContacts (d.contactsWithout accountId) with catalog, store := store' }
      accountId := by
  obtain ⟨hi, _, _⟩ := DurableStore.put_ok hp
  have hrecords : store'.records[ContactDirectory.directoryKey]? =
      some (d.contactsWithout accountId).snapshotBytes := by
    rw [hr, hi]
    simp [key_ne_directoryKey]
  exact ⟨rfl, hrecords, hd ▸ hrecords⟩

theorem isGone_of_put {catalog : MlsSessionCatalog σ}
    (hp : d.store.put ContactDirectory.directoryKey.fst ContactDirectory.directoryKey.snd
      (d.contactsWithout accountId).snapshotBytes = (.ok (), store)) :
    IsGone d { d.withContacts (d.contactsWithout accountId) with catalog, store } accountId := by
  obtain ⟨hi, hd, _⟩ := DurableStore.put_ok hp
  have hrecords : store.records[ContactDirectory.directoryKey]? =
      some (d.contactsWithout accountId).snapshotBytes := by
    rw [hi]
    exact Std.ExtTreeMap.getElem?_insert_self
  exact ⟨rfl, hrecords, hd ▸ hrecords⟩

-- What is left to say when the contact has gone and the catalog was asked for its session.
theorem deletesAtomically_of_ok {catalog : MlsSessionCatalog σ}
    (hg : d.authority.contacts.get accountId = some contact)
    (hc : contact.conversationId = some conversationId)
    (hd : d.deleteContact accountId =
      (.ok (), { d.withContacts (d.contactsWithout accountId) with catalog, store := store' }))
    (gone : IsGone d { d.withContacts (d.contactsWithout accountId) with catalog, store := store' }
      accountId) :
    d.DeletesAtomically accountId ↔
      SessionIsGone { d.withContacts (d.contactsWithout accountId) with catalog, store := store' }
        conversationId := by
  rw [DeletesAtomically, hd]
  constructor
  case mp => exact fun h => h.right contact conversationId hg hc
  case mpr =>
    refine fun h => ⟨gone, fun _ _ h₁ h₂ => ?_⟩
    cases hg.symm.trans h₁
    cases hc.symm.trans h₂
    exact h

theorem deletesAtomically_iff_sessionGoes
    (hg : d.authority.contacts.get accountId = some contact)
    (hp : d.store.put ContactDirectory.directoryKey.fst ContactDirectory.directoryKey.snd
      (d.contactsWithout accountId).snapshotBytes = (.ok (), store))
    (hc : contact.conversationId = some conversationId) :
    d.DeletesAtomically accountId ↔ d.SessionGoes store conversationId := by
  obtain ⟨hi, hdurable, _⟩ := DurableStore.put_ok hp
  have hdelete {result catalog store'}
      (hr : d.catalog.remove conversationId store = (result, catalog, store'))
      (ho : result = .ok () ∨ result = .error .unknownConversation) : d.deleteContact accountId =
        (.ok (), { d.withContacts (d.contactsWithout accountId) with catalog, store := store' }) := by
    simp only [deleteContact, removeContact_of_some hg, hp, hc, withoutContact, withContacts, hr]
    rcases ho with rfl | rfl <;> rfl
  have hfails {e catalog store'}
      (hr : d.catalog.remove conversationId store = (.error e, catalog, store'))
      (he : e ≠ .unknownConversation) : d.deleteContact accountId = (.error (.session e),
        { d.withContacts (d.contactsWithout accountId) with catalog, store := store' }) := by
    simp only [deleteContact, removeContact_of_some hg, hp, hc, withoutContact, withContacts, hr]
  by_cases hv : validConversationId conversationId
  case neg =>
    have hr : d.catalog.remove conversationId store =
        (.error .invalidConversation, d.catalog, store) := by
      simp [MlsSessionCatalog.remove, hv]
    rw [DeletesAtomically, hfails hr (by simp)]
    exact iff_of_false (not_isKept hg) fun h => hv h.left
  case pos =>
    cases hs : d.catalog.get conversationId
    case none =>
      have hr : d.catalog.remove conversationId store =
          (.error .unknownConversation, d.catalog, store) := by
        simp [MlsSessionCatalog.remove, hv, hs]
      have hkeep : store.records[MlsSession.key conversationId]? =
          d.store.records[MlsSession.key conversationId]? := by
        rw [hi]
        simp [Std.ExtTreeMap.getElem?_insert, key_ne_directoryKey.symm]
      rw [deletesAtomically_of_ok hg hc (hdelete hr (.inr rfl)) (isGone_of_put hp)]
      simp only [SessionGoes, hv, hs, true_and, ← hkeep]
      exact ⟨fun h => h.records, fun h => ⟨hs, h, hdurable ▸ h⟩⟩
    case some session =>
      rcases hx : store.delete (MlsSession.key conversationId).fst
        (MlsSession.key conversationId).snd with ⟨_ | _, store'⟩
      case error =>
        have hr : d.catalog.remove conversationId store = (.error (.session .storage),
            { sessions := d.catalog.sessions.erase conversationId }, store') := by
          simp [MlsSessionCatalog.remove, hv, hs, hx]
        rw [DeletesAtomically, hfails hr (by simp)]
        refine iff_of_false (not_isKept hg) fun h => ?_
        simp [SessionGoes, hs, hx, Except.isOk, Except.toBool] at h
      case ok =>
        have hr : d.catalog.remove conversationId store =
            (.ok (), { sessions := d.catalog.sessions.erase conversationId }, store') := by
          simp [MlsSessionCatalog.remove, hv, hs, hx]
        obtain ⟨herase, hd, _⟩ := DurableStore.delete_ok hx
        have hsame : store'.durable = store'.records :=
          hd.elim (fun he => he ▸ hdurable) id
        have hgone : store'.records[MlsSession.key conversationId]? = none := by
          rw [herase]
          simp
        rw [deletesAtomically_of_ok hg hc (hdelete hr (.inl rfl)) (isGone_of_erase hp herase hsame)]
        refine iff_of_true ⟨?_, hgone, hsame ▸ hgone⟩ ?_
        case refine_1 => simp [MlsSessionCatalog.get]
        case refine_2 => simp [SessionGoes, hv, hs, hx, Except.isOk, Except.toBool]

end

theorem deletesAtomically_iff_canDelete (d : Daemon σ) (accountId : String) :
    d.DeletesAtomically accountId ↔ d.CanDelete accountId := by
  cases hg : d.authority.contacts.get accountId
  case none =>
    rw [DeletesAtomically, deleteContact_of_none hg]
    exact iff_of_true ⟨rfl, rfl, rfl, rfl⟩ (fun _ h => nomatch hg.symm.trans h)
  case some contact =>
    rcases hp : d.store.put ContactDirectory.directoryKey.fst ContactDirectory.directoryKey.snd
      (d.contactsWithout accountId).snapshotBytes with ⟨_ | _, store⟩
    case error =>
      have hd : d.deleteContact accountId = (.error .storage, d.withoutContact accountId store) := by
        simp only [deleteContact, removeContact_of_some hg, hp]
      rw [DeletesAtomically, hd]
      refine iff_of_false (not_isKept hg) fun h => ?_
      obtain ⟨_, hs, _⟩ := h contact hg
      cases hp.symm.trans hs
    case ok =>
      have hcan : d.CanDelete accountId ↔ ∀ conversationId,
          contact.conversationId = some conversationId → d.SessionGoes store conversationId := by
        simp [CanDelete, hg, hp]
      rw [hcan]
      cases hc : contact.conversationId
      case none =>
        have hd : d.deleteContact accountId = (.ok (), d.withoutContact accountId store) := by
          simp only [deleteContact, removeContact_of_some hg, hp, hc]
        rw [DeletesAtomically, hd]
        refine iff_of_true ⟨isGone_of_put hp, fun _ _ h₁ h₂ => ?_⟩ nofun
        cases hg.symm.trans h₁
        cases hc.symm.trans h₂
      case some conversationId =>
        rw [deletesAtomically_iff_sessionGoes hg hp hc]
        simp

theorem deletesAtomically_iff (d : Daemon σ) (accountId : String) :
    d.DeletesAtomically accountId ↔ d.CanDelete accountId :=
  deletesAtomically_iff_canDelete d accountId

-- The contact has a session, which the store has a record of.
def sampleWithSession (outcomes : List CommitOutcome) : Daemon Unit where
  authority := (sample outcomes).authority
  catalog   := MlsSessionCatalog.new.insert "adconv01" ⟨(), false⟩
  store     := (sample outcomes).store.withRecords
    ((∅ : Records).insert (MlsSession.key "adconv01") [1])
  ledger    := .empty

theorem sampleWithSession_get (outcomes : List CommitOutcome) :
    (sampleWithSession outcomes).authority.contacts.get "peer" = some sampleContact :=
  Std.ExtTreeMap.getElem?_insert_self

-- The first write fails, and then the second one.
theorem sampleWithSession_not_deletesAtomically :
    ¬(sampleWithSession [.refused]).DeletesAtomically "peer" ∧
      ¬(sampleWithSession [.done, .refused]).DeletesAtomically "peer" := by
  constructor
  case left =>
    rw [deletesAtomically_iff_canDelete]
    intro h
    obtain ⟨store, hp, _⟩ := h sampleContact (sampleWithSession_get _)
    have hf : ((sampleWithSession [.refused]).store.put ContactDirectory.directoryKey.fst
        ContactDirectory.directoryKey.snd
        ((sampleWithSession [.refused]).contactsWithout "peer").snapshotBytes).fst = .error .io := by
      decide
    cases hf.symm.trans (congrArg Prod.fst hp)
  case right =>
    rw [deletesAtomically_iff_canDelete]
    intro h
    obtain ⟨store, hp, hs⟩ := h sampleContact (sampleWithSession_get _)
    have hsession : (sampleWithSession [.done, .refused]).catalog.get "adconv01" =
        some ⟨(), false⟩ := Std.ExtTreeMap.getElem?_insert_self
    have hgoes := (hs "adconv01" rfl).right
    simp only [hsession] at hgoes
    have hstore : _ = store := congrArg Prod.snd hp
    rw [← hstore] at hgoes
    exact absurd hgoes (by decide)

end Daemon
