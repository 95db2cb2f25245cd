import AnotherDimension.Mls.Catalog

-- The removal of a device from the groups of all conversations.

variable {σ : Type} {mls : Mls σ} {credential : Bytes}

-- The library removes the leaf it is told to, and no other, when the commit is merged.
structure Mls.RemovesLeaf (mls : Mls σ) : Prop where
  removed : ∀ {state state' state'' leaves index commit}, mls.members state = some leaves →
    mls.removeMembers state index = (some commit, state') →
    mls.mergePendingCommit state' = (some (), state'') →
    mls.members state'' = some (leaves.filter (·.index ≠ index))

-- At most one leaf has the credential.
def Leaf.IsUnique (credential : Bytes) (leaves : List Leaf) : Prop :=
  ∀ leaf ∈ leaves, ∀ other ∈ leaves, leaf.credential = credential → other.credential = credential →
    leaf = other

-- No leaf has the credential any more, and every other one is still there.
def Leaf.IsRemoved (credential : Bytes) (leaves leaves' : List Leaf) : Prop :=
  (∀ leaf ∈ leaves', leaf.credential ≠ credential) ∧
    ∀ leaf ∈ leaves, leaf.credential ≠ credential → leaf ∈ leaves'

-- The leaves without the first one that has the credential.
def Leaf.withoutFirst (credential : Bytes) (leaves : List Leaf) : List Leaf :=
  match leaves.find? (·.credential = credential) with
  | none        => leaves
  | some member => leaves.filter (·.index ≠ member.index)

theorem Leaf.withoutFirst_of_none {leaves : List Leaf}
    (h : leaves.find? (·.credential = credential) = none) :
    withoutFirst credential leaves = leaves := by
  rw [withoutFirst, h]

theorem Leaf.withoutFirst_of_some {leaves : List Leaf} {member : Leaf}
    (h : leaves.find? (·.credential = credential) = some member) :
    withoutFirst credential leaves = leaves.filter (·.index ≠ member.index) := by
  rw [withoutFirst, h]

namespace MlsSession

variable {session session' : MlsSession σ} {result : Option Bytes}

-- What is left of the leaves by a removal that succeeds.
theorem members_of_removeMember (library : mls.RemovesLeaf)
    (h : session.removeMember mls credential = (.ok result, session')) :
    ∃ leaves, mls.members session.state = some leaves ∧
      mls.members session'.state = some (Leaf.withoutFirst credential leaves) := by
  unfold removeMember at h
  split at h
  case isTrue  => cases h
  case isFalse =>
    split at h
    case h_1 => cases h
    case h_2 leaves hm =>
      refine ⟨leaves, hm, ?_⟩
      split at h
      case h_1 hf =>
        cases h
        rw [hm, Leaf.withoutFirst_of_none hf]
      case h_2 member hf =>
        split at h
        case h_1 => cases h
        case h_2 commit state hr =>
          split at h
          case h_1 => cases h
          case h_2 state' hg =>
            split at h
            case h_1 => cases h
            case h_2 =>
              cases h
              rw [Leaf.withoutFirst_of_some hf]
              exact library.removed hm hr hg

theorem isRemoved_iff {leaves : List Leaf} (distinct : (leaves.map Leaf.index).Nodup) :
    Leaf.IsRemoved credential leaves (Leaf.withoutFirst credential leaves) ↔
      Leaf.IsUnique credential leaves := by
  cases hf : leaves.find? (·.credential = credential)
  case none =>
    rw [Leaf.withoutFirst_of_none hf]
    have hn : ∀ leaf ∈ leaves, leaf.credential ≠ credential := by simpa using hf
    exact iff_of_true ⟨hn, fun _ hl _ => hl⟩ fun leaf hl _ _ hc _ => absurd hc (hn leaf hl)
  case some member =>
    rw [Leaf.withoutFirst_of_some hf]
    have hmem := List.mem_of_find?_eq_some hf
    have hcred : member.credential = credential := by simpa using List.find?_some hf
    have hinj {leaf : Leaf} (hl : leaf ∈ leaves) (hi : leaf.index = member.index) : leaf = member :=
      List.inj_on_of_nodup_map distinct hl hmem hi
    constructor
    case mp =>
      intro ⟨hn, _⟩
      have hone {leaf : Leaf} (hl : leaf ∈ leaves) (hc : leaf.credential = credential) :
          leaf = member := by
        by_contra hne
        refine hn leaf (List.mem_filter.mpr ⟨hl, ?_⟩) hc
        simpa using fun hi => hne (hinj hl hi)
      intro leaf hl other ho hc hc'
      rw [hone hl hc, hone ho hc']
    case mpr =>
      intro hu
      refine ⟨fun leaf hl hc => ?_, fun leaf hl hc => ?_⟩
      case refine_1 =>
        have ⟨hl, hi⟩ := List.mem_filter.mp hl
        rw [hu leaf hl member hmem hc hcred] at hi
        simp at hi
      case refine_2 =>
        refine List.mem_filter.mpr ⟨hl, ?_⟩
        have hne : leaf.index ≠ member.index := fun hi => hc (hinj hl hi ▸ hcred)
        simpa using hne

end MlsSession

namespace MlsSessionCatalog

variable {catalog catalog' : MlsSessionCatalog σ} {commits : List (String × Bytes × Bytes)}
  {ids : List String} {id : String}

theorem get_insert (conversationId : String) (session : MlsSession σ) :
    (catalog.insert conversationId session).get id =
      if conversationId = id then some session else catalog.get id := by
  simp [get, insert, Std.ExtTreeMap.getElem?_insert]

theorem get_poisonAll (catalog : MlsSessionCatalog σ) (id : String) :
    catalog.poisonAll.get id = (catalog.get id).map ({ · with poisoned := true }) := by
  simp [get, poisonAll, Std.ExtTreeMap.getElem?_map]

-- The rounds of the loop do not touch each other's sessions.
theorem get_of_removeDeviceFrom (hn : ids.Nodup)
    (h : removeDeviceFrom mls credential catalog ids = (.ok commits, catalog')) :
    (∀ id ∉ ids, catalog'.get id = catalog.get id) ∧
      ∀ id ∈ ids, ∀ session, catalog.get id = some session → ∃ result session',
        session.removeMember mls credential = (.ok result, session') ∧
          catalog'.get id = some session' := by
  induction ids generalizing catalog commits
  case nil =>
    cases h
    exact ⟨fun _ _ => rfl, nofun⟩
  case cons conversationId ids hi =>
    have ⟨hnot, hn⟩ := List.nodup_cons.mp hn
    -- The rest of the loop runs on the catalog with this session replaced.
    have rest {session session' : MlsSession σ} {result : Option Bytes}
        {commits : List (String × Bytes × Bytes)} (hg : catalog.get conversationId = some session)
        (hr : session.removeMember mls credential = (.ok result, session'))
        (h : removeDeviceFrom mls credential (catalog.insert conversationId session') ids =
          (.ok commits, catalog')) :
        (∀ id ∉ conversationId :: ids, catalog'.get id = catalog.get id) ∧
          ∀ id ∈ conversationId :: ids, ∀ session, catalog.get id = some session →
            ∃ result session', session.removeMember mls credential = (.ok result, session') ∧
              catalog'.get id = some session' := by
      have ⟨hother, hin⟩ := hi hn h
      constructor
      case left =>
        intro id hid
        have ⟨hne, hnot⟩ := List.ne_and_not_mem_of_not_mem_cons hid
        rw [hother id hnot, get_insert, if_neg (Ne.symm hne)]
      case right =>
        intro id hid session₁ hs
        by_cases he : conversationId = id
        case pos =>
          subst he
          cases hg.symm.trans hs
          exact ⟨result, session', hr, by rw [hother _ hnot, get_insert, if_pos rfl]⟩
        case neg =>
          have hm := (List.mem_cons.mp hid).resolve_left (Ne.symm he)
          exact hin id hm session₁ (by rw [get_insert, if_neg he, hs])
    unfold removeDeviceFrom at h
    split at h
    case h_1 hg =>
      have ⟨hother, hin⟩ := hi hn h
      refine ⟨fun id hid => hother id (List.not_mem_of_not_mem_cons hid), fun id hid session hs => ?_⟩
      rcases List.mem_cons.mp hid with rfl | hm
      case inl => cases hg.symm.trans hs
      case inr => exact hin id hm session hs
    case h_2 session hg =>
      split at h
      case h_1 => cases h
      case h_2 session' hr => exact rest hg hr h
      case h_3 commit session' hr =>
        simp only at h
        split at h
        case h_1 => cases h
        case h_2 =>
          match hl : removeDeviceFrom mls credential (catalog.insert conversationId session') ids with
          | (.error e, _) =>
            rw [hl] at h
            cases h
          | (.ok commits', catalog'') =>
            rw [hl] at h
            cases h
            exact rest hg hr hl

theorem mem_conversationIds : id ∈ catalog.conversationIds ↔ ∃ session, catalog.get id = some session := by
  rw [conversationIds, Std.ExtTreeMap.mem_keys, Std.ExtTreeMap.mem_iff_isSome_getElem?,
    Option.isSome_iff_exists]
  rfl

theorem get_of_removeDeviceUnpersisted
    (h : catalog.removeDeviceUnpersisted mls credential = (.ok commits, catalog')) (id : String) :
    Option.Rel (fun session session' => ∃ result,
      session.removeMember mls credential = (.ok result, session')) (catalog.get id)
        (catalog'.get id) := by
  have hl : removeDeviceFrom mls credential catalog catalog.conversationIds = (.ok commits, catalog') := by
    unfold removeDeviceUnpersisted at h
    match hr : removeDeviceFrom mls credential catalog catalog.conversationIds with
    | (.error _, _) =>
      rw [hr] at h
      cases h
    | (.ok _, _)    =>
      rw [hr] at h
      cases h
      rfl
  have ⟨hother, hin⟩ := get_of_removeDeviceFrom Std.ExtTreeMap.nodup_keys hl
  match hg : catalog.get id with
  | none         =>
    have hn : id ∉ catalog.conversationIds := fun hm => by
      have ⟨_, hs⟩ := mem_conversationIds.mp hm
      cases hg.symm.trans hs
    rw [hother id hn, hg]
    exact .none
  | some session =>
    have ⟨result, session', hr, hs⟩ := hin id (mem_conversationIds.mpr ⟨session, hg⟩) session hg
    rw [hs]
    exact .some ⟨result, hr⟩

-- The sessions are the same, but for the leaves with the credential in their groups.
def IsComplete (mls : Mls σ) (credential : Bytes) (catalog catalog' : MlsSessionCatalog σ) : Prop :=
  ∀ id, Option.Rel (fun session session' => ∃ leaves leaves',
    mls.members session.state = some leaves ∧ mls.members session'.state = some leaves' ∧
      Leaf.IsRemoved credential leaves leaves') (catalog.get id) (catalog'.get id)

def HasUniqueLeaves (mls : Mls σ) (credential : Bytes) (catalog : MlsSessionCatalog σ) : Prop :=
  ∀ id session leaves, catalog.get id = some session → mls.members session.state = some leaves →
    Leaf.IsUnique credential leaves

theorem isComplete_iff (library : mls.RemovesLeaf)
    (distinct : ∀ id session leaves, catalog.get id = some session →
      mls.members session.state = some leaves → (leaves.map Leaf.index).Nodup)
    (h : catalog.removeDeviceUnpersisted mls credential = (.ok commits, catalog')) :
    catalog.IsComplete mls credential catalog' ↔ catalog.HasUniqueLeaves mls credential := by
  constructor
  case mp =>
    intro hc id session leaves hs hm
    have hrel := hc id
    have hstep := get_of_removeDeviceUnpersisted h id
    rw [hs] at hrel hstep
    generalize hs' : catalog'.get id = found at hrel hstep
    cases hrel
    case some session' hrel =>
      obtain ⟨_, leaves', hm', hm'', hremoved⟩ := hrel
      cases hstep
      case some hstep =>
        obtain ⟨_, hr⟩ := hstep
        obtain ⟨_, hl, hl'⟩ := MlsSession.members_of_removeMember library hr
        cases hm.symm.trans hl
        cases hm.symm.trans hm'
        cases hm''.symm.trans hl'
        exact (MlsSession.isRemoved_iff <| distinct id session leaves hs hm).mp hremoved
  case mpr =>
    intro hu id
    have hstep := get_of_removeDeviceUnpersisted h id
    generalize hs' : catalog'.get id = found at hstep
    generalize hs : catalog.get id = before at hstep
    cases hstep
    case none => exact .none
    case some session session' hstep =>
      obtain ⟨_, hr⟩ := hstep
      obtain ⟨leaves, hm, hm'⟩ := MlsSession.members_of_removeMember library hr
      exact .some ⟨leaves, _, hm, hm', (MlsSession.isRemoved_iff <|
        distinct id session leaves hs hm).mpr <| hu id session leaves hs hm⟩

theorem poisoned_of_removeDevice {registry : Option Bytes} {store store' : DurableStore}
    {e : DeviceRemovalError} {session : MlsSession σ}
    (h : catalog.removeDevice mls credential registry store = (.error e, catalog', store'))
    (hs : catalog'.get id = some session) : session.poisoned := by
  have poisoned {catalog : MlsSessionCatalog σ} (hs : catalog.poisonAll.get id = some session) :
      session.poisoned := by
    rw [get_poisonAll, Option.map_eq_some_iff] at hs
    have ⟨_, _, hs⟩ := hs
    rw [← hs]
  unfold removeDevice at h
  split at h
  case h_1 =>
    cases h
    exact poisoned hs
  case h_2 =>
    simp only at h
    split at h
    case h_1 =>
      cases h
      exact poisoned hs
    case h_2 => cases h

-- A removal that succeeds is complete exactly when no group has two leaves with the credential. After
-- one that fails, or is not stored, no session can be used.
theorem removal_isComplete_iff (library : mls.RemovesLeaf)
    (distinct : ∀ id session leaves, catalog.get id = some session →
      mls.members session.state = some leaves → (leaves.map Leaf.index).Nodup) :
    (∀ commits catalog',
      catalog.removeDeviceUnpersisted mls credential = (.ok commits, catalog') →
        (catalog.IsComplete mls credential catalog' ↔ catalog.HasUniqueLeaves mls credential)) ∧
    ∀ registry store e catalog' store',
      catalog.removeDevice mls credential registry store = (.error e, catalog', store') →
        ∀ id session, catalog'.get id = some session → session.poisoned :=
  ⟨fun _ _ => isComplete_iff library distinct, fun _ _ _ _ _ h _ _ => poisoned_of_removeDevice h⟩

-- Groups whose state is the leaves and the leaf a commit will remove. The first leaf is the own one.
def sampleGroups : Mls (List Leaf × Option Nat) where
  new _                := .error .provider
  createGroup _        := .error .openMls
  keyPackage _         := .error .openMls
  addMembers _ _       := .error .openMls
  members state        := some state.fst
  removeMembers state index :=
    if index = 0 then (none, state) else (some (some [UInt8.ofNat index]), (state.fst, some index))
  mergePendingCommit state :=
    match state.snd with
    | none       => (none, state)
    | some index => (some (), (state.fst.filter (·.index ≠ index), none))
  joinWelcome _ _      := .error .openMls
  createMessage _ _    := .error .openMls
  process _ _          := .error .openMls
  snapshot state       := .ok <| state.fst.map (UInt8.ofNat ·.index)
  restore _            := .error .storage

theorem sampleGroups_removesLeaf : sampleGroups.RemovesLeaf where
  removed := by
    intro state state' state'' leaves index commit hm hr hg
    simp only [sampleGroups] at hm hr hg ⊢
    split at hr
    case isTrue  => cases hr
    case isFalse =>
      obtain ⟨_, rfl⟩ := Prod.mk.inj hr
      cases hg
      cases hm
      rfl

def sampleCatalog (leaves : List Leaf) : MlsSessionCatalog (List Leaf × Option Nat) :=
  new.insert "adconv01" ⟨(leaves, none), false⟩

def ownLeaf : Leaf := ⟨0, [1]⟩

def deviceLeaf (index : Nat) : Leaf := ⟨index, [2]⟩

theorem twoLeaves_removed :
    (sampleCatalog [ownLeaf, deviceLeaf 1, deviceLeaf 2]).removeDeviceUnpersisted sampleGroups [2] =
      (.ok [("adconv01", [1], [0, 2])], sampleCatalog [ownLeaf, deviceLeaf 2]) := by
  decide

theorem get_sampleCatalog {leaves : List Leaf} {session : MlsSession (List Leaf × Option Nat)}
    (h : (sampleCatalog leaves).get id = some session) : session = ⟨(leaves, none), false⟩ := by
  rw [sampleCatalog, get_insert] at h
  split_ifs at h
  case pos => exact (Option.some.inj h).symm
  case neg => simp [get, new] at h

theorem sampleCatalog_distinct {leaves : List Leaf} (h : (leaves.map Leaf.index).Nodup) :
    ∀ id session leaves', (sampleCatalog leaves).get id = some session →
      sampleGroups.members session.state = some leaves' → (leaves'.map Leaf.index).Nodup := by
  intro id session leaves' hs hm
  rw [get_sampleCatalog hs] at hm
  cases hm
  exact h

-- A device that is in the group twice is removed once.
theorem twoLeaves_not_complete :
    (sampleCatalog [ownLeaf, deviceLeaf 1, deviceLeaf 2]).removeDeviceUnpersisted sampleGroups [2] =
        (.ok [("adconv01", [1], [0, 2])], sampleCatalog [ownLeaf, deviceLeaf 2]) ∧
      ¬(sampleCatalog [ownLeaf, deviceLeaf 1, deviceLeaf 2]).IsComplete sampleGroups [2]
        (sampleCatalog [ownLeaf, deviceLeaf 2]) := by
  refine ⟨twoLeaves_removed, ?_⟩
  rw [isComplete_iff sampleGroups_removesLeaf (sampleCatalog_distinct (by decide)) twoLeaves_removed]
  intro hu
  have hs : (sampleCatalog [ownLeaf, deviceLeaf 1, deviceLeaf 2]).get "adconv01" =
      some ⟨([ownLeaf, deviceLeaf 1, deviceLeaf 2], none), false⟩ := by
    rw [sampleCatalog, get_insert, if_pos rfl]
  have he := hu "adconv01" _ _ hs rfl (deviceLeaf 1) (by decide) (deviceLeaf 2) (by decide) rfl rfl
  exact absurd he (by decide)

theorem oneLeaf_complete :
    (∀ commits catalog',
      (sampleCatalog [ownLeaf, deviceLeaf 1]).removeDeviceUnpersisted sampleGroups [2] =
        (.ok commits, catalog') →
      ((sampleCatalog [ownLeaf, deviceLeaf 1]).IsComplete sampleGroups [2] catalog' ↔
        (sampleCatalog [ownLeaf, deviceLeaf 1]).HasUniqueLeaves sampleGroups [2])) ∧
    ∀ registry store e catalog' store',
      (sampleCatalog [ownLeaf, deviceLeaf 1]).removeDevice sampleGroups [2] registry store =
        (.error e, catalog', store') →
      ∀ id session, catalog'.get id = some session → session.poisoned :=
  removal_isComplete_iff sampleGroups_removesLeaf (sampleCatalog_distinct (by decide))

end MlsSessionCatalog
