import AnotherDimension.Library.Reader
import AnotherDimension.Library.Run
import AnotherDimension.Relay.Theorems.Effect

-- The inbox over whole runs, while the file can be written.

namespace Relay

variable {services : Services} {call : Call} {s : State} {request : Request} {r : Reply × State}

-- The item a post adds, when it is answered that it was accepted.
def acceptedItem (services : Services) (call : Call) (request : Request) (reply : Reply) :
    Option Item :=
  match request, reply with
  | .postInbox _ _ body, .json 202 (.object [("accepted", .bool true), ("id", .string id)]) =>
    (postedEnvelope services body).map fun envelope => ⟨id, envelope, call.now⟩
  | _, _ => none

-- The relay, and the items it has accepted so far, in that order.
structure InboxHistory where
  relay    : State
  accepted : List Item

def InboxHistory.step (services : Services) (h : InboxHistory) (event : Event) : InboxHistory where
  relay    := h.relay.step services event
  accepted :=
    match event with
    | .request call request =>
      h.accepted ++
        (acceptedItem services call request (h.relay.handle services call request).fst).toList
    | .restart _            => h.accepted

def Request.isInbox : Request → Bool
  | .postInbox _ _ _ | .getInbox _ _ | .ackInbox _ _ _ => true
  | _                                                  => false

-- Requests for the inbox, while the file can be written.
def Event.keepsFile : Event → Bool
  | .request call request => call.stored && request.isInbox
  | .restart _            => true

-- What `serde_json` wrote of the items it reads again.
def InboxHistory.Reads (services : Services) (h : InboxHistory) : Prop :=
  services.readItems (itemsFile h.relay.items) = some h.relay.items

-- The inbox in a state of the run.
structure IsInbox (services : Services) (h : InboxHistory) : Prop where
  fits    : h.relay.items.length ≤ 256
  nodup   : (h.relay.items.map (·.id)).Nodup
  hashed  : ∀ item ∈ h.relay.items,
    item.id = Bytes.toHex (services.sha256 <| Bytes.utf8 item.envelope).val
  ordered : h.relay.items.Sublist h.accepted
  reloads : loadStore services.readItems h.relay.inboxFile = .ok h.relay.items

-- What happens to the items at a step.
structure HandlesItems (services : Services) (h : InboxHistory) (event : Event) : Prop where
  returns : ∀ call capability header, event = .request call (.getInbox capability header) →
    (h.relay.handle services call (.getInbox capability header)).fst.status = 200 →
    (h.relay.handle services call (.getInbox capability header)).fst =
      State.inboxReply (h.step services event).relay.items
  arrives : ∀ item ∈ (h.step services event).accepted,
    item ∈ h.accepted ∨ item ∈ (h.step services event).relay.items
  stays   : ∀ item ∈ h.relay.items, item ∈ (h.step services event).relay.items ∨
    (∃ call capability header body, event = .request call (.ackInbox capability header body) ∧
      item.id ∈ acknowledgedIds services body) ∨
    ∃ call capability header, event = .request call (.getInbox capability header) ∧
      item.receivedAt.toNat + 7 * 24 * 60 * 60 < call.now.toNat

-- The same about the relay alone.
structure State.HoldsInbox (services : Services) (s : State) : Prop where
  fits   : s.items.length ≤ maxInboxItems
  nodup  : (s.items.map (·.id)).Nodup
  hashed : ∀ item ∈ s.items, item.id = State.envelopeId services item.envelope
  loads  : ∀ item ∈ s.items, item.loads
  file   : s.inboxFile = some (itemsFile s.items) ∨ s.inboxFile = none ∧ s.items = []
  noCode : s.inviteFile = none

theorem envelopeId_loads {envelope : String} {body : Bytes}
    (h : postedEnvelope services body = some envelope) (now : UInt64) :
    (⟨State.envelopeId services envelope, envelope, now⟩ : Item).loads := by
  have ⟨_, hp⟩ := Option.filter_eq_some_iff.mp h
  have hl : (State.envelopeId services envelope).utf8ByteSize = 64 := by
    rw [State.envelopeId, Bytes.utf8ByteSize_toHex, (services.sha256 _).property]
  simp only [Bool.and_eq_true] at hp
  simp only [Item.loads, hl, hp.left, hp.right, decide_true, Bool.and_self]

namespace State.HoldsInbox

-- Dropping items keeps the rest in order.
theorem filter (h : s.HoldsInbox services) (p : Item → Bool) (reply : Reply) (hs : call.stored) :
    (State.persist { s with items := s.items.filter p } call reply).snd.HoldsInbox services := by
  rw [State.persist, if_pos hs]
  exact {
    fits   := (List.length_filter_le ..).trans h.fits
    nodup  := h.nodup.sublist <| List.filter_sublist.map _
    hashed := fun item hi => h.hashed item <| List.mem_of_mem_filter hi
    loads  := fun item hi => h.loads item <| List.mem_of_mem_filter hi
    file   := .inl rfl
    noCode := h.noCode }

theorem post (h : s.HoldsInbox services) {envelope : String} {body : Bytes}
    (hb : postedEnvelope services body = some envelope)
    (hn : ∀ item ∈ s.items, item.id ≠ State.envelopeId services envelope)
    (hl : s.items.length < maxInboxItems) (reply : Reply) (hs : call.stored) :
    (State.persist
      { s with items := s.items ++ [⟨State.envelopeId services envelope, envelope, call.now⟩] }
      call reply).snd.HoldsInbox services := by
  rw [State.persist, if_pos hs]
  exact {
    fits   := by simpa using hl
    nodup  := by
      rw [List.map_append, List.map_singleton, ← List.concat_eq_append, List.nodup_concat]
      refine ⟨fun hm => ?_, h.nodup⟩
      have ⟨item, hi, he⟩ := List.mem_map.mp hm
      exact hn item hi he
    hashed := List.forall_mem_append.mpr ⟨h.hashed, by simp⟩
    loads  := List.forall_mem_append.mpr ⟨h.loads, by simpa using envelopeId_loads hb call.now⟩
    file   := .inl rfl
    noCode := h.noCode }

theorem effect (he : Effect services call request s r) (h : s.HoldsInbox services)
    (hs : call.stored) (hq : request.isInbox) : r.snd.HoldsInbox services := by
  cases he
  case refused          => exact h
  case duplicate        => exact h
  case post hb ha hn hl => exact h.post hb hn hl _ hs
  case get              => exact h.filter _ _ hs
  case ack hi           => exact hi ▸ h.filter _ _ hs
  all_goals cases hq

theorem loadStore_eq (h : s.HoldsInbox services)
    (hr : services.readItems (itemsFile s.items) = some s.items) :
    loadStore services.readItems s.inboxFile = .ok s.items := by
  cases h.file
  case inl hf =>
    rw [hf, loadStore]
    simp only [hr]
    rw [if_neg]
    rintro (hl | hl)
    case inl => exact Nat.not_lt.mpr h.fits hl
    case inr =>
      have ⟨item, hi, hn⟩ := List.any_eq_true.mp hl
      simp [h.loads item hi] at hn
  case inr hf => rw [hf.left, hf.right, loadStore]

theorem restart_eq (h : s.HoldsInbox services) (now : UInt64)
    (hr : services.readItems (itemsFile s.items) = some s.items) :
    s.step services (.restart now) = { s with invites := [], window := ⟨now, 0⟩ } := by
  rw [State.step, State.restart, h.loadStore_eq hr, h.noCode]
  rfl

theorem step {h : InboxHistory} {event : Event} (hi : h.relay.HoldsInbox services)
    (hk : event.keepsFile) (hr : h.Reads services) : (h.step services event).relay.HoldsInbox services := by
  cases event
  case request call request =>
    have ⟨hs, hq⟩ := Bool.and_eq_true_iff.mp hk
    have ⟨_, he⟩ := handle_effect services h.relay call request
    exact effect he ⟨hi.fits, hi.nodup, hi.hashed, hi.loads, hi.file, hi.noCode⟩ hs hq
  case restart now =>
    rw [InboxHistory.step, hi.restart_eq now hr]
    exact ⟨hi.fits, hi.nodup, hi.hashed, hi.loads, hi.file, hi.noCode⟩

end State.HoldsInbox

-- What was not dropped and what is accepted, in that order.
theorem Effect.items_sublist (he : Effect services call request s r) (hs : call.stored) :
    r.snd.items.Sublist (s.items ++ (acceptedItem services call request r.fst).toList) := by
  have same {items : List Item} {rest : List Item} (h : items = s.items) :
      items.Sublist (s.items ++ rest) := h ▸ List.sublist_append_left ..
  cases he
  case post hb _ _ _ =>
    rw [State.persist, if_pos hs]
    simp only [acceptedItem, acceptedReply, hb, Option.map_some, Option.toList_some]
    exact .refl _
  case get =>
    rw [State.persist, if_pos hs]
    exact List.filter_sublist.trans <| List.sublist_append_left ..
  case ack hi =>
    rw [State.persist, if_pos hs, hi]
    exact List.filter_sublist.trans <| List.sublist_append_left ..
  case create  => rw [State.persistInvites, if_pos hs]; exact same rfl
  case consume => rw [State.persistInvites, if_pos hs]; exact same rfl
  case respond => rw [State.persistInvites, if_pos hs]; exact same rfl
  all_goals exact same rfl

theorem acceptedItem_status {reply : Reply} {item : Item}
    (h : acceptedItem services call request reply = some item) : reply.status = 202 := by
  unfold acceptedItem at h
  split at h
  case h_1 => rfl
  case h_2 => cases h

theorem Effect.accepted_mem (he : Effect services call request s r) (hs : call.stored)
    {item : Item} (ha : acceptedItem services call request r.fst = some item) :
    item ∈ r.snd.items := by
  cases he
  case refused h _ =>
    have ha := acceptedItem_status ha
    simp only at ha
    omega
  case post hb _ _ _ =>
    rw [State.persist, if_pos hs] at ha ⊢
    simp only [acceptedItem, acceptedReply, hb, Option.map_some, Option.some.injEq] at ha
    exact ha ▸ List.mem_append_right _ (List.mem_singleton_self _)
  all_goals cases ha

theorem Effect.stays (he : Effect services call request s r) (hs : call.stored) {item : Item}
    (hi : item ∈ s.items) : item ∈ r.snd.items ∨
      (∃ capability header body, request = .ackInbox capability header body ∧
        item.id ∈ acknowledgedIds services body) ∨
      ∃ capability header, request = .getInbox capability header ∧
        item.receivedAt.toNat + 7 * 24 * 60 * 60 < call.now.toNat := by
  cases he
  case post =>
    rw [State.persist, if_pos hs]
    exact .inl <| List.mem_append_left _ hi
  case get capability header _ =>
    rw [State.persist, if_pos hs]
    by_cases hc : call.now.saturatingSub ttlSeconds ≤ item.receivedAt
    case pos => exact .inl <| List.mem_filter.mpr ⟨hi, by simpa using hc⟩
    case neg =>
      refine .inr <| .inr ⟨capability, header, rfl, ?_⟩
      have ht : ttlSeconds.toNat = 7 * 24 * 60 * 60 := by decide
      rw [UInt64.not_le, UInt64.lt_iff_toNat_lt, UInt64.toNat_saturatingSub, ht] at hc
      omega
  case ack capability header body _ _ hit =>
    rw [State.persist, if_pos hs, hit]
    by_cases hc : item.id ∈ acknowledgedIds services body
    case pos => exact .inr <| .inl ⟨capability, header, body, rfl, hc⟩
    case neg => exact .inl <| List.mem_filter.mpr ⟨hi, by simpa using hc⟩
  case create  => rw [State.persistInvites, if_pos hs]; exact .inl hi
  case consume => rw [State.persistInvites, if_pos hs]; exact .inl hi
  case respond => rw [State.persistInvites, if_pos hs]; exact .inl hi
  all_goals exact .inl hi

theorem Effect.returns {capability : String} {header : Option String}
    (he : Effect services call (.getInbox capability header) s r) (hs : call.stored)
    (ho : r.fst.status = 200) : r.fst = State.inboxReply r.snd.items := by
  cases he
  case refused h _ => simp only at ho; omega
  case get         => rw [State.persist, if_pos hs]

theorem handlesItems {h : InboxHistory} {event : Event} (hi : h.relay.HoldsInbox services)
    (hk : event.keepsFile) (hr : h.Reads services) : HandlesItems services h event := by
  cases event
  case request call request =>
    have ⟨hs, _⟩ := Bool.and_eq_true_iff.mp hk
    have ⟨_, he⟩ := handle_effect services h.relay call request
    refine ⟨?_, fun item hm => ?_, fun item hm => ?_⟩
    case refine_1 =>
      rintro _ _ _ ⟨⟩ ho
      exact he.returns hs ho
    case refine_2 =>
      refine (List.mem_append.mp hm).imp_right fun ha => ?_
      exact he.accepted_mem hs <| Option.mem_toList.mp ha
    case refine_3 =>
      refine (he.stays hs hm).imp_right <| Or.imp ?_ ?_
      case refine_1 => exact fun ⟨capability, header, body, hr, hn⟩ =>
        ⟨call, capability, header, body, hr ▸ rfl, hn⟩
      case refine_2 => exact fun ⟨capability, header, hr, hn⟩ =>
        ⟨call, capability, header, hr ▸ rfl, hn⟩
  case restart now =>
    refine ⟨nofun, fun item hm => .inl hm, fun item hm => .inl ?_⟩
    rw [InboxHistory.step, hi.restart_eq now hr]
    exact hm

theorem accepted_sublist {h : InboxHistory} {event : Event} (hi : h.relay.HoldsInbox services)
    (hk : event.keepsFile) (hr : h.Reads services) (hs : h.relay.items.Sublist h.accepted) :
    (h.step services event).relay.items.Sublist (h.step services event).accepted := by
  cases event
  case request call request =>
    have ⟨hc, _⟩ := Bool.and_eq_true_iff.mp hk
    have ⟨_, he⟩ := handle_effect services h.relay call request
    exact (he.items_sublist hc).trans <| hs.append_right _
  case restart now =>
    rw [InboxHistory.step, hi.restart_eq now hr]
    exact hs

theorem holdsInbox_fresh (capability origin : String) (now : UInt64) :
    (State.fresh capability origin now).HoldsInbox services where
  fits   := Nat.zero_le _
  nodup  := List.nodup_nil
  hashed := nofun
  loads  := nofun
  file   := .inr ⟨rfl, rfl⟩
  noCode := rfl

-- A relay that is sent one envelope, is started again, and is told that the envelope arrived.
def sampleItem : Item where
  id         := Bytes.toHex (.replicate 32 8)
  envelope   := "ADENV1.a"
  receivedAt := 5

def sampleServices : Services where
  fromSlice body :=
    match body with
    | [1] => some <| .object [("envelope", .string "ADENV1.a")]
    | [2] => some <| .object [("ids", .array [.string sampleItem.id])]
    | _   => none
  readItems      := Reader.of itemsFile id [[], [sampleItem]]
  readInvites    := Reader.of invitesFile id [[]]
  sha256 bytes   := ⟨.replicate 32 (UInt8.ofNat bytes.length), List.length_replicate⟩
  toUppercase c  := [c]
  validateInvite _ _ _ := true
  verifyingKey   := ⟨.replicate 32 0, List.length_replicate⟩
  sign _         := ⟨.replicate 64 0, List.length_replicate⟩

def sampleCall (now : UInt64) : Call where
  arrivedAt := now
  checkedAt := now
  now       := now
  stored    := true
  random    := some ⟨.replicate 32 0, List.length_replicate⟩

def sampleEvents : List Event := [
    .request (sampleCall 5) (.postInbox "inbox" (some "inbox") [1]),
    .restart 6,
    .request (sampleCall 7) (.ackInbox "inbox" (some "inbox") [2])
  ]

theorem sampleEvents_items :
    (Run.states (InboxHistory.step sampleServices) ⟨.fresh "inbox" "origin" 0, []⟩
      sampleEvents).map (·.relay.items) = [[], [sampleItem], [sampleItem], []] := by
  decide

set_option maxRecDepth 10000 in
theorem sampleServices_reads {items : List Item} (hi : items ∈ [[], [sampleItem]]) :
    sampleServices.readItems (itemsFile items) = some items := by
  have hn : ([[], [sampleItem]].map fun items => (itemsFile items).length).Nodup := by
    decide
  exact Reader.of_encode hn hi

end Relay
