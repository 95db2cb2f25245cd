import AnotherDimension.Relay.Server

-- What a request can do to the relay.

namespace Relay

variable {services : Services} {call : Call} {s : State} {request : Request}

-- The envelope of a post, when the relay takes it for one.
def postedEnvelope (services : Services) (body : Bytes) : Option String :=
  ((services.fromSlice body).bind fun value => (value.get "envelope").bind JsonValue.asStr).filter
    fun envelope => "ADENV1.".toList.isPrefixOf envelope.toList &&
      envelope.utf8ByteSize ≤ maxEnvelopeBytes

-- The ids an acknowledgement names.
def acknowledgedIds (services : Services) (body : Bytes) : List String :=
  (((services.fromSlice body).bind fun value => (value.get "ids").bind JsonValue.asArray).getD
    []).filterMap JsonValue.asStr

-- The hash of the code a request names.
def requestedHash (services : Services) (body : Bytes) : Option String :=
  ((services.fromSlice body).bind fun value => (value.get "code").bind JsonValue.asStr).map
    (codeHash services)

-- The invite a new code is made for, and the answer a request sends.
def postedInvite (services : Services) (body : Bytes) : Option String :=
  (services.fromSlice body).bind fun value => (value.get "invite").bind JsonValue.asStr

def postedResponse (services : Services) (body : Bytes) : Option JsonValue :=
  (services.fromSlice body).bind fun value => value.get "response"

def State.isAuthorized (s : State) (capability : String) (header : Option String) : Prop :=
  capability = s.capability ∧ header = some s.capability

def acceptedReply (id : String) : Reply :=
  .json 202 <| .object [("accepted", .bool true), ("id", .string id)]

def duplicateReply (id : String) : Reply :=
  .json 202 <| .object [("accepted", .bool true), ("id", .string id), ("duplicate", .bool true)]

def acknowledgedReply (count : Nat) : Reply :=
  .json 200 <| .object [("acknowledged", .nat count)]

def unexpired (items : List Item) (now : UInt64) : List Item :=
  items.filter (now.saturatingSub ttlSeconds ≤ ·.receivedAt)

def createdReply (code : String) (record : Invite) : Reply :=
  .json 201 <| .object [
    ("created", .bool true),
    ("code", .string code),
    ("expiresAt", .u64 record.expiresAt),
    ("inviteDigest", .string record.inviteDigest)
  ]

def consumedReply (services : Services) (origin code : String) (record : Invite) (now : UInt64) :
    Reply :=
  .json 200 <| .object [
    ("consumed", .bool true),
    ("invite", .string record.invite),
    ("inviteDigest", .string record.inviteDigest),
    ("receipt", .string <| receipt services origin code record.invite now)
  ]

def respondedReply : Reply :=
  .json 201 <| .object [("accepted", .bool true)]

def Invite.created (services : Services) (call : Call) (random : ByteBlock 32) (invite : String) :
    Invite where
  version          := 1
  codeHash         := Relay.codeHash services (inviteCode random)
  invite           := invite
  inviteDigest     := Bytes.toHex (services.sha256 <| Bytes.utf8 invite).val
  createdAt        := call.now
  expiresAt        := call.now + 600
  consumedAt       := none
  pairingResponses := []

def Invite.consume (now : UInt64) (invite : Invite) : Invite :=
  { invite with consumedAt := some now }

def Invite.respond (response : JsonValue) (invite : Invite) : Invite :=
  { invite with pairingResponses := invite.pairingResponses ++ [response] }

-- One case for each way a handler ends. The clock of the rate is not part of it.
inductive Effect (services : Services) (call : Call) : Request → State → Reply × State → Prop
  | refused {request s reply} (hs : 400 ≤ reply.status) (hn : reply.status ≠ 500) :
    Effect services call request s (reply, s)
  | noRandom {s body} (hr : call.random = none) :
    Effect services call (.createInvite body) s (.error 500 "random_generation_failed", s)
  | duplicate {s capability header body envelope} (ha : s.isAuthorized capability header)
    (hb : postedEnvelope services body = some envelope)
    (hd : ∃ item ∈ s.items, item.id = State.envelopeId services envelope) :
    Effect services call (.postInbox capability header body) s
      (duplicateReply <| State.envelopeId services envelope, s)
  | post {s capability header body envelope} (ha : s.isAuthorized capability header)
    (hb : postedEnvelope services body = some envelope)
    (hn : ∀ item ∈ s.items, item.id ≠ State.envelopeId services envelope)
    (hl : s.items.length < maxInboxItems) :
    Effect services call (.postInbox capability header body) s <|
      State.persist
        { s with items := s.items ++ [⟨State.envelopeId services envelope, envelope, call.now⟩] }
        call (acceptedReply <| State.envelopeId services envelope)
  | get {s capability header} (ha : s.isAuthorized capability header) :
    Effect services call (.getInbox capability header) s <|
      State.persist { s with items := unexpired s.items call.now } call <|
        State.inboxReply (unexpired s.items call.now)
  | ack {s capability header body items} (ha : s.isAuthorized capability header)
    (hi : items = s.items.filter (!(acknowledgedIds services body).contains ·.id)) :
    Effect services call (.ackInbox capability header body) s <|
      State.persist { s with items := items } call <|
        acknowledgedReply (s.items.length - items.length)
  | createFull {s body} :
    Effect services call (.createInvite body) s (.error 429 "invite_queue_full",
      { s with invites := s.invites.filter (·.expiresAt > call.now) })
  | create {s body random invite invites} (hr : call.random = some random)
    (hb : postedInvite services body = some invite)
    (hi : invites = s.invites.filter (·.expiresAt > call.now)) (hl : invites.length < maxInvites)
    (hm : invite.utf8ByteSize ≤ 96 * 1024) :
    Effect services call (.createInvite body) s <|
      State.persistInvites
        { s with invites := invites ++ [Invite.created services call random invite] } call <|
        createdReply (inviteCode random) (Invite.created services call random invite)
  | consume {s body code record} (hh : requestedHash services body = some (codeHash services code))
    (hf : s.invites.find? (·.isOpen (codeHash services code) call.now) = some record) :
    Effect services call (.consumeInvite body) s <|
      State.persistInvites
        { s with
          invites := updateFirst (·.isOpen (codeHash services code) call.now)
            (Invite.consume call.now) s.invites } call <|
        consumedReply services s.origin code record call.now
  | read {s body hash record} (hh : requestedHash services body = some hash)
    (hf : s.invites.find? (·.isConsumed hash call.now) = some record) :
    Effect services call (.pairing body) s (State.responsesReply record.pairingResponses, s)
  | respond {s body hash record response} (hh : requestedHash services body = some hash)
    (hf : s.invites.find? (·.isConsumed hash call.now) = some record)
    (hb : postedResponse services body = some response)
    (hs : response.text.utf8ByteSize ≤ maxResponseBytes)
    (hl : record.pairingResponses.length < maxPairingResponses) :
    Effect services call (.pairing body) s <|
      State.persistInvites
        { s with
          invites := updateFirst (·.isConsumed hash call.now) (Invite.respond response) s.invites }
        call respondedReply
  | blob {s id header method reply blobs} :
    Effect services call (.blob id header method) s (reply, { s with blobs := blobs })

namespace Effect

theorem error {status : Nat} {value : String} (h : 400 ≤ status) (hn : status ≠ 500) :
    Effect services call request s (.error status value, s) :=
  refused h hn

theorem limited {handler : State → Reply × State}
    (h : ∀ s, Effect services call request s (handler s)) :
    ∃ window, Effect services call request { s with window := window } (s.limited call handler) := by
  unfold State.limited
  split
  case h_1 hr =>
    obtain ⟨_, rfl⟩ := Prod.mk.inj hr
    exact ⟨_, error (by decide) (by decide)⟩
  case h_2 hr =>
    obtain ⟨_, rfl⟩ := Prod.mk.inj hr
    exact ⟨_, h _⟩

theorem authorized {capability : String} {header : Option String} {handled : Reply × State}
    (h : s.isAuthorized capability header → Effect services call request s handled) :
    Effect services call request s (s.authorized capability header handled) := by
  unfold State.authorized
  split
  case isTrue => exact error (by decide) (by decide)
  case isFalse hc =>
    split
    case isTrue => exact error (by decide) (by decide)
    case isFalse hh => exact h ⟨not_not.mp hc, not_not.mp hh⟩

theorem storeEnvelope {capability : String} {header : Option String} {body : Bytes}
    {envelope : String} (ha : s.isAuthorized capability header)
    (hb : postedEnvelope services body = some envelope) :
    Effect services call (.postInbox capability header body) s
      (s.storeEnvelope services call envelope) := by
  unfold State.storeEnvelope
  simp only
  split
  case isTrue hd => exact duplicate ha hb <| by simpa using hd
  case isFalse hd =>
    split
    case isTrue => exact error (by decide) (by decide)
    case isFalse hl => exact post ha hb (by simpa using hd) (Nat.not_le.mp hl)

theorem postInbox {capability : String} {header : Option String} {body : Bytes} :
    ∃ window, Effect services call (.postInbox capability header body) { s with window := window }
      (s.postInbox services call capability header body) := by
  refine limited fun s => authorized fun ha => ?_
  split
  case h_1 => exact error (by decide) (by decide)
  case h_2 value hv =>
    split
    case h_1 => exact error (by decide) (by decide)
    case h_2 envelope he =>
      split
      case isTrue => exact error (by decide) (by decide)
      case isFalse hc =>
        refine storeEnvelope ha ?_
        simp only [not_or, Bool.not_eq_true', Bool.not_eq_false, Nat.not_lt] at hc
        simp only [postedEnvelope, hv, he, Option.bind_some, Option.filter, hc.left, hc.right,
          decide_true, Bool.and_self, if_true]

theorem getInbox {capability : String} {header : Option String} :
    ∃ window, Effect services call (.getInbox capability header) { s with window := window }
      (s.getInbox call capability header) :=
  limited fun _ => authorized get

theorem ackInbox {capability : String} {header : Option String} {body : Bytes} :
    ∃ window, Effect services call (.ackInbox capability header body) { s with window := window }
      (s.ackInbox services call capability header body) := by
  refine limited fun s => authorized fun ha => ?_
  split
  case h_1 => exact error (by decide) (by decide)
  case h_2 value hv =>
    split
    case h_1 => exact error (by decide) (by decide)
    case h_2 ids hi =>
      split
      case isTrue => exact error (by decide) (by decide)
      case isFalse => exact ack ha <| by simp [acknowledgedIds, hv, hi]

theorem createInvite {body : Bytes} :
    ∃ window, Effect services call (.createInvite body) { s with window := window }
      (s.createInvite services call body) := by
  refine limited fun s => ?_
  split
  case h_1 => exact error (by decide) (by decide)
  case h_2 value hv =>
    split
    case h_1 => exact error (by decide) (by decide)
    case h_2 invite hi =>
      split
      case isTrue => exact error (by decide) (by decide)
      case isFalse hm =>
        split
        case h_1 hr => exact noRandom hr
        case h_2 hr =>
          simp only
          split
          case isTrue     => exact createFull
          case isFalse hl =>
            exact create hr (by rw [postedInvite, hv, Option.bind_some, hi]) rfl (Nat.not_le.mp hl)
              (Nat.not_lt.mp (not_or.mp hm).left)

theorem consumeInvite {body : Bytes} :
    ∃ window, Effect services call (.consumeInvite body) { s with window := window }
      (s.consumeInvite services call body) := by
  refine limited fun s => ?_
  split
  case h_1 => exact error (by decide) (by decide)
  case h_2 value hv =>
    split
    case h_1 => exact error (by decide) (by decide)
    case h_2 code hc =>
      simp only
      split
      case h_1 => exact error (by decide) (by decide)
      case h_2 record hf => exact consume (by simp [requestedHash, hv, hc]) hf

theorem pairing {body : Bytes} :
    ∃ window, Effect services call (.pairing body) { s with window := window }
      (s.pairing services call body) := by
  refine limited fun s => ?_
  split
  case h_1 => exact error (by decide) (by decide)
  case h_2 value hv =>
    split
    case h_1 => exact error (by decide) (by decide)
    case h_2 code hc =>
      have hh : requestedHash services body = some (codeHash services code) := by
        simp [requestedHash, hv, hc]
      simp only
      split
      case h_1 => exact error (by decide) (by decide)
      case h_2 record hf =>
        split
        case isTrue => exact read hh hf
        case isFalse =>
          split
          case h_1 => exact error (by decide) (by decide)
          case h_2 response hp =>
            split
            case isTrue => exact error (by decide) (by decide)
            case isFalse hs =>
              split
              case isTrue => exact error (by decide) (by decide)
              case isFalse hl =>
                exact respond hh hf (by rw [postedResponse, hv, Option.bind_some, hp])
                  (Nat.not_lt.mp (not_or.mp hs).right) (Nat.not_le.mp hl)

theorem blobImpl {id : String} {header : Option String} {method : BlobMethod} :
    ∃ window, Effect services call (.blob id header method) { s with window := window }
      (s.blobImpl call id header method) := by
  refine limited fun s => ?_
  split
  case isTrue => exact error (by decide) (by decide)
  split
  case isTrue => exact error (by decide) (by decide)
  split
  all_goals exact blob

end Effect

theorem handle_effect (services : Services) (s : State) (call : Call) (request : Request) :
    ∃ window, Effect services call request { s with window := window }
      (s.handle services call request) := by
  unfold State.handle
  split
  case isTrue => exact ⟨s.window, .refused (by simp [Reply.status]) (by simp [Reply.status])⟩
  case isFalse =>
    cases request
    case postInbox     => exact Effect.postInbox
    case getInbox      => exact Effect.getInbox
    case ackInbox      => exact Effect.ackInbox
    case createInvite  => exact Effect.createInvite
    case consumeInvite => exact Effect.consumeInvite
    case pairing       => exact Effect.pairing
    case blob          => exact Effect.blobImpl

end Relay
