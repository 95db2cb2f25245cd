import AnotherDimension.Relay.State

-- The handlers of the relay's inbox.

namespace Relay.State

-- The capability of the path and that of the header.
def authorized (s : State) (capability : String) (header : Option String)
    (handled : Reply × State) : Reply × State :=
  if capability ≠ s.capability then
    (.error 410 "capability_expired", s)
  else if header ≠ some s.capability then
    (.error 403 "relay_capability_required", s)
  else
    handled

def envelopeId (services : Services) (envelope : String) : String :=
  Bytes.toHex (services.sha256 <| Bytes.utf8 envelope).val

def storeEnvelope (services : Services) (s : State) (call : Call) (envelope : String) :
    Reply × State :=
  let id := envelopeId services envelope
  if s.items.any (·.id = id) then
    (.json 202 <| .object [("accepted", .bool true), ("id", .string id), ("duplicate", .bool true)],
      s)
  else if s.items.length ≥ maxInboxItems then
    (.error 429 "queue_full", s)
  else
    persist { s with items := s.items ++ [⟨id, envelope, call.now⟩] } call <|
      .json 202 <| .object [("accepted", .bool true), ("id", .string id)]

def postInbox (services : Services) (s : State) (call : Call) (capability : String)
    (header : Option String) (body : Bytes) : Reply × State :=
  s.limited call fun s => s.authorized capability header <|
    match services.fromSlice body with
    | none      => (.error 400 "invalid_json", s)
    | some body =>
      match (body.get "envelope").bind JsonValue.asStr with
      | none          => (.error 400 "invalid_envelope", s)
      | some envelope =>
        if !"ADENV1.".toList.isPrefixOf envelope.toList ∨
            envelope.utf8ByteSize > maxEnvelopeBytes then
          (.error 400 "invalid_envelope", s)
        else
          s.storeEnvelope services call envelope

def inboxReply (items : List Item) : Reply :=
  .json 200 <| .object [("protocol", .nat 1), ("items", .array <| items.map (·.toJson))]

-- An item is dropped when it is older than the cutoff.
def getInbox (s : State) (call : Call) (capability : String) (header : Option String) :
    Reply × State :=
  s.limited call fun s => s.authorized capability header <|
    let cutoff := call.now.saturatingSub ttlSeconds
    let items := s.items.filter (cutoff ≤ ·.receivedAt)
    persist { s with items := items } call (inboxReply items)

def ackInbox (services : Services) (s : State) (call : Call) (capability : String)
    (header : Option String) (body : Bytes) : Reply × State :=
  s.limited call fun s => s.authorized capability header <|
    match services.fromSlice body with
    | none      => (.error 400 "invalid_json", s)
    | some body =>
      match (body.get "ids").bind JsonValue.asArray with
      | none     => (.error 400 "too_many_ids", s)
      | some ids =>
        if ids.length > maxInboxItems then
          (.error 400 "too_many_ids", s)
        else
          let ids := ids.filterMap JsonValue.asStr
          let items := s.items.filter (!ids.contains ·.id)
          persist { s with items := items } call <|
            .json 200 <| .object [("acknowledged", .nat (s.items.length - items.length))]

end Relay.State
