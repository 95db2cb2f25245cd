import AnotherDimension.Relay.Blob
import AnotherDimension.Relay.Inbox
import AnotherDimension.Relay.Invites

-- The relay as a whole: its requests, and its restarts.

namespace Relay

inductive Request
  | postInbox (capability : String) (header : Option String) (body : Bytes)
  | getInbox (capability : String) (header : Option String)
  | ackInbox (capability : String) (header : Option String) (body : Bytes)
  | createInvite (body : Bytes)
  | consumeInvite (body : Bytes)
  | pairing (body : Bytes)
  | blob (id : String) (header : Option String) (method : BlobMethod)

def Request.body : Request → Bytes
  | postInbox _ _ body | ackInbox _ _ body        => body
  | createInvite body | consumeInvite body | pairing body => body
  | blob _ _ (.post _ _ body)                     => body
  | getInbox _ _ | blob _ _ _                     => []

namespace State

def handler (services : Services) (s : State) (call : Call) : Request → Reply × State
  | .postInbox capability header body => s.postInbox services call capability header body
  | .getInbox capability header       => s.getInbox call capability header
  | .ackInbox capability header body  => s.ackInbox services call capability header body
  | .createInvite body                => s.createInvite services call body
  | .consumeInvite body               => s.consumeInvite services call body
  | .pairing body                     => s.pairing services call body
  | .blob id header method            => s.blobImpl call id header method

-- A body that is too long does not reach its handler.
def handle (services : Services) (s : State) (call : Call) (request : Request) : Reply × State :=
  if request.body.length > maxRelayBodyBytes then
    (.plain 413 "length limit exceeded", s)
  else
    s.handler services call request

end State

inductive Event
  | request (call : Call) (request : Request)
  | restart (now : UInt64)

-- A process that cannot read its files does not start, and its memory is gone.
def State.step (services : Services) (s : State) : Event → State
  | .request call request => (s.handle services call request).snd
  | .restart now          =>
    match s.restart services now with
    | .ok s    => s
    | .error _ => { s with items := [], invites := [] }

end Relay
