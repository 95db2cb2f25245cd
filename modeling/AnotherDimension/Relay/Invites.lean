import AnotherDimension.Library.Chunks
import AnotherDimension.Relay.State

-- The handlers of invite codes and of the answers to an invite.

namespace Relay

def codeAlphabet : List Char :=
  "0123456789ABCDEFGHJKMNPQRSTVWXYZ".toList

-- 26 characters in groups of four.
def inviteCode (random : ByteBlock 32) : String :=
  let raw := (random.val.take 26).map fun byte => codeAlphabet.getD (byte.toNat % 32) '0'
  .ofList <| List.intercalate ['-'] (raw.chunks 4)

def codeHash (services : Services) (code : String) : String :=
  let normalized := (code.toList.filter (· ≠ '-')).flatMap services.toUppercase
  Bytes.toHex (services.sha256 <| Bytes.utf8 <| .ofList normalized).val

def receipt (services : Services) (origin code invite : String) (timestamp : UInt64) : String :=
  let keyId := Bytes.toHex (services.sha256 services.verifyingKey.val).val
  let body := "ADRECEIPT1." ++ keyId ++ "." ++ Bytes.toHex (Bytes.utf8 origin) ++ "." ++
    codeHash services code ++ "." ++ Bytes.toHex (services.sha256 <| Bytes.utf8 invite).val ++ "." ++
    Text.formatU64 timestamp
  body ++ "." ++ Bytes.toHex (services.sign <| Bytes.utf8 body).val

def maxPairingResponses : Nat := 32

def maxResponseBytes : Nat := 128 * 1024

namespace Invite

-- A code that can be consumed, and one whose answers can be stored and read.
def isOpen (invite : Invite) (hash : String) (timestamp : UInt64) : Bool :=
  invite.codeHash = hash && invite.expiresAt > timestamp && invite.consumedAt.isNone

def isConsumed (invite : Invite) (hash : String) (timestamp : UInt64) : Bool :=
  invite.codeHash = hash && invite.expiresAt > timestamp && invite.consumedAt.isSome

end Invite

-- The first record that is found is changed in place.
def updateFirst (p : Invite → Bool) (f : Invite → Invite) : List Invite → List Invite
  | []                => []
  | invite :: invites => if p invite then f invite :: invites else invite :: updateFirst p f invites

theorem updateFirst_eq {p : Invite → Bool} {invites : List Invite} {record : Invite}
    (h : invites.find? p = some record) (f : Invite → Invite) :
    ∃ before after, invites = before ++ record :: after ∧
      updateFirst p f invites = before ++ f record :: after := by
  induction invites
  case nil => cases h
  case cons invite invites hi =>
    by_cases hp : p invite
    case pos =>
      rw [List.find?_cons_of_pos hp, Option.some.injEq] at h
      exact ⟨[], invites, h ▸ rfl, by rw [updateFirst, if_pos hp, h, List.nil_append]⟩
    case neg =>
      rw [List.find?_cons_of_neg hp] at h
      have ⟨before, after, hl, hu⟩ := hi h
      exact ⟨invite :: before, after, by rw [hl]; rfl, by simp [updateFirst, hp, hu]⟩

theorem length_updateFirst (p : Invite → Bool) (f : Invite → Invite) (invites : List Invite) :
    (updateFirst p f invites).length = invites.length := by
  fun_induction updateFirst p f invites <;> simp_all

theorem mem_updateFirst {p : Invite → Bool} {invites : List Invite} {record : Invite}
    (h : invites.find? p = some record) (f : Invite → Invite) :
    f record ∈ updateFirst p f invites := by
  have ⟨_, _, _, hu⟩ := updateFirst_eq h f
  rw [hu]
  exact List.mem_append_right _ List.mem_cons_self

theorem forall_mem_updateFirst {p : Invite → Bool} {f : Invite → Invite} {invites : List Invite}
    {record : Invite} {property : Invite → Prop} (h : invites.find? p = some record)
    (hi : ∀ invite ∈ invites, property invite) (hf : property (f record)) :
    ∀ invite ∈ updateFirst p f invites, property invite := by
  have ⟨before, after, hl, hu⟩ := updateFirst_eq h f
  rw [hl, List.forall_mem_append, List.forall_mem_cons] at hi
  rw [hu, List.forall_mem_append, List.forall_mem_cons]
  exact ⟨hi.left, hf, hi.right.right⟩

namespace State

def createInvite (services : Services) (s : State) (call : Call) (body : Bytes) : Reply × State :=
  s.limited call fun s =>
    match services.fromSlice body with
    | none      => (.error 400 "invalid_json", s)
    | some body =>
      match (body.get "invite").bind JsonValue.asStr with
      | none        => (.error 400 "invalid_signed_invite", s)
      | some invite =>
        if invite.utf8ByteSize > 96 * 1024 ∨
            !services.validateInvite invite s.origin call.checkedAt then
          (.error 400 "invalid_signed_invite", s)
        else
          match call.random with
          | none        => (.error 500 "random_generation_failed", s)
          | some random =>
            let code := inviteCode random
            let record : Invite := {
              version          := 1
              codeHash         := codeHash services code
              invite           := invite
              inviteDigest     := Bytes.toHex (services.sha256 <| Bytes.utf8 invite).val
              createdAt        := call.now
              expiresAt        := call.now + 600
              consumedAt       := none
              pairingResponses := [] }
            let invites := s.invites.filter (·.expiresAt > call.now)
            if invites.length ≥ maxInvites then
              (.error 429 "invite_queue_full", { s with invites := invites })
            else
              persistInvites { s with invites := invites ++ [record] } call <|
                .json 201 <| .object [
                  ("created", .bool true),
                  ("code", .string code),
                  ("expiresAt", .u64 record.expiresAt),
                  ("inviteDigest", .string record.inviteDigest)
                ]

def consumeInvite (services : Services) (s : State) (call : Call) (body : Bytes) : Reply × State :=
  s.limited call fun s =>
    match services.fromSlice body with
    | none      => (.error 400 "invalid_json", s)
    | some body =>
      match (body.get "code").bind JsonValue.asStr with
      | none      => (.error 404 "invalid_or_expired", s)
      | some code =>
        let isOpen := fun invite : Invite => invite.isOpen (codeHash services code) call.now
        match s.invites.find? isOpen with
        | none        => (.error 404 "invalid_or_expired", s)
        | some record =>
          let invites := updateFirst isOpen ({ · with consumedAt := some call.now }) s.invites
          persistInvites { s with invites := invites } call <|
            .json 200 <| .object [
              ("consumed", .bool true),
              ("invite", .string record.invite),
              ("inviteDigest", .string record.inviteDigest),
              ("receipt", .string <| receipt services s.origin code record.invite call.now)
            ]

def responsesReply (responses : List JsonValue) : Reply :=
  .json 200 <| .object [
    ("available", .bool !responses.isEmpty),
    ("responses", .array responses)
  ]

def pairing (services : Services) (s : State) (call : Call) (body : Bytes) : Reply × State :=
  s.limited call fun s =>
    match services.fromSlice body with
    | none      => (.error 400 "invalid_json", s)
    | some body =>
      match (body.get "code").bind JsonValue.asStr with
      | none      => (.error 404 "invalid_or_expired", s)
      | some code =>
        let isConsumed := fun invite : Invite => invite.isConsumed (codeHash services code) call.now
        match s.invites.find? isConsumed with
        | none        => (.error 404 "invalid_or_expired", s)
        | some record =>
          if (body.get "read").bind JsonValue.asBool = some true then
            (responsesReply record.pairingResponses, s)
          else
            match body.get "response" with
            | none          => (.error 400 "invalid_pairing_response", s)
            | some response =>
              if !response.isObject ∨ response.text.utf8ByteSize > maxResponseBytes then
                (.error 400 "invalid_pairing_response", s)
              else if record.pairingResponses.length ≥ maxPairingResponses then
                (.error 409 "pairing_response_queue_full", s)
              else
                let invites := updateFirst isConsumed
                  (fun invite => { invite with
                    pairingResponses := invite.pairingResponses ++ [response] }) s.invites
                persistInvites { s with invites := invites } call <|
                  .json 201 <| .object [("accepted", .bool true)]

end State

end Relay
