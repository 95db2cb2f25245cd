import AnotherDimension.Library.Integers
import AnotherDimension.Library.Lines
import AnotherDimension.Library.Decode

-- The session between the daemon and the user interface on the same machine.

inductive BridgeError
  | nonLoopbackBind
  | invalidUiOrigin
  | invalidUiVersion
  | invalidRequestOrigin
  | invalidHost
  | invalidBootstrap
  | bootstrapAlreadyConsumed
  | sessionInvalid
  | csrfRequired
  | randomnessUnavailable
  deriving DecidableEq, Repr

namespace BridgeError

def code : BridgeError → String
  | invalidRequestOrigin     => "invalid_origin"
  | invalidHost              => "invalid_host"
  | csrfRequired             => "csrf_required"
  | sessionInvalid           => "session_invalid"
  | bootstrapAlreadyConsumed => "bootstrap_consumed"
  | _                        => "bridge_rejected"

end BridgeError

-- The addresses the daemon can be bound to; every other one is refused.
inductive Loopback
  | v4 (b c d : UInt8)
  | v6
  deriving DecidableEq, Repr

namespace Bridge

def defaultSessionTtlSeconds : UInt64 := 15 * 60

def maxUiVersionBytes : Nat := 64

def expectedHost (bindHost : Loopback) (port : UInt16) : String :=
  match bindHost with
  | .v4 b c d =>
    "127." ++ toString b.toNat ++ "." ++ toString c.toNat ++ "." ++ toString d.toNat ++ ":" ++
      toString port.toNat
  | .v6       => "[::1]:" ++ toString port.toNat

def isUiVersion (uiVersion : String) : Bool :=
  !uiVersion.isEmpty && uiVersion.utf8ByteSize ≤ maxUiVersionBytes &&
    !uiVersion.toList.any fun c => Text.isControl c || Text.isWhitespace c

end Bridge

open Bridge

structure BridgeConfig where
  bindHost          : Loopback
  port              : UInt16
  uiOrigin          : String
  uiVersion         : String
  sessionTtlSeconds : UInt64
  isOrigin          : uiOrigin = "http://" ++ expectedHost bindHost port
  isVersion         : isUiVersion uiVersion
  isPositive        : 1 ≤ sessionTtlSeconds

namespace BridgeConfig

def host (config : BridgeConfig) : String :=
  expectedHost config.bindHost config.port

def new (bindHost : Loopback) (port : UInt16) (uiOrigin uiVersion : String) :
    Except BridgeError BridgeConfig :=
  if ho : uiOrigin = "http://" ++ expectedHost bindHost port then
    if hv : isUiVersion uiVersion then
      .ok ⟨bindHost, port, uiOrigin, uiVersion, defaultSessionTtlSeconds, ho, hv, by decide⟩
    else
      .error .invalidUiVersion
  else
    .error .invalidUiOrigin

def withSessionTtl (config : BridgeConfig) (seconds : UInt64) : BridgeConfig :=
  { config with
    sessionTtlSeconds := max seconds 1
    isPositive        := UInt64.le_iff_toNat_le.mpr <| by
      rw [show max seconds 1 = if seconds ≤ 1 then 1 else seconds from rfl]
      split_ifs with h
      case pos => exact Nat.le_refl _
      case neg => exact Nat.le_of_lt <| UInt64.lt_iff_toNat_lt.mp <| UInt64.not_le.mp h }

end BridgeConfig

structure TtlContract where
  issuedAt   : UInt64
  ttlSeconds : UInt64
  deriving DecidableEq, Repr

namespace TtlContract

def expiresAt (ttl : TtlContract) : UInt64 :=
  ttl.issuedAt.saturatingAdd ttl.ttlSeconds

def isExpired (ttl : TtlContract) (wallNow : UInt64) (monotonicElapsed : Nat) : Bool :=
  monotonicElapsed ≥ ttl.ttlSeconds.toNat || wallNow ≥ ttl.expiresAt

end TtlContract

-- `started` is an `Instant`, in nanoseconds.
structure SessionState where
  cookieHash : ByteBlock 32
  csrfHash   : ByteBlock 32
  ttl        : TtlContract
  started    : Nat
  deriving DecidableEq

structure SessionCredentials where
  cookie    : String
  setCookie : String
  csrfToken : String
  expiresAt : UInt64
  uiVersion : String
  deriving DecidableEq, Repr

structure LocalBridge where
  config         : BridgeConfig
  bootstrapHash  : Option (ByteBlock 32)
  bootstrapToken : Option String
  session        : Option SessionState

structure BridgeRequest where
  origin    : String
  host      : String
  method    : String
  cookie    : String
  csrfToken : Option String
  uiVersion : String

-- What a call meets: the two clocks, and what the two draws of random bytes give.
structure Moment where
  now     : UInt64
  instant : Nat
  first   : Option (ByteBlock 32)
  second  : Option (ByteBlock 32)

namespace Bridge

def isStateChangingMethod (method : String) : Bool :=
  method = "POST" || method = "PUT" || method = "PATCH" || method = "DELETE"

def randomToken (draw : Option (ByteBlock 32)) : Except BridgeError String :=
  match draw with
  | none       => .error .randomnessUnavailable
  | some bytes => .ok <| Bytes.toHex bytes.val

def hashToken (sha256 : Bytes → ByteBlock 32) (token : String) : ByteBlock 32 :=
  sha256 (Bytes.utf8 token)

def constantTimeEqual (left right : Bytes) : Bool :=
  left.length = right.length &&
    (left.zip right).foldl (fun difference (a, b) => difference ||| (a ^^^ b)) 0 = 0

-- `started.elapsed().as_secs()`
def elapsedSeconds (started instant : Nat) : Nat :=
  (instant - started) / 10 ^ 9

end Bridge

namespace LocalBridge

variable (sha256 : Bytes → ByteBlock 32)

def new (config : BridgeConfig) (draw : Option (ByteBlock 32)) : Except BridgeError LocalBridge := do
  let bootstrap ← randomToken draw
  return ⟨config, some <| hashToken sha256 bootstrap, some bootstrap, none⟩

def checkOriginHost (bridge : LocalBridge) (origin host : String) : Except BridgeError Unit :=
  if origin ≠ bridge.config.uiOrigin then
    .error .invalidRequestOrigin
  else if host ≠ bridge.config.host then
    .error .invalidHost
  else
    .ok ()

def issueSession (bridge : LocalBridge) (moment : Moment) :
    Except BridgeError SessionCredentials × LocalBridge :=
  match randomToken moment.first with
  | .error e   => (.error e, bridge)
  | .ok cookie =>
    match randomToken moment.second with
    | .error e      => (.error e, bridge)
    | .ok csrfToken =>
      let ttl : TtlContract := ⟨moment.now, bridge.config.sessionTtlSeconds⟩
      let credentials : SessionCredentials := {
        cookie    := cookie
        setCookie := "ad_session=" ++ cookie ++ "; Path=/; HttpOnly; SameSite=Strict; Max-Age=" ++
          Text.formatU64 bridge.config.sessionTtlSeconds
        csrfToken := csrfToken
        expiresAt := ttl.expiresAt
        uiVersion := bridge.config.uiVersion
      }
      let session : SessionState :=
        ⟨hashToken sha256 cookie, hashToken sha256 csrfToken, ttl, moment.instant⟩
      (.ok credentials, { bridge with session := some session })

def exchange (bridge : LocalBridge) (moment : Moment) (origin host token uiVersion : String) :
    Except BridgeError SessionCredentials × LocalBridge :=
  match bridge.checkOriginHost origin host with
  | .error e => (.error e, bridge)
  | .ok ()   =>
    if uiVersion ≠ bridge.config.uiVersion then
      (.error .invalidBootstrap, bridge)
    else
      match bridge.bootstrapHash with
      | none          => (.error .bootstrapAlreadyConsumed, bridge)
      | some expected =>
        if !constantTimeEqual expected.val (hashToken sha256 token).val then
          (.error .invalidBootstrap, bridge)
        else
          let bridge := { bridge with bootstrapHash := none, bootstrapToken := none }
          bridge.issueSession sha256 moment

def renew (bridge : LocalBridge) (moment : Moment)
    (origin host cookie csrfToken uiVersion : String) :
    Except BridgeError SessionCredentials × LocalBridge :=
  match bridge.checkOriginHost origin host with
  | .error e => (.error e, bridge)
  | .ok ()   =>
    if uiVersion ≠ bridge.config.uiVersion then
      (.error .sessionInvalid, bridge)
    else
      match bridge.session with
      | none         => (.error .sessionInvalid, bridge)
      | some session =>
        if !constantTimeEqual session.cookieHash.val (hashToken sha256 cookie).val ||
            !constantTimeEqual session.csrfHash.val (hashToken sha256 csrfToken).val then
          (.error .sessionInvalid, bridge)
        else
          bridge.issueSession sha256 moment

def authorize (bridge : LocalBridge) (request : BridgeRequest) (now : UInt64) (instant : Nat) :
    Except BridgeError Unit := do
  bridge.checkOriginHost request.origin request.host
  if request.uiVersion ≠ bridge.config.uiVersion then
    throw .sessionInvalid
  match bridge.session with
  | none         => throw .sessionInvalid
  | some session =>
    if session.ttl.isExpired now (elapsedSeconds session.started instant) ||
        !constantTimeEqual session.cookieHash.val (hashToken sha256 request.cookie).val then
      throw .sessionInvalid
    if isStateChangingMethod request.method &&
        !constantTimeEqual session.csrfHash.val
          (hashToken sha256 (request.csrfToken.getD "")).val then
      throw .csrfRequired

def invalidateSession (bridge : LocalBridge) : LocalBridge :=
  { bridge with session := none }

end LocalBridge

-- The part of a parsed request that is read here.
structure HttpRequest where
  method  : String
  headers : List (String × String)

namespace HttpRequest

def header (request : HttpRequest) (name : String) : Option String :=
  request.headers.find? (fun (key, _) => key.toList.map Text.toAsciiLowercase =
    name.toList.map Text.toAsciiLowercase) |>.map Prod.snd

end HttpRequest

namespace Bridge

def cookieValue (header name : String) : Option String :=
  (Text.split ';' header).findSome? fun part => Text.stripPrefix (name ++ "=") (Text.trim part)

-- The status and the text of the reply to a request that is refused.
def authorizeApi (sha256 : Bytes → ByteBlock 32) (bridge : LocalBridge) (request : HttpRequest)
    (now : UInt64) (instant : Nat) : Except (Nat × String) Unit :=
  match cookieValue ((request.header "cookie").getD "") "ad_session" with
  | none        => .error (401, "session_invalid")
  | some cookie =>
    let origin := match request.header "origin" with
      | some origin => origin
      | none        => if request.method = "GET" then bridge.config.uiOrigin else ""
    let authorization : BridgeRequest := {
      origin    := origin
      host      := (request.header "host").getD ""
      method    := request.method
      cookie    := cookie
      csrfToken := request.header "x-ad-csrf"
      uiVersion := (request.header "x-ad-ui-version").getD ""
    }
    match bridge.authorize sha256 authorization now instant with
    | .error e => .error (403, e.code)
    | .ok ()   => .ok ()

end Bridge
