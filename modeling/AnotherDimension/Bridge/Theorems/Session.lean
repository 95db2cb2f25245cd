import AnotherDimension.Bridge.Session
import AnotherDimension.Library.Fallible
import AnotherDimension.Library.Run

-- Who the bridge lets in, over every sequence of calls.

namespace Bridge

theorem foldl_difference_eq_zero_iff {pairs : List (UInt8 × UInt8)} {difference : UInt8} :
    pairs.foldl (fun difference (a, b) => difference ||| (a ^^^ b)) difference = 0 ↔
      difference = 0 ∧ ∀ pair ∈ pairs, pair.fst = pair.snd := by
  induction pairs generalizing difference
  case nil                => simp
  case cons pair pairs hi =>
    rw [List.foldl_cons, hi, UInt8.or_eq_zero_iff, UInt8.xor_eq_zero_iff, List.forall_mem_cons,
      and_assoc]

@[simp]
theorem constantTimeEqual_iff {left right : Bytes} :
    constantTimeEqual left right = true ↔ left = right := by
  have hz : left = right ↔ List.Forall₂ Eq left right := by rw [List.forall₂_eq_eq_eq]
  rw [constantTimeEqual, Bool.and_eq_true, decide_eq_true_eq, decide_eq_true_eq,
    foldl_difference_eq_zero_iff, hz, List.forall₂_iff_zip]
  simp

theorem isOk_randomToken {draw : Option (ByteBlock 32)} : (randomToken draw).isOk = draw.isSome := by
  cases draw <;> rfl

theorem toHex_ne_empty (bytes : ByteBlock 32) : Bytes.toHex bytes.val ≠ "" := by
  intro he
  have hl := Bytes.length_toHex bytes.val
  rw [he, bytes.property] at hl
  exact absurd hl (by decide)

end Bridge

open Bridge

namespace BridgeConfig

variable (config : BridgeConfig)

theorem host_ne_empty : config.host ≠ "" := by
  unfold host expectedHost
  intro he
  have hl := congrArg String.length he
  split at hl
  all_goals simp [String.length_append] at hl

theorem uiOrigin_ne_empty : config.uiOrigin ≠ "" := by
  rw [config.isOrigin]
  intro he
  have hl := congrArg String.length he
  simp [String.length_append] at hl

theorem uiVersion_ne_empty : config.uiVersion ≠ "" := by
  intro he
  have hv := config.isVersion
  rw [he] at hv
  exact absurd hv (by decide)

end BridgeConfig

namespace LocalBridge

variable {sha256 : Bytes → ByteBlock 32} {bridge : LocalBridge} {moment : Moment}
  {origin host token uiVersion cookie csrfToken : String}

theorem checkOriginHost_eq_ok : bridge.checkOriginHost origin host = .ok () ↔
    origin = bridge.config.uiOrigin ∧ host = bridge.config.host := by
  unfold checkOriginHost
  split_ifs <;> simp_all

-- A session is issued when both draws succeed, and nothing changes otherwise.
inductive Issues (sha256 : Bytes → ByteBlock 32) (bridge : LocalBridge) (moment : Moment) :
    Except BridgeError SessionCredentials × LocalBridge → Prop
  | none (hd : ¬(moment.first.isSome ∧ moment.second.isSome)) :
    Issues sha256 bridge moment (.error .randomnessUnavailable, bridge)
  | some {cookie csrfToken : ByteBlock 32} {credentials : SessionCredentials}
    (hf : moment.first = Option.some cookie) (hs : moment.second = Option.some csrfToken)
    (hc : credentials.cookie = Bytes.toHex cookie.val)
    (ht : credentials.csrfToken = Bytes.toHex csrfToken.val) :
    Issues sha256 bridge moment (.ok credentials, { bridge with
      session := Option.some {
        cookieHash := hashToken sha256 credentials.cookie
        csrfHash   := hashToken sha256 credentials.csrfToken
        ttl        := ⟨moment.now, bridge.config.sessionTtlSeconds⟩
        started    := moment.instant } })

theorem issueSession_issues (sha256 : Bytes → ByteBlock 32) (bridge : LocalBridge) (moment : Moment) :
    Issues sha256 bridge moment (bridge.issueSession sha256 moment) := by
  unfold issueSession
  match hf : moment.first, hs : moment.second with
  | none, _           => exact .none (by simp [hf])
  | some _, none      => exact .none (by simp [hs])
  | some _, some _    => exact .some hf hs rfl rfl

-- The checks of an exchange before the token is taken.
def Accepts (sha256 : Bytes → ByteBlock 32) (bridge : LocalBridge)
    (origin host token uiVersion : String) : Prop :=
  origin = bridge.config.uiOrigin ∧ host = bridge.config.host ∧
    uiVersion = bridge.config.uiVersion ∧ bridge.bootstrapHash = some (hashToken sha256 token)

theorem exchange_of_accepts (moment : Moment)
    (h : bridge.Accepts sha256 origin host token uiVersion) :
    bridge.exchange sha256 moment origin host token uiVersion =
      { bridge with bootstrapHash := none, bootstrapToken := none : LocalBridge }.issueSession sha256
        moment := by
  have ⟨ho, hh, hv, hb⟩ := h
  unfold exchange
  rw [checkOriginHost_eq_ok.mpr ⟨ho, hh⟩]
  simp only [hv, ne_eq, not_true_eq_false, if_false, hb]
  rw [if_neg]
  simp

theorem exchange_of_not_accepts (moment : Moment)
    (h : ¬bridge.Accepts sha256 origin host token uiVersion) :
    ∃ e, bridge.exchange sha256 moment origin host token uiVersion = (.error e, bridge) := by
  unfold exchange
  split
  case h_1 e _ => exact ⟨e, rfl⟩
  case h_2 hc =>
    have ⟨ho, hh⟩ := checkOriginHost_eq_ok.mp hc
    split_ifs with hv
    case pos => exact ⟨_, rfl⟩
    case neg =>
      split
      case h_1 => exact ⟨_, rfl⟩
      case h_2 expected hb =>
        split_ifs with ht
        case pos => exact ⟨_, rfl⟩
        case neg =>
          refine absurd ⟨ho, hh, not_not.mp hv, hb.trans ?_⟩ h
          rw [Bool.not_eq_true', Bool.not_eq_false, constantTimeEqual_iff] at ht
          exact congrArg some (Subtype.ext ht)

-- A renewal issues a session or changes nothing.
theorem renew_cases (sha256 : Bytes → ByteBlock 32) (bridge : LocalBridge) (moment : Moment)
    (origin host cookie csrfToken uiVersion : String) :
    (∃ e, bridge.renew sha256 moment origin host cookie csrfToken uiVersion = (.error e, bridge)) ∨
    bridge.renew sha256 moment origin host cookie csrfToken uiVersion =
      bridge.issueSession sha256 moment := by
  unfold renew
  split
  case h_1 e _ => exact .inl ⟨e, rfl⟩
  case h_2 =>
    split_ifs
    case pos => exact .inl ⟨_, rfl⟩
    case neg =>
      split
      case h_1 => exact .inl ⟨_, rfl⟩
      case h_2 =>
        split_ifs
        case pos => exact .inl ⟨_, rfl⟩
        case neg => exact .inr rfl

theorem authorize_eq_ok {request : BridgeRequest} {now : UInt64} {instant : Nat}
    (h : bridge.authorize sha256 request now instant = .ok ()) :
    request.origin = bridge.config.uiOrigin ∧ request.host = bridge.config.host ∧
      request.uiVersion = bridge.config.uiVersion ∧
      ∃ session, bridge.session = some session ∧
        session.ttl.isExpired now (elapsedSeconds session.started instant) = false ∧
        session.cookieHash = hashToken sha256 request.cookie ∧
        (isStateChangingMethod request.method →
          session.csrfHash = hashToken sha256 (request.csrfToken.getD "")) := by
  have throws {e : BridgeError} {x : Except BridgeError Unit} :
      (throw e >>= fun _ : Unit => x) ≠ .ok () := nofun
  unfold authorize at h
  obtain ⟨_, hc, h⟩ := Except.bind_eq_ok.mp h
  have ⟨ho, hh⟩ := checkOriginHost_eq_ok.mp hc
  by_cases hv : request.uiVersion = bridge.config.uiVersion
  case neg => exact absurd h (by rw [if_pos hv]; exact throws)
  case pos =>
    rw [if_neg (not_not.mpr hv)] at h
    split at h
    case h_1 => cases h
    case h_2 session hs =>
      simp only at h
      split at h
      case isTrue  => cases h
      case isFalse he =>
        split at h
        case isTrue  => cases h
        case isFalse hm =>
          simp only [Bool.or_eq_true, Bool.not_eq_true', Bool.not_eq_false, not_or, Bool.and_eq_true,
            not_and, constantTimeEqual_iff, Bool.not_eq_true] at he hm
          exact ⟨ho, hh, hv, session, hs, he.left, Subtype.ext he.right, fun h => Subtype.ext (hm h)⟩

end LocalBridge

-- What was issued last, with the clocks at that time.
structure IssuedSession where
  cookie    : String
  csrfToken : String
  issuedAt  : UInt64
  started   : Nat

-- A bridge with its history: the session issued last, whether it was invalidated since, and how
-- often the bootstrap token was exchanged.
structure BridgeTrace where
  bridge      : LocalBridge
  issued      : Option IssuedSession
  invalidated : Bool
  exchanges   : Nat

inductive BridgeOp
  | exchange (moment : Moment) (origin host token uiVersion : String)
  | renew (moment : Moment) (origin host cookie csrfToken uiVersion : String)
  | authorizeApi (request : HttpRequest) (now : UInt64) (instant : Nat)
  | invalidateSession

namespace BridgeOp

-- The texts an operation draws, or presents for a session.
def texts : BridgeOp → List String
  | exchange moment _ _ _ _ | renew moment _ _ _ _ _ =>
    (moment.first.toList ++ moment.second.toList).map (Bytes.toHex ·.val)
  | authorizeApi request _ _                         =>
    (cookieValue ((request.header "cookie").getD "") "ad_session").toList ++
      [(request.header "x-ad-csrf").getD ""]
  | invalidateSession                                => []

end BridgeOp

namespace BridgeTrace

variable {sha256 : Bytes → ByteBlock 32} {t : BridgeTrace} {moment : Moment}
  {config : BridgeConfig} {texts : List String} {request : HttpRequest} {now : UInt64}
  {instant : Nat}

def start (config : BridgeConfig) (sha256 : Bytes → ByteBlock 32) (bootstrap : String) :
    BridgeTrace where
  bridge      := ⟨config, some <| hashToken sha256 bootstrap, some bootstrap, none⟩
  issued      := none
  invalidated := false
  exchanges   := 0

-- The history after a call that may have issued a session.
def after (t : BridgeTrace) (moment : Moment)
    (r : Except BridgeError SessionCredentials × LocalBridge) : BridgeTrace :=
  match r.fst with
  | .error _        => { t with bridge := r.snd }
  | .ok credentials =>
    { t with
      bridge      := r.snd
      issued      := some ⟨credentials.cookie, credentials.csrfToken, moment.now, moment.instant⟩
      invalidated := false }

def step (sha256 : Bytes → ByteBlock 32) (t : BridgeTrace) : BridgeOp → BridgeTrace
  | .exchange moment origin host token uiVersion =>
    let r := t.bridge.exchange sha256 moment origin host token uiVersion
    { t.after moment r with exchanges := t.exchanges + if r.fst.isOk then 1 else 0 }
  | .renew moment origin host cookie csrfToken uiVersion =>
    t.after moment <| t.bridge.renew sha256 moment origin host cookie csrfToken uiVersion
  | .authorizeApi _ _ _ => t
  | .invalidateSession  => { t with bridge := t.bridge.invalidateSession, invalidated := true }

-- What holds of a request that is let in.
structure Authorized (t : BridgeTrace) (request : HttpRequest) (now : UInt64) (instant : Nat)
    (issued : IssuedSession) : Prop where
  host    : request.header "host" = some t.bridge.config.host
  version : request.header "x-ad-ui-version" = some t.bridge.config.uiVersion
  origin  : request.header "origin" = some t.bridge.config.uiOrigin ∨
    request.header "origin" = none ∧ request.method = "GET"
  latest  : t.issued = some issued
  valid   : t.invalidated = false
  cookie  : cookieValue ((request.header "cookie").getD "") "ad_session" = some issued.cookie
  ttl     : instant < issued.started + t.bridge.config.sessionTtlSeconds.toNat * 10 ^ 9
  wallTtl : now.toNat < issued.issuedAt.toNat + t.bridge.config.sessionTtlSeconds.toNat
  csrf    : isStateChangingMethod request.method →
    request.header "x-ad-csrf" = some issued.csrfToken

-- What the bridge promises of one operation.
def Safe (sha256 : Bytes → ByteBlock 32) (t : BridgeTrace) : BridgeOp → Prop
  | .exchange moment origin host token uiVersion =>
    let r := t.bridge.exchange sha256 moment origin host token uiVersion
    (r.fst.isOk → t.exchanges = 0) ∧
      (¬r.fst.isOk → r.snd.bootstrapHash = t.bridge.bootstrapHash ∧
        r.snd.bootstrapToken = t.bridge.bootstrapToken)
  | .authorizeApi request now instant            =>
    authorizeApi sha256 t.bridge request now instant = .ok () →
      ∃ issued, t.Authorized request now instant issued
  | _                                            => True

-- No draw fails in an exchange whose token is right.
def Draws (sha256 : Bytes → ByteBlock 32) (t : BridgeTrace) : BridgeOp → Prop
  | .exchange moment origin host token uiVersion =>
    t.bridge.Accepts sha256 origin host token uiVersion →
      moment.first.isSome ∧ moment.second.isSome
  | _                                            => True

-- The session of the bridge is the one that was issued last.
structure IsSession (sha256 : Bytes → ByteBlock 32) (texts : List String) (t : BridgeTrace)
    (session : SessionState) (issued : IssuedSession) : Prop where
  latest   : t.issued = some issued
  valid    : t.invalidated = false
  same     : session = {
    cookieHash := hashToken sha256 issued.cookie
    csrfHash   := hashToken sha256 issued.csrfToken
    ttl        := ⟨issued.issuedAt, t.bridge.config.sessionTtlSeconds⟩
    started    := issued.started }
  cookie   : issued.cookie ∈ texts
  csrf     : issued.csrfToken ∈ texts
  nonempty : issued.csrfToken ≠ ""

structure IsHistory (sha256 : Bytes → ByteBlock 32) (texts : List String) (t : BridgeTrace) :
    Prop where
  exchanged : t.bridge.bootstrapHash.isSome → t.exchanges = 0
  session   : ∀ session, t.bridge.session = some session →
    ∃ issued, t.IsSession sha256 texts session issued

theorem isHistory_start (bootstrap : String) :
    (start config sha256 bootstrap).IsHistory sha256 texts where
  exchanged _ := rfl
  session     := nofun

-- A session that is issued from a bridge with the same session is the last one.
theorem session_after (bridge : LocalBridge)
    {r : Except BridgeError SessionCredentials × LocalBridge}
    (h : ∀ session, bridge.session = some session → ∃ issued, t.IsSession sha256 texts session issued)
    (hc : bridge.config = t.bridge.config) (hr : bridge.Issues sha256 moment r)
    (ht : ∀ bytes ∈ moment.first.toList ++ moment.second.toList, Bytes.toHex bytes.val ∈ texts) :
    (∀ session, (t.after moment r).bridge.session = some session →
        ∃ issued, (t.after moment r).IsSession sha256 texts session issued) ∧
      (t.after moment r).exchanges = t.exchanges ∧
      (t.after moment r).bridge.bootstrapHash = bridge.bootstrapHash := by
  cases hr
  case none =>
    refine ⟨fun session hs => ?_, rfl, rfl⟩
    have ⟨issued, hi⟩ := h session hs
    exact ⟨issued, hi.latest, hi.valid, hc ▸ hi.same, hi.cookie, hi.csrf, hi.nonempty⟩
  case some cookie csrfToken credentials hf hs hcookie hcsrf =>
    refine ⟨fun session hsession => ?_, rfl, rfl⟩
    cases hsession
    exact ⟨⟨credentials.cookie, credentials.csrfToken, moment.now, moment.instant⟩, rfl, rfl, rfl,
      hcookie ▸ ht cookie (by simp [hf]), hcsrf ▸ ht csrfToken (by simp [hs]),
      hcsrf ▸ toHex_ne_empty csrfToken⟩

-- A call that changed nothing.
theorem after_error (e : BridgeError) : t.after moment (.error e, t.bridge) = t :=
  rfl

theorem IsHistory.step {op : BridgeOp} (h : t.IsHistory sha256 texts)
    (ht : ∀ text ∈ op.texts, text ∈ texts) : (t.step sha256 op).IsHistory sha256 texts := by
  have hdraws {moment : Moment}
      (hm : ∀ text ∈ (moment.first.toList ++ moment.second.toList).map (Bytes.toHex ·.val),
        text ∈ texts) :
      ∀ bytes ∈ moment.first.toList ++ moment.second.toList, Bytes.toHex bytes.val ∈ texts :=
    fun bytes hb => hm _ <| List.mem_map_of_mem hb
  cases op
  case authorizeApi      => exact h
  case invalidateSession => exact ⟨h.exchanged, nofun⟩
  case renew moment origin host cookie csrfToken uiVersion =>
    rcases t.bridge.renew_cases sha256 moment origin host cookie csrfToken uiVersion with ⟨e, he⟩ | he
    case inl =>
      simp only [BridgeTrace.step, he, after_error]
      exact h
    case inr =>
      simp only [BridgeTrace.step, he]
      have ⟨hs, hn, hb⟩ := session_after t.bridge h.session rfl
        (t.bridge.issueSession_issues sha256 moment) (hdraws ht)
      exact ⟨fun hi => hn.trans <| h.exchanged (hb ▸ hi), hs⟩
  case exchange moment origin host token uiVersion =>
    by_cases ha : t.bridge.Accepts sha256 origin host token uiVersion
    case neg =>
      have ⟨e, he⟩ := t.bridge.exchange_of_not_accepts moment ha
      simp only [BridgeTrace.step, he, after_error]
      exact h
    case pos =>
      have ⟨hs, _, hb⟩ := session_after { t.bridge with bootstrapHash := none, bootstrapToken := none }
        h.session rfl (LocalBridge.issueSession_issues sha256 _ moment) (hdraws ht)
      simp only [BridgeTrace.step, t.bridge.exchange_of_accepts moment ha]
      exact ⟨fun hi => absurd hi (by rw [hb]; exact Bool.noConfusion), fun session hsession =>
        have ⟨issued, hi⟩ := hs session hsession
        ⟨issued, hi.latest, hi.valid, hi.same, hi.cookie, hi.csrf, hi.nonempty⟩⟩

theorem getD_eq_iff {value : Option String} {s : String} (hs : s ≠ "") :
    value.getD "" = s ↔ value = some s := by
  cases value
  case none   => simp [hs.symm]
  case some v => simp

theorem not_isExpired {ttl : TtlContract} {started : Nat}
    (h : ttl.isExpired now (elapsedSeconds started instant) = false) :
    instant < started + ttl.ttlSeconds.toNat * 10 ^ 9 ∧
      now.toNat < ttl.issuedAt.toNat + ttl.ttlSeconds.toNat := by
  simp only [TtlContract.isExpired, elapsedSeconds, Bool.or_eq_false_iff, decide_eq_false_iff_not,
    ge_iff_le, Nat.not_le, UInt64.not_le, UInt64.lt_iff_toNat_lt, TtlContract.expiresAt,
    UInt64.toNat_saturatingAdd] at h
  have hm := (Nat.div_lt_iff_lt_mul (by decide)).mp h.left
  omega

-- What is let in comes from the session that was issued last.
theorem IsHistory.authorized (h : t.IsHistory sha256 texts)
    (collisionFree : ∀ text₁ ∈ texts, ∀ text₂ ∈ texts,
      hashToken sha256 text₁ = hashToken sha256 text₂ → text₁ = text₂)
    (ht : ∀ text ∈ (BridgeOp.authorizeApi request now instant).texts, text ∈ texts)
    (ha : authorizeApi sha256 t.bridge request now instant = .ok ()) :
    ∃ issued, t.Authorized request now instant issued := by
  unfold authorizeApi at ha
  split at ha
  case h_1 => cases ha
  case h_2 cookie hcookie =>
    simp only at ha
    split at ha
    case h_1 => cases ha
    case h_2 hauthorize =>
      have ⟨ho, hh, hv, session, hs, he, hch, hx⟩ := LocalBridge.authorize_eq_ok hauthorize
      have ⟨issued, hi⟩ := h.session session hs
      rw [hi.same] at he hch hx
      have ⟨hmono, hwall⟩ := not_isExpired he
      have heq : issued.cookie = cookie := collisionFree _ hi.cookie _ (ht _ <| by
        simp [BridgeOp.texts, hcookie]) hch
      refine ⟨issued, (getD_eq_iff t.bridge.config.host_ne_empty).mp hh,
        (getD_eq_iff t.bridge.config.uiVersion_ne_empty).mp hv, ?_, hi.latest, hi.valid,
        heq ▸ hcookie, hmono, hwall, fun hm => ?_⟩
      case refine_1 =>
        split at ho
        case h_1 origin hsome => exact .inl (hsome.trans <| congrArg some ho)
        case h_2 hnone =>
          refine .inr ⟨hnone, ?_⟩
          by_contra hm
          rw [if_neg hm] at ho
          exact t.bridge.config.uiOrigin_ne_empty ho.symm
      case refine_2 =>
        have hc : issued.csrfToken = (request.header "x-ad-csrf").getD "" :=
          collisionFree _ hi.csrf _ (ht _ <| by simp [BridgeOp.texts]) (hx hm)
        exact (getD_eq_iff hi.nonempty).mp hc.symm

theorem IsHistory.safe_iff {op : BridgeOp} (h : t.IsHistory sha256 texts)
    (collisionFree : ∀ text₁ ∈ texts, ∀ text₂ ∈ texts,
      hashToken sha256 text₁ = hashToken sha256 text₂ → text₁ = text₂)
    (ht : ∀ text ∈ op.texts, text ∈ texts) : t.Safe sha256 op ↔ t.Draws sha256 op := by
  cases op
  case renew | invalidateSession => exact Iff.rfl
  case authorizeApi              => exact iff_of_true (h.authorized collisionFree ht) trivial
  case exchange moment origin host token uiVersion =>
    by_cases ha : t.bridge.Accepts sha256 origin host token uiVersion
    case neg =>
      have ⟨e, he⟩ := t.bridge.exchange_of_not_accepts moment ha
      refine iff_of_true ?_ fun h => absurd h ha
      simp only [Safe, he, and_self, implies_true, and_true]
      exact nofun
    case pos =>
      have hb := ha.right.right.right
      have hz := h.exchanged (by rw [hb]; rfl)
      simp only [Safe, Draws, ha, t.bridge.exchange_of_accepts moment ha, true_implies, hz, implies_true,
        true_and]
      have hissue := LocalBridge.issueSession_issues sha256
        { t.bridge with bootstrapHash := none, bootstrapToken := none } moment
      generalize LocalBridge.issueSession _ _ _ = r at hissue ⊢
      cases hissue
      case none hd =>
        refine iff_of_false (fun hs => ?_) hd
        have ⟨hn, _⟩ := hs nofun
        rw [hb] at hn
        cases hn
      case some hf hs _ _ =>
        exact iff_of_true (fun hn => absurd rfl hn) ⟨by rw [hf]; rfl, by rw [hs]; rfl⟩

-- Over every sequence of calls: everything but the draws of an exchange keeps the promises, and
-- they are kept exactly when those draws succeed.
theorem safe_iff_draws (bootstrap : String) (ops : List BridgeOp)
    (collisionFree : ∀ text₁ ∈ ops.flatMap BridgeOp.texts, ∀ text₂ ∈ ops.flatMap BridgeOp.texts,
      hashToken sha256 text₁ = hashToken sha256 text₂ → text₁ = text₂) :
    Run.Meets (step sha256) (Safe sha256) (start config sha256 bootstrap) ops ↔
      Run.Meets (step sha256) (Draws sha256) (start config sha256 bootstrap) ops :=
  Run.Meets.congr (fun _ _ h ht => h.step ht) (fun _ _ h ht => h.safe_iff collisionFree ht)
    (isHistory_start bootstrap) fun op ho _ ht => List.mem_flatMap.mpr ⟨op, ho, ht⟩

theorem one_le_defaultSessionTtlSeconds : 1 ≤ defaultSessionTtlSeconds := by
  decide

def sampleConfig : BridgeConfig where
  bindHost          := .v4 0 0 1
  port              := 1420
  uiOrigin          := "http://127.0.0.1:1420"
  uiVersion         := "web-v1"
  sessionTtlSeconds := defaultSessionTtlSeconds
  isOrigin          := by decide
  isVersion         := by decide
  isPositive        := one_le_defaultSessionTtlSeconds

def sampleToken (byte : UInt8) : String :=
  Bytes.toHex (.replicate 32 byte)

-- The SHA-256 digests of a cookie, a CSRF token, a bootstrap token and the empty text.
def sampleSha256 (bytes : Bytes) : ByteBlock 32 :=
  if bytes = Bytes.utf8 (sampleToken 1) then
    ⟨[88, 186, 221, 155, 69, 81, 69, 180, 135, 173, 36, 199, 242, 89, 204, 67,
      124, 196, 255, 208, 120, 71, 22, 132, 82, 73, 50, 31, 181, 150, 28, 252], rfl⟩
  else if bytes = Bytes.utf8 (sampleToken 2) then
    ⟨[116, 159, 26, 151, 255, 108, 208, 14, 164, 108, 203, 58, 71, 187, 18, 50,
      131, 254, 86, 200, 250, 50, 75, 234, 41, 93, 146, 143, 85, 129, 97, 223], rfl⟩
  else if bytes = Bytes.utf8 (sampleToken 3) then
    ⟨[131, 165, 56, 223, 7, 4, 111, 68, 48, 48, 63, 175, 9, 233, 198, 147,
      51, 6, 181, 231, 244, 21, 123, 92, 12, 220, 53, 209, 111, 15, 144, 51], rfl⟩
  else
    ⟨[227, 176, 196, 66, 152, 252, 28, 20, 154, 251, 244, 200, 153, 111, 185, 36,
      39, 174, 65, 228, 100, 155, 147, 76, 164, 149, 153, 27, 120, 82, 184, 85], rfl⟩

def sampleStart : BridgeTrace := start sampleConfig sampleSha256 (sampleToken 3)

def sampleMoment (first : Option (ByteBlock 32)) : Moment :=
  ⟨100, 5, first, some (.fill 32 2)⟩

def sampleExchange (first : Option (ByteBlock 32)) : BridgeOp :=
  .exchange (sampleMoment first) "http://127.0.0.1:1420" "127.0.0.1:1420" (sampleToken 3) "web-v1"

theorem sampleStart_accepts : sampleStart.bridge.Accepts sampleSha256 "http://127.0.0.1:1420"
    "127.0.0.1:1420" (sampleToken 3) "web-v1" :=
  ⟨rfl, by decide, rfl, rfl⟩

-- The draw for the cookie fails, and the token that was right is gone.
theorem failedDraw_not_safe :
    ¬sampleStart.Safe sampleSha256 (sampleExchange none) ∧
      (sampleStart.step sampleSha256 (sampleExchange none)).bridge.bootstrapHash = none := by
  have he := sampleStart.bridge.exchange_of_accepts (sampleMoment none) sampleStart_accepts
  constructor
  case left =>
    intro h
    simp only [Safe, sampleExchange, he] at h
    exact absurd (h.right nofun).left nofun
  case right =>
    simp only [step, sampleExchange, he]
    rfl

def sampleRequest : HttpRequest where
  method  := "GET"
  headers := [("Host", "127.0.0.1:1420"), ("Cookie", "theme=dark; ad_session=" ++ sampleToken 1),
    ("X-AD-UI-Version", "web-v1")]

def sampleOps : List BridgeOp :=
  [sampleExchange (some (.fill 32 1)), .authorizeApi sampleRequest 101 6,
    .invalidateSession]

theorem sampleOps_safe :
    Run.Meets (step sampleSha256) (Safe sampleSha256) (start sampleConfig sampleSha256 (sampleToken 3))
        sampleOps ↔
      Run.Meets (step sampleSha256) (Draws sampleSha256)
        (start sampleConfig sampleSha256 (sampleToken 3)) sampleOps :=
  safe_iff_draws (sampleToken 3) sampleOps (by decide)

end BridgeTrace
