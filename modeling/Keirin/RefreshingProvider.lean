import Keirin.SecretStore

/-!
# The refreshing credential provider

A provider hands out snapshots of an access credential. It keeps the last grant and refreshes it at a host source where it no
longer lasts long enough; the source is called outside the lock, so a revocation can come in between. Any number of threads call
`snapshot` and `revoke`; what the source answers and what the two clocks show is up to the environment, but for the monotonic
clock, which does not go back.
-/

namespace Keirin

/-! ## Times -/

/-- The monotonic clock: `max(0, int(now - start))` for two of its readings, which grows with the time. -/
structure Stopwatch (M : Type) [Preorder M] where
  seconds : M → M → Nat
  mono : ∀ start, Monotone fun now => seconds now start

/-- A time to count from: seconds since the epoch and the reading they were taken at. -/
abbrev TimeAnchor (M : Type) := Int × M

/-! ## Snapshots -/

structure CredentialSnapshot where
  providerId : String
  accountLabel : Option String
  capabilities : List String
  accessToken : String
  issuedAt : Int
  expiresAt : Int
  refreshCapable : Bool
  createdAt : Int
deriving DecidableEq

/-- `_validate_times` -/
def validateTimes (issuedAt expiresAt : Int) : Except SecretError Unit := do
  checkSeconds issuedAt "credential_issue_time_invalid"
  checkSeconds expiresAt "credential_expiry_invalid"
  raiseIf (expiresAt ≤ issuedAt) (.valueError "credential_expiry_must_follow_issue_time")

/-- `CredentialSnapshot(…)` -/
def CredentialSnapshot.ofFields (providerId accountLabel : String) (capabilities : List String) (accessToken : String)
    (issuedAt expiresAt createdAt : Int) : Except SecretError CredentialSnapshot := do
  raiseIf (isBlank providerId = true) (.valueError "provider_id_required")
  let normalized ← capabilitiesOf (.arr (capabilities.map .str))
  raiseIf (isBlank accessToken = true) (.valueError "non_empty_runtime_secrets_required")
  validateTimes issuedAt expiresAt
  checkSeconds createdAt "credential_snapshot_time_invalid"
  return { providerId := strip providerId
           accountLabel := if isBlank accountLabel then none else some (strip accountLabel)
           capabilities := normalized
           accessToken := accessToken
           issuedAt := issuedAt
           expiresAt := expiresAt
           refreshCapable := true
           createdAt := createdAt }

/-! ## The provider -/

inductive ProviderState
  | unconfigured
  | refreshRequired
  | refreshing
  | ready
  | readyRotated
  | blockedAuth
  | revoked
deriving DecidableEq

/-- The grant a provider keeps; its identity is that of the binding. -/
structure HeldGrant where
  accessToken : String
  issuedAt : Int
  expiresAt : Int
deriving DecidableEq

structure Provider (M : Type) where
  busy : Bool
  state : ProviderState
  grant : Option HeldGrant
  generation : Nat
  timeAnchor : Option (TimeAnchor M)

/-- What `snapshot` raises. -/
inductive ProviderError
  | secret (e : SecretError)
  | scope (message : String)
deriving DecidableEq

/-- How the part of a call that asks the source and the clocks failed. -/
inductive IoFailure
  | revoked
  | failed (interrupted : Option Bool)
deriving DecidableEq

/-- An exception of the source or of the clock. -/
inductive HostException
  | revoked
  | interrupt (keyboard : Bool)
  | other
deriving DecidableEq

def HostException.toFailure : HostException → IoFailure
  | revoked => .revoked
  | interrupt keyboard => .failed (some keyboard)
  | other => .failed none

/-- What a call has found out when it takes the lock again. -/
structure Issue (M : Type) where
  grant : HeldGrant
  now : Int
  anchor : TimeAnchor M
  refreshed : Bool

/-- The grant as the source would have given it. -/
def HeldGrant.toGrant (self : CredentialBinding) (g : HeldGrant) : AccessCredentialGrant :=
  { providerId := .str self.providerId, accountId := .str self.accountId, capabilities := .arr (self.capabilities.map .str)
    accessToken := .str g.accessToken, issuedAt := .num (.int g.issuedAt), expiresAt := .num (.int g.expiresAt) }

/-- `_validate_grant`, and the copy of the fields it checked; `none` stands for a grant of another type. -/
def validateGrant (self : CredentialBinding) (grant : Option AccessCredentialGrant) (now minimum : Int) :
    Except SecretError HeldGrant := do
  let some grant := grant | throw (.valueError "invalid_access_grant")
  raiseIf (grant.providerId ≠ .str self.providerId ∨ grant.accountId ≠ .str self.accountId)
    (.valueError "credential_identity_mismatch")
  let capabilities ← capabilitiesOf grant.capabilities
  raiseIf (capabilities ≠ self.capabilities) (.valueError "credential_scope_changed")
  let .str accessToken := grant.accessToken | throw (.valueError "invalid_access_token")
  raiseIf (isBlank accessToken = true) (.valueError "invalid_access_token")
  let issuedAt ← secondsOf "invalid_issue_time" grant.issuedAt
  let expiresAt ← secondsOf "invalid_expiry" grant.expiresAt
  validateTimes issuedAt expiresAt
  raiseIf (now < issuedAt ∨ expiresAt ≤ now ∨ expiresAt - now < minimum) (.valueError "invalid_access_lifetime")
  return { accessToken := accessToken, issuedAt := issuedAt, expiresAt := expiresAt }

namespace Provider

variable {M : Type}

/-- `_assert_issuance_allowed` -/
def assertIssuanceAllowed (p : Provider M) : Except ProviderError Unit :=
  if p.state = .revoked then .error (.secret (.credentialRevoked "credential_provider_revoked"))
  else if p.state = .unconfigured ∨ p.state = .blockedAuth then .error (.secret (.authBlocked "credential_auth_unavailable"))
  else if p.busy = true then .error (.secret (.refreshInProgress "credential_refresh_in_progress"))
  else .ok ()

/-- The provider when a call is over. -/
def settled (p : Provider M) (outcome : Except IoFailure (Issue M)) : Provider M :=
  if p.state = .revoked then { p with busy := false, grant := none }
  else match outcome with
    | .error .revoked => { p with busy := false, state := .revoked, grant := none }
    | .error (.failed _) => { p with busy := false, state := .blockedAuth, grant := none }
    | .ok issue =>
      let generation := if issue.refreshed then p.generation + 1 else p.generation
      { busy := false
        state := if 1 < generation then .readyRotated else .ready
        grant := some issue.grant
        generation := generation
        timeAnchor := some issue.anchor }

/-- What a call returns or raises when it is over. -/
def answer (self : CredentialBinding) (p : Provider M) (outcome : Except IoFailure (Issue M)) : Except ProviderError CredentialSnapshot :=
  if p.state = .revoked then .error (.secret (.credentialRevoked "credential_source_revoked"))
  else match outcome with
    | .error .revoked => .error (.secret (.credentialRevoked "credential_source_revoked"))
    | .error (.failed (some keyboard)) => .error (.secret (.interrupted keyboard "credential_refresh_interrupted"))
    | .error (.failed none) => .error (.secret (.authBlocked "credential_refresh_failed"))
    | .ok issue =>
      (CredentialSnapshot.ofFields self.providerId self.accountId self.capabilities issue.grant.accessToken issue.grant.issuedAt
        issue.grant.expiresAt issue.now).mapError .secret

end Provider

/-! ## Commands -/

/-- What an answer of the source or of the clock is: a value, or an exception. -/
inductive HostReply (α : Type)
  | value (a : α)
  | raised (e : HostException)

/-- What a call does with the provider, the clocks and the source; the `minimum` of `release` is kept for the log. -/
inductive ProviderCmd (M : Type)
  | acquire
  | timeAnchor
  | monotonic
  | clock
  | assertAvailable
  | beginRefresh
  | callSource
  | sourceReply
  | release (minimum : Int) (outcome : Except IoFailure (Issue M))
  | revoke

/-- The reply to a command; `assertAvailable` says whether the value was `None`. -/
def ProviderCmd.Reply {M : Type} : ProviderCmd M → Type
  | acquire => Except ProviderError (Option HeldGrant)
  | timeAnchor => Option (TimeAnchor M)
  | monotonic => M
  | clock => HostReply Doc
  | assertAvailable => HostReply Bool
  | beginRefresh => Except IoFailure Unit
  | callSource => Unit
  | sourceReply => HostReply (Option AccessCredentialGrant)
  | release .. => Except ProviderError CredentialSnapshot
  | revoke => Unit

abbrev ProviderProg (M : Type) := Prog (ProviderCmd M) ProviderCmd.Reply ProviderError

/-- The part of a call outside the lock, all exceptions of which are handled. -/
abbrev IoProg (M α : Type) := ProviderProg M (Except IoFailure α)

/-! ## A call -/

namespace RefreshingCredentialProvider

variable {M : Type}

/-- Go on unless an exception was raised. -/
def proceed {α β : Type} (f : α → IoProg M β) : Except IoFailure α → IoProg M β
  | .ok a => f a
  | .error e => .ret (.error e)

def andThen {α β : Type} (p : IoProg M α) (f : α → IoProg M β) : IoProg M β := Prog.bind p (proceed f)

/-- Any exception but an interrupt and that of a revocation. -/
def orFail {ε α : Type} (x : Except ε α) : IoProg M α := .ret (x.mapError fun _ => .failed none)

def monotonic : IoProg M M := .cmd .monotonic fun m => .ret (.ok m)

/-- `_seconds(self._clock(), 'invalid_clock')` -/
def clock : IoProg M Int :=
  .cmd .clock fun
    | .value v => orFail (secondsOf "invalid_clock" v)
    | .raised e => .ret (.error e.toFailure)

/-- The check of `source.assert_available()`. -/
def assertAvailable : IoProg M Unit :=
  .cmd .assertAvailable fun
    | .value isNone => .ret (if isNone then .ok () else .error (.failed none))
    | .raised e => .ret (.error e.toFailure)

def timeAnchor : IoProg M (Option (TimeAnchor M)) := .cmd .timeAnchor fun anchor => .ret (.ok anchor)

/-- A refresh at the source. -/
def refresh : IoProg M (Option AccessCredentialGrant) :=
  .cmd .beginRefresh fun
    | .error e => .ret (.error e)
    | .ok () => .cmd .callSource fun _ => .cmd .sourceReply fun
      | .value grant => .ret (.ok grant)
      | .raised e => .ret (.error e.toFailure)

section Call

variable [Preorder M] (sw : Stopwatch M) (self : CredentialBinding) (minimum : Int) (nowEpoch : Option Int)

/-- `current_time`, with the anchor it leaves. -/
def currentTime (startEpoch : Int) (startMonotonic : M) (anchor : TimeAnchor M) : IoProg M (Int × TimeAnchor M) :=
  andThen monotonic fun monotonicNow =>
    let floor := anchor.1 + sw.seconds monotonicNow anchor.2
    andThen (if nowEpoch = none then clock else .ret (.ok (startEpoch + sw.seconds monotonicNow startMonotonic))) fun wall =>
      .ret (.ok (if floor < wall then (wall, wall, monotonicNow) else (floor, anchor)))

/-- `now = max(now, current_time())` -/
def laterTime (startEpoch : Int) (startMonotonic : M) (now : Int) (anchor : TimeAnchor M) : IoProg M (Int × TimeAnchor M) :=
  andThen (currentTime sw nowEpoch startEpoch startMonotonic anchor) fun t => .ret (.ok (max now t.1, t.2))

/-- Whether the grant that is kept does not last. -/
def refreshNeeded (cached : Option HeldGrant) (now : Int) : Bool :=
  match cached with
  | none => true
  | some g => g.expiresAt ≤ now || g.expiresAt - now < minimum

/-- The grant to issue, and whether it is a new one. -/
def grantToIssue (cached : Option HeldGrant) (now : Int) : IoProg M (Option AccessCredentialGrant × Bool) :=
  if refreshNeeded minimum cached now then andThen refresh fun grant => .ret (.ok (grant, true))
  else .ret (.ok (cached.map (HeldGrant.toGrant self), false))

/-- What a call does outside the lock. -/
def issue (cached : Option HeldGrant) : IoProg M (Issue M) :=
  andThen monotonic fun startMonotonic =>
  andThen (match nowEpoch with
    | none => clock
    | some n => .ret (.ok n)) fun startEpoch =>
  andThen timeAnchor fun stored =>
  andThen (currentTime sw nowEpoch startEpoch startMonotonic (stored.getD (startEpoch, startMonotonic))) fun t =>
  andThen assertAvailable fun _ =>
  andThen (laterTime sw nowEpoch startEpoch startMonotonic t.1 t.2) fun t =>
  andThen (grantToIssue self minimum cached t.1) fun result =>
  andThen assertAvailable fun _ =>
  andThen (laterTime sw nowEpoch startEpoch startMonotonic t.1 t.2) fun t =>
  andThen (orFail (validateGrant self result.1 t.1 minimum)) fun grant =>
    .ret (.ok { grant := grant, now := t.1, anchor := t.2, refreshed := result.2 })

end Call

/-- Go on with a value, or raise the error. -/
def unwrap {ε α : Type} (f : ε → ProviderError) : Except ε α → ProviderProg M α
  | .ok a => .ret a
  | .error e => .raise (f e)

/-- `_seconds` of an optional argument. -/
def optionalSeconds (error : String) : Option Doc → Except SecretError (Option Int)
  | none => .ok none
  | some v => (secondsOf error v).map some

/-- `snapshot` -/
def snapshot [Preorder M] (sw : Stopwatch M) (self : CredentialBinding) (requiredCapabilities minimumTtlSeconds requireKnownExpiry : Doc)
    (nowEpoch : Option Doc) : ProviderProg M CredentialSnapshot := do
  let required ← unwrap .secret (capabilitiesOf requiredCapabilities)
  let minimum ← unwrap .secret (secondsOf "invalid_minimum_ttl" minimumTtlSeconds)
  unwrap .secret (raiseIf (requireKnownExpiry ≠ .bool true ∧ requireKnownExpiry ≠ .bool false)
    (.valueError "require_known_expiry_must_be_boolean"))
  let nowEpoch ← unwrap .secret (optionalSeconds "invalid_now_epoch" nowEpoch)
  unwrap id (raiseIf (∃ c ∈ required, c ∉ self.capabilities) (.scope "credential_capability_mismatch"))
  let cached ← .cmd .acquire (unwrap id)
  let outcome ← issue sw self minimum nowEpoch cached
  .cmd (.release minimum outcome) (unwrap id)

/-- `revoke` -/
def revoke : ProviderProg M Unit := .cmd .revoke .ret

end RefreshingCredentialProvider

/-! ## Threads -/

/-- What the log keeps: a snapshot that was returned, with the lifetime its call asked for; a call that failed outside the lock;
a revocation. -/
inductive ProviderItem
  | returned (minimum : Int) (snapshot : CredentialSnapshot)
  | failed
  | revoked
deriving DecidableEq

/-- The provider, the last reading of the monotonic clock, the threads between the two sections of a call, those that wait for
`source.refresh_access`, and the log. -/
structure ProviderWorld (T M : Type) where
  provider : Provider M
  mono : M
  inFlight : List T
  inSource : List T
  log : List ProviderItem

/-- How a command is resolved. -/
inductive ProviderChoice (M : Type)
  | ok
  | reading (m : M)
  | clock (r : HostReply Doc)
  | available (r : HostReply Bool)
  | grant (r : HostReply (Option AccessCredentialGrant))

/-- The entry of a call that is over. -/
def ProviderItem.ofCall {M : Type} (minimum : Int) (outcome : Except IoFailure (Issue M)) :
    Except ProviderError CredentialSnapshot → List ProviderItem
  | .ok snapshot => [.returned minimum snapshot]
  | .error _ =>
    match outcome with
    | .error _ => [.failed]
    | .ok _ => []

namespace ProviderWorld

variable {T M : Type}

/-- A provider with a source or without one. -/
def initial (configured : Bool) (start : M) : ProviderWorld T M :=
  { provider := { busy := false, state := if configured then .refreshRequired else .unconfigured, grant := none, generation := 0
                  timeAnchor := none }
    mono := start, inFlight := [], inSource := [], log := [] }

variable [LinearOrder M] [DecidableEq T]

/-- What a command of thread `t` does. -/
def machine (self : CredentialBinding) (t : T) : Machine (ProviderWorld T M) (ProviderCmd M) ProviderCmd.Reply (ProviderChoice M)
  | w, .acquire, .ok =>
    match w.provider.assertIssuanceAllowed with
    | .error e => some (.error e, w)
    | .ok () =>
      some (.ok w.provider.grant, { w with provider := { w.provider with busy := true }, inFlight := t :: w.inFlight })
  | w, .timeAnchor, .ok => some (w.provider.timeAnchor, w)
  | w, .monotonic, .reading m => if w.mono ≤ m then some (m, { w with mono := m }) else none
  | w, .clock, .clock r => some (r, w)
  | w, .assertAvailable, .available r => some (r, w)
  | w, .beginRefresh, .ok =>
    if w.provider.state = .revoked then some (.error .revoked, w)
    else some (.ok (), { w with provider := { w.provider with state := .refreshing, grant := none } })
  | w, .callSource, .ok => some ((), { w with inSource := t :: w.inSource })
  | w, .sourceReply, .grant r => some (r, { w with inSource := w.inSource.erase t })
  | w, .release minimum outcome, .ok =>
    some (w.provider.answer self outcome,
      { w with
        provider := w.provider.settled outcome
        inFlight := w.inFlight.erase t
        log := w.log ++ ProviderItem.ofCall minimum outcome (w.provider.answer self outcome) })
  | w, .revoke, .ok =>
    some ((), { w with provider := { w.provider with state := .revoked, grant := none }, log := w.log ++ [.revoked] })
  | _, _, _ => none

end ProviderWorld

/-- A call of a thread. -/
inductive ProviderCall
  | snapshot (requiredCapabilities minimumTtlSeconds requireKnownExpiry : Doc) (nowEpoch : Option Doc)
  | revoke

/-- The threads of one provider; of what the calls return, the snapshots are kept. -/
def providers {M : Type} [LinearOrder M] (T : Type) [DecidableEq T] (sw : Stopwatch M) (self : CredentialBinding) :
    Team T ProviderCall (ProviderWorld T M) (ProviderCmd M) ProviderCmd.Reply (ProviderChoice M) ProviderError
      (Option CredentialSnapshot) where
  machine := ProviderWorld.machine self
  body
    | _, .snapshot required minimum known nowEpoch =>
      RefreshingCredentialProvider.snapshot sw self required minimum known nowEpoch >>= fun s => .ret (some s)
    | _, .revoke => RefreshingCredentialProvider.revoke >>= fun _ => .ret none

end Keirin
