import OpenUI.Agent.Esim.Card
import OpenUI.Concurrency.Machine
import OpenUI.Euicc.Coding

/-!
# `OpenUI.Agent.Auth`: logins and sessions

`agent/src/auth.rs` and the login handler of `agent/src/handlers.rs`. `AuthState` keeps the hashes
of the password and the PIN, the sessions and the failed logins of each address, each behind a mutex
of its own. A critical section is an action here: between two of them other requests take their
turns.

The two clocks differ. Lock-outs are computed from `epochSecs`, the wall clock, which may show
anything whenever it is read. Sessions are computed from the monotonic clock.

`World.log` records what was done, the latest first. No action depends on it.
-/

set_option autoImplicit false

namespace OpenUI.Agent.Auth

open OpenUI.Text OpenUI.Json OpenUI.Euicc OpenUI.Concurrency
open OpenUI.Agent.Esim (Platform hex)

/-! ### The state -/

/-- `TOKEN_TTL`, in milliseconds. -/
def tokenTtl : Nat := 3600000

/-- `MAX_TOKENS`. -/
def maxTokens : Nat := 10

/-- `HASH_ITERATIONS`. -/
def hashIterations : Nat := 10000

/-- `MAX_LOGIN_ATTEMPTS`. -/
def maxLoginAttempts : UInt32 := 5

/-- `LOGIN_LOCKOUT_SECS`. -/
def loginLockoutSecs : Nat := 30

/-- `LOGIN_ATTEMPT_TTL_SECS`. -/
def loginAttemptTtlSecs : Nat := 3600

/-- `CredentialKind`. -/
inductive CredentialKind where
  | password
  | pin
  deriving DecidableEq, Repr

/-- `Token`. `expires` is a reading of the monotonic clock. -/
structure Token where
  value : String
  expires : Nat
  kind : CredentialKind
  deriving DecidableEq, Repr

/-- `LoginAttempt`. The times are readings of the wall clock. -/
structure LoginAttempt where
  count : UInt32
  lockedUntil : Nat
  lastAttempt : Nat
  deriving DecidableEq, Repr

/-- An entry with one failure more. -/
def LoginAttempt.failed (now : Nat) (a : LoginAttempt) : LoginAttempt :=
  let count := a.count + 1
  { count, lastAttempt := now
    lockedUntil := if maxLoginAttempts ≤ count then now + loginLockoutSecs else a.lockedUntil }

/-- `AuthState`. `failedLogins` is the hash map, by address. -/
structure AuthState where
  passwordHash : Option String := none
  pinHash : Option String := none
  salt : Bytes
  tokens : List Token := []
  failedLogins : String → Option LoginAttempt := fun _ => none

section Hashing

variable (P : Platform)

/-- `iterated_hash`. -/
@[irreducible] def iteratedHash (salt : Bytes) (password : String) : String :=
  hex (Nat.iterate (fun digest => P.sha256 (salt ++ digest)) (hashIterations - 1)
    (P.sha256 (salt ++ utf8 password)))

/-- `u64::to_le_bytes`. -/
def toLeBytes (n : Nat) : Bytes := (List.range 8).map fun i => UInt8.ofNat (n >>> (8 * i))

/-- The token of a new session. -/
def tokenOf (random : Bytes) (hash : String) (now : Nat) : String :=
  hex ((P.sha256 (random ++ utf8 hash ++ toLeBytes now)).take 16)

/-- `validate_pin`. -/
def validatePin (pin : String) : Except String Unit :=
  if (utf8 pin).length ≠ 6 ∨ ¬((utf8 pin).all fun b => 0x30 ≤ b && b ≤ 0x39) then
    .error "PIN must be exactly 6 digits"
  else .ok ()

/-- `set_password`. -/
def AuthState.setPassword (password : String) (s : AuthState) : AuthState :=
  { s with passwordHash := some (iteratedHash P s.salt password) }

/-- `set_pin`. -/
def AuthState.setPin (pin : String) (s : AuthState) : Except String AuthState := do
  validatePin pin
  return { s with pinHash := some (iteratedHash P s.salt pin) }

/-- The state `main` serves requests with. A PIN it cannot use is left out. -/
def AuthState.started (salt : Bytes) (password pin : Option String) : AuthState :=
  let s : AuthState := { salt }
  let s := password.elim s fun password => s.setPassword P password
  pin.elim s fun pin => (s.setPin P pin).toOption.getD s

end Hashing

/-- The stored hash that a credential is compared with. -/
def AuthState.stored (s : AuthState) : CredentialKind → Option String
  | .password => s.passwordHash
  | .pin => s.pinHash

/-! ### The critical sections -/

namespace AuthState

/-- How many failures are counted for an address. -/
def failures (s : AuthState) (ip : String) : Nat := (s.failedLogins ip).elim 0 (·.count.toNat)

/-- Removes the entries of these addresses. -/
def removeFailed (gone : String → Bool) (s : AuthState) : AuthState :=
  { s with failedLogins := fun ip => if gone ip then none else s.failedLogins ip }

/-- The first section of `login_against` finds a lock-out that is over. -/
def expired (s : AuthState) (ip : String) (now : Nat) : Bool :=
  (s.failedLogins ip).any fun a => maxLoginAttempts ≤ a.count && a.lockedUntil ≤ now

/-- The first section of `login_against` refuses the login, for so many seconds. -/
def lockedFor (s : AuthState) (ip : String) (now : Nat) : Option Nat :=
  (s.failedLogins ip).bind fun a =>
    if maxLoginAttempts ≤ a.count ∧ now < a.lockedUntil then some (a.lockedUntil - now) else none

/-- `record_failed_login` forgets the entry of an address. -/
def forgets (s : AuthState) (now : Nat) (ip : String) : Bool :=
  (s.failedLogins ip).any fun a =>
    !(decide (now < a.lockedUntil) || decide (now - a.lastAttempt < loginAttemptTtlSecs))

/-- The entry `record_failed_login` adds to. -/
def entry (s : AuthState) (ip : String) (now : Nat) : LoginAttempt :=
  (s.failedLogins ip).getD { count := 0, lockedUntil := 0, lastAttempt := now }

/-- `record_failed_login`. -/
def recordFailedLogin (ip : String) (now : Nat) (s : AuthState) : AuthState :=
  let s := s.removeFailed (s.forgets now)
  let entry := (s.entry ip now).failed now
  { s with failedLogins := fun a => if a = ip then some entry else s.failedLogins a }

/-- The sessions that have not expired. -/
def alive (now : Nat) (s : AuthState) : List Token := s.tokens.filter fun t => now < t.expires

/-- The session that makes room for a new one. -/
def evicted (now : Nat) (s : AuthState) : Option Token :=
  if maxTokens ≤ (s.alive now).length then (s.alive now).head? else none

/-- The last section of `login_against`. -/
def openSession (value : String) (kind : CredentialKind) (now : Nat) (s : AuthState) : AuthState :=
  let held := if maxTokens ≤ (s.alive now).length then (s.alive now).tail else s.alive now
  { s with tokens := held ++ [{ value, expires := now + tokenTtl, kind }] }

/-- The session a token names. -/
def session (token : String) (now : Nat) (s : AuthState) : Option Token :=
  (s.alive now).find? fun t => t.value == token

/-- The first session of that name lives on. -/
def renew (token : String) (expires : Nat) : List Token → List Token
  | [] => []
  | t :: rest => if t.value == token then { t with expires } :: rest else t ::
      renew token expires rest

/-- The section of `validate`. -/
def validate (token : String) (now : Nat) (s : AuthState) : AuthState :=
  { s with tokens := renew token (now + tokenTtl) (s.alive now) }

end AuthState

/-! ### The world -/

/-- What was done. Times are readings of the monotonic clock. -/
inductive Note where
  /-- A credential was compared with the stored hash. -/
  | evaluated (ip : String) (kind : CredentialKind) (right : Bool) (time : Nat)
  /-- The entries of these addresses were removed. -/
  | reset (gone : String → Bool)
  /-- The lock-out of an address was set. -/
  | armed (ip : String) (time : Nat)
  /-- A login opened a session. -/
  | issued (value : String) (kind : CredentialKind) (time : Nat)
  /-- A validation that began at this time accepted a session. -/
  | used (value : String) (kind : CredentialKind) (time : Nat)
  /-- A session made room for another one. -/
  | evicted (value : String)

/-- What the requests share. `now` is the monotonic clock. -/
structure World where
  auth : AuthState
  now : Nat := 0
  log : List Note := []

/-- Where a request stands with its login. -/
inductive Stage where
  /-- It has no login under way. -/
  | out
  /-- The first section let it through. -/
  | admitted (ip : String)
  /-- Its credential was wrong, which is not recorded yet. -/
  | wrong (ip : String)
  /-- Its credential was right; the failures are not cleared yet. -/
  | right (ip : String) (kind : CredentialKind)
  /-- The failures are cleared; the session is not open yet. -/
  | granted (kind : CredentialKind)
  deriving DecidableEq, Repr

/-- The login is under way: let through, and not settled in the failure table. -/
def Stage.underWay (ip : String) : Stage → Bool
  | .admitted a => a == ip
  | .wrong a => a == ip
  | .right a _ => a == ip
  | _ => false

/-! ### Actions -/

/-- The readings of the clocks, the random source and the critical sections. -/
inductive Call : Type → Type where
  | epochSecs : Call Nat
  | instantNow : Call Nat
  | urandom : Call Bytes
  | checkAttempts (ip : String) (now : Nat) : Call (Option Nat)
  | compareHash (ip : String) (kind : CredentialKind) (credential : String) : Call (String × Bool)
  | recordFailedLogin (ip : String) (now : Nat) : Call Unit
  | clearAttempts (ip : String) : Call Unit
  | openSession (value : String) (kind : CredentialKind) : Call Unit
  | findSession (token : String) (now : Nat) : Call (Option CredentialKind)

/-- What the environment decides: the wall clock's reading and the random bytes. -/
structure Input where
  clock : Nat := 0
  random : Bytes := []

/-- Notes, the latest first, in front of the log. -/
def World.note (notes : List Note) (auth : AuthState) (w : World) : World :=
  { w with auth, log := notes ++ w.log }

/-- An action. -/
def exec (P : Platform) {β : Type} : Call β → Stage → Input → World → Option (β × World)
  | .epochSecs, _, e, w => some (e.clock, w)
  | .instantNow, _, _, w => some (w.now, w)
  | .urandom, _, e, w => some (e.random, w)
  | .checkAttempts ip now, _, _, w =>
    if w.auth.expired ip now then
      some (none, w.note [.reset (· == ip)] (w.auth.removeFailed (· == ip)))
    else some (w.auth.lockedFor ip now, w)
  | .compareHash ip kind credential, _, _, w =>
    let hash := iteratedHash P w.auth.salt credential
    let same := decide (w.auth.stored kind = some hash)
    some ((hash, same), w.note [.evaluated ip kind same w.now] w.auth)
  | .recordFailedLogin ip now, _, _, w =>
    let auth := w.auth.recordFailedLogin ip now
    let armed := if maxLoginAttempts ≤ (auth.entry ip now).count then [Note.armed ip w.now] else []
    some ((), w.note (armed ++ [.reset (w.auth.forgets now)]) auth)
  | .clearAttempts ip, _, _, w =>
    some ((), w.note [.reset (· == ip)] (w.auth.removeFailed (· == ip)))
  | .openSession value kind, _, _, w =>
    let evicted := (w.auth.evicted w.now).toList.map fun t => Note.evicted t.value
    some ((), w.note (.issued value kind w.now :: evicted) (w.auth.openSession value kind w.now))
  | .findSession token now, _, _, w =>
    let found := w.auth.session token now
    let used := found.toList.map fun t => Note.used token t.kind now
    some (found.map Token.kind, w.note used (w.auth.validate token now))

/-- Where a request stands after an action. -/
def Stage.after {β : Type} (c : Stage) : Call β → β → Stage
  | .checkAttempts ip _, none => .admitted ip
  | .compareHash ip kind _, (_, same) => if same then .right ip kind else .wrong ip
  | .recordFailedLogin _ _, _ => .out
  | .clearAttempts _, _ => match c with
    | .right _ kind => .granted kind
    | c => c
  | .openSession _ _, _ => .out
  | _, _ => c

/-! ### The requests -/

/-- `LoginResult`. -/
inductive LoginResult where
  | ok (token : String)
  | invalid
  | locked (retryAfterSecs : Nat)
  deriving DecidableEq, Repr

section Requests

variable (P : Platform)

/-- The rest of `login_against` once the credential is right. -/
def grant (hash clientIp : String) (kind : CredentialKind) (now : Nat) :
    Program Call LoginResult := do
  Call.clearAttempts clientIp
  let random ← Call.urandom
  let token := tokenOf P random hash now
  Call.openSession token kind
  return .ok token

/-- `login_against`. -/
def loginAgainst (credential clientIp : String) (kind : CredentialKind) :
    Program Call LoginResult := do
  let now ← Call.epochSecs
  match ← Call.checkAttempts clientIp now with
  | some retryAfterSecs => return .locked retryAfterSecs
  | none =>
    let (hash, same) ← Call.compareHash clientIp kind credential
    if same then
      grant P hash clientIp kind now
    else
      Call.recordFailedLogin clientIp now
      return .invalid

/-- `login_password`. -/
def loginPassword (password clientIp : String) : Program Call LoginResult :=
  loginAgainst P password clientIp .password

/-- `login_pin`. -/
def loginPin (pin clientIp : String) : Program Call LoginResult :=
  match validatePin pin with
  | .error _ => do
    let now ← Call.epochSecs
    Call.recordFailedLogin clientIp now
    return .invalid
  | .ok _ => loginAgainst P pin clientIp .pin

/-- `AuthState::validate`. The clock is read before the sessions are locked. -/
def validate (token : String) : Program Call (Option CredentialKind) := do
  let now ← Call.instantNow
  Call.findSession token now

/-- `is_mobile_user_agent`. -/
def isMobileUserAgent (userAgent : String) : Bool :=
  let ua := toAsciiLowercase userAgent
  contains ua "mobile" || contains ua "android" || contains ua "iphone" || contains ua "ipad" ||
    contains ua "ipod" || contains ua "blackberry" || contains ua "iemobile" ||
    contains ua "opera mini"

/-- The answer to a request that is refused. -/
def refusal (status : Nat) (error : String) : Nat × Value :=
  (status, .obj [("ok", .bool false), ("error", .str error)])

/-- `handlers::login`. `body` is the parsed JSON, if it is JSON. -/
def login (body : Option Value) (clientIp : String) (userAgent : Option String) :
    Program Call (Nat × Value) :=
  match body with
  | none => return refusal 400 "invalid JSON"
  | some parsed =>
    let password := (parsed.get "password").asStr
    let pin := (parsed.get "pin").asStr
    let answer : LoginResult → Nat × Value
      | .ok token => (200, .obj [("ok", .bool true), ("data", .obj [("token", .str token)])])
      | .invalid => refusal 401 "invalid credentials"
      | .locked retryAfterSecs =>
        refusal 429 ("too many attempts, retry in " ++ toString retryAfterSecs ++ "s")
    match password, pin with
    | some _, some _ => return refusal 400 "provide either password or pin"
    | some password, none => answer <$> loginPassword P password clientIp
    | none, some pin =>
      if isMobileUserAgent (userAgent.getD "") then answer <$> loginPin P pin clientIp
      else return refusal 403 "PIN login is only available from mobile devices"
    | none, none => return refusal 400 "missing 'password' or 'pin' field"

/-! ### Runs -/

/-- A request that reaches `AuthState`. -/
inductive Body where
  | login (body : Option Value) (clientIp : String) (userAgent : Option String)
  | validate (token : String)

/-- What happens from outside: a request arrives, or time passes. -/
inductive Outside where
  | request (body : Body)
  | wait (duration : Nat)

/-- The program of a request. -/
def program : Body → Program Call (Next Body)
  | .login body clientIp userAgent => do
    let _ ← login P body clientIp userAgent
    return .stop
  | .validate token => do
    let _ ← validate token
    return .stop

/-- An event from outside. -/
def occur : Outside → World → Option (Occurrence Stage World Body)
  | .request body, w => some ⟨w, false, [(body, .out)]⟩
  | .wait duration, w => some ⟨{ w with now := w.now + duration }, false, []⟩

/-- The requests of the agent's server and the state they share. -/
def server : Machine Call Stage World Body Input Outside where
  exec := exec P
  after c a r _ := c.after a r
  spawns _ _ _ := []
  body := program P
  occur := occur

/-- The agent has just started serving. -/
def start (auth : AuthState) : State Call Stage World Body := ⟨{ auth }, []⟩

end Requests

end OpenUI.Agent.Auth
