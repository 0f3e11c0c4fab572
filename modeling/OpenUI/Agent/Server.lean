import OpenUI.Agent.Auth
import OpenUI.Agent.Esim.State
import OpenUI.Concurrency.Embed

/-!
# `OpenUI.Agent.Server`: the way of a request to its handler

`handle_request` and `route` of `agent/src/server.rs`, and the AT console. Every request has a
thread of its own, and all of them share `AuthState`: logins and validations interleave.

The handlers are left open: what they answer is the environment's choice. `handlers::login` is the
program of `OpenUI.Agent.Auth`. `parse` stands for `serde_json::from_slice`, and `upper` for the
upper case of a character.

A context remembers what was done for its request and what was answered. No action depends on it.
-/

set_option autoImplicit false

namespace OpenUI.Agent.Server

open OpenUI.Text OpenUI.Json OpenUI.Euicc OpenUI.Concurrency
open OpenUI.Agent.Auth (CredentialKind refusal)
open OpenUI.Agent.Esim (Platform)

/-! ### Requests -/

/-- `tiny_http::Method`. -/
inductive Method where
  | get
  | head
  | post
  | put
  | delete
  | connect
  | options
  | trace
  | patch
  | nonStandard (name : String)
  deriving DecidableEq, Repr

/-- `tiny_http::Header`. -/
structure Header where
  field : String
  value : String
  deriving DecidableEq, Repr

/-- A body as it arrives: its bytes, and the error that reading on ends with, if it does. -/
structure Incoming where
  bytes : Bytes := []
  error : Option String := none

/-- What arrives. -/
structure Request where
  method : Method
  url : String
  headers : List Header := []
  remoteAddr : Option String := none
  body : Incoming := {}

/-- The limit on bodies. -/
def maxBody : Nat := 1048576

namespace Request

/-- The URL without its query. -/
def path (r : Request) : String := (splitChar '?' r.url).head?.getD r.url

/-- The first header of this name. -/
def header (r : Request) (name : String) : Option String :=
  (r.headers.find? fun h => eqIgnoreAsciiCase h.field name).map Header.value

def clientIp (r : Request) : String := r.remoteAddr.getD ""

def userAgent (r : Request) : Option String := r.header "User-Agent"

/-- The token of the request. Only the first header of the name counts. -/
def bearer (r : Request) : Option String :=
  (r.headers.find? fun h => toAsciiLowercase h.field == "authorization").bind fun h =>
    stripPrefix "Bearer " h.value

def needsAuth (r : Request) : Bool :=
  r.path != "/api/auth/login" && !(r.method == .post && r.path == "/api/router/lan/confirm")

def confirmed (r : Request) : Bool :=
  r.headers.any fun h => eqIgnoreAsciiCase h.field "X-Confirm" && h.value == "true"

/-- `read_to_end` of `take(1 MiB + 1)`: an error counts only if it comes within the limit. -/
def readBody (r : Request) : Except String Bytes :=
  if maxBody + 1 ≤ r.body.bytes.length then .ok (r.body.bytes.take (maxBody + 1))
  else r.body.error.elim (.ok r.body.bytes) .error

end Request

/-- `DESTRUCTIVE_PATHS`. -/
def destructivePaths : List String :=
  ["/api/device/reboot", "/api/device/shutdown", "/api/system/kill-bloat", "/api/esim/enable",
    "/api/esim/disable", "/api/esim/delete"]

/-- `PASSWORD_PATHS`. -/
def passwordPaths : List String :=
  ["/api/esim/enable", "/api/esim/disable", "/api/esim/lock", "/api/esim/download",
    "/api/esim/download/confirm", "/api/esim/download/cancel", "/api/esim/delete",
    "/api/esim/receipts/send"]

/-! ### Responses -/

/-- `str::parse::<u8>`. -/
def parseU8 (s : String) : Option Nat := (parseU16 s.toList).filter (· < 256)

/-- `is_lan_origin`. -/
def isLanOrigin (origin : String) : Bool :=
  (stripPrefix "http://" origin).any fun host =>
    let host := (splitChar ':' host).head?.getD host
    if host == "localhost" || host == "127.0.0.1" || host == "::1" then true
    else
      let parts := splitChar '.' host
      parts.length == 4 && match parts.filterMap parseU8 with
        | [a, b, _, _] => a == 10 || (a == 172 && 16 ≤ b && b ≤ 31) || (a == 192 && b == 168)
        | _ => false

/-- `cors_headers`. -/
def corsHeaders (origin : Option String) : List Header :=
  [⟨"Access-Control-Allow-Origin", (origin.filter isLanOrigin).getD ""⟩,
    ⟨"Access-Control-Allow-Methods", "GET, POST, PUT, DELETE, OPTIONS"⟩,
    ⟨"Access-Control-Allow-Headers", "Authorization, Content-Type, X-Confirm"⟩,
    ⟨"Access-Control-Max-Age", "86400"⟩]

/-- The body of a response. -/
inductive Content where
  | empty
  | json (value : Value)
  /-- So many bytes of a log. -/
  | log (length : Nat)

/-- A response. -/
structure Response where
  status : Nat
  headers : List Header
  content : Content

/-- The response of `respond`. -/
def Request.response (r : Request) (answer : Nat × Value) : Response where
  status := answer.1
  headers := ⟨"Content-Type", "application/json"⟩ :: corsHeaders (r.header "Origin")
  content := .json answer.2

/-! ### Routes -/

/-- The functions that `route` calls. -/
inductive Handler where
  | login
  | dashboard
  | device
  | cpu
  | memory
  | systemTop
  | systemKillBloat
  | agentRestart
  | deviceReboot
  | deviceShutdown
  | networkBatteryUbus
  | deviceThermalAll
  | deviceBatteryDetail
  | deviceCharger
  | chargeControlGet
  | chargeControlSet
  | networkClients
  | wifiStatus
  | wifiSet
  | dataUsageResetDaySet
  | modemCapabilities
  | modemNetworkModeSet
  | smsCapabilities
  | smsList
  | smsSend
  | smsDelete
  | smsMarkRead
  | simInfo
  | simImei
  | esimProfiles
  | esimRefresh
  | esimSwitch (kind : Esim.Kind)
  | esimNickname
  | esimLock
  | esimDownload
  | esimDownloadConfirm
  | esimDownloadCancel
  | esimReceiptsSend
  | cellLockNr
  | cellLockLte
  | cellLockReset
  | cellBandNr
  | cellBandLte
  | cellBandReset
  | routerDnsGet
  | routerDnsSet
  | routerLanGet
  | routerLanSet
  | routerLanConfirm
  | routerApnModeGet
  | routerApnModeSet
  | routerApnProfilesGet
  | routerApnProfilesAdd
  | routerApnProfilesDelete
  | routerApnProfilesActivate
  | usbStatus
  | usbModeSet
  | usbDefaultSet
  | usbPowerbankSet
  | ttlStatus
  | ttlSet
  | ttlClear
  | atConsole
  | atPort
  | signalLoggerStart
  | signalLoggerStop
  | signalLoggerStatus
  | connectionLoggerStart
  | connectionLoggerStop
  | connectionLoggerStatus
  deriving DecidableEq

/-- An arm of `route`. -/
structure Route where
  method : Method
  path : String
  handler : Handler

/-- The arms of `route`. -/
def routes : List Route :=
  [⟨.post, "/api/auth/login", .login⟩,
    ⟨.get, "/api/dashboard", .dashboard⟩,
    ⟨.get, "/api/device", .device⟩,
    ⟨.get, "/api/cpu", .cpu⟩,
    ⟨.get, "/api/memory", .memory⟩,
    ⟨.get, "/api/system/top", .systemTop⟩,
    ⟨.post, "/api/system/kill-bloat", .systemKillBloat⟩,
    ⟨.post, "/api/system/restart-agent", .agentRestart⟩,
    ⟨.post, "/api/device/reboot", .deviceReboot⟩,
    ⟨.post, "/api/device/shutdown", .deviceShutdown⟩,
    ⟨.get, "/api/device/battery-info", .networkBatteryUbus⟩,
    ⟨.get, "/api/device/thermal/all", .deviceThermalAll⟩,
    ⟨.get, "/api/device/battery/detail", .deviceBatteryDetail⟩,
    ⟨.get, "/api/device/charger", .deviceCharger⟩,
    ⟨.get, "/api/device/charge-control", .chargeControlGet⟩,
    ⟨.put, "/api/device/charge-control", .chargeControlSet⟩,
    ⟨.get, "/api/network/clients", .networkClients⟩,
    ⟨.get, "/api/wifi/status", .wifiStatus⟩,
    ⟨.put, "/api/wifi/settings", .wifiSet⟩,
    ⟨.put, "/api/data-usage/reset-day", .dataUsageResetDaySet⟩,
    ⟨.get, "/api/modem/capabilities", .modemCapabilities⟩,
    ⟨.put, "/api/modem/network-mode", .modemNetworkModeSet⟩,
    ⟨.get, "/api/sms/capabilities", .smsCapabilities⟩,
    ⟨.post, "/api/sms/list", .smsList⟩,
    ⟨.post, "/api/sms/send", .smsSend⟩,
    ⟨.post, "/api/sms/delete", .smsDelete⟩,
    ⟨.post, "/api/sms/read", .smsMarkRead⟩,
    ⟨.get, "/api/sim/info", .simInfo⟩,
    ⟨.get, "/api/sim/imei", .simImei⟩,
    ⟨.get, "/api/esim/profiles", .esimProfiles⟩,
    ⟨.post, "/api/esim/refresh", .esimRefresh⟩,
    ⟨.post, "/api/esim/enable", .esimSwitch .enable⟩,
    ⟨.post, "/api/esim/disable", .esimSwitch .disable⟩,
    ⟨.post, "/api/esim/nickname", .esimNickname⟩,
    ⟨.post, "/api/esim/lock", .esimLock⟩,
    ⟨.post, "/api/esim/download", .esimDownload⟩,
    ⟨.post, "/api/esim/download/confirm", .esimDownloadConfirm⟩,
    ⟨.post, "/api/esim/download/cancel", .esimDownloadCancel⟩,
    ⟨.post, "/api/esim/delete", .esimSwitch .delete⟩,
    ⟨.post, "/api/esim/receipts/send", .esimReceiptsSend⟩,
    ⟨.post, "/api/cell/lock/nr", .cellLockNr⟩,
    ⟨.post, "/api/cell/lock/lte", .cellLockLte⟩,
    ⟨.post, "/api/cell/lock/reset", .cellLockReset⟩,
    ⟨.post, "/api/cell/band/nr", .cellBandNr⟩,
    ⟨.post, "/api/cell/band/lte", .cellBandLte⟩,
    ⟨.post, "/api/cell/band/reset", .cellBandReset⟩,
    ⟨.get, "/api/router/dns", .routerDnsGet⟩,
    ⟨.put, "/api/router/dns", .routerDnsSet⟩,
    ⟨.get, "/api/router/lan", .routerLanGet⟩,
    ⟨.put, "/api/router/lan", .routerLanSet⟩,
    ⟨.post, "/api/router/lan/confirm", .routerLanConfirm⟩,
    ⟨.get, "/api/router/apn/mode", .routerApnModeGet⟩,
    ⟨.put, "/api/router/apn/mode", .routerApnModeSet⟩,
    ⟨.get, "/api/router/apn/profiles", .routerApnProfilesGet⟩,
    ⟨.post, "/api/router/apn/profiles", .routerApnProfilesAdd⟩,
    ⟨.post, "/api/router/apn/profiles/delete", .routerApnProfilesDelete⟩,
    ⟨.post, "/api/router/apn/profiles/activate", .routerApnProfilesActivate⟩,
    ⟨.get, "/api/usb/status", .usbStatus⟩,
    ⟨.put, "/api/usb/mode", .usbModeSet⟩,
    ⟨.put, "/api/usb/default", .usbDefaultSet⟩,
    ⟨.put, "/api/usb/powerbank", .usbPowerbankSet⟩,
    ⟨.get, "/api/ttl/status", .ttlStatus⟩,
    ⟨.put, "/api/ttl/set", .ttlSet⟩,
    ⟨.delete, "/api/ttl/clear", .ttlClear⟩,
    ⟨.post, "/api/at/send", .atConsole⟩,
    ⟨.get, "/api/at/port", .atPort⟩,
    ⟨.post, "/api/logger/signal/start", .signalLoggerStart⟩,
    ⟨.post, "/api/logger/signal/stop", .signalLoggerStop⟩,
    ⟨.get, "/api/logger/signal/status", .signalLoggerStatus⟩,
    ⟨.post, "/api/logger/connection/start", .connectionLoggerStart⟩,
    ⟨.post, "/api/logger/connection/stop", .connectionLoggerStop⟩,
    ⟨.get, "/api/logger/connection/status", .connectionLoggerStatus⟩]

/-- The first arm that matches the request. -/
def Request.handler (r : Request) : Option Handler :=
  (routes.find? fun arm => arm.method == r.method && arm.path == r.path).map Route.handler

/-- The logs that can be downloaded. -/
inductive Log where
  | signal
  | connection
  deriving DecidableEq

/-- The name a log is saved under. -/
def Log.name : Log → String
  | .signal => "signal_log.csv"
  | .connection => "connection_log.csv"

/-- The log that a request asks for. -/
def Request.download (r : Request) : Option Log :=
  if r.method != .get then none
  else if r.path == "/api/logger/signal/download" then some .signal
  else if r.path == "/api/logger/connection/download" then some .connection
  else none

/-- The response with a log. -/
def Request.attachment (r : Request) (log : Log) (length : Nat) : Response where
  status := 200
  headers := [⟨"Content-Type", "text/csv; charset=utf-8"⟩,
    ⟨"Content-Disposition", "attachment; filename=\"" ++ log.name ++ "\""⟩,
    ⟨"Cache-Control", "no-store"⟩] ++ corsHeaders (r.header "Origin")
  content := .log length

/-! ### The AT console -/

/-- `AT_BLOCKED_PREFIXES`. -/
def atBlockedPrefixes : List String :=
  ["AT+CFUN", "AT^", "AT$QCRMCALL", "AT+CLCK", "AT+CMGD", "AT+CMGF=1;+CMGS", "AT+CGDCONT=",
    "AT+CGACT="]

/-- `AT_ALLOWED_EXACT`. -/
def atAllowedExact : List String :=
  ["AT", "ATI", "AT+CSQ", "AT+COPS?", "AT+COPS=?", "AT+CGDCONT?", "AT+CREG?", "AT+CGREG?",
    "AT+CEREG?", "AT+CGPADDR", "AT+CGACT?", "AT+CLAC", "AT+CGSN", "AT+CGMI", "AT+CGMM", "AT+CGMR",
    "AT+QENG=\"SERVINGCELL\"", "AT+QNWINFO", "AT+QRSRP", "AT+QRSRQ", "AT+QINISTAT", "AT+QSPN",
    "AT+QCIDINCOMING", "AT+CGCONTRDP"]

/-! ### Actions -/

/-- The critical sections of `AuthState`, and what is done for a request. -/
inductive Call : Type → Type 1 where
  | auth {β : Type} (call : Auth.Call β) : Call β
  | hasPassword : Call Bool
  /-- A handler runs, and answers. -/
  | handle (handler : Handler) (body : Bytes) : Call (Nat × Value)
  /-- `open_download`. -/
  | openDownload (log : Log) : Call (Option Nat)
  /-- `at_cmd::send`. -/
  | send (command : String) (timeout : Nat) : Call (Except String String)
  | respond (response : Response) : Call Unit

/-- What was done for a request. -/
inductive Performed where
  | handled (handler : Handler) (body : Bytes)
  | opened (log : Log)
  | sent (command : String) (timeout : Nat)

/-- Where a request stands: with its login, with the session that was accepted for it at some time,
with what was done for it and with its responses. -/
structure Ctx where
  request : Request
  stage : Auth.Stage := .out
  accepted : Option (String × CredentialKind × Nat) := none
  configured : Bool := false
  performed : List Performed := []
  responses : List Response := []

/-- What the environment decides. -/
structure Input where
  auth : Auth.Input := {}
  answer : Nat × Value := (200, .null)
  length : Option Nat := none
  reply : Except String String := .ok ""

/-- An action. -/
def exec (P : Platform) {β : Type} : Call β → Ctx → Input → Auth.World → Option (β × Auth.World)
  | .auth call, c, e, w => Auth.exec P call c.stage e.auth w
  | .hasPassword, _, _, w => some (w.auth.passwordHash.isSome, w)
  | .handle _ _, _, e, w => some (e.answer, w)
  | .openDownload _, _, e, w => some (e.length, w)
  | .send _ _, _, e, w => some (e.reply, w)
  | .respond _, _, _, w => some ((), w)

/-- The session that a critical section accepted. -/
def acceptedBy {β : Type} : Auth.Call β → β → Option (String × CredentialKind × Nat)
  | .findSession token now, found => found.map fun kind => (token, kind, now)
  | _, _ => none

/-- Where a request stands after an action. -/
def Ctx.after {β : Type} (c : Ctx) : Call β → β → Ctx
  | .auth call, r =>
    { c with stage := c.stage.after call r, accepted := (acceptedBy call r).or c.accepted }
  | .hasPassword, configured => { c with configured }
  | .handle handler body, _ => { c with performed := .handled handler body :: c.performed }
  | .openDownload log, _ => { c with performed := .opened log :: c.performed }
  | .send command timeout, _ => { c with performed := .sent command timeout :: c.performed }
  | .respond response, _ => { c with responses := response :: c.responses }

/-! ### The program of a request -/

section Programs

variable (P : Platform) (parse : Bytes → Option Value) (upper : Char → List Char)

/-- `is_at_command_allowed`. -/
def isAtCommandAllowed (command : String) : Bool :=
  let upper := (trim command).toList.flatMap upper
  upper != [] && !atBlockedPrefixes.any (fun blocked => blocked.toList.isPrefixOf upper) &&
    atAllowedExact.any fun allowed => allowed.toList == upper

/-- `at_console`. -/
def atConsole (body : Bytes) : Program Call (Nat × Value) :=
  match parse body with
  | none => return refusal 400 "invalid JSON"
  | some parsed =>
    match (parsed.get "command").asStr.filter (! ·.isEmpty) with
    | none => return refusal 400 "missing 'command'"
    | some command =>
      let timeout := min ((parsed.get "timeout").asU64.getD 2) 30
      if !isAtCommandAllowed upper command then
        return refusal 403 "command not allowed. Only read-only AT commands are permitted."
      else do
        match ← Call.send command timeout with
        | .ok resp => return (200, .obj [("ok", .bool true),
            ("data", .obj [("response", .str (trim resp))])])
        | .error e => return refusal 503 e

/-- `route`. -/
def route (r : Request) (body : Bytes) : Program Call (Nat × Value) :=
  match r.handler with
  | none => return refusal 404 "not found"
  | some .login => (Auth.login P (parse body) r.clientIp r.userAgent).embed .auth
  | some .atConsole => atConsole parse upper body
  | some handler => Call.handle handler body

/-- The session of a request, if its token is that of one. -/
def session (r : Request) : Program Call (Option CredentialKind) :=
  match r.bearer with
  | none => return none
  | some token => (Auth.validate token).embed .auth

/-- The part of `handle_request` under `needs_auth`: the answer, if the request is refused. -/
def authorize (r : Request) : Program Call (Option (Nat × Value)) := do
  if !r.needsAuth then return none
  else
    let session ← session r
    let configured ← Call.hasPassword
    if !configured then
      return some (refusal 403
        "no password configured. Set ZTE_AGENT_PASSWORD environment variable.")
    else if session.isNone then return some (refusal 401 "unauthorized")
    else if passwordPaths.contains r.path && session != some .password then
      return some (refusal 403
        "this action needs a session signed in with the password, not the PIN")
    else return none

/-- A log, or the answer that there is none. -/
def downloadLog (r : Request) (log : Log) : Program Call Response := do
  match ← Call.openDownload log with
  | some length => return r.attachment log length
  | none => return r.response (refusal 404 "no readable log file")

/-- `handle_request` behind its gate. -/
def serve (r : Request) : Program Call Response :=
  match r.download with
  | some log => downloadLog r log
  | none =>
    match r.readBody with
    | .error e => return r.response (refusal 400 ("failed to read body: " ++ e))
    | .ok body =>
      if maxBody < body.length then
        return r.response (refusal 413 "request body exceeds 1 MiB")
      else r.response <$> route P parse upper r body

/-- The response to a request that is not an `OPTIONS` request. -/
def answer (r : Request) : Program Call Response := do
  match ← authorize r with
  | some refused => return r.response refused
  | none =>
    if destructivePaths.contains r.path && !r.confirmed then
      return r.response (refusal 400 "destructive action requires X-Confirm: true header")
    else serve P parse upper r

/-- `handle_request`. -/
def handleRequest (r : Request) : Program Call Unit := do
  if r.method == .options then
    Call.respond { status := 200, headers := corsHeaders (r.header "Origin"), content := .empty }
  else
    let response ← answer P parse upper r
    Call.respond response

/-! ### Runs -/

/-- What happens from outside: a request arrives, or time passes. -/
inductive Outside where
  | request (r : Request)
  | wait (duration : Nat)

/-- An event from outside. -/
def occur : Outside → Auth.World → Option (Occurrence Ctx Auth.World Request)
  | .request r, w => some ⟨w, false, [(r, { request := r })]⟩
  | .wait duration, w => some ⟨{ w with now := w.now + duration }, false, []⟩

/-- The requests of the server and the state they share. -/
def server : Machine Call Ctx Auth.World Request Input Outside where
  exec := exec P
  after c a r _ := c.after a r
  spawns _ _ _ := []
  body r := do
    handleRequest P parse upper r
    return .stop
  occur := occur

/-- The agent has just started serving. -/
def start (auth : Auth.AuthState) : State Call Ctx Auth.World Request := ⟨{ auth }, []⟩

end Programs

end OpenUI.Agent.Server
