import OpenUI.Installer.Model

/-!
# `OpenUI.Installer.Credentials`: the credentials in the startup script

`installer/src-tauri/src/credentials.rs` reads the dashboard's password and the PIN out of the
startup script that is on the device, when the user keeps them. The script was written by
`startup_script` of `deploy.rs`, or by `scripts/render-agent-startup.py`, which quotes in another
way.
-/

set_option autoImplicit false

namespace OpenUI.Installer.Startup

open OpenUI.Text

/-! ### The reader -/

structure Credentials where
  password : String
  pin : String
  deriving DecidableEq

/-- `invalid`. -/
def invalid : InstallerError :=
  .new "Existing dashboard credentials could not be preserved"
    "Choose a new dashboard password and explicitly set or remove the PIN, then check again."
    "The saved startup script has missing, ambiguous or unsupported credential assignments."

/-- `str::match_indices` of a non-empty pattern, once `skip` more characters have been matched: for
each match the character before it and what follows it. -/
def matchesFrom (pattern : List Char) : Option Char → Nat → List Char →
    List (Option Char × List Char)
  | _, _, [] => []
  | _, skip + 1, c :: cs => matchesFrom pattern (some c) skip cs
  | before, 0, c :: cs =>
    if pattern <+: c :: cs then
      (before, (c :: cs).drop pattern.length) ::
        matchesFrom pattern (some c) (pattern.length - 1) cs
    else matchesFrom pattern (some c) 0 cs

/-- How the loop of `literal_assignment` reads the next character. -/
inductive Reading where
  | bare
  /-- Between single quotes. -/
  | quoted
  /-- After a double quote, and after the single quote that follows it. -/
  | doubled
  | doubledQuote
  /-- After a backslash. -/
  | escaped

/-- A character that needs no quotes. -/
def isUnquoted (c : Char) : Bool := isAsciiAlphanumeric c || "_-@.!+/=".toList.contains c

/-- The loop of `literal_assignment`. -/
def value : Reading → List Char → Option (List Char)
  | .bare, [] => some []
  | .quoted, [] | .doubled, [] | .doubledQuote, [] | .escaped, [] => none
  | .quoted, c :: cs => if c = '\'' then value .bare cs else (value .quoted cs).map (c :: ·)
  | .doubled, c :: cs => if c = '\'' then value .doubledQuote cs else none
  | .doubledQuote, c :: cs => if c = '"' then (value .bare cs).map ('\'' :: ·) else none
  | .escaped, c :: cs => if c = '\'' then (value .bare cs).map ('\'' :: ·) else none
  | .bare, c :: cs =>
    if c = '\'' then value .quoted cs
    else if c = '"' then value .doubled cs
    else if c = '\\' then value .escaped cs
    else if c = '\n' || c = '\r' then some []
    else if isUnquoted c then (value .bare cs).map (c :: ·)
    else none

/-- What `literal_assignment` looks for. -/
def assignment (name : String) : List Char := "export ".toList ++ name.toList ++ ['=']

/-- The values that are assigned at the beginnings of lines. -/
def assigned (script name : String) : List (List Char) :=
  ((matchesFrom (assignment name) none 0 script.toList).filter fun m =>
    m.1.all (· == '\n')).map Prod.snd

/-- `literal_assignment`. -/
def literalAssignment (script name : String) : Except InstallerError (Option String) :=
  match assigned script name with
  | [] => .ok none
  | _ :: _ :: _ => .error invalid
  | [cs] =>
    match value .bare cs with
    | none => .error invalid
    | some v => if v.contains (Char.ofNat 0) then .error invalid else .ok (some (String.ofList v))

/-- `filter` and `ok_or_else`: a value that is not empty. -/
def nonEmpty : Option String → Except InstallerError String
  | some value => if value = "" then .error invalid else .ok value
  | none => .error invalid

/-- The saved password. -/
def savedPassword (script : String) : Except InstallerError String :=
  literalAssignment script "ZTE_AGENT_PASSWORD" >>= nonEmpty

/-- Six digits. -/
def isPin (pin : String) : Bool := pin.utf8ByteSize == 6 && pin.toList.all isAsciiDigit

/-- The saved PIN. It may not be assigned and cleared as well. -/
def keptPin : Option String → Bool → Except InstallerError String
  | some _, true => .error invalid
  | some pin, false => .ok pin
  | none, _ => .ok ""

/-- The password `resolve` takes. -/
def resolvePassword (request : InstallRequest) (script : String) : Except InstallerError String :=
  match request.passwordAction with
  | .replace => .ok request.agentPassword
  | .keep => savedPassword script

/-- The PIN `resolve` takes. -/
def resolvePin (request : InstallRequest) (script : String) : Except InstallerError String :=
  match request.pinAction with
  | .set => .ok request.agentPin
  | .remove => .ok ""
  | .keep => do
    let _ ← savedPassword script
    keptPin (← literalAssignment script "ZTE_AGENT_PIN")
      ((lines script).any (· == "unset ZTE_AGENT_PIN"))

/-- `resolve`. -/
def resolve (request : InstallRequest) (script : String) : Except InstallerError Credentials := do
  let password ← resolvePassword request script
  let pin ← resolvePin request script
  if password = "" || (pin != "" && !isPin pin) then throw invalid
  else return ⟨password, pin⟩

/-! ### The writers -/

/-- `shell_quote`. -/
def shellQuote (value : String) : String := "'" ++ replace "'" "'\\''" value ++ "'"

/-- The native `startup_script`. -/
def startupScript (password pin : String) : String :=
  "\n".intercalate
    ["#!/bin/sh", "export ZTE_AGENT_PASSWORD=" ++ shellQuote password,
      if pin = "" then "unset ZTE_AGENT_PIN" else "export ZTE_AGENT_PIN=" ++ shellQuote pin,
      "# The agent writes its own rotated log: /data/local/tmp/zte-agent.log",
      "trap '' HUP\nnohup /data/zte-agent >/dev/null 2>&1 </dev/null &"] ++ "\n"

/-- A character that `shlex.quote` leaves bare. -/
def isSafe (c : Char) : Bool := isAsciiAlphanumeric c || "_@%+=:,./-".toList.contains c

/-- `shlex.quote`. -/
def shlexQuote (s : String) : String :=
  if s = "" then "''"
  else if s.toList.all isSafe then s
  else "'" ++ replace "'" "'\"'\"'" s ++ "'"

/-- `render`. A password or a PIN that it refuses raises a `ValueError`. -/
def render (password pin : String) : Option String :=
  if password = "" || password.toList.contains (Char.ofNat 0) then none
  else if pin != "" && !(pin.toList.length == 6 && pin.toList.all isAsciiDigit) then none
  else some ("\n".intercalate
    ["#!/bin/sh", "export ZTE_AGENT_PASSWORD=" ++ shlexQuote password,
      if pin = "" then "unset ZTE_AGENT_PIN" else "export ZTE_AGENT_PIN=" ++ shlexQuote pin,
      "trap '' HUP", "nohup /data/zte-agent >/dev/null 2>&1 </dev/null &"] ++ "\n")

end OpenUI.Installer.Startup
