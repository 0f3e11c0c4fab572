import OpenUI.Agent.Uci
import OpenUI.Concurrency.Interrupted
import Mathlib.Data.List.Dedup
import Mathlib.Data.List.Sort

/-!
# `OpenUI.Agent.UciTransaction`: several options, changed together

`agent/src/uci_transaction.rs`: the changes of a request are staged in a directory of its own, and
committed package by package once the store still holds the values the request was planned on. When
a commit or the reload fails, the previous values are staged and committed in their place. The
functions are programs over the calls of `impl Backend for UciStage`.

`Store` is the configuration store with the private stage. `put` is what setting an option to a
value leaves: some versions of `uci` drop an option that is set to the empty value (`drops`).
-/

set_option autoImplicit false

namespace OpenUI.Agent.UciTransaction

open OpenUI.Text OpenUI.Concurrency OpenUI.Euicc OpenUI.Agent.Uci

/-- `Change`. -/
structure Change where
  key : String
  before : String
  after : String
  deriving DecidableEq, Repr

/-- `key.split('.').next()`: the package of an option. -/
def configOf (key : String) : String := String.ofList (key.toList.takeWhile (· ≠ '.'))

/-- `configs`: the packages of the changes, each once, in order. -/
def configs (changes : List Change) : List String :=
  (changes.map fun c => configOf c.key).dedup.insertionSort (· ≤ ·)

/-! ### The store -/

/-- The committed options and the private stage. -/
structure Store where
  live : String → Option Bytes
  staged : String → Option Bytes := fun _ => none

/-- The calls. `new` makes the stage's directory; `changes` tells whether `uci changes` succeeds and
prints nothing; `get` gives what `uci get` prints, or its complaint. -/
inductive Call : Type → Type where
  | new : Call (Except String Unit)
  | changes (config : String) : Call (Except String Bool)
  | get (key : String) : Call (Except String Bytes)
  | set (key value : String) : Call (Except String Unit)
  | commit (config : String) : Call (Except String Unit)
  | reload : Call (Except String Unit)

/-- How a call ends. -/
inductive Fault where
  | none
  /-- It failed and did nothing. -/
  | failed (error : String)
  /-- It reports a failure, and did what it was asked to. -/
  | late (error : String)
  /-- The firmware has changes of its own that are not committed yet. -/
  | busy

/-- What setting an option to a value leaves. -/
def put (drops : Bool) (value : Bytes) : Option Bytes :=
  if drops ∧ value = [] then none else some value

namespace Store

/-- An option is staged. -/
def stage (key value : String) (s : Store) : Store :=
  { s with staged := Function.update s.staged key (some (utf8 value)) }

/-- The staged options of a package are committed. -/
def commit (drops : Bool) (config : String) (s : Store) : Store where
  live key :=
    if configOf key = config then ((s.staged key).map (put drops)).getD (s.live key)
    else s.live key
  staged key := if configOf key = config then none else s.staged key

/-- A call. -/
def exec (drops : Bool) : Effects Call Fault Store
  | _, .new, e, s => match e with
    | .none => some (.ok (), { s with staged := fun _ => none })
    | .failed m => some (.error m, s)
    | _ => none
  | _, .changes _, e, s => match e with
    | .none => some (.ok true, s)
    | .busy => some (.ok false, s)
    | .failed m => some (.error m, s)
    | _ => none
  | _, .get key, e, s => match e, s.live key with
    | .none, some value => some (.ok (getOutput value), s)
    | .none, none => some (.error ("uci get " ++ key ++ ": uci: Entry not found\n"), s)
    | .failed m, _ => some (.error m, s)
    | _, _ => none
  | _, .set key value, e, s => match e with
    | .none => some (.ok (), s.stage key value)
    | .failed m => some (.error m, s)
    | .late m => some (.error m, s.stage key value)
    | _ => none
  | _, .commit config, e, s => match e with
    | .none => some (.ok (), s.commit drops config)
    | .failed m => some (.error m, s)
    | .late m => some (.error m, s.commit drops config)
    | _ => none
  | _, .reload, e, s => match e with
    | .none => some (.ok (), s)
    | .failed m => some (.error m, s)
    | _ => none

end Store

/-! ### `impl Backend for UciStage` -/

/-- `ubus::uci_get`. -/
def uciGet (key : String) : Program Call (Except String String) := do
  let output ← Call.get key
  match output with
  | .error e => pure (.error e)
  | .ok output => pure (.ok (getText output))

/-- The first loop of `check`: the firmware has no changes in these packages. -/
def checkConfigs : List String → Program Call (Except String Unit)
  | [] => pure (.ok ())
  | config :: rest => do
    let clean ← Call.changes config
    match clean with
    | .error e => pure (.error e)
    | .ok false => pure (.error (config ++ " has pending firmware changes; wait and retry"))
    | .ok true => checkConfigs rest

/-- The refusal of a change whose option has another value by now. -/
def changedError : String :=
  "Wi-Fi configuration changed during this request; refresh and retry"

/-- The second loop of `check`: the options have the values the changes were planned on. -/
def checkValues : List Change → Program Call (Except String Unit)
  | [] => pure (.ok ())
  | change :: rest => do
    let value ← uciGet change.key
    match value with
    | .error e => pure (.error e)
    | .ok value => if value ≠ change.before then pure (.error changedError) else checkValues rest

/-- `check`. -/
def check (changes : List Change) : Program Call (Except String Unit) := do
  let clean ← checkConfigs (configs changes)
  match clean with
  | .error e => pure (.error e)
  | .ok () => checkValues changes

/-! ### `execute` -/

/-- The new values are staged, up to the first that cannot be. -/
def setAll : List Change → Program Call (Except String Unit)
  | [] => pure (.ok ())
  | change :: rest => do
    let set ← Call.set change.key change.after
    match set with
    | .error e => pure (.error e)
    | .ok () => setAll rest

/-- The packages are committed, up to the first that cannot be, and the service is told. -/
def commitAll : List String → Program Call (Except String Unit)
  | [] => Call.reload
  | config :: rest => do
    let committed ← Call.commit config
    match committed with
    | .error e => pure (.error e)
    | .ok () => commitAll rest

/-- The error of a call, if it failed. -/
def errorOf : Except String Unit → List String
  | .error e => [e]
  | .ok () => []

/-- Every previous value is staged again; the errors on the way. -/
def setBack : List Change → Program Call (List String)
  | [] => pure []
  | change :: rest => do
    let set ← Call.set change.key change.before
    let errors ← setBack rest
    pure (errorOf set ++ errors)

/-- Every package is committed again, and the service is told. -/
def commitBack : List String → Program Call (List String)
  | [] => do
    let reloaded ← Call.reload
    pure (errorOf reloaded)
  | config :: rest => do
    let committed ← Call.commit config
    let errors ← commitBack rest
    pure (errorOf committed ++ errors)

/-- Why a transaction failed. -/
inductive Failure where
  /-- Before anything was committed. -/
  | early (error : String)
  /-- The previous configuration was restored. -/
  | restored (error : String)
  /-- It was not, as far as these errors tell. -/
  | attention (error : String) (errors : List String)

/-- Its text. -/
def Failure.text : Failure → String
  | .early error => error
  | .restored error => error ++ "; previous Wi-Fi configuration restored"
  | .attention error errors =>
    error ++ "; restoration needs attention: " ++ "; ".intercalate errors

/-- It says that restoration needs attention. -/
def Failure.needsAttention : Failure → Bool
  | .attention _ _ => true
  | _ => false

/-- The restoration of the previous values, after `error`. -/
def restore (changes : List Change) (error : String) : Program Call (Except Failure Unit) := do
  let sets ← setBack changes
  let commits ← commitBack (configs changes)
  if sets ++ commits = [] then pure (.error (.restored error))
  else pure (.error (.attention error (sets ++ commits)))

/-- The part of `execute` that touches the store. -/
def commitOrRestore (changes : List Change) : Program Call (Except Failure Unit) := do
  let result ← commitAll (configs changes)
  match result with
  | .error e => restore changes e
  | .ok () => pure (.ok ())

/-- `execute`. The stage is private; before any package is committed the store must still match. -/
def execute (changes : List Change) : Program Call (Except Failure Unit) := do
  let planned ← check changes
  match planned with
  | .error e => pure (.error (.early e))
  | .ok () => do
    let staged ← setAll changes
    match staged with
    | .error e => pure (.error (.early e))
    | .ok () => do
      let unchanged ← check changes
      match unchanged with
      | .error e => pure (.error (.early e))
      | .ok () => commitOrRestore changes

/-- `apply`. -/
def apply (changes : List Change) : Program Call (Except Failure Unit) :=
  if changes = [] then pure (.ok ())
  else do
    let stage ← Call.new
    match stage with
    | .error e => pure (.error (.early e))
    | .ok () => execute changes

end OpenUI.Agent.UciTransaction
