import OpenUI.Euicc.Coding
import OpenUI.Text

/-!
# `OpenUI.Agent.Uci`: the configuration store and how the agent reads it

`uci` keeps named options in packages; an option `package.section.option` holds bytes. The agent
reads it in two ways (`agent/src/ubus.rs`): `uci_get` runs `uci get` for one option, and `uci_show`
runs `uci show` for a package and undoes the quoting.

The tool itself is not part of the agent. What is assumed of it: `uci get` prints the value and a
newline; `uci show` prints a line for each section and each option, an option's value between single
quotes, with each quote in it written as `'\''`.
-/

set_option autoImplicit false

namespace OpenUI.Agent.Uci

open OpenUI.Text OpenUI.Euicc

/-! ### What the tool prints -/

/-- A newline. -/
def newline : UInt8 := 0x0A

/-- A single quote. -/
def quote : UInt8 := 0x27

/-- A value with its quotes escaped. -/
def escaped (value : Bytes) : Bytes :=
  value.flatMap fun b => if b = quote then [quote, 0x5C, quote, quote] else [b]

/-- What `uci get` prints. -/
def getOutput (value : Bytes) : Bytes := value ++ [newline]

/-- A line of a package: a section with its type, or an option with its value. -/
inductive Line where
  | header (name type : String)
  | option (tail : String) (value : Bytes)

/-- What `uci show` prints for it. -/
def Line.output (package : String) : Line → Bytes
  | .header name type => utf8 (package ++ "." ++ name ++ "=" ++ type) ++ [newline]
  | .option tail value =>
    utf8 (package ++ "." ++ tail ++ "=") ++ [quote] ++ escaped value ++ [quote, newline]

/-- What `uci show` prints. -/
def showOutput (package : String) (lines : List Line) : Bytes :=
  lines.flatMap (Line.output package)

/-! ### Reading it -/

/-- The output of `uci get`, as `uci_get` returns it. -/
def getText (output : Bytes) : String := trim (fromUtf8Lossy output)

/-- `uci_unquote`: undo the shell-style quoting `uci show` applies to values. -/
def uciUnquote (raw : String) : String :=
  let trimmed := trim raw
  let inner := ((stripPrefix "'" trimmed).bind (stripSuffix "'")).getD trimmed
  replace "'\\''" "'" inner

/-- One line of the output of `uci show`. The package's name is stripped from the key. -/
def showLine (config : String) (map : List (String × String)) (line : String) :
    List (String × String) :=
  match splitOnce '=' line with
  | none => map
  | some (key, value) =>
    match (stripPrefix config key).bind (stripPrefix ".") with
    | none => map
    | some key => (key, uciUnquote value) :: map.filter (fun entry => entry.1 != key)

/-- `uci_show`, from the output of the command, or nothing if it failed. -/
def uciShow (config : String) (output : Option Bytes) : List (String × String) :=
  match output with
  | none => []
  | some output => (lines (fromUtf8Lossy output)).foldl (showLine config) []

end OpenUI.Agent.Uci
