import OpenUI.WebApp.Payload

/-!
# `OpenUI.WebApp.Sms`: the list of messages

`mapSmsListResult` of `data/api.ts`: the entries of the firmware's list, checked one by one. Numbers
and texts may be coded as hexadecimal digits, four for each UTF-16 unit; whether they are is guessed
from their length and alphabet.
-/

set_option autoImplicit false

namespace OpenUI.WebApp.Js

open OpenUI.Text

/-! ### Hexadecimal text -/

/-- The value of a hexadecimal digit. -/
def hexUnit (u : UInt16) : Option Nat :=
  let n := u.toNat
  if 0x30 ≤ n ∧ n ≤ 0x39 then some (n - 0x30)
  else if 0x41 ≤ n ∧ n ≤ 0x46 then some (n - 0x41 + 10)
  else if 0x61 ≤ n ∧ n ≤ 0x66 then some (n - 0x61 + 10)
  else none

/-- `isUcs2Hex`. -/
def isUcs2Hex (s : JsString) : Bool :=
  0 < s.length && s.length % 4 == 0 && s.all fun u => (hexUnit u).isSome

/-- `hex.substring(i, i + 4)` for `i = 0, 4, …`. -/
def quads {α : Type} : List α → List (List α)
  | a :: b :: c :: d :: rest => [a, b, c, d] :: quads rest
  | [] => []
  | rest => [rest]

/-- White space of a string of code units. -/
def isSpaceUnit (u : UInt16) : Bool := Wifi.isSpace (Char.ofNat u.toNat)

/-- `parseInt(s, 16)`; `none` is `NaN`. -/
def parseIntHex (s : JsString) : Option Int :=
  let t := s.dropWhile isSpaceUnit
  let signed := t.head? = some 0x2B ∨ t.head? = some 0x2D
  let body := if signed then t.tail else t
  let prefixed := body.head? = some 0x30 ∧
    (body.tail.head? = some 0x78 ∨ body.tail.head? = some 0x58)
  let digits := ((if prefixed then body.drop 2 else body).map hexUnit).takeWhile (·.isSome)
  let value : Nat := (digits.filterMap id).foldl (fun n d => 16 * n + d) 0
  if digits = [] then none else some (if t.head? = some 0x2D then -(value : Int) else value)

/-- `String.fromCodePoint` of one code point, which may throw. -/
def fromCodePoint (code : Int) : Option JsString :=
  if 0 ≤ code ∧ code ≤ 0x10FFFF then some (unitsOfCode code.toNat) else none

/-- `decodeUcs2Hex`. -/
def decodeUcs2Hex (hex : JsString) : JsString :=
  match (quads hex).mapM fun quad => (parseIntHex quad).bind fromCodePoint with
  | some parts => parts.flatten
  | none => hex

/-- A text as it is shown. -/
def shownText (s : JsString) : JsString := if isUcs2Hex s then decodeUcs2Hex s else s

/-! ### The list -/

structure SmsMessage where
  id : ℚ
  number : JsString
  content : JsString
  date : Option JsString
  tag : ℚ
  memStore : Option ℚ
  deriving DecidableEq

/-- `text`. -/
def textOf : Option Value → JsString
  | some (.str s) => units s
  | some (.num x) => units (textOfNumber x)
  | _ => []

/-- The message of an entry that has a valid id and tag. -/
def readEntry (m : Value) : Option SmsMessage :=
  if isObj (some m) then
    match nonNegativeInt (m.get "id"), intInRange (m.get "tag") 0 4 with
    | some id, some tag =>
      let date := textOf (m.get "date")
      some
        { id, number := shownText (textOf (m.get "number"))
          content := shownText (textOf (m.get "content"))
          date := if date ≠ [] then some date else none
          tag, memStore := nonNegativeInt (m.get "mem_store") }
    | _, _ => none
  else none

/-- What the loop over the entries has so far. `seen` are the ids of the messages. -/
structure SmsList where
  messages : List SmsMessage := []
  seen : List ℚ := []
  dropped : Nat := 0

/-- One entry. -/
def SmsList.step (list : SmsList) (m : Value) : SmsList :=
  match readEntry m with
  | none => { list with dropped := list.dropped + 1 }
  | some message =>
    if list.seen.contains message.id then { list with dropped := list.dropped + 1 }
    else { list with messages := list.messages ++ [message], seen := message.id :: list.seen }

/-- The entries of a response. -/
def smsEntries : Value → Except String (List Value)
  | .arr raw => .ok raw
  | .obj fields =>
    match (Value.obj fields).get "messages" with
    | none => .ok []
    | some .null => .ok []
    | some (.arr raw) => .ok raw
    | some _ => .error "Malformed SMS list response"
  | _ => .error "Malformed SMS list response"

/-- `mapSmsListResult`. -/
def mapSmsListResult (d : Value) : Except String SmsList :=
  match smsEntries d with
  | .error e => .error e
  | .ok raw => .ok (raw.foldl SmsList.step {})

end OpenUI.WebApp.Js
