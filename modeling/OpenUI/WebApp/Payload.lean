import OpenUI.WebApp.Bands
import Mathlib.Algebra.Order.Floor.Defs
import Mathlib.Algebra.Order.Round
import Mathlib.Data.Nat.Log
import Mathlib.Data.Rat.Floor

/-!
# `OpenUI.WebApp.Payload`: what the agent answers, as the dashboard reads it

JavaScript's strings and numbers as far as the mappers need them, the JSON values of a response, and
the helpers of `data/validate.ts`.

A string that comes out of a JSON text is a Lean string; where its UTF-16 code units matter it is a
`JsString`. A number is a rational, and `toDouble` rounds to the nearest one that JavaScript has.
-/

set_option autoImplicit false

namespace OpenUI.WebApp.Js

open OpenUI.Text OpenUI.WebApp OpenUI.WebApp.Wifi

/-! ### Strings -/

/-- The code units of a string. -/
abbrev JsString := List UInt16

/-- The code units of a code point. -/
def unitsOfCode (n : Nat) : JsString :=
  if n < 0x10000 then [UInt16.ofNat n]
  else
    [UInt16.ofNat (0xD800 + (n - 0x10000) / 0x400), UInt16.ofNat (0xDC00 + (n - 0x10000) % 0x400)]

/-- The code units of a text. -/
def units (s : String) : JsString := s.toList.flatMap fun c => unitsOfCode c.toNat

/-! ### Numbers -/

/-- A power of `b`, also with a negative exponent. -/
def power (b : Nat) (e : Int) : ℚ :=
  if 0 ≤ e then (Nat.pow b e.toNat : Nat) else 1 / (Nat.pow b (-e).toNat : Nat)

/-- The nearest integer, and of two the even one. -/
def roundHalfEven (x : ℚ) : Int :=
  let rest := x - x.floor
  if rest < 1 / 2 then x.floor
  else if 1 / 2 < rest then x.floor + 1
  else if x.floor % 2 = 0 then x.floor else x.floor + 1

/-- The exponent `e` of a positive number between `2 ^ e` and `2 ^ (e + 1)`. -/
def binade (x : ℚ) : Int :=
  let e : Int := (Nat.log2 x.num.natAbs : Int) - Nat.log2 x.den
  if power 2 e ≤ x then e else e - 1

/-- The nearest double, unless it overflows. -/
def toDouble (x : ℚ) : Option ℚ :=
  if x = 0 then some 0
  else
    let size := |x|
    let e := max (binade size - 52) (-1074)
    let rounded := roundHalfEven (size / power 2 e) * power 2 e
    if power 2 1024 ≤ rounded then none else some (if x < 0 then -rounded else rounded)

/-- The digits of an exponent: `[eE][+-]?\d+`, or nothing. -/
def exponentOf : List Char → Option Int
  | [] => some 0
  | e :: rest =>
    let digits := if rest.head? = some '+' ∨ rest.head? = some '-' then rest.tail else rest
    if (e = 'e' ∨ e = 'E') ∧ digits ≠ [] ∧ digits.all isAsciiDigit then
      some (if rest.head? = some '-' then -(numberOf digits : Int) else numberOf digits)
    else none

/-- The value of a text that `NUMERIC_STRING` matches. -/
def numericText (t : List Char) : Option ℚ :=
  let body := if t.head? = some '+' ∨ t.head? = some '-' then t.tail else t
  let whole := body.takeWhile isAsciiDigit
  let rest := body.dropWhile isAsciiDigit
  let frac := if rest.head? = some '.' then rest.tail.takeWhile isAsciiDigit else []
  let tail := if rest.head? = some '.' then rest.tail.dropWhile isAsciiDigit else rest
  if whole = [] ∧ frac = [] then none
  else (exponentOf tail).map fun e =>
    let value := numberOf (whole ++ frac) * power 10 (e - frac.length)
    if t.head? = some '-' then -value else value

/-- The exponent `n` of a positive number between `10 ^ (n - 1)` and `10 ^ n`. -/
def decade (x : ℚ) : Int :=
  let n : Int := (Nat.log 10 x.num.natAbs : Int) - Nat.log 10 x.den
  if power 10 n ≤ x then n + 1 else n

/-- The fewest digits `s` for which `s * 10 ^ (n - k)` is read as the number again, where they are
`k` digits; of several the nearest. Seventeen digits suffice. -/
def shortestFrom (x : ℚ) (n : Int) : Nat → Nat → Nat × Nat × Int
  | 0, k => ((round (x * power 10 (k - n))).toNat, k, n)
  | fuel + 1, k =>
    let s := (round (x * power 10 (k - n))).toNat
    if toDouble (s * power 10 (n - k)) = some x then
      -- Nines that were rounded up are one digit more.
      if s = Nat.pow 10 k then (s / 10, k, n + 1) else (s, k, n)
    else shortestFrom x n fuel (k + 1)

/-- `String(x)` of a finite number. -/
def textOfNumber (x : ℚ) : String :=
  if x = 0 then "0"
  else
    let (s, k, n) := shortestFrom |x| (decade |x|) 16 1
    let digits := (toString s).toList
    let sign := if x < 0 then ['-'] else []
    let exponent := (if n - 1 < 0 then "-" else "+") ++ toString (n - 1).natAbs
    let text :=
      if (k : Int) ≤ n ∧ n ≤ 21 then digits ++ List.replicate (n - k).toNat '0'
      else if 0 < n ∧ n ≤ 21 then digits.take n.toNat ++ '.' :: digits.drop n.toNat
      else if -6 < n ∧ n ≤ 0 then '0' :: '.' :: (List.replicate (-n).toNat '0' ++ digits)
      else if k = 1 then digits ++ 'e' :: exponent.toList
      else digits.take 1 ++ '.' :: (digits.drop 1 ++ 'e' :: exponent.toList)
    String.ofList (sign ++ text)

/-- A JavaScript number. -/
inductive Number where
  | nan
  | infinite (negative : Bool)
  | finite (x : ℚ)
  deriving DecidableEq

/-- The double nearest to a number. -/
def nearest (x : ℚ) : Number :=
  match toDouble x with
  | some y => .finite y
  | none => .infinite (x < 0)

/-- The result of an operation on doubles that cannot overflow. -/
def double (x : ℚ) : ℚ := (toDouble x).getD 0

/-- `n || 0`. -/
def Number.orZero : Number → Number
  | .nan => .finite 0
  | n => n

/-- `String(n)`. -/
def Number.text : Number → String
  | .nan => "NaN"
  | .infinite negative => if negative then "-Infinity" else "Infinity"
  | .finite x => textOfNumber x

/-- `parseInt(text)`: the digits at the start, which are hexadecimal after `0x`. -/
def parseInt (text : String) : Number :=
  let t := trimText text
  let body := if t.head? = some '+' ∨ t.head? = some '-' then t.tail else t
  let hex := body.take 2 = ['0', 'x'] ∨ body.take 2 = ['0', 'X']
  let digits := if hex then (body.drop 2).takeWhile isAsciiHexdigit else body.takeWhile isAsciiDigit
  if digits = [] then .nan
  else
    let size : Nat := if hex then hexNumberOf digits else numberOf digits
    nearest (if t.head? = some '-' then -size else size)

/-- `Number(text)`. -/
def numberOfText (text : String) : Number :=
  let t := trimText text
  let digits := t.drop 2
  let hex := t.take 2 = ['0', 'x'] ∨ t.take 2 = ['0', 'X']
  let octal := t.take 2 = ['0', 'o'] ∨ t.take 2 = ['0', 'O']
  let binary := t.take 2 = ['0', 'b'] ∨ t.take 2 = ['0', 'B']
  let base (b : Nat) : Nat := digits.foldl (fun n c => b * n + (c.toNat - 0x30)) 0
  if t = [] then .finite 0
  else if t = "Infinity".toList ∨ t = "+Infinity".toList then .infinite false
  else if t = "-Infinity".toList then .infinite true
  else if hex ∧ digits ≠ [] ∧ digits.all isAsciiHexdigit then nearest (hexNumberOf digits)
  else if octal ∧ digits ≠ [] ∧ digits.all (fun c => '0' ≤ c && c ≤ '7') then nearest (base 8)
  else if binary ∧ digits ≠ [] ∧ digits.all (fun c => c == '0' || c == '1') then nearest (base 2)
  else match numericText t with
    | some x => nearest x
    | none => .nan

namespace Number

/-- `n / c`. -/
def dividedBy (n : Number) (c : ℚ) : Number :=
  match n with
  | .nan => .nan
  | .infinite negative => .infinite negative
  | .finite x => nearest (x / c)

/-- `Math.round(n)`. -/
def round : Number → Number
  | .finite x => .finite (x + 1 / 2).floor
  | n => n

/-- `Math.floor(n)`. -/
def floor : Number → Number
  | .finite x => .finite x.floor
  | n => n

/-- `n >= c`. -/
def atLeast (n : Number) (c : ℚ) : Bool :=
  match n with
  | .nan => false
  | .infinite negative => !negative
  | .finite x => c ≤ x

/-- `n <= c`. -/
def atMost (n : Number) (c : ℚ) : Bool :=
  match n with
  | .nan => false
  | .infinite negative => negative
  | .finite x => x ≤ c

/-- `n.toFixed(0)` of a number that is not negative. -/
def toFixed : Number → String
  | .finite x => if x < 1000000000000000000000 then toString (x + 1 / 2).floor else textOfNumber x
  | n => n.text

end Number

/-- `Number.isSafeInteger`. -/
def isSafeInteger (x : ℚ) : Bool := x.isInt && |x| ≤ 9007199254740991

/-! ### Values -/

/-- A JSON value. -/
inductive Value where
  | null
  | bool (b : Bool)
  | num (x : ℚ)
  | str (s : String)
  | arr (items : List Value)
  | obj (fields : List (String × Value))

namespace Value

/-- A field of an object; `none` is `undefined`. -/
def get (v : Value) (key : String) : Option Value :=
  match v with
  | .obj fields => fields.lookup key
  | _ => none

mutual

/-- `String(v)`. An object has no text when its own `toString` hides the inherited one: then a
`TypeError` is thrown, which is `none`. -/
def toText : Value → Option String
  | .null => some "null"
  | .bool b => some (toString b)
  | .num x => some (textOfNumber x)
  | .str s => some s
  | .arr items => (itemTexts items).map (",".intercalate ·)
  | .obj fields => if (fields.lookup "toString").isSome then none else some "[object Object]"

/-- The texts of an array's items, as `join` takes them. -/
def itemTexts : List Value → Option (List String)
  | [] => some []
  | v :: rest =>
    match toText v, itemTexts rest with
    | some text, some texts => some ((match v with | .null => "" | _ => text) :: texts)
    | _, _ => none

end

/-- `Number(v)`, which throws where `String(v)` does. -/
def toNumber : Value → Option Number
  | .null => some (.finite 0)
  | .bool b => some (.finite (if b then 1 else 0))
  | .num x => some (.finite x)
  | v => v.toText.map numberOfText

end Value

/-- A value that a condition takes for false. -/
def falsy : Option Value → Bool
  | none => true
  | some .null => true
  | some (.bool b) => !b
  | some (.num x) => x == 0
  | some (.str s) => s == ""
  | some (.arr _) => false
  | some (.obj _) => false

/-- `v?.[0]`. -/
def first : Option Value → Option Value
  | some (.arr items) => items.head?
  | some (.obj fields) => fields.lookup "0"
  | some (.str s) => s.toList.head?.map fun c => .str (String.singleton c)
  | _ => none

/-- `v?.key`. -/
def member (v : Option Value) (key : String) : Option Value := v.bind (·.get key)

/-- `String(v ?? fallback)`. -/
def textOr (v : Option Value) (fallback : String) : Option String :=
  match v with
  | none => some fallback
  | some .null => some fallback
  | some v => v.toText

/-- What stands in a field that is declared as a number. -/
inductive Field where
  /-- `undefined` or `null`. -/
  | unknown
  | number (n : Number)
  /-- A value of another type, which was not looked at. -/
  | other (v : Value)

/-- `v as number`. -/
def cast : Option Value → Field
  | none => .unknown
  | some .null => .unknown
  | some (.num x) => .number (.finite x)
  | some v => .other v

/-- A number that was checked. -/
def checked : Option ℚ → Field
  | none => .unknown
  | some x => .number (.finite x)

/-! ### `data/validate.ts` -/

/-- `finiteNumber`. -/
def finiteNumber : Option Value → Option ℚ
  | some (.num x) => some x
  | some (.str s) => (numericText (trimText s)).bind toDouble
  | _ => none

/-- `nonNegative`. -/
def nonNegative (v : Option Value) : Option ℚ := (finiteNumber v).filter (0 ≤ ·)

/-- `intInRange`. -/
def intInRange (v : Option Value) (min max : ℚ) : Option ℚ :=
  (finiteNumber v).filter fun n => n.isInt && min ≤ n && n ≤ max

/-- `nonNegativeInt`. -/
def nonNegativeInt (v : Option Value) : Option ℚ := (nonNegative v).filter isSafeInteger

/-- `str`. -/
def str : Option Value → Option String
  | some (.str s) => some s
  | _ => none

/-- `boolLike`. -/
def boolLike : Option Value → Option Bool
  | some (.bool b) => some b
  | some (.num x) => if x = 1 then some true else if x = 0 then some false else none
  | some (.str s) =>
    let t := String.ofList ((trimText s).map lowerChar)
    if t ∈ ["1", "true", "on", "yes", "enabled", "enable"] then some true
    else if t ∈ ["0", "false", "off", "no", "disabled", "disable"] then some false
    else none
  | _ => none

/-- `nonEmptyStr`. -/
def nonEmptyStr (v : Option Value) : Option String := (str v).filter fun s => trimText s ≠ []

/-- `isObj`. -/
def isObj : Option Value → Bool
  | some (.obj _) => true
  | _ => false

end OpenUI.WebApp.Js
