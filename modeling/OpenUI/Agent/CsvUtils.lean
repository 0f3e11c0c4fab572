import Mathlib.Data.Int.Notation
import OpenUI.Text

/-!
# `OpenUI.Agent.CsvUtils`: the time stamps and the fields of the logs

`agent/src/csv_utils.rs`: every row of a CSV file and every line of the diagnostic log begins with
the device's time. The numbers are those of an `i64`; none of them overflows. Rust's `/` and `%`
round towards zero. The other fields of a row are taken from a JSON object.
-/

set_option autoImplicit false

namespace OpenUI.Agent.CsvUtils

/-- `format!("{n:0width}")`: the sign counts. -/
def zeroPadded (width : Nat) (n : Int) : List Char :=
  let sign : List Char := if n < 0 then ['-'] else []
  let digits := Nat.toDigits 10 n.natAbs
  sign ++ List.replicate (width - sign.length - digits.length) '0' ++ digits

/-- A date. -/
structure Civil where
  yr : Int
  mo : Int
  d : Int
  deriving DecidableEq, Repr

/-- The year of the era, of a day of the era. -/
def yearOfEra (doe : Int) : Int :=
  (doe - doe.tdiv 1460 + doe.tdiv 36524 - doe.tdiv 146096).tdiv 365

/-- The date of a day of a year that begins in March. -/
def dateOf (y doy : Int) : Civil :=
  let mp := (5 * doy + 2).tdiv 153
  let d := doy - (153 * mp + 2).tdiv 5 + 1
  let mo := if mp < 10 then mp + 3 else mp - 9
  let yr := if mo ≤ 2 then y + 1 else y
  { yr, mo, d }

/-- The date of a day. -/
def civil (days : Int) : Civil :=
  let z := days + 719468
  let era := z / 146097
  let doe := z % 146097
  let yoe := yearOfEra doe
  let y := yoe + era * 400
  let doy := doe - (365 * yoe + yoe.tdiv 4 - yoe.tdiv 100)
  dateOf y doy

/-- `device_datetime`: `YYYY-MM-DDTHH:MM:SS`, without a zone. -/
def deviceDatetime (epoch : UInt64) : String :=
  let secs : Int := epoch.toInt64.toInt
  let days := secs.tdiv 86400
  let time := secs.tmod 86400
  let h := time.tdiv 3600
  let m := (time.tmod 3600).tdiv 60
  let s := time.tmod 60
  let date := civil days
  String.ofList (zeroPadded 4 date.yr ++ '-' :: (zeroPadded 2 date.mo ++ '-' ::
    (zeroPadded 2 date.d ++ 'T' :: (zeroPadded 2 h ++ ':' :: (zeroPadded 2 m ++ ':' ::
      zeroPadded 2 s)))))

/-! ### Fields -/

/-- A character of a number that serde_json prints. -/
def isNumberChar (c : Char) : Bool :=
  Text.isAsciiDigit c || c == '-' || c == '+' || c == '.' || c == 'e'

/-- The text of a `serde_json::Number`. -/
structure NumberText where
  text : String
  printed : text.toList.all isNumberChar = true

/-- What a field of a JSON object holds, as far as it becomes text. -/
inductive FieldValue where
  | string (s : String)
  | number (n : NumberText)
  /-- `null`, a boolean, an array or an object. -/
  | other

/-- A JSON object. -/
abbrev Info := List (String × FieldValue)

/-- `str_field`. -/
def strField (data : Info) (key : String) : String :=
  match data.lookup key with
  | some (.string s) => s
  | some (.number n) => n.text
  | _ => ""

/-- The text is to stand in quotes. -/
def needsQuotes (s : String) : Bool :=
  s.toList.contains ',' || s.toList.contains '"' || s.toList.contains '\n'

/-- `csv_escape`. -/
def csvEscape (s : String) : String :=
  if needsQuotes s then "\"" ++ Text.replace "\"" "\"\"" s ++ "\"" else s

end OpenUI.Agent.CsvUtils
