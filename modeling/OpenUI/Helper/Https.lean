import OpenUI.Euicc.Coding
import OpenUI.Text

/-!
# `OpenUI.Helper.Https`: the answers of an ES9+ server

`esim-helper/src/https.rs`: what is read of an HTTP answer, and when reading stops. A `usize` has 64
bits. An addition that leaves them is a fault when the build checks for overflow and wraps around
when it does not, and a slice out of range is a fault in every build. Sums of positions in a buffer
stay below its length, which `headEnd` and `decodeChunkedFrom` do not check again.
-/

set_option autoImplicit false

namespace OpenUI.Helper.Https

open OpenUI.Euicc OpenUI.Text

/-! ### What can go wrong -/

/-- Why a computation does not end with a value. -/
inductive Fault where
  | overflow
  | outOfRange
  /-- The loop had too few turns. -/
  | unfinished
  deriving DecidableEq, Repr

/-- An addition of two `usize`s. -/
def add (checks : Bool) (a b : Nat) : Except Fault Nat :=
  if a + b < UInt64.size then .ok (a + b)
  else if checks then .error .overflow
  else .ok ((a + b) % UInt64.size)

/-- `&bytes[..n]`. -/
def sliceTo (bytes : Bytes) (n : Nat) : Except Fault Bytes :=
  if n ≤ bytes.length then .ok (bytes.take n) else .error .outOfRange

/-- `&bytes[n..]`. -/
def sliceFrom (bytes : Bytes) (n : Nat) : Except Fault Bytes :=
  if n ≤ bytes.length then .ok (bytes.drop n) else .error .outOfRange

/-! ### Texts and numbers -/

/-- `std::str::from_utf8`: text is what is read and written back without a loss. -/
def fromUtf8 (bytes : Bytes) : Option String :=
  if utf8 (fromUtf8Lossy bytes) = bytes then some (fromUtf8Lossy bytes) else none

/-- `windows(pattern.len()).position`. -/
def position (pattern : Bytes) : Bytes → Option Nat
  | [] => none
  | b :: bytes =>
    if pattern <+: b :: bytes then some 0 else (position pattern bytes).map (· + 1)

/-- The value of a decimal digit. -/
def decimalValue (c : Char) : Option Nat :=
  if 0x30 ≤ c.toNat ∧ c.toNat ≤ 0x39 then some (c.toNat - 0x30) else none

/-- The value of a hexadecimal digit. -/
def hexValue (c : Char) : Option Nat :=
  if 0x30 ≤ c.toNat ∧ c.toNat ≤ 0x39 then some (c.toNat - 0x30)
  else if 0x61 ≤ c.toNat ∧ c.toNat ≤ 0x66 then some (c.toNat - 0x61 + 10)
  else if 0x41 ≤ c.toNat ∧ c.toNat ≤ 0x46 then some (c.toNat - 0x41 + 10)
  else none

/-- The number that some digits continue. -/
def digitsFrom (value : Char → Option Nat) (radix : Nat) : Nat → List Char → Option Nat
  | n, [] => some n
  | n, c :: cs => (value c).bind fun d => digitsFrom value radix (n * radix + d) cs

/-- What follows an optional plus sign. -/
def withoutPlus : List Char → List Char
  | '+' :: rest => rest
  | s => s

/-- `from_str_radix` of an unsigned number below `size`. -/
def parseNumber (value : Char → Option Nat) (radix size : Nat) (s : List Char) : Option Nat :=
  if withoutPlus s = [] then none
  else (digitsFrom value radix 0 (withoutPlus s)).filter (· < size)

/-! ### Chunks -/

/-- The end of a line. -/
def crlf : Bytes := [0x0D, 0x0A]

/-- The size on the first line of a chunk. -/
def chunkSize (line : Bytes) : Option Nat :=
  (fromUtf8 line).bind fun sizeText =>
    parseNumber hexValue 16 UInt64.size (trimChars (sizeText.toList.takeWhile (· ≠ ';')))

/-- The loop of `decode_chunked`. Each turn takes at least a line. -/
def decodeChunkedFrom (checks : Bool) : Nat → Bytes → Bytes → Except Fault (Option Bytes)
  | 0, _, _ => .error .unfinished
  | turns + 1, out, body =>
    match position crlf body with
    | none => .ok none
    | some lineEnd => do
      let line ← sliceTo body lineEnd
      match chunkSize line with
      | none => .ok none
      | some size => do
        let body ← sliceFrom body (lineEnd + 2)
        if size = 0 then
          -- Optional trailers, then the blank line that ends the message.
          return (position crlf body).map fun _ => out
        else do
          -- Behind the chunk stands the end of a line, which is not looked at.
          let stop ← add checks size 2
          if body.length < stop then return none
          else do
            let chunk ← sliceTo body size
            let body ← sliceFrom body stop
            decodeChunkedFrom checks turns (out ++ chunk) body

/-- `decode_chunked`: the body of a chunked answer, once its last chunk has arrived. -/
def decodeChunked (checks : Bool) (body : Bytes) : Except Fault (Option Bytes) :=
  decodeChunkedFrom checks (body.length + 1) [] body

/-! ### Answers -/

/-- `head_end`: where the body begins. -/
def headEnd (answer : Bytes) : Option Nat := (position (crlf ++ crlf) answer).map (· + 4)

/-- `header`: the value of the first header of a name. -/
def header (head name : String) : Option String :=
  ((lines head).drop 1).findSome? fun l =>
    -- A line without a colon is passed over.
    match splitOnce ':' l with
    | none => none
    | some (k, v) => if eqIgnoreAsciiCase (trim k) name then some (trim v) else none

/-- `is_chunked`. -/
def isChunked (head : String) : Bool :=
  (header head "transfer-encoding").any fun v => contains (toAsciiLowercase v) "chunked"

/-- The length that a head gives, if it is a number. -/
def contentLength (head : String) : Option Nat :=
  (header head "content-length").bind fun v =>
    parseNumber decimalValue 10 UInt64.size v.toList

/-- A head that `response_complete` takes for one without a body. -/
def isBodiless (head : String) : Bool :=
  (stripPrefix "http/1.1 204" (toAsciiLowercase head)).isSome
    || (stripPrefix "http/1.0 204" (toAsciiLowercase head)).isSome

/-- `response_complete`: the whole answer is in when its head says how long the body is and that
much has arrived, or a chunked body's last chunk has. -/
def responseComplete (checks : Bool) (answer : Bytes) : Except Fault Bool :=
  match headEnd answer with
  | none => .ok false
  | some stop => do
    -- Here the head need not be text; in `parse_response` it must be.
    let head := fromUtf8Lossy (← sliceTo answer stop)
    if isBodiless head then return true
    else if isChunked head then do
      let body ← sliceFrom answer stop
      let decoded ← decodeChunked checks body
      return decoded.isSome
    else match contentLength head with
      | none => return false
      | some length => do
        let stop ← add checks stop length
        return decide (stop ≤ answer.length)

/-- The status on the first line of a head. -/
def status (head : String) : Except String Nat :=
  let parts := splitWhitespace ((lines head).headD "")
  if !(parts.head?.any fun v => decide ("HTTP/1.".toList <+: v)) then
    .error "not an HTTP/1.x answer"
  else
    let code := (parts[1]?.bind (parseNumber decimalValue 10 UInt32.size)).filter fun c =>
      100 ≤ c && c < 600
    match code with
    | none => .error "no HTTP status"
    | some code => .ok code

/-- `parse_response`: status and body of an HTTP/1.x answer. -/
def parseResponse (checks : Bool) (answer : Bytes) :
    Except Fault (Except String (Nat × Bytes)) :=
  match headEnd answer with
  | none => return .error "incomplete HTTP answer"
  | some stop => do
    match fromUtf8 (← sliceTo answer stop) with
    | none => return .error "HTTP head is not text"
    | some head =>
      match status head with
      | .error e => return .error e
      | .ok code => do
        let body ← sliceFrom answer stop
        if isChunked head then do
          match ← decodeChunked checks body with
          | none => return .error "incomplete chunked answer"
          | some decoded => return .ok (code, decoded)
        else do
          -- An answer without a length goes up to the end of the connection.
          let length := (contentLength head).getD body.length
          let body ← sliceTo body (min length body.length)
          return .ok (code, body)

end OpenUI.Helper.Https
