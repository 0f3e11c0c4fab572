import OpenUI.Euicc.Coding

/-!
# `OpenUI.Euicc.Es9p`: the JSON that goes to an ES9+ server and comes back

`euicc/src/es9p.rs`: a printer for an object of strings, and a lenient parser with a stack of its
own. The parser looks at its input by index. A `?` on a missing byte rejects the input, and an index
or a slice that is out of range would be a fault. Loops take a number of turns, and would be
unfinished without enough of them.
-/

set_option autoImplicit false

namespace OpenUI.Euicc.Es9p

/-- A parsed JSON value, keeping only what ES9+ reads: strings and shallow objects. -/
inductive Json where
  | str (value : Bytes)
  /-- Members in document order, duplicates included. -/
  | obj (members : List (Bytes × Json))
  /-- null, booleans, numbers, arrays, and objects nested deeper than `keepDepth`. -/
  | other

/-! ### Writing -/

/-- `HEX`: a hexadecimal digit. -/
def hexDigitByte (n : UInt8) : UInt8 := if n < 10 then n + 0x30 else n - 10 + 0x61

/-- What `print_string` writes for one byte. -/
def printByte (b : UInt8) : Bytes :=
  if b = 0x22 then [0x5C, 0x22]
  else if b = 0x5C then [0x5C, 0x5C]
  else if b = 0x08 then [0x5C, 0x62]
  else if b = 0x0C then [0x5C, 0x66]
  else if b = 0x0A then [0x5C, 0x6E]
  else if b = 0x0D then [0x5C, 0x72]
  else if b = 0x09 then [0x5C, 0x74]
  else if b ≤ 0x1F then
    [0x5C, 0x75, 0x30, 0x30, hexDigitByte (b >>> 4), hexDigitByte (b &&& 15)]
  else [b]

/-- `print_string`: escapes quotes, backslashes and control characters; copies other bytes. -/
def printString (s : Bytes) : Bytes := 0x22 :: s.flatMap printByte ++ [0x22]

/-- `c_bytes`: everything before the first NUL. -/
def cBytes (bytes : Bytes) : Bytes := bytes.takeWhile (· ≠ 0)

/-- One member of a printed object. -/
def printMember (member : String × Option String) : Bytes :=
  printString (cBytes (utf8 member.1)) ++ 0x3A ::
    (match member.2 with
    | some v => printString (cBytes (utf8 v))
    | none => [0x6E, 0x75, 0x6C, 0x6C])

/-- `print_object`: an object of strings (`none` prints as `null`), members in order. -/
def printObject (members : List (String × Option String)) : Bytes :=
  0x7B :: [0x2C].intercalate (members.map printMember) ++ [0x7D]

/-! ### Numbers -/

/-- Why parsing ends without a value. -/
inductive Stop where
  /-- The input is not JSON. -/
  | rejected
  | outOfRange
  | unfinished
  deriving DecidableEq, Repr

/-- `bytes[i]`. -/
def index (bytes : Bytes) (i : Nat) : Except Stop UInt8 :=
  match bytes[i]? with
  | some b => .ok b
  | none => .error .outOfRange

/-- `bytes.get(i)?`. -/
def getOr (bytes : Bytes) (i : Nat) : Except Stop UInt8 :=
  match bytes[i]? with
  | some b => .ok b
  | none => .error .rejected

/-- `bytes.get(first..last)`. -/
def getSlice (bytes : Bytes) (first last : Nat) : Option Bytes :=
  if first ≤ last ∧ last ≤ bytes.length then some ((bytes.drop first).take (last - first)) else none

/-- `&bytes[first..last]`. -/
def slice (bytes : Bytes) (first last : Nat) : Except Stop Bytes :=
  match getSlice bytes first last with
  | some piece => .ok piece
  | none => .error .outOfRange

/-- `is_ascii_digit`. -/
def isDigit (b : UInt8) : Bool := 0x30 ≤ b && b ≤ 0x39

/-- A plus or minus sign. -/
def isSign (b : UInt8) : Bool := b == 0x2B || b == 0x2D

/-- A byte of the run that `parse_number` hands to `strtod`. -/
def isNumberByte (b : UInt8) : Bool :=
  isDigit b || isSign b || b == 0x65 || b == 0x45 || b == 0x2E

/-- `digits`: how many digits stand at a place. -/
def digitsAt (s : Bytes) (place : Nat) : Nat := ((s.drop place).takeWhile isDigit).length

/-- The place after an optional sign. -/
def signEnd (s : Bytes) (i : Nat) : Nat := if s[i]?.any isSign then i + 1 else i

/-- The exponent in `strtod_len`: the place after it, or the same place. -/
def exponentEnd (s : Bytes) (i : Nat) : Nat :=
  if s[i]? = some 0x65 ∨ s[i]? = some 0x45 then
    let e := signEnd s (i + 1)
    let expDigits := digitsAt s e
    if 0 < expDigits then e + expDigits else i
  else i

/-- `strtod_len`: how many bytes of `s` C's `strtod` would convert; 0 if none. -/
def strtodLen (s : Bytes) : Nat :=
  let i := signEnd s 0
  let intDigits := digitsAt s i
  let i := i + intDigits
  let fracDigits := if s[i]? = some 0x2E then digitsAt s (i + 1) else 0
  -- A point alone is no number, so it is only passed with a digit on one side.
  let i := if s[i]? = some 0x2E ∧ 0 < intDigits + fracDigits then i + 1 + fracDigits else i
  if intDigits + fracDigits = 0 then 0 else exponentEnd s i

/-- `number`: the place after a number. -/
def number (s : Bytes) (i : Nat) : Except Stop Nat :=
  match strtodLen ((s.drop i).takeWhile isNumberByte) with
  | 0 => .error .rejected
  | n + 1 => .ok (i + (n + 1))

/-! ### Strings -/

/-- `hex4`: four hex digits, or 0 if any is not one. -/
def hex4 (s : Bytes) : Nat :=
  ((s.take 4).foldlM (fun h c => (hexDigit c).map fun d => h * 16 + d.toNat) 0).getD 0

/-- The number of a surrogate pair. -/
def joinSurrogates (first second : Nat) : Nat :=
  0x10000 + (first % 0x400 * 0x400 + second % 0x400)

/-- `char::from_u32` and `char::encode_utf8`. -/
def encodeCodepoint (codepoint : Nat) : Except Stop Bytes :=
  if codepoint.isValidChar then .ok (String.utf8EncodeChar (Char.ofNat codepoint))
  else .error .rejected

/-- `utf16_literal`: the bytes of an escape, and how many input bytes it used. `s` runs from the
backslash to the closing quote. -/
def utf16Literal (s : Bytes) : Except Stop (Bytes × Nat) :=
  if s.length < 6 then .error .rejected
  else do
    let first := hex4 (← slice s 2 6)
    -- The second half of a pair may not come first.
    if 0xDC00 ≤ first ∧ first ≤ 0xDFFF then .error .rejected
    else if 0xD800 ≤ first ∧ first ≤ 0xDBFF then
      match getSlice s 6 12 with
      | none => .error .rejected
      | some second =>
        if ¬ [0x5C, 0x75] <+: second then .error .rejected
        else do
          let second := hex4 (← slice second 2 second.length)
          if ¬ (0xDC00 ≤ second ∧ second ≤ 0xDFFF) then .error .rejected
          else do
            let bytes ← encodeCodepoint (joinSurrogates first second)
            return (bytes, 12)
    else do
      let bytes ← encodeCodepoint first
      return (bytes, 6)

/-- The first loop of `string`: the closing quote, stepping over the byte after each backslash. -/
def closingQuote (s : Bytes) : Nat → Nat → Except Stop Nat
  | 0, _ => .error .unfinished
  | turns + 1, place => do
    let b ← getOr s place
    if b = 0x22 then return place
    -- The byte after a backslash is passed over, also where it is a quote.
    else if b = 0x5C then closingQuote s turns (place + 2)
    else closingQuote s turns (place + 1)

/-- The byte of an escape with one letter. -/
def simpleEscape (c : UInt8) : Option UInt8 :=
  if c = 0x62 then some 0x08
  else if c = 0x66 then some 0x0C
  else if c = 0x6E then some 0x0A
  else if c = 0x72 then some 0x0D
  else if c = 0x74 then some 0x09
  else if c = 0x22 ∨ c = 0x5C ∨ c = 0x2F then some c
  else none

/-- What the escape at a place stands for, and how many bytes it takes. `c` is the byte after the
backslash. -/
def escape (s : Bytes) (quote place : Nat) (c : UInt8) : Except Stop (Bytes × Nat) :=
  match simpleEscape c with
  | some b => .ok ([b], 2)
  | none =>
    if c = 0x75 then
      match getSlice s place quote with
      | none => .error .rejected
      | some literal => utf16Literal literal
    else .error .rejected

/-- The second loop of `string`: the bytes up to the closing quote. -/
def unescape (s : Bytes) (quote : Nat) : Nat → Nat → Bytes → Except Stop Bytes
  | 0, _, _ => .error .unfinished
  | turns + 1, place, out =>
    if quote ≤ place then .ok out
    else do
      let b ← index s place
      if b ≠ 0x5C then unescape s quote turns (place + 1) (out ++ [b])
      else do
        -- This byte may be the closing quote itself, when a \u swallowed the backslash before.
        let c ← getOr s (place + 1)
        let (bytes, used) ← escape s quote place c
        unescape s quote turns (place + used) (out ++ bytes)

/-- `string`, at the opening quote: the string, and the place after it. -/
def string (s : Bytes) (i : Nat) : Except Stop (Bytes × Nat) := do
  let quote ← closingQuote s (s.length + 1) (i + 1)
  let out ← unescape s quote (s.length + 1) (i + 1) []
  return (out, quote + 1)

/-! ### Values -/

/-- `skip_whitespace`: every byte up to 0x20 is whitespace. -/
def skipWhitespace (s : Bytes) (i : Nat) : Nat := i + ((s.drop i).takeWhile (· ≤ 32)).length

/-- `member_name`: a member name, the `:` after it and the whitespace before the value. -/
def memberName (s : Bytes) (i : Nat) : Except Stop (Bytes × Nat) :=
  if s[i]? ≠ some 0x22 then .error .rejected
  else do
    let (name, i) ← string s i
    let i := skipWhitespace s i
    if s[i]? ≠ some 0x3A then .error .rejected
    else return (name, skipWhitespace s (i + 1))

/-- `NESTING_LIMIT`: arrays and objects open at once. -/
def nestingLimit : Nat := 1000

/-- `KEEP_DEPTH`: objects are kept down to the root's great-grandchildren; deeper ones are checked
and dropped. -/
def keepDepth : Nat := 4

/-- `Frame`: an open container. -/
inductive Frame where
  | array
  /-- Members so far (`none` when this object is not kept) and the name of the member whose value is
  being parsed. -/
  | object (members : Option (List (Bytes × Json))) (name : Bytes)

/-- What the start of a value leads to. -/
inductive Started where
  | finished (value : Json) (i : Nat)
  /-- A container with something in it. -/
  | opened (frame : Frame) (i : Nat)

/-- What an opening bracket starts, with so many containers open. -/
def startArray (s : Bytes) (i depth : Nat) : Except Stop Started :=
  if nestingLimit ≤ depth then .error .rejected
  else
    let i := skipWhitespace s (i + 1)
    if s[i]? = some 0x5D then .ok (.finished .other (i + 1)) else .ok (.opened .array i)

/-- What an opening brace starts, with so many containers open. -/
def startObject (s : Bytes) (i depth : Nat) : Except Stop Started :=
  if nestingLimit ≤ depth then .error .rejected
  else
    let keep := depth < keepDepth
    let i := skipWhitespace s (i + 1)
    if s[i]? = some 0x7D then .ok (.finished (if keep then .obj [] else .other) (i + 1))
    -- A member starts with its name, which is read before the object is opened.
    else do
      let (name, i) ← memberName s i
      return .opened (.object (if keep then some [] else none) name) i

/-- The first part of the loop of `parse`: one value starts here, with so many containers open. -/
def startValue (s : Bytes) (i depth : Nat) : Except Stop Started := do
  let b ← getOr s i
  if b = 0x6E ∧ [0x6E, 0x75, 0x6C, 0x6C] <+: s.drop i then return .finished .other (i + 4)
  else if b = 0x66 ∧ [0x66, 0x61, 0x6C, 0x73, 0x65] <+: s.drop i then
    return .finished .other (i + 5)
  else if b = 0x74 ∧ [0x74, 0x72, 0x75, 0x65] <+: s.drop i then return .finished .other (i + 4)
  else if b = 0x22 then do
    let (value, i) ← string s i
    return .finished (.str value) i
  else if b = 0x2D ∨ isDigit b then do
    let i ← number s i
    return .finished .other i
  else if b = 0x5B then startArray s i depth
  else if b = 0x7B then startObject s i depth
  else .error .rejected

/-- A finished value goes to its container. -/
def Frame.push (value : Json) : Frame → Frame
  | .object (some members) name => .object (some (members ++ [(name, value)])) []
  | frame => frame

/-- What closes a container. -/
def Frame.close : Frame → UInt8
  | .array => 0x5D
  | .object _ _ => 0x7D

/-- A container that was closed. -/
def Frame.value : Frame → Json
  | .object (some members) _ => .obj members
  | _ => .other

/-- The name of the next member, if this is an object. -/
def Frame.next (s : Bytes) (i : Nat) : Frame → Except Stop (Frame × Nat)
  | .array => .ok (.array, i)
  | .object members _ => do
    let (name, i) ← memberName s i
    return (.object members name, i)

mutual

/-- The loop of `parse`: one value starts at `i`, with whitespace already skipped. -/
def valueLoop (s : Bytes) : Nat → Nat → List Frame → Except Stop Json
  | 0, _, _ => .error .unfinished
  | turns + 1, i, stack => do
    match ← startValue s i stack.length with
    | .opened frame i => valueLoop s turns i (frame :: stack)
    | .finished value i => handOver s turns i stack value

/-- The inner loop of `parse`: a finished value goes to its container, and the containers that end
here are closed. -/
def handOver (s : Bytes) : Nat → Nat → List Frame → Json → Except Stop Json
  | 0, _, _, _ => .error .unfinished
  | _ + 1, _, [], value => .ok value
  | turns + 1, i, frame :: stack, value => do
    let frame := frame.push value
    let i := skipWhitespace s i
    -- A comma leads to the next value of the same container, its closing byte to the one around
    -- it.
    if s[i]? = some 0x2C then do
      let (frame, i) ← frame.next s (skipWhitespace s (i + 1))
      valueLoop s turns i (frame :: stack)
    else if s[i]? = some frame.close then handOver s turns (i + 1) stack frame.value
    else .error .rejected

end

/-- `parse`: input ends at the first NUL; a byte-order mark is skipped; anything after the first
complete value is ignored. -/
def parse (input : Bytes) : Except Stop Json :=
  let s := cBytes input
  let i := if [0xEF, 0xBB, 0xBF] <+: s then 3 else 0
  valueLoop s (s.length + 2) (skipWhitespace s i) []

end OpenUI.Euicc.Es9p
