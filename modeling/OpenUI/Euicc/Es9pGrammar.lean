import OpenUI.Euicc.Es9p

/-!
# `OpenUI.Euicc.Es9pGrammar`: the lenient JSON grammar, recursively

What the parser of `OpenUI.Euicc.Es9p` is documented to accept, as a recursive reader of what is
left of the input. Nothing here is translated from the source. A reader gives what it read and what
it left, or nothing. Turns only bound the recursion; twice the length of the input is enough.

* NUL ends the input, a byte-order mark may begin it, and what follows the root is ignored.
* Every byte up to 0x20 is whitespace.
* A number is what C's `strtod` takes of the run of digits, signs, points and exponents.
* A string ends at the first quote that no backslash stands before, pair by pair.
* At most `nestingLimit` containers are open, and objects are kept down to `keepDepth`.
-/

set_option autoImplicit false

namespace OpenUI.Euicc.Es9p.Grammar

/-- What follows whitespace. -/
def skipWhitespace (input : Bytes) : Bytes := input.dropWhile (· ≤ 32)

/-! ### Numbers -/

/-- What follows an optional sign. -/
def dropSign : Bytes → Bytes
  | [] => []
  | b :: rest => if isSign b then rest else b :: rest

/-- What follows an optional exponent. One without digits is none. -/
def exponent : Bytes → Bytes
  | [] => []
  | e :: rest =>
    if (e = 0x65 ∨ e = 0x45) ∧ (dropSign rest).takeWhile isDigit ≠ [] then
      (dropSign rest).dropWhile isDigit
    else e :: rest

/-- What follows the first digits of a number: a point with digits, and an exponent. There is a
digit before the exponent. -/
def afterWhole (whole : Bytes) : Bytes → Option Bytes
  | [] => if whole = [] then none else some []
  | b :: rest =>
    if b = 0x2E then
      -- A point needs a digit on one side of it.
      if whole = [] ∧ rest.takeWhile isDigit = [] then none
      else some (exponent (rest.dropWhile isDigit))
    else if whole = [] then none
    else some (exponent (b :: rest))

/-- What C's `strtod` leaves of a run. -/
def strtod (run : Bytes) : Option Bytes :=
  afterWhole ((dropSign run).takeWhile isDigit) ((dropSign run).dropWhile isDigit)

/-- A number. -/
def number (input : Bytes) : Option Bytes :=
  (strtod (input.takeWhile isNumberByte)).map (· ++ input.dropWhile isNumberByte)

/-! ### Strings -/

/-- The contents of a string, and what follows its closing quote. -/
def toQuote : Bytes → Option (Bytes × Bytes)
  | [] => none
  | b :: rest =>
    if b = 0x22 then some ([], rest)
    else if b = 0x5C then
      match rest with
      | [] => none
      | c :: rest => (toQuote rest).map fun p => (b :: c :: p.1, p.2)
    else (toQuote rest).map fun p => (b :: p.1, p.2)

/-- The first half of a surrogate pair. -/
def isHigh (n : Nat) : Bool := 0xD800 ≤ n && n ≤ 0xDBFF

/-- The second half of a surrogate pair. -/
def isLow (n : Nat) : Bool := 0xDC00 ≤ n && n ≤ 0xDFFF

/-- The contents of a string with their escapes read. Bad digits read as NUL. A backslash at the end
is one whose partner was taken for a digit, and escapes the closing quote. -/
def unescape : Bytes → Option Bytes
  | [] => some []
  | b :: rest =>
    if b ≠ 0x5C then (unescape rest).map (b :: ·)
    else match rest with
      | [] => some [0x22]
      | c :: rest =>
        if (simpleEscape c).isSome then (unescape rest).map ((simpleEscape c).toList ++ ·)
        else if c ≠ 0x75 then none
        else match rest with
          | d₁ :: d₂ :: d₃ :: d₄ :: rest =>
            let first := hex4 [d₁, d₂, d₃, d₄]
            -- A pair is two escapes; each half alone is rejected.
            if isLow first then none
            else if !isHigh first then
              (unescape rest).map (String.utf8EncodeChar (Char.ofNat first) ++ ·)
            else match rest with
              | b₂ :: c₂ :: e₁ :: e₂ :: e₃ :: e₄ :: rest =>
                let second := hex4 [e₁, e₂, e₃, e₄]
                if b₂ = 0x5C ∧ c₂ = 0x75 ∧ isLow second then
                  (unescape rest).map
                    (String.utf8EncodeChar (Char.ofNat (joinSurrogates first second)) ++ ·)
                else none
              | _ => none
          | _ => none

/-- A string, behind its opening quote. -/
def string (input : Bytes) : Option (Bytes × Bytes) :=
  (toQuote input).bind fun p => (unescape p.1).map fun value => (value, p.2)

/-! ### Values -/

/-- What follows a byte, where the input begins with it. -/
def after (b : UInt8) : Bytes → Option Bytes
  | [] => none
  | c :: rest => if c = b then some rest else none

/-- The name of a member, with the colon and the whitespace before the value. -/
def memberName (input : Bytes) : Option (Bytes × Bytes) :=
  (after 0x22 input).bind fun rest =>
    (string rest).bind fun p =>
      (after 0x3A (skipWhitespace p.2)).map fun rest => (p.1, skipWhitespace rest)

/-- An object with so many containers around it. -/
def kept (depth : Nat) (members : List (Bytes × Json)) : Json :=
  if depth < keepDepth then .obj members else .other

mutual

/-- A value with so many containers around it. -/
def value : Nat → Nat → Bytes → Option (Json × Bytes)
  | 0, _, _ => none
  | _ + 1, _, [] => none
  | turns + 1, depth, b :: rest =>
    if [0x6E, 0x75, 0x6C, 0x6C] <+: b :: rest then some (.other, rest.drop 3)
    else if [0x66, 0x61, 0x6C, 0x73, 0x65] <+: b :: rest then some (.other, rest.drop 4)
    else if [0x74, 0x72, 0x75, 0x65] <+: b :: rest then some (.other, rest.drop 3)
    else if b = 0x22 then (string rest).map fun p => (.str p.1, p.2)
    else if b = 0x2D ∨ isDigit b then (number (b :: rest)).map (Json.other, ·)
    -- What is left are containers, and only so many of them may be open.
    else if nestingLimit ≤ depth then none
    else if b = 0x5B then
      ((after 0x5D (skipWhitespace rest)).or
        (elements turns (depth + 1) (skipWhitespace rest))).map (Json.other, ·)
    else if b = 0x7B then
      (((after 0x7D (skipWhitespace rest)).map ([], ·)).or
        ((memberName (skipWhitespace rest)).bind fun p =>
          members turns (depth + 1) p.1 p.2)).map fun q => (kept depth q.1, q.2)
    else none

/-- The elements of an array, up to its end. -/
def elements : Nat → Nat → Bytes → Option Bytes
  | 0, _, _ => none
  | turns + 1, depth, input =>
    (value turns depth input).bind fun p =>
      (after 0x2C (skipWhitespace p.2)).elim (after 0x5D (skipWhitespace p.2)) fun rest =>
        elements turns depth (skipWhitespace rest)

/-- The members of an object, from the value of the one that is named, up to its end. -/
def members : Nat → Nat → Bytes → Bytes → Option (List (Bytes × Json) × Bytes)
  | 0, _, _, _ => none
  | turns + 1, depth, name, input =>
    (value turns depth input).bind fun p =>
      -- Behind a comma there is another name, and no comma stands before the closing brace.
      ((after 0x2C (skipWhitespace p.2)).elim
        ((after 0x7D (skipWhitespace p.2)).map ([], ·)) fun rest =>
          (memberName (skipWhitespace rest)).bind fun next =>
            members turns depth next.1 next.2).map fun q => ((name, p.1) :: q.1, q.2)

end

/-- What follows an optional byte-order mark. -/
def dropMark (input : Bytes) : Bytes := if [0xEF, 0xBB, 0xBF] <+: input then input.drop 3 else input

/-- A document: its root. -/
def document (input : Bytes) : Option Json :=
  let text := cBytes input
  (value (2 * text.length + 2) 0 (skipWhitespace (dropMark text))).map (·.1)

end OpenUI.Euicc.Es9p.Grammar
