import Mathlib.Data.List.DropRight
import Mathlib.Data.List.Infix

/-!
# `OpenUI.Text`: the string operations the Rust code uses

Rust's `str` and `char` methods as the agent and the helper call them, on a `String`'s
characters. Lengths that Rust takes in bytes are `String.utf8ByteSize`.
-/

set_option autoImplicit false

namespace OpenUI.Text

/-- Unicode `White_Space`, what `char::is_whitespace` tests. -/
def isWhitespace (c : Char) : Bool :=
  (9 ≤ c.toNat && c.toNat ≤ 13) || c.toNat == 0x20 || c.toNat == 0x85 || c.toNat == 0xA0
    || c.toNat == 0x1680 || (0x2000 ≤ c.toNat && c.toNat ≤ 0x200A) || c.toNat == 0x2028
    || c.toNat == 0x2029 || c.toNat == 0x202F || c.toNat == 0x205F || c.toNat == 0x3000

/-- Unicode `Cc`, what `char::is_control` tests. -/
def isControl (c : Char) : Bool :=
  c.toNat ≤ 0x1F || (0x7F ≤ c.toNat && c.toNat ≤ 0x9F)

/-- `is_ascii_digit`. -/
def isAsciiDigit (c : Char) : Bool := 0x30 ≤ c.toNat && c.toNat ≤ 0x39

/-- `is_ascii_hexdigit`. -/
def isAsciiHexdigit (c : Char) : Bool :=
  isAsciiDigit c || (0x41 ≤ c.toNat && c.toNat ≤ 0x46) || (0x61 ≤ c.toNat && c.toNat ≤ 0x66)

/-- `is_ascii_alphanumeric`. -/
def isAsciiAlphanumeric (c : Char) : Bool :=
  isAsciiDigit c || (0x41 ≤ c.toNat && c.toNat ≤ 0x5A) || (0x61 ≤ c.toNat && c.toNat ≤ 0x7A)

/-- `to_ascii_lowercase` of one character. -/
def lowerChar (c : Char) : Char :=
  if 0x41 ≤ c.toNat && c.toNat ≤ 0x5A then Char.ofNat (c.toNat + 32) else c

/-- `str::to_ascii_lowercase`. -/
def toAsciiLowercase (s : String) : String := String.ofList (s.toList.map lowerChar)

/-- `str::eq_ignore_ascii_case`. -/
def eqIgnoreAsciiCase (a b : String) : Bool := toAsciiLowercase a == toAsciiLowercase b

/-- White space removed at both ends of a character list. -/
def trimChars (cs : List Char) : List Char :=
  ((cs.dropWhile isWhitespace).reverse.dropWhile isWhitespace).reverse

/-- `str::trim`. -/
def trim (s : String) : String := String.ofList (trimChars s.toList)

/-- `str::split` at one character. -/
def splitChar (sep : Char) (s : String) : List String :=
  (s.toList.splitOn sep).map String.ofList

/-- `str::contains`. -/
def contains (s pattern : String) : Bool := decide (pattern.toList <:+: s.toList)

/-- The characters after the first occurrence of `pattern`, if there is one. -/
def afterFirst (pattern : List Char) : List Char → Option (List Char)
  | [] => if pattern = [] then some [] else none
  | c :: cs => if pattern <+: c :: cs then some ((c :: cs).drop pattern.length)
    else afterFirst pattern cs

/-- `s.split_once(pattern).map_or(s, |(_, rest)| rest)`. -/
def afterOnce (pattern s : String) : String :=
  match afterFirst pattern.toList s.toList with
  | some rest => String.ofList rest
  | none => s

/-- `str::trim_end_matches` with one character. -/
def trimEndMatches (c : Char) (s : String) : String :=
  String.ofList ((s.toList.reverse.dropWhile (· == c)).reverse)

/-- `str::strip_prefix`. -/
def stripPrefix (pattern s : String) : Option String :=
  if pattern.toList <+: s.toList then some (String.ofList (s.toList.drop pattern.length)) else none

/-- `str::strip_suffix`. -/
def stripSuffix (pattern s : String) : Option String :=
  if pattern.toList <:+ s.toList then
    some (String.ofList (s.toList.take (s.toList.length - pattern.length)))
  else none

/-- `str::split_once` at one character. -/
def splitOnce (sep : Char) (s : String) : Option (String × String) :=
  match s.toList.span (· ≠ sep) with
  | (before, _ :: after) => some (String.ofList before, String.ofList after)
  | (_, []) => none

/-- A line without the carriage return at its end. -/
def stripReturn (line : List Char) : List Char :=
  if line.getLast? = some '\r' then line.dropLast else line

/-- The lines of a text, after the beginning of one. -/
def linesFrom (begun : List Char) : List Char → List (List Char)
  | [] => if begun = [] then [] else [begun]
  | c :: cs =>
    if c = '\n' then stripReturn begun :: linesFrom [] cs else linesFrom (begun ++ [c]) cs

/-- `str::lines`. -/
def lines (s : String) : List String := (linesFrom [] s.toList).map String.ofList

/-- The words of a text, after the beginning of one. -/
def wordsFrom (begun : List Char) : List Char → List (List Char)
  | [] => if begun = [] then [] else [begun]
  | c :: cs =>
    if isWhitespace c then
      if begun = [] then wordsFrom [] cs else begun :: wordsFrom [] cs
    else wordsFrom (begun ++ [c]) cs

/-- `str::split_whitespace`. -/
def splitWhitespace (s : String) : List (List Char) := wordsFrom [] s.toList

/-- `str::trim_matches`. -/
def trimMatches (p : Char → Bool) (cs : List Char) : List Char :=
  ((cs.dropWhile p).reverse.dropWhile p).reverse

/-- `str::replace` of a non-empty pattern, once `skip` more characters have been replaced. -/
def replaceFrom (pattern replacement : List Char) : Nat → List Char → List Char
  | _, [] => []
  | skip + 1, _ :: cs => replaceFrom pattern replacement skip cs
  | 0, c :: cs =>
    if pattern <+: c :: cs then
      replacement ++ replaceFrom pattern replacement (pattern.length - 1) cs
    else c :: replaceFrom pattern replacement 0 cs

/-- `str::replace`. -/
def replace (pattern replacement s : String) : String :=
  String.ofList (replaceFrom pattern.toList replacement.toList 0 s.toList)

/-- `str::parse::<u16>`: decimal digits with an optional plus sign, below 65536. -/
def parseU16 (s : List Char) : Option Nat :=
  let digits : List Char := match s with
    | '+' :: rest => rest
    | _ => s
  let value : Nat := digits.foldl (fun n c => 10 * n + (c.toNat - 0x30)) 0
  if digits ≠ [] ∧ digits.all isAsciiDigit ∧ value < 65536 then some value else none

/-- `str::rsplit_once(':')` of an address: the host, and the port if there is one. -/
def splitPort (address : List Char) : List Char × Option (List Char) :=
  match address.reverse.span (· ≠ ':') with
  | (port, _ :: host) => (host.reverse, some port.reverse)
  | (_, []) => (address, none)

/-- `trim` leaves a text alone that has no white space at all. -/
theorem trim_eq_self {s : String} (h : ∀ c ∈ s.toList, isWhitespace c = false) : trim s = s := by
  have hdrop : ∀ l : List Char, (∀ c ∈ l, isWhitespace c = false) →
      l.dropWhile isWhitespace = l := by
    intro l hl
    cases l with
    | nil => rfl
    | cons c cs => rw [List.dropWhile_cons_of_neg (by simp [hl c (by simp)])]
  rw [trim, trimChars, hdrop _ h, hdrop _ (by simpa using h), List.reverse_reverse,
    String.ofList_toList]

/-- Trimming twice is trimming once. -/
theorem trim_trim (s : String) : trim (trim s) = trim s := by
  have hchars : ∀ cs : List Char, trimChars (trimChars cs) = trimChars cs := by
    intro cs
    show ((cs.dropWhile isWhitespace).rdropWhile isWhitespace |>.dropWhile isWhitespace).rdropWhile
      isWhitespace = (cs.dropWhile isWhitespace).rdropWhile isWhitespace
    -- What is left begins as the text without its leading white space begins.
    have hhead : ((cs.dropWhile isWhitespace).rdropWhile isWhitespace).dropWhile isWhitespace =
        (cs.dropWhile isWhitespace).rdropWhile isWhitespace := by
      obtain ⟨rest, hrest⟩ := List.rdropWhile_prefix isWhitespace (l := cs.dropWhile isWhitespace)
      have hidem := List.dropWhile_idempotent isWhitespace cs
      cases hm : (cs.dropWhile isWhitespace).rdropWhile isWhitespace with
      | nil => rfl
      | cons c as =>
        rw [hm, List.cons_append] at hrest
        rw [← hrest, List.dropWhile_cons] at hidem
        rw [List.dropWhile_cons]
        split at hidem
        · exact absurd (congrArg List.length hidem) (by
            have := (List.dropWhile_suffix isWhitespace (l := as ++ rest)).length_le
            simp only [List.length_cons]
            omega)
        · rw [if_neg ‹_›]
    rw [hhead, List.rdropWhile_idempotent]
  rw [trim, trim, String.toList_ofList, hchars]

end OpenUI.Text
