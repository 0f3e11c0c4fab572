import OpenUI.Installer.Model

/-!
# `OpenUI.Unlock.RcLocal`: the boot script with the line that enables ADB

Two unlockers patch `etc/rc.local` in a configuration backup: `patch_outer` of `unlock.rs`, and
`patch_outer` of `zunlock.py`. Here is what each does with the script's text, from the decoded text
to the lines it encodes again. They find the path of the USB operation node in the script, and
insert a line that writes to it after the first shebang line, or in front.
-/

set_option autoImplicit false

namespace OpenUI.Unlock

open OpenUI.Text OpenUI.Installer

/-- The lines of the script, the line that is inserted, and its place among them. -/
structure Patch where
  lines : List (List Char)
  position : Nat
  payload : List Char
  deriving DecidableEq

/-- The lines of the new script. -/
def Patch.newLines (p : Patch) : List (List Char) := p.lines.insertIdx p.position p.payload

/-- Both unlockers end every line of the new script with a line feed. -/
def Patch.text (p : Patch) : List Char := p.newLines.flatMap (· ++ ['\n'])

/-- The line that writes to the node. -/
def payloadOf (node : List Char) : List Char := "echo 1 > ".toList ++ node

def shebang : List Char := "#!/bin/sh".toList

/-! ### The native unlocker -/

/-- What `usb_path` trims from a word. -/
def isWrapping (c : Char) : Bool :=
  c == '\x60' || c == '\'' || c == '\x22' || c == ';' || c == ')' || c ==
    '(' || c == '>' || c == '<'

/-- A word of the script, as a path. -/
def usbWord (token : List Char) : Option (List Char) :=
  let cleaned := trimMatches isWrapping token
  if "/sys/".toList <+: cleaned ∧ "usb_op".toList <:+: cleaned then some cleaned else none

def usbPath (text : String) : Option (List Char) := (splitWhitespace text).findSome? usbWord

def notIdentified : InstallerError :=
  .new "This firmware’s USB debug path could not be identified safely"
    "No restore was attempted. Please report the diagnostic details for firmware review."
    "No /sys/.../usb_op path was present in etc/rc.local."

def alreadyEnabled (payload : List Char) : InstallerError :=
  .new "The backup already enables ADB"
    "Reboot the modem and detect again. If ADB still does not appear, check the USB driver."
    ("etc/rc.local already contains: " ++ String.ofList payload)

/-- `str::lines`, on characters. -/
def nativeLines (text : String) : List (List Char) := linesFrom [] text.toList

/-- The place after the first line that the test accepts, or the front. -/
def placeAfter (test : List Char → Bool) (lines : List (List Char)) : Nat :=
  match lines.findIdx? test with
  | some index => index + 1
  | none => 0

/-- `patch_outer` of `unlock.rs`. -/
def patchOuter (text : String) : Except InstallerError Patch :=
  match usbPath text with
  | none => .error notIdentified
  | some node =>
    if payloadOf node <:+: text.toList then .error (alreadyEnabled (payloadOf node))
    else .ok
      { lines := nativeLines text
        position := placeAfter (fun line => trimChars line == shebang) (nativeLines text)
        payload := payloadOf node }

/-! ### The terminal unlocker -/

namespace Terminal

/-- `str.isspace`, which is also `\s` of a regular expression. -/
def isSpace (c : Char) : Bool := isWhitespace c || (0x1C ≤ c.toNat && c.toNat ≤ 0x1F)

/-- The characters `` [^\s`"'] `` leaves out. -/
def isStop (c : Char) : Bool := isSpace c || c == '\x60' || c == '\x22' || c == '\''

/-- `hits[0]` of `` re.findall(r"/sys/[^\s`\"']*usb_op[^\s`\"']*", text) ``. Both stars take all
they can, so a hit ends where the characters they allow end. -/
def firstHit : List Char → Option (List Char)
  | [] => none
  | c :: cs =>
    if "/sys/".toList <+: c :: cs ∧ "usb_op".toList <:+: ((c :: cs).drop 5).takeWhile
      (!isStop ·) then
      some ("/sys/".toList ++ ((c :: cs).drop 5).takeWhile (!isStop ·))
    else firstHit cs

/-- The line boundaries of `str.splitlines`. -/
def isBreak (c : Char) : Bool :=
  (0x0A ≤ c.toNat && c.toNat ≤ 0x0D) || (0x1C ≤ c.toNat && c.toNat ≤ 0x1E) || c.toNat == 0x85
    || c.toNat == 0x2028 || c.toNat == 0x2029

/-- The lines of a text, after the beginning of one. A carriage return and a line feed are one
boundary. -/
def splitFrom (begun : List Char) : List Char → List (List Char)
  | [] => if begun = [] then [] else [begun]
  | '\r' :: '\n' :: cs => begun :: splitFrom [] cs
  | c :: cs => if isBreak c then begun :: splitFrom [] cs else splitFrom (begun ++ [c]) cs

/-- `text.splitlines()`. -/
def splitlines (text : String) : List (List Char) := splitFrom [] text.toList

/-- `line.strip()`. -/
def strip (line : List Char) : List Char :=
  ((line.dropWhile isSpace).reverse.dropWhile isSpace).reverse

/-- `patch_outer` of `zunlock.py`. -/
def patchOuter (text : String) : Except String Patch :=
  match firstHit text.toList with
  | none => .error ("no usb_op node found in stock rc.local — " ++
      "this firmware may differ; inspect the backup manually")
  | some node =>
    if payloadOf node <:+: text.toList then
      .error "rc.local already contains the payload — nothing to do"
    else .ok
      { lines := splitlines text
        position := placeAfter (fun line => strip line == shebang) (splitlines text)
        payload := payloadOf node }

end Terminal

end OpenUI.Unlock
