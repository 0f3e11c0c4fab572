import OpenUI.Text

/-!
# `OpenUI.Deploy.BootScript`: the start-up entries of `rc.local`

`scripts/device/update-rc-local.sh` and `update_rc_local` of `installer/src-tauri/src/deploy.rs`:
both copy the device's boot script, edit the copy with `grep`, `sed` and `printf`, check its syntax
and put it in the place of the script. A command that fails ends the update before that.

`grep` and `sed` work on lines. The last line may lack its line feed; `sed` keeps it so.
-/

set_option autoImplicit false

namespace OpenUI.Deploy.BootScript

open OpenUI.Text

/-- The content of a boot script: the lines that end in a line feed, and what follows the last of
them. -/
@[ext]
structure Script where
  lines : List (List Char)
  rest : List Char
  lines_free : ∀ l ∈ lines, '\n' ∉ l
  rest_free : '\n' ∉ rest

namespace Script

/-- The text of the file. -/
def text (s : Script) : List Char := s.lines.flatMap (· ++ ['\n']) ++ s.rest

/-- One more character in front. -/
def cons (c : Char) (s : Script) : Script :=
  if hc : c = '\n' then
    { lines := [] :: s.lines, rest := s.rest, rest_free := s.rest_free
      lines_free := by simpa using s.lines_free }
  else match hl : s.lines with
    | [] =>
      { lines := [], rest := c :: s.rest, lines_free := by simp
        rest_free := by simpa [eq_comm, hc] using s.rest_free }
    | line :: lines =>
      { lines := (c :: line) :: lines, rest := s.rest, rest_free := s.rest_free
        lines_free := by
          have hfree := s.lines_free
          rw [hl, List.forall_mem_cons] at hfree
          simpa [eq_comm, hc] using hfree }

/-- The content that a text stands for. -/
def ofText : List Char → Script
  | [] => ⟨[], [], by simp, by simp⟩
  | c :: cs => (ofText cs).cons c

/-- The lines that `grep` and `sed` see. -/
def all (s : Script) : List (List Char) := s.lines ++ if s.rest = [] then [] else [s.rest]

end Script

/-- `^exit 0`. -/
def isExit (line : List Char) : Bool := "exit 0".toList.isPrefixOf line

/-- `^echo [0-9] > .*usb_op$`. -/
def isDebug (l : List Char) : Bool :=
  "echo ".toList.isPrefixOf l && (l[5]?).any isAsciiDigit &&
    " > ".toList.isPrefixOf (l.drop 6) && "usb_op".toList.isSuffixOf (l.drop 9)

/-- The entries that the two programs add. -/
inductive Entry where
  | agent
  | dropbear
  | dashboard
  deriving DecidableEq

def Entry.text : Entry → List Char
  | .agent => "sh /data/local/tmp/start_zte_agent.sh".toList
  | .dropbear => "sh /data/local/tmp/start_dropbear.sh".toList
  | .dashboard => "sh /data/local/tmp/start_dashboard.sh".toList

/-- An entry is one line. -/
theorem Entry.text_free (e : Entry) : '\n' ∉ e.text := by
  cases e <;> decide +kernel

/-- `sed -i '/^echo [0-9] > .*usb_op$/d'`. -/
def removeDebug (s : Script) : Script where
  lines := s.lines.filter (!isDebug ·)
  rest := if isDebug s.rest then [] else s.rest
  lines_free l hl := s.lines_free l (List.mem_of_mem_filter hl)
  rest_free := by
    split
    · simp
    · exact s.rest_free

/-- `sed -i '/^exit 0/i line'`: the line in front of each line that matches. -/
def insertEntry (e : Entry) (s : Script) : Script where
  lines := (s.lines.flatMap fun l => if isExit l then [e.text, l] else [l]) ++
    if isExit s.rest then [e.text] else []
  rest := s.rest
  rest_free := s.rest_free
  lines_free l hl := by
    rcases List.mem_append.mp hl with hl | hl
    · obtain ⟨k, hk, hl⟩ := List.mem_flatMap.mp hl
      split at hl
      · simp only [List.mem_cons, List.not_mem_nil, or_false] at hl
        rcases hl with rfl | rfl
        · exact e.text_free
        · exact s.lines_free l hk
      · rw [List.mem_singleton.mp hl]
        exact s.lines_free k hk
    · split at hl
      · rw [List.mem_singleton.mp hl]
        exact e.text_free
      · cases hl

/-- `printf '%s\n' line >>`: the line begins where the file ends. -/
def appendEntry (e : Entry) (s : Script) : Script where
  lines := s.lines ++ [s.rest ++ e.text]
  rest := []
  rest_free := by simp
  lines_free l hl := by
    rcases List.mem_append.mp hl with hl | hl
    · exact s.lines_free l hl
    · rw [List.mem_singleton.mp hl, List.mem_append]
      rintro (h | h)
      · exact s.rest_free h
      · exact e.text_free h

/-- One turn of the loop for an entry. -/
def addEntry (s : Script) (e : Entry) : Script :=
  if s.all.contains e.text then s
  else if s.all.any isExit then insertEntry e s
  else appendEntry e s

/-! ### `update-rc-local.sh` -/

/-- An argument of the script. -/
inductive Argument where
  | removeDebug
  | entry (e : Entry)
  /-- Anything else. -/
  | unsupported (line : List Char)
  deriving DecidableEq

/-- The loop over the arguments, which ends the script at one that is not supported. -/
def editAll : Script → List Argument → Option Script
  | s, [] => some s
  | s, .removeDebug :: args => editAll (removeDebug s) args
  | s, .entry e :: args => editAll (addEntry s e) args
  | _, .unsupported _ :: _ => none

section
variable (syntaxOk : List Char → Bool)

/-- `sh -n` and `mv`: the text that replaces the script's. -/
def install (s : Script) : Option (List Char) := if syntaxOk s.text then some s.text else none

/-- `update-rc-local.sh`. -/
def updateScript (args : List Argument) (text : List Char) : Option (List Char) :=
  (editAll (.ofText text) args).bind (install syntaxOk)

/-! ### `update_rc_local` -/

/-- `update_rc_local`, which removes the debug lines last. -/
def updateRcLocal (lines : List Entry) (remove_debug : Bool) (text : List Char) :
    Option (List Char) :=
  let edited := lines.foldl addEntry (.ofText text)
  install syntaxOk (if remove_debug then removeDebug edited else edited)

end

end OpenUI.Deploy.BootScript
