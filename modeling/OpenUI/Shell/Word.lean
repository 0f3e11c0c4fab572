import Mathlib.Data.List.Basic

/-!
# `OpenUI.Shell.Word`: the words of a POSIX shell

`word` reads the word at the beginning of a text the way a POSIX shell does: single quotes, double
quotes and backslashes are removed, and what is left is the value. It knows literal words only. A
word that would be expanded, or that ends inside its quotes, has no value here.

* `word_single`, `word_plain`: what stands between single quotes, and what needs no quotes.
* `word_quoted`: a text between single quotes whose own quotes are written in some other way.
* `word_backslash_quote`, `word_double_quote`: two such ways.
-/

set_option autoImplicit false

namespace OpenUI.Shell

/-- How the next character is read. -/
inductive Quoting where
  | bare
  | single
  | double
  /-- After a backslash outside quotes. -/
  | escaped
  /-- After a backslash between double quotes. -/
  | escapedDouble
  deriving DecidableEq

/-- A character that ends a word. -/
def endsWord (c : Char) : Bool := " \t\n;&|<>()".toList.contains c

/-- A character outside quotes that may make more of a word than a literal. -/
def isExpanded (c : Char) : Bool := "$`*?[]\x7b\x7d~#^".toList.contains c

/-- What a backslash escapes between double quotes. -/
def isEscaped (c : Char) : Bool := "$`\"\\".toList.contains c

/-- More of a word, in front of the rest of it. -/
def andThen (cs : List Char) (read : Option (List Char × List Char)) :
    Option (List Char × List Char) :=
  read.map fun r => (cs ++ r.1, r.2)

/-- The value of the word at the beginning of a text, and what follows the word. -/
def word : Quoting → List Char → Option (List Char × List Char)
  | .bare, [] => some ([], [])
  | .single, [] | .double, [] | .escaped, [] | .escapedDouble, [] => none
  | .single, c :: rest => if c = '\'' then word .bare rest else andThen [c] (word .single rest)
  | .double, c :: rest =>
    if c = '"' then word .bare rest
    else if c = '\\' then word .escapedDouble rest
    else if c = '$' || c = '`' then none
    else andThen [c] (word .double rest)
  | .bare, c :: rest =>
    if c = '\'' then word .single rest
    else if c = '"' then word .double rest
    else if c = '\\' then word .escaped rest
    else if endsWord c then some ([], c :: rest)
    else if isExpanded c then none
    else andThen [c] (word .bare rest)
  -- A line that ends in a backslash goes on in the next one.
  | .escaped, c :: rest => if c = '\n' then word .bare rest else andThen [c] (word .bare rest)
  | .escapedDouble, c :: rest =>
    if c = '\n' then word .double rest
    else andThen (if isEscaped c then [c] else ['\\', c]) (word .double rest)

theorem andThen_andThen (as bs : List Char) (read : Option (List Char × List Char)) :
    andThen as (andThen bs read) = andThen (as ++ bs) read := by
  cases read with
  | none => rfl
  | some r => simp [andThen]

@[simp] theorem andThen_nil (read : Option (List Char × List Char)) : andThen [] read = read := by
  cases read with
  | none => rfl
  | some r => rfl

/-- What stands between single quotes stands for itself. -/
theorem word_single {cs : List Char} (h : '\'' ∉ cs) (rest : List Char) :
    word .single (cs ++ '\'' :: rest) = andThen cs (word .bare rest) := by
  induction cs with
  | nil => simp [word]
  | cons c cs ih =>
    obtain ⟨hc, hcs⟩ : '\'' ≠ c ∧ '\'' ∉ cs := by simpa using h
    rw [List.cons_append, word, if_neg (fun heq => hc heq.symm), ih hcs, andThen_andThen]
    rfl

/-- A character that means nothing else. -/
def isPlain (c : Char) : Bool :=
  c != '\'' && c != '"' && c != '\\' && !endsWord c && !isExpanded c

theorem word_cons_plain {c : Char} (h : isPlain c = true) (rest : List Char) :
    word .bare (c :: rest) = andThen [c] (word .bare rest) := by
  simp only [isPlain, Bool.and_eq_true, bne_iff_ne, Bool.not_eq_true'] at h
  obtain ⟨⟨⟨⟨h1, h2⟩, h3⟩, h4⟩, h5⟩ := h
  rw [word, if_neg h1, if_neg h2, if_neg h3, h4, h5]
  rfl

/-- What needs no quotes stands for itself. -/
theorem word_plain {cs : List Char} (h : ∀ c ∈ cs, isPlain c = true) (rest : List Char) :
    word .bare (cs ++ rest) = andThen cs (word .bare rest) := by
  induction cs with
  | nil => simp
  | cons c cs ih =>
    rw [List.cons_append, word_cons_plain (h c List.mem_cons_self),
      ih fun d hd => h d (List.mem_cons_of_mem c hd), andThen_andThen]
    rfl

/-- A word ends before what ends it. -/
theorem word_end {c : Char} (h : endsWord c = true) (rest : List Char) :
    word .bare (c :: rest) = some ([], c :: rest) := by
  have hquote : c ≠ '\'' ∧ c ≠ '"' ∧ c ≠ '\\' := by
    refine ⟨?_, ?_, ?_⟩
    all_goals
      rintro rfl
      revert h
      decide
  rw [word, if_neg hquote.1, if_neg hquote.2.1, if_neg hquote.2.2, if_pos h]

/-- A text with every quote replaced. -/
def requoted (quote : List Char) (cs : List Char) : List Char :=
  cs.flatMap fun c => if c = '\'' then quote else [c]

theorem requoted_cons (quote : List Char) (c : Char) (cs : List Char) :
    requoted quote (c :: cs) = (if c = '\'' then quote else [c]) ++ requoted quote cs := rfl

/-- A text between single quotes, whose own quotes stand outside of them, as `way` writes them. -/
theorem word_quoted {way : List Char}
    (hway : ∀ rest, word .bare (way ++ rest) = andThen ['\''] (word .bare rest))
    (cs rest : List Char) :
    word .single (requoted ('\'' :: way ++ ['\'']) cs ++ '\'' :: rest) =
      andThen cs (word .bare rest) := by
  induction cs with
  | nil => simp [requoted, word]
  | cons c cs ih =>
    rw [requoted_cons]
    by_cases hc : c = '\''
    · subst hc
      -- The quote closes, the way to write a quote follows, and the next one opens again.
      rw [if_pos rfl]
      show word .single ('\'' :: (way ++ ['\''] ++ requoted _ cs ++ '\'' :: rest)) = _
      rw [word, if_pos rfl, List.append_assoc, List.append_assoc, hway]
      show andThen ['\''] (word .bare ('\'' :: (requoted _ cs ++ '\'' :: rest))) = _
      rw [word, if_pos rfl, ih, andThen_andThen]
      rfl
    · rw [if_neg hc]
      show word .single (c :: (requoted _ cs ++ '\'' :: rest)) = _
      rw [word, if_neg hc, ih, andThen_andThen]
      rfl

/-- A quote behind a backslash. -/
theorem word_backslash_quote (rest : List Char) :
    word .bare ("\\'".toList ++ rest) = andThen ['\''] (word .bare rest) := by
  show word .bare ('\\' :: '\'' :: rest) = _
  rw [word, if_neg (by decide), if_neg (by decide), if_pos rfl, word, if_neg (by decide)]

/-- A quote between double quotes. -/
theorem word_double_quote (rest : List Char) :
    word .bare ("\"'\"".toList ++ rest) = andThen ['\''] (word .bare rest) := by
  show word .bare ('"' :: '\'' :: '"' :: rest) = _
  rw [word, if_neg (by decide), if_pos rfl, word, if_neg (by decide), if_neg (by decide),
    if_neg (by decide), word, if_pos rfl]

end OpenUI.Shell
