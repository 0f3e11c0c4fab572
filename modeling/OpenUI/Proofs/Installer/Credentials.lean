import OpenUI.Installer.Credentials
import OpenUI.Proofs.Lines
import OpenUI.Shell.Word

/-!
# `OpenUI.Proofs.Installer.Credentials`: credentials that are kept

`literal_assignment` finds an assignment by its text, at the beginning of a line. A password may
have lines of its own, and one of them may look like an assignment. Then the reader finds two, and
refuses.

* `assigned_eq`: what the reader finds.
* `Written`: how a value must be written for the reader. Both writers do (`written_shellQuote`,
  `written_shlexQuote`).
* `kept_native`, `kept_terminal`: keeping the credentials that an installer wrote gives them back,
  or is refused, and which.
-/

set_option autoImplicit false

namespace OpenUI.Installer.Startup

open OpenUI.Text OpenUI.Shell

/-! ### What the reader finds -/

/-- What follows a pattern at the beginning of a text. -/
def afterPrefix (pattern cs : List Char) : Option (List Char) :=
  if pattern <+: cs then some (cs.drop pattern.length) else none

/-- The matches that stand at the beginning of a line. -/
def atLines (found : List (Option Char × List Char)) : List (List Char) :=
  (found.filter fun m => m.1.all (· == '\n')).map Prod.snd

theorem atLines_cons (before : Option Char) (cs : List Char)
    (found : List (Option Char × List Char)) :
    atLines ((before, cs) :: found) =
      (if before.all (· == '\n') then [cs] else []) ++ atLines found := by
  unfold atLines
  rw [List.filter_cons]
  split
  · rfl
  · rfl

/-- Matches at the beginnings of lines do not hide each other: a pattern has no line feed. -/
theorem matchesFrom_eq {pattern : List Char} (hne : pattern ≠ []) (hline : '\n' ∉ pattern)
    (before : Option Char) (skip : Nat) (cs : List Char) (hskipped : '\n' ∉ cs.take skip)
    (hbefore : skip ≠ 0 → before.all (· == '\n') = false) :
    atLines (matchesFrom pattern before skip cs) =
      ((if before.all (· == '\n') then [cs] else []) ++ laterLines cs).filterMap
        (afterPrefix pattern) := by
  induction cs generalizing before skip with
  | nil =>
    have hnone : afterPrefix pattern [] = none := if_neg fun h => hne (List.prefix_nil.mp h)
    rw [matchesFrom, laterLines, List.append_nil]
    split
    · rw [List.filterMap_cons_none hnone]
      rfl
    · rfl
  | cons c cs ih =>
    cases skip with
    | succ skip =>
      obtain ⟨hc, htake⟩ : '\n' ≠ c ∧ '\n' ∉ cs.take skip := by simpa using hskipped
      have hsome : (some c).all (· == '\n') = false := by simpa using hc.symm
      rw [matchesFrom, ih (some c) skip htake fun _ => hsome, hsome, hbefore (Nat.succ_ne_zero _),
        laterLines, if_neg hc.symm]
      rfl
    | zero =>
      rw [matchesFrom]
      split
      · rename_i hp
        -- The rest of the match has no line feed, and neither has its first character.
        have hc : '\n' ≠ c := by
          cases pattern with
          | nil => exact absurd rfl hne
          | cons d ds =>
            obtain ⟨rfl, -⟩ := List.cons_prefix_cons.mp hp
            exact fun heq => hline (heq ▸ List.mem_cons_self)
        have htake : '\n' ∉ cs.take (pattern.length - 1) := by
          obtain ⟨rest, hrest⟩ := hp
          cases pattern with
          | nil => exact absurd rfl hne
          | cons d ds =>
            obtain ⟨-, rfl⟩ := List.cons.inj hrest
            have hds : '\n' ∉ ds := fun hmem => hline (List.mem_cons_of_mem d hmem)
            simpa using hds
        have hsome : (some c).all (· == '\n') = false := by simpa using hc.symm
        have hrest := ih (some c) _ htake fun _ => hsome
        have hfound : afterPrefix pattern (c :: cs) = some ((c :: cs).drop pattern.length) :=
          if_pos hp
        rw [hsome] at hrest
        rw [laterLines, if_neg hc.symm]
        rw [atLines_cons, hrest]
        split
        · rw [List.singleton_append, List.singleton_append, List.filterMap_cons_some hfound]
          rfl
        · rfl
      · rename_i hp
        have hnone : afterPrefix pattern (c :: cs) = none := if_neg hp
        rw [ih (some c) 0 (by simp) fun h => absurd rfl h, List.filterMap_append,
          List.filterMap_append]
        have hhead : ((if before.all (· == '\n') then [c :: cs] else []).filterMap
            (afterPrefix pattern)) = [] := by
          split
          · rw [List.filterMap_cons_none hnone]
            rfl
          · rfl
        rw [hhead, laterLines]
        by_cases hc : c = '\n'
        · subst hc
          rw [if_pos rfl, List.nil_append, ← List.filterMap_append]
          rfl
        · simp [hc]

/-- An assignment begins on one line. -/
theorem assignment_line {name : String} (h : '\n' ∉ name.toList) : '\n' ∉ assignment name := by
  have hexport : '\n' ∉ "export ".toList := by
    simp only [String.reduceToList]
    decide
  have hequals : '\n' ∉ ['='] := by decide
  unfold assignment
  rw [List.mem_append, List.mem_append, not_or, not_or]
  exact ⟨⟨hexport, h⟩, hequals⟩

/-- The reader finds what follows the assignments at the beginnings of the lines. -/
theorem assigned_eq (script : String) {name : String} (h : '\n' ∉ name.toList) :
    assigned script name =
      (beginnings script.toList).filterMap (afterPrefix (assignment name)) := by
  have hne : assignment name ≠ [] := List.append_ne_nil_of_right_ne_nil _ (List.cons_ne_nil _ _)
  exact matchesFrom_eq hne (assignment_line h) none 0 script.toList (by simp) fun h => absurd rfl h

/-! ### What is written -/

/-- How a value stands in a script. The reader takes the value from it. A piece of text without a
quote begins a later line of it exactly if it begins a later line of the value, whatever follows. -/
structure Written (v written : List Char) : Prop where
  reads : ∀ rest, value .bare (written ++ '\n' :: rest) = some v
  lines : ∀ p, '\'' ∉ p → ∀ rest,
    (∃ t ∈ laterLines written, p <+: t ++ rest) ↔ ∃ t ∈ laterLines v, p <+: t
  quoted : ∀ t ∈ laterLines written, '\'' ∈ t

/-- What is between quotes is read up to the end of the line behind them. -/
theorem value_quoted {way : List Char}
    (hway : ∀ rest, value .bare (way ++ rest) = (value .bare rest).map ('\'' :: ·))
    (v rest : List Char) :
    value .quoted (requoted ('\'' :: way ++ ['\'']) v ++ '\'' :: '\n' :: rest) = some v := by
  induction v with
  | nil => rfl
  | cons c v ih =>
    rw [requoted_cons]
    by_cases hc : c = '\''
    · subst hc
      rw [if_pos rfl]
      show value .quoted ('\'' :: (way ++ ['\''] ++ requoted _ v ++ '\'' :: '\n' :: rest)) = _
      rw [value, if_pos rfl, List.append_assoc, List.append_assoc, hway]
      show (value .bare ('\'' :: (requoted _ v ++ '\'' :: '\n' :: rest))).map _ = _
      rw [value, if_pos rfl, ih]
      rfl
    · rw [if_neg hc]
      show value .quoted (c :: (requoted _ v ++ '\'' :: '\n' :: rest)) = _
      rw [value, if_neg hc, ih]
      rfl

/-- A replaced quote takes no line. -/
theorem laterLines_requoted {quote : List Char} (h : '\n' ∉ quote) (v : List Char) :
    laterLines (requoted quote v) = (laterLines v).map (requoted quote) := by
  induction v with
  | nil => rfl
  | cons c v ih =>
    rw [requoted_cons, laterLines_append, ih, laterLines]
    by_cases hc : c = '\''
    · subst hc
      rw [if_pos rfl, if_neg (by decide), laterLines_eq_nil h]
      rfl
    · rw [if_neg hc]
      by_cases hn : c = '\n'
      · subst hn
        rfl
      · rw [if_neg hn, laterLines_eq_nil (by simpa using Ne.symm hn)]
        rfl

/-- A piece of text without a quote begins a quoted text if it begins the text. -/
theorem prefix_requoted {p : List Char} (hp : '\'' ∉ p) (quote v rest : List Char) :
    p <+: requoted ('\'' :: quote) v ++ '\'' :: rest ↔ p <+: v := by
  induction v generalizing p with
  | nil =>
    cases p with
    | nil => simp
    | cons d p =>
      have hd : d ≠ '\'' := fun heq => hp (heq ▸ List.mem_cons_self)
      simp [requoted, List.cons_prefix_cons, hd]
  | cons c v ih =>
    cases p with
    | nil => simp
    | cons d p =>
      obtain ⟨hd, hp'⟩ : '\'' ≠ d ∧ '\'' ∉ p := by simpa using hp
      rw [requoted_cons]
      by_cases hc : c = '\''
      · subst hc
        simp [List.cons_prefix_cons, hd.symm]
      · rw [if_neg hc, List.singleton_append, List.cons_append, List.cons_prefix_cons,
          List.cons_prefix_cons, ih hp']

/-- Both ways of quoting. -/
theorem written_quoted {way : List Char} (hline : '\n' ∉ way)
    (hway : ∀ rest, value .bare (way ++ rest) = (value .bare rest).map ('\'' :: ·))
    (v : List Char) :
    Written v ('\'' :: requoted ('\'' :: way ++ ['\'']) v ++ ['\'']) := by
  have hquote : '\n' ∉ '\'' :: way ++ ['\''] := by simp [hline]
  have hlater : laterLines ('\'' :: requoted ('\'' :: way ++ ['\'']) v ++ ['\'']) =
      (laterLines v).map fun t => requoted ('\'' :: way ++ ['\'']) t ++ ['\''] := by
    rw [laterLines_append, List.cons_append, laterLines, if_neg (by decide),
      ← List.cons_append, laterLines_requoted hquote, List.map_map]
    exact List.append_nil _
  refine ⟨fun rest => ?_, fun p hp rest => ?_, fun t ht => ?_⟩
  · rw [List.append_assoc, List.cons_append, value, if_pos rfl]
    exact value_quoted hway v rest
  · rw [hlater]
    simp only [List.mem_map, exists_exists_and_eq_and, List.append_assoc, List.singleton_append]
    exact exists_congr fun t => and_congr_right fun _ => prefix_requoted hp _ t rest
  · rw [hlater] at ht
    obtain ⟨t, -, rfl⟩ := List.mem_map.mp ht
    simp

/-- What the reader takes without quotes. -/
theorem written_bare {v : List Char} (h : ∀ c ∈ v, isUnquoted c = true) : Written v v := by
  have hplain : ∀ c, isUnquoted c = true →
      c ≠ '\'' ∧ c ≠ '"' ∧ c ≠ '\\' ∧ (c = '\n' || c = '\r') = false := by
    intro c hc
    refine ⟨?_, ?_, ?_, ?_⟩
    · rintro rfl
      exact absurd hc (by decide)
    · rintro rfl
      exact absurd hc (by decide)
    · rintro rfl
      exact absurd hc (by decide)
    · by_contra hend
      rw [Bool.not_eq_false, Bool.or_eq_true, decide_eq_true_eq, decide_eq_true_eq] at hend
      rcases hend with rfl | rfl
      · exact absurd hc (by decide)
      · exact absurd hc (by decide)
  have hnone : laterLines v = [] := by
    refine laterLines_eq_nil fun hmem => ?_
    exact absurd (h _ hmem) (by decide)
  refine ⟨fun rest => ?_, fun p _ rest => ?_, fun t ht => ?_⟩
  · clear hnone
    induction v with
    | nil => rfl
    | cons c v ih =>
      obtain ⟨h1, h2, h3, h4⟩ := hplain c (h c List.mem_cons_self)
      rw [List.cons_append, value, if_neg h1, if_neg h2, if_neg h3, if_neg (by simp [h4]),
        if_pos (h c List.mem_cons_self), ih fun d hd => h d (List.mem_cons_of_mem c hd)]
      rfl
  · rw [hnone]
    simp
  · rw [hnone] at ht
    cases ht

/-! ### The script -/

/-- The script of an installer: the password, a line about the PIN, and what comes after it. -/
def scriptOf (written pinLine tail : List Char) : List Char :=
  "#!/bin/sh".toList ++ '\n' ::
    (assignment "ZTE_AGENT_PASSWORD" ++ written ++ '\n' :: (pinLine ++ '\n' :: tail))

/-- The line that clears the PIN. -/
def unsetLine : List Char := "unset ZTE_AGENT_PIN".toList

instance (line cs : List Char) : Decidable (StartsLine line cs) :=
  inferInstanceAs (Decidable (_ ∨ _ ∨ _))

/-- What comes after the credentials has nothing to do with them. -/
structure Unrelated (tail : List Char) : Prop where
  password : ∀ t ∈ beginnings tail, ¬ assignment "ZTE_AGENT_PASSWORD" <+: t
  pin : ∀ t ∈ beginnings tail, ¬ assignment "ZTE_AGENT_PIN" <+: t
  unset : ∀ t ∈ beginnings tail, ¬ StartsLine unsetLine t

/-- Two texts that differ within the shorter one. -/
theorem not_prefix {p front : List Char} (hp : p.isPrefixOf front = false)
    (hfront : front.isPrefixOf p = false) (rest : List Char) : ¬ p <+: front ++ rest := by
  intro h
  rcases List.prefix_or_prefix_of_prefix h (List.prefix_append front rest) with hpre | hpre
  · rw [List.isPrefixOf_iff_prefix.mpr hpre] at hp
    cases hp
  · rw [List.isPrefixOf_iff_prefix.mpr hpre] at hfront
    cases hfront

theorem beginnings_scriptOf (written tail : List Char) {pinLine : List Char}
    (hpin : '\n' ∉ pinLine) :
    beginnings (scriptOf written pinLine tail) =
      scriptOf written pinLine tail ::
        (assignment "ZTE_AGENT_PASSWORD" ++ written ++ '\n' :: (pinLine ++ '\n' :: tail)) ::
        ((laterLines written).map (· ++ '\n' :: (pinLine ++ '\n' :: tail)) ++
          (pinLine ++ '\n' :: tail) :: beginnings tail) := by
  have hshebang : '\n' ∉ "#!/bin/sh".toList := by
    simp only [String.reduceToList]
    decide
  have hname : '\n' ∉ assignment "ZTE_AGENT_PASSWORD" := by
    refine assignment_line ?_
    simp only [String.reduceToList]
    decide
  have hfeed : ∀ rest, laterLines ('\n' :: rest) = beginnings rest := fun rest => if_pos rfl
  have hlast : laterLines (pinLine ++ '\n' :: tail) = beginnings tail := laterLines_line hpin tail
  unfold beginnings scriptOf
  rw [laterLines_line hshebang, laterLines_append, laterLines_append, laterLines_eq_nil hname,
    hfeed]
  show _ :: _ :: (_ ++ _ :: laterLines (pinLine ++ '\n' :: tail)) = _
  rw [hlast]
  rfl

theorem prefix_of_startsLine {line cs : List Char} (h : StartsLine line cs) : line <+: cs := by
  rcases h with h | h | rfl
  · exact (List.prefix_append line _).trans h
  · exact (List.prefix_append line _).trans h
  · exact List.prefix_rfl

/-- The texts that are looked for are no beginnings of each other or of the first line. -/
def differ (p front : List Char) : Bool := !p.isPrefixOf front && !front.isPrefixOf p

theorem not_prefix_of_differ {p front : List Char} (h : differ p front = true)
    (rest : List Char) : ¬ p <+: front ++ rest := by
  obtain ⟨hp, hfront⟩ := Bool.and_eq_true _ _ ▸ h
  exact not_prefix (by simpa using hp) (by simpa using hfront) rest

theorem differ_pin_password :
    differ (assignment "ZTE_AGENT_PIN") (assignment "ZTE_AGENT_PASSWORD") = true := by
  unfold assignment
  simp only [String.reduceToList]
  decide

theorem differ_password_pin :
    differ (assignment "ZTE_AGENT_PASSWORD") (assignment "ZTE_AGENT_PIN") = true := by
  unfold assignment
  simp only [String.reduceToList]
  decide

theorem differ_unset (p : List Char) (hp : p = assignment "ZTE_AGENT_PASSWORD" ∨
    p = assignment "ZTE_AGENT_PIN") : differ p unsetLine = true ∧ differ unsetLine p = true := by
  rcases hp with rfl | rfl
  · unfold assignment unsetLine
    simp only [String.reduceToList]
    decide
  · unfold assignment unsetLine
    simp only [String.reduceToList]
    decide

theorem differ_shebang (p : List Char) (hp : p = assignment "ZTE_AGENT_PASSWORD" ∨
    p = assignment "ZTE_AGENT_PIN" ∨ p = unsetLine) :
    differ p "#!/bin/sh".toList = true := by
  rcases hp with rfl | rfl | rfl
  · unfold assignment
    simp only [String.reduceToList]
    decide
  · unfold assignment
    simp only [String.reduceToList]
    decide
  · unfold unsetLine
    simp only [String.reduceToList]
    decide

/-- None of the texts that are looked for has a quote. -/
theorem quote_notMem (p : List Char) (hp : p = assignment "ZTE_AGENT_PASSWORD" ∨
    p = assignment "ZTE_AGENT_PIN" ∨ p = unsetLine) : '\'' ∉ p := by
  rcases hp with rfl | rfl | rfl
  · unfold assignment
    simp only [String.reduceToList]
    decide
  · unfold assignment
    simp only [String.reduceToList]
    decide
  · unfold unsetLine
    simp only [String.reduceToList]
    decide

theorem afterPrefix_self (p rest : List Char) : afterPrefix p (p ++ rest) = some rest := by
  rw [afterPrefix, if_pos (List.prefix_append p rest), List.drop_left]

/-- The assignments that stand in later lines of what is written. -/
def inner (name : String) (written rest : List Char) : List (List Char) :=
  ((laterLines written).map (· ++ rest)).filterMap (afterPrefix (assignment name))

/-- A line of the password looks like an assignment. -/
def looksAssigned (name password : String) : Bool :=
  contains password ("\nexport " ++ name ++ "=")

theorem filterMap_afterPrefix_eq_nil {p : List Char} {texts : List (List Char)} :
    texts.filterMap (afterPrefix p) = [] ↔ ∀ t ∈ texts, ¬ p <+: t := by
  rw [List.filterMap_eq_nil_iff]
  refine forall₂_congr fun t _ => ?_
  unfold afterPrefix
  split
  · rename_i hp
    simp [hp]
  · rename_i hp
    simp [hp]

/-- An inner assignment is one that the password itself looks to have. -/
theorem inner_eq_nil_iff {name password : String} {written : List Char}
    (hw : Written password.toList written) (hquote : '\'' ∉ assignment name) (rest : List Char) :
    inner name written rest = [] ↔ looksAssigned name password = false := by
  have htext : ("\nexport " ++ name ++ "=").toList = '\n' :: assignment name := by
    rw [String.toList_append, String.toList_append]
    rfl
  have hlooks : looksAssigned name password = true ↔
      ∃ t ∈ laterLines password.toList, assignment name <+: t := by
    unfold looksAssigned contains
    rw [decide_eq_true_iff, htext, infix_iff_laterLines]
  rw [← Bool.not_eq_true, hlooks, ← hw.lines _ hquote rest]
  unfold inner
  rw [filterMap_afterPrefix_eq_nil]
  simp only [List.mem_map, forall_exists_index, and_imp, forall_apply_eq_imp_iff₂, not_exists,
    not_and]

section Script

variable {password : String} {written tail : List Char}

/-- The assignments of the password: the one of the script, and the inner ones. -/
theorem assigned_password {pinLine : List Char} (hline : '\n' ∉ pinLine)
    (hpin : differ (assignment "ZTE_AGENT_PASSWORD") pinLine = true)
    (htail : Unrelated tail) :
    assigned (String.ofList (scriptOf written pinLine tail)) "ZTE_AGENT_PASSWORD" =
      (written ++ '\n' :: (pinLine ++ '\n' :: tail)) ::
        inner "ZTE_AGENT_PASSWORD" written ('\n' :: (pinLine ++ '\n' :: tail)) := by
  have hname : '\n' ∉ "ZTE_AGENT_PASSWORD".toList := by
    simp only [String.reduceToList]
    decide
  have hfirst := not_prefix_of_differ (differ_shebang _ (.inl rfl))
  have hnone : ∀ t, ¬ assignment "ZTE_AGENT_PASSWORD" <+: t →
      afterPrefix (assignment "ZTE_AGENT_PASSWORD") t = none := fun t ht => if_neg ht
  have hlast : (beginnings tail).filterMap (afterPrefix (assignment "ZTE_AGENT_PASSWORD")) = [] :=
    filterMap_afterPrefix_eq_nil.mpr htail.password
  rw [assigned_eq _ hname, String.toList_ofList, beginnings_scriptOf written tail hline,
    List.filterMap_cons_none (hnone (scriptOf written pinLine tail) (hfirst _)), List.append_assoc,
    List.filterMap_cons_some (afterPrefix_self _ _), List.filterMap_append,
    List.filterMap_cons_none (hnone _ (not_prefix_of_differ hpin _)), hlast, List.append_nil]
  rfl

/-- The assignments of the PIN: the inner ones, and the one of the script, if there is one. -/
theorem assigned_pin {pinLine : List Char} (hline : '\n' ∉ pinLine) (htail : Unrelated tail) :
    assigned (String.ofList (scriptOf written pinLine tail)) "ZTE_AGENT_PIN" =
      inner "ZTE_AGENT_PIN" written ('\n' :: (pinLine ++ '\n' :: tail)) ++
        (afterPrefix (assignment "ZTE_AGENT_PIN") (pinLine ++ '\n' :: tail)).toList := by
  have hname : '\n' ∉ "ZTE_AGENT_PIN".toList := by
    simp only [String.reduceToList]
    decide
  have hnone : ∀ {front : List Char}, differ (assignment "ZTE_AGENT_PIN") front = true →
      ∀ rest, afterPrefix (assignment "ZTE_AGENT_PIN") (front ++ rest) = none :=
    fun h rest => if_neg (not_prefix_of_differ h rest)
  have hlast : (beginnings tail).filterMap (afterPrefix (assignment "ZTE_AGENT_PIN")) = [] :=
    filterMap_afterPrefix_eq_nil.mpr htail.pin
  have hfirst : afterPrefix (assignment "ZTE_AGENT_PIN") (scriptOf written pinLine tail) = none :=
    hnone (differ_shebang _ (.inr (.inl rfl))) _
  rw [assigned_eq _ hname, String.toList_ofList, beginnings_scriptOf written tail hline,
    List.filterMap_cons_none hfirst, List.append_assoc,
    List.filterMap_cons_none (hnone differ_pin_password _), List.filterMap_append,
    List.filterMap_cons]
  cases afterPrefix (assignment "ZTE_AGENT_PIN") (pinLine ++ '\n' :: tail) with
  | none => rw [hlast]; rfl
  | some found => rw [hlast]; rfl

/-- A line of the password looks like the one that clears the PIN. -/
def looksUnset (password : String) : Bool :=
  contains password "\nunset ZTE_AGENT_PIN\n" || contains password "\nunset ZTE_AGENT_PIN\r\n"

/-- A script clears the PIN. -/
def clears (script : String) : Bool := (lines script).any (· == "unset ZTE_AGENT_PIN")

theorem clears_iff (cs : List Char) :
    clears (String.ofList cs) = true ↔ ∃ t ∈ beginnings cs, StartsLine unsetLine t := by
  have hne : unsetLine ≠ [] ∧ '\n' ∉ unsetLine ∧ '\r' ∉ unsetLine := by
    unfold unsetLine
    simp only [String.reduceToList]
    decide
  have hmem : clears (String.ofList cs) = true ↔ unsetLine ∈ linesFrom [] cs := by
    unfold clears lines
    rw [List.any_eq_true, String.toList_ofList]
    constructor
    · rintro ⟨line, hline, heq⟩
      obtain ⟨chars, hchars, rfl⟩ := List.mem_map.mp hline
      obtain rfl : chars = unsetLine := by
        rw [← String.toList_ofList (l := chars), eq_of_beq heq]
        rfl
      exact hchars
    · intro hline
      refine ⟨_, List.mem_map_of_mem hline, beq_iff_eq.mpr ?_⟩
      exact String.ofList_toList
  rw [hmem, mem_linesFrom hne.1 hne.2.1 hne.2.2 List.not_mem_nil, List.nil_append, beginnings]
  simp only [List.mem_cons, exists_eq_or_imp]

/-- A line that clears the PIN is the one of the script, or stands in the password. -/
theorem clears_scriptOf (hw : Written password.toList written) {pinLine : List Char}
    (hline : '\n' ∉ pinLine) (htail : Unrelated tail) :
    clears (String.ofList (scriptOf written pinLine tail)) = true ↔
      looksUnset password = true ∨ StartsLine unsetLine (pinLine ++ '\n' :: tail) := by
  have hnone : ∀ {front : List Char}, differ unsetLine front = true →
      ∀ rest, ¬ StartsLine unsetLine (front ++ rest) := fun h rest hs =>
    not_prefix_of_differ h rest (prefix_of_startsLine hs)
  have hfirst : ¬ StartsLine unsetLine (scriptOf written pinLine tail) :=
    hnone (differ_shebang _ (.inr (.inr rfl))) _
  have hsecond := hnone (differ_unset _ (.inl rfl)).2
    (written ++ '\n' :: (pinLine ++ '\n' :: tail))
  rw [← List.append_assoc] at hsecond
  have hquote := quote_notMem unsetLine (.inr (.inr rfl))
  have hlooks : looksUnset password = true ↔
      ∃ t ∈ laterLines written, StartsLine unsetLine (t ++ '\n' :: (pinLine ++ '\n' :: tail)) := by
    have hfeed : ("\nunset ZTE_AGENT_PIN\n").toList = '\n' :: (unsetLine ++ ['\n']) := by
      unfold unsetLine
      simp only [String.reduceToList]
      decide
    have hreturn : ("\nunset ZTE_AGENT_PIN\r\n").toList = '\n' :: (unsetLine ++ ['\r', '\n']) := by
      unfold unsetLine
      simp only [String.reduceToList]
      decide
    have hq : '\'' ∉ unsetLine ++ ['\n'] := by simp [hquote]
    have hq' : '\'' ∉ unsetLine ++ ['\r', '\n'] := by simp [hquote]
    unfold looksUnset contains
    rw [Bool.or_eq_true, decide_eq_true_iff, decide_eq_true_iff, hfeed, hreturn,
      infix_iff_laterLines, infix_iff_laterLines,
      ← hw.lines _ hq ('\n' :: (pinLine ++ '\n' :: tail)),
      ← hw.lines _ hq' ('\n' :: (pinLine ++ '\n' :: tail)), ← exists_or]
    refine exists_congr fun t => ?_
    rw [← and_or_left]
    refine and_congr_right fun ht => ⟨fun h => ?_, fun h => ?_⟩
    · exact h.imp_right .inl
    · rcases h with h | h | h
      · exact .inl h
      · exact .inr h
      · -- What is written has a quote in each of its later lines.
        refine absurd (hw.quoted t ht) fun hmem => hquote ?_
        rw [← h]
        exact List.mem_append_left _ hmem
  rw [clears_iff, beginnings_scriptOf written tail hline, hlooks]
  simp only [List.mem_cons, List.mem_append, List.mem_map]
  constructor
  · rintro ⟨t, hmem, hs⟩
    rcases hmem with rfl | rfl | ⟨u, hu, rfl⟩ | rfl | htl
    · exact absurd hs hfirst
    · exact absurd hs hsecond
    · exact .inl ⟨u, hu, hs⟩
    · exact .inr hs
    · exact absurd hs (htail.unset t htl)
  · rintro (⟨u, hu, hs⟩ | hs)
    · exact ⟨_, .inr (.inr (.inl ⟨u, hu, rfl⟩)), hs⟩
    · exact ⟨_, .inr (.inr (.inr (.inl rfl))), hs⟩

/-! ### What is kept -/

/-- No line of the password looks like one that the reader looks for. -/
def isRetained (password pin : String) : Bool :=
  !looksAssigned "ZTE_AGENT_PASSWORD" password && !looksAssigned "ZTE_AGENT_PIN" password &&
    (pin == "" || !looksUnset password)

/-- The line about the PIN. -/
inductive PinLine : String → List Char → Prop where
  | unset : PinLine "" unsetLine
  | set {pin : String} {written : List Char} (hpin : isPin pin = true)
      (hw : Written pin.toList written) (hline : '\n' ∉ written) :
      PinLine pin (assignment "ZTE_AGENT_PIN" ++ written)

theorem PinLine.line {pin : String} {pinLine : List Char} (h : PinLine pin pinLine) :
    '\n' ∉ pinLine := by
  cases h with
  | unset =>
    unfold unsetLine
    simp only [String.reduceToList]
    decide
  | set hpin hw hline =>
    have hname : '\n' ∉ assignment "ZTE_AGENT_PIN" := by
      refine assignment_line ?_
      simp only [String.reduceToList]
      decide
    rw [List.mem_append, not_or]
    exact ⟨hname, hline⟩

theorem differ_append {p front : List Char} (h : differ p front = true) (rest : List Char) :
    differ p (front ++ rest) = true := by
  have hp := not_prefix_of_differ h rest
  obtain ⟨-, hfront⟩ := Bool.and_eq_true _ _ ▸ h
  have hlong : ¬ front ++ rest <+: p := by
    intro hle
    have := List.isPrefixOf_iff_prefix.mpr ((List.prefix_append front rest).trans hle)
    simp [this] at hfront
  rw [differ, Bool.and_eq_true, Bool.not_eq_true', Bool.not_eq_true', ← Bool.not_eq_true,
    ← Bool.not_eq_true, List.isPrefixOf_iff_prefix, List.isPrefixOf_iff_prefix]
  exact ⟨hp, hlong⟩

theorem PinLine.differ {pin : String} {pinLine : List Char} (h : PinLine pin pinLine) :
    differ (assignment "ZTE_AGENT_PASSWORD") pinLine = true := by
  cases h with
  | unset => exact (differ_unset _ (.inl rfl)).1
  | set hpin hw hline => exact differ_append differ_password_pin _

/-- One assignment is read as it was written. -/
theorem literalAssignment_one {script name : String} {v w rest : List Char}
    (h : assigned script name = [w ++ '\n' :: rest]) (hw : Written v w)
    (hnul : Char.ofNat 0 ∉ v) :
    literalAssignment script name = .ok (some (String.ofList v)) := by
  unfold literalAssignment
  rw [h]
  dsimp only
  rw [hw.reads rest]
  exact if_neg (by simpa using hnul)

/-- More than one is refused. -/
theorem literalAssignment_many {script name : String} {first : List Char}
    {more : List (List Char)} (h : assigned script name = first :: more) (hmore : more ≠ []) :
    literalAssignment script name = .error invalid := by
  unfold literalAssignment
  cases more with
  | nil => exact absurd rfl hmore
  | cons second more => rw [h]

/-- What is assigned is read or refused. -/
theorem literalAssignment_assigned {script name : String} (h : assigned script name ≠ []) :
    literalAssignment script name = .error invalid ∨
      ∃ v, literalAssignment script name = .ok (some v) := by
  cases hassigned : assigned script name with
  | nil => exact absurd hassigned h
  | cons first more =>
    cases more with
    | cons second more => exact .inl (literalAssignment_many hassigned (List.cons_ne_nil _ _))
    | nil =>
      unfold literalAssignment
      rw [hassigned]
      dsimp only
      cases value .bare first with
      | none => exact .inl rfl
      | some v =>
        dsimp only
        split
        · exact .inl rfl
        · exact .inr ⟨_, rfl⟩

/-- The saved password. -/
theorem savedPassword_scriptOf (hw : Written password.toList written) (hne : password ≠ "")
    (hnul : Char.ofNat 0 ∉ password.toList) {pin : String} {pinLine : List Char}
    (hpin : PinLine pin pinLine) (htail : Unrelated tail) :
    savedPassword (String.ofList (scriptOf written pinLine tail)) =
      if looksAssigned "ZTE_AGENT_PASSWORD" password then .error invalid else .ok password := by
  have hassigned : assigned (String.ofList (scriptOf written pinLine tail))
      "ZTE_AGENT_PASSWORD" = _ := assigned_password hpin.line hpin.differ htail
  have hinner := inner_eq_nil_iff hw (quote_notMem _ (.inl rfl))
    ('\n' :: (pinLine ++ '\n' :: tail))
  unfold savedPassword
  cases hlooks : looksAssigned "ZTE_AGENT_PASSWORD" password with
  | true =>
    have hmany : inner "ZTE_AGENT_PASSWORD" written ('\n' :: (pinLine ++ '\n' :: tail)) ≠ [] := by
      rw [Ne, hinner, hlooks]
      decide
    rw [literalAssignment_many hassigned hmany]
    rfl
  | false =>
    rw [hinner.mpr hlooks] at hassigned
    rw [literalAssignment_one hassigned hw hnul, String.ofList_toList]
    exact if_neg hne

theorem resolvePin_keep {request : InstallRequest} (hkeep : request.pinAction = .keep)
    (script : String) : resolvePin request script = savedPassword script >>= fun _ =>
      literalAssignment script "ZTE_AGENT_PIN" >>= fun saved => keptPin saved (clears script) := by
  unfold resolvePin
  rw [hkeep]
  rfl

/-- The PIN when both are kept. -/
theorem resolvePin_scriptOf {request : InstallRequest} (hkeep : request.pinAction = .keep)
    (hw : Written password.toList written) (hne : password ≠ "")
    (hnul : Char.ofNat 0 ∉ password.toList) {pin : String} {pinLine : List Char}
    (hpin : PinLine pin pinLine) (htail : Unrelated tail)
    (hlooks : looksAssigned "ZTE_AGENT_PASSWORD" password = false) :
    resolvePin request (String.ofList (scriptOf written pinLine tail)) =
      if !looksAssigned "ZTE_AGENT_PIN" password && (pin == "" || !looksUnset password) then .ok pin
      else .error invalid := by
  have hsaved := savedPassword_scriptOf hw hne hnul hpin htail
  rw [hlooks] at hsaved
  have hassigned : assigned (String.ofList (scriptOf written pinLine tail)) "ZTE_AGENT_PIN" = _ :=
    assigned_pin hpin.line htail
  have hclears := clears_scriptOf hw hpin.line htail
  have hinner := inner_eq_nil_iff hw (quote_notMem _ (.inr (.inl rfl)))
    ('\n' :: (pinLine ++ '\n' :: tail))
  have hbind : ∀ f : String → Except InstallerError String,
      (Except.ok password >>= f) = f password := fun f => rfl
  rw [resolvePin_keep hkeep, hsaved, if_neg Bool.false_ne_true, hbind]
  cases hpin with
  | unset =>
    have hfound : afterPrefix (assignment "ZTE_AGENT_PIN") (unsetLine ++ '\n' :: tail) = none :=
      if_neg (not_prefix_of_differ (differ_unset _ (.inr rfl)).1 _)
    have hcleared : clears (String.ofList (scriptOf written unsetLine tail)) = true := by
      refine hclears.mpr (.inr (.inl ?_))
      exact ⟨tail, by simp⟩
    rw [hfound, Option.toList_none, List.append_nil] at hassigned
    cases hpinLooks : looksAssigned "ZTE_AGENT_PIN" password with
    | false =>
      rw [hinner.mpr hpinLooks] at hassigned
      unfold literalAssignment
      rw [hassigned]
      rfl
    | true =>
      -- The script clears the PIN, so an assignment inside the password is one too many.
      rw [hcleared]
      have hmany : inner "ZTE_AGENT_PIN" written ('\n' :: (unsetLine ++ '\n' :: tail)) ≠ [] := by
        rw [Ne, hinner, hpinLooks]
        decide
      rcases literalAssignment_assigned (hassigned ▸ hmany) with hread | ⟨v, hread⟩
      · rw [hread]
        rfl
      · rw [hread]
        rfl
  | @set _ pinWritten hdigits hwritten hline =>
    have hne' : (pin == "") = false := by
      rw [beq_eq_false_iff_ne]
      rintro rfl
      exact absurd hdigits (by decide)
    have hnul' : Char.ofNat 0 ∉ pin.toList := by
      intro hmem
      have hall := (Bool.and_eq_true _ _ ▸ hdigits).2
      exact absurd (List.all_eq_true.mp hall _ hmem) (by decide)
    have hcleared : clears (String.ofList
        (scriptOf written (assignment "ZTE_AGENT_PIN" ++ pinWritten) tail)) =
        looksUnset password := by
      rw [Bool.eq_iff_iff, hclears, List.append_assoc]
      exact or_iff_left fun hs => not_prefix_of_differ (differ_unset _ (.inr rfl)).2 _
        (prefix_of_startsLine hs)
    rw [List.append_assoc, afterPrefix_self, Option.toList_some] at hassigned
    rw [List.append_assoc] at hinner
    rw [hcleared, hne', Bool.false_or]
    cases hpinLooks : looksAssigned "ZTE_AGENT_PIN" password with
    | false =>
      rw [hinner.mpr hpinLooks, List.nil_append] at hassigned
      rw [literalAssignment_one hassigned hwritten hnul', String.ofList_toList]
      cases looksUnset password with
      | false | true => rfl
    | true =>
      cases hmore : inner "ZTE_AGENT_PIN" written
          ('\n' :: (assignment "ZTE_AGENT_PIN" ++ (pinWritten ++ '\n' :: tail))) with
      | nil =>
        rw [hinner.mp hmore] at hpinLooks
        cases hpinLooks
      | cons first more =>
        rw [hmore, List.cons_append] at hassigned
        rw [literalAssignment_many hassigned (by simp)]
        rfl

/-- Keeping both credentials gives them back, or is refused. -/
theorem resolve_scriptOf {request : InstallRequest} (hkeep : request.passwordAction = .keep)
    (hkeepPin : request.pinAction = .keep) (hw : Written password.toList written)
    (hne : password ≠ "") (hnul : Char.ofNat 0 ∉ password.toList) {pin : String}
    {pinLine : List Char} (hpin : PinLine pin pinLine) (htail : Unrelated tail) :
    resolve request (String.ofList (scriptOf written pinLine tail)) =
      if isRetained password pin then .ok ⟨password, pin⟩ else .error invalid := by
  have hsaved := savedPassword_scriptOf hw hne hnul hpin htail
  have hvalid : (password = "" || (pin != "" && !isPin pin)) = false := by
    cases hpin with
    | unset => simpa using hne
    | set hdigits hwritten hline => simp [hne, hdigits]
  unfold resolve resolvePassword isRetained
  rw [hkeep]
  dsimp only
  rw [hsaved]
  cases hlooks : looksAssigned "ZTE_AGENT_PASSWORD" password with
  | true => rfl
  | false =>
    rw [if_neg Bool.false_ne_true, Bool.not_false, Bool.true_and]
    show (resolvePin request _ >>= fun pin' =>
      if password = "" || (pin' != "" && !isPin pin') then throw invalid
      else pure (Credentials.mk password pin')) = _
    rw [resolvePin_scriptOf hkeepPin hw hne hnul hpin htail hlooks]
    split
    · show (if password = "" || (pin != "" && !isPin pin) then throw invalid
        else pure (Credentials.mk password pin)) = _
      rw [hvalid]
      rfl
    · rfl

end Script

/-! ### The writers -/

/-- Every quote is replaced. -/
theorem replaceFrom_quote (quote cs : List Char) :
    replaceFrom ['\''] quote 0 cs = requoted quote cs := by
  induction cs with
  | nil => rfl
  | cons c cs ih =>
    rw [requoted_cons, replaceFrom]
    by_cases hc : c = '\''
    · subst hc
      rw [if_pos (by simp), if_pos rfl]
      exact congrArg _ ih
    · have hne : ¬ ['\''] <+: c :: cs := fun h => hc (List.cons_prefix_cons.mp h).1.symm
      rw [if_neg hne, if_neg hc, ih]
      rfl

theorem toList_quoted (quote : String) (s : String) :
    ("'" ++ replace "'" quote s ++ "'").toList =
      '\'' :: requoted quote.toList s.toList ++ ['\''] := by
  rw [String.toList_append, String.toList_append, replace, String.toList_ofList,
    String.toList_ofList, replaceFrom_quote]
  rfl

theorem toList_shellQuote (s : String) : (shellQuote s).toList =
    '\'' :: requoted ('\'' :: "\\'".toList ++ ['\'']) s.toList ++ ['\''] := by
  rw [shellQuote, toList_quoted]
  rfl

/-- A quote that `shell_quote` writes. -/
theorem value_backslash_quote (rest : List Char) :
    value .bare ("\\'".toList ++ rest) = (value .bare rest).map ('\'' :: ·) := by
  show value .bare ('\\' :: '\'' :: rest) = _
  rw [value, if_neg (by decide), if_neg (by decide), if_pos rfl, value, if_pos rfl]

/-- A quote that `shlex.quote` writes. -/
theorem value_double_quote (rest : List Char) :
    value .bare ("\"'\"".toList ++ rest) = (value .bare rest).map ('\'' :: ·) := by
  show value .bare ('"' :: '\'' :: '"' :: rest) = _
  rw [value, if_neg (by decide), if_pos rfl, value, if_pos rfl, value, if_pos rfl]

theorem written_shellQuote (s : String) : Written s.toList (shellQuote s).toList := by
  rw [toList_shellQuote]
  exact written_quoted (by decide) value_backslash_quote s.toList

/-- A character that a terminal installer leaves bare and the reader does not take. -/
def isForeign (c : Char) : Bool := "%:,".toList.contains c

theorem isUnquoted_of_isSafe {c : Char} (h : isSafe c = true) (hc : isForeign c = false) :
    isUnquoted c = true := by
  unfold isSafe at h
  unfold isUnquoted
  rw [Bool.or_eq_true] at h ⊢
  rcases h with halpha | hmem
  · exact .inl halpha
  · right
    have hlist : ("_@%+=:,./-".toList.all fun x =>
        isForeign x || "_-@.!+/=".toList.contains x) = true := by
      simp only [isForeign, String.reduceToList]
      decide
    have hforeign := List.all_eq_true.mp hlist c (List.contains_iff_mem.mp hmem)
    rwa [hc, Bool.false_or] at hforeign

theorem toList_shlexQuote {s : String} (hs : s ≠ "") (h : s.toList.all isSafe = false) :
    (shlexQuote s).toList =
      '\'' :: requoted ('\'' :: "\"'\"".toList ++ ['\'']) s.toList ++ ['\''] := by
  rw [shlexQuote, if_neg hs, h, if_neg Bool.false_ne_true, toList_quoted]
  rfl

theorem shlexQuote_bare {s : String} (hs : s ≠ "") (h : s.toList.all isSafe = true) :
    shlexQuote s = s := by
  rw [shlexQuote, if_neg hs, if_pos h]

/-- A terminal installer writes a value bare, and the reader does not take it. -/
def isLeftBare (s : String) : Bool := s.toList.all isSafe && s.toList.any isForeign

theorem written_shlexQuote {s : String} (hs : s ≠ "") (h : isLeftBare s = false) :
    Written s.toList (shlexQuote s).toList := by
  cases hsafe : s.toList.all isSafe with
  | false =>
    rw [toList_shlexQuote hs hsafe]
    exact written_quoted (by decide) value_double_quote s.toList
  | true =>
    rw [shlexQuote_bare hs hsafe]
    rw [isLeftBare, hsafe, Bool.true_and] at h
    refine written_bare fun c hc => isUnquoted_of_isSafe (List.all_eq_true.mp hsafe c hc) ?_
    by_contra hforeign
    rw [List.any_eq_true.mpr ⟨c, hc, by simpa using hforeign⟩] at h
    cases h

/-- Such a value is refused. -/
theorem value_leftBare {s : String} (h : isLeftBare s = true) (rest : List Char) :
    value .bare (s.toList ++ rest) = none := by
  obtain ⟨hsafe, hforeign⟩ := Bool.and_eq_true _ _ ▸ h
  clear h
  generalize s.toList = cs at hsafe hforeign
  induction cs with
  | nil => cases hforeign
  | cons c cs ih =>
    rw [List.all_cons, Bool.and_eq_true] at hsafe
    have hplain : c ≠ '\'' ∧ c ≠ '"' ∧ c ≠ '\\' ∧ ¬ (c = '\n' || c = '\r') = true := by
      refine ⟨?_, ?_, ?_, ?_⟩
      · rintro rfl
        exact absurd hsafe.1 (by decide)
      · rintro rfl
        exact absurd hsafe.1 (by decide)
      · rintro rfl
        exact absurd hsafe.1 (by decide)
      · rw [Bool.or_eq_true, decide_eq_true_eq, decide_eq_true_eq]
        rintro (rfl | rfl)
        · exact absurd hsafe.1 (by decide)
        · exact absurd hsafe.1 (by decide)
    obtain ⟨h1, h2, h3, h4⟩ := hplain
    rw [List.cons_append, value, if_neg h1, if_neg h2, if_neg h3, if_neg h4]
    split
    · rename_i hunquoted
      have hc : isForeign c = false := by
        by_contra hc
        have hlist : ("%:,".toList.all fun x => !isUnquoted x) = true := by
          simp only [isUnquoted, String.reduceToList]
          decide
        have hmem : c ∈ "%:,".toList := List.contains_iff_mem.mp (Bool.of_not_eq_false hc)
        have hnot := List.all_eq_true.mp hlist c hmem
        rw [hunquoted] at hnot
        cases hnot
      rw [List.any_cons, hc, Bool.false_or] at hforeign
      rw [ih hsafe.2 hforeign]
      rfl
    · rfl

/-- What the native installer writes after the credentials. -/
def nativeTail : List Char :=
  ("# The agent writes its own rotated log: /data/local/tmp/zte-agent.log\n" ++
    "trap '' HUP\nnohup /data/zte-agent >/dev/null 2>&1 </dev/null &\n").toList

/-- What a terminal installer writes after them. -/
def terminalTail : List Char :=
  "trap '' HUP\nnohup /data/zte-agent >/dev/null 2>&1 </dev/null &\n".toList

theorem unrelated_nativeTail : Unrelated nativeTail := by
  -- A long text is compared with its characters, and never taken apart.
  have hnote : "# The agent writes its own rotated log: /data/local/tmp/zte-agent.log\n".toList =
      _ := String.toList_ofList
  have htrap : "trap '' HUP\nnohup /data/zte-agent >/dev/null 2>&1 </dev/null &\n".toList = _ :=
    String.toList_ofList
  constructor
  all_goals
    unfold nativeTail
    rw [String.toList_append]
    delta assignment unsetLine
    simp only [hnote, htrap, String.reduceToList]
    decide

theorem unrelated_terminalTail : Unrelated terminalTail := by
  have htrap : "trap '' HUP\nnohup /data/zte-agent >/dev/null 2>&1 </dev/null &\n".toList = _ :=
    String.toList_ofList
  constructor
  all_goals
    unfold terminalTail
    delta assignment unsetLine
    simp only [htrap, String.reduceToList]
    decide

/-- The line about the PIN, as it is written. -/
def pinLineOf (pin : String) (written : List Char) : List Char :=
  if pin = "" then unsetLine else assignment "ZTE_AGENT_PIN" ++ written

theorem toList_assignments :
    "export ZTE_AGENT_PASSWORD=".toList = assignment "ZTE_AGENT_PASSWORD" ∧
    "export ZTE_AGENT_PIN=".toList = assignment "ZTE_AGENT_PIN" := by
  delta assignment
  simp only [String.reduceToList]
  decide

theorem toList_pinLine (pin written : String) :
    (if pin = "" then "unset ZTE_AGENT_PIN" else "export ZTE_AGENT_PIN=" ++ written).toList =
      pinLineOf pin written.toList := by
  unfold pinLineOf
  split
  · rfl
  · rw [String.toList_append, toList_assignments.2]

theorem toList_feed : "\n".toList = ['\n'] := by simp only [String.reduceToList]

theorem startupScript_eq (password pin : String) :
    startupScript password pin = String.ofList (scriptOf (shellQuote password).toList
      (pinLineOf pin (shellQuote pin).toList) nativeTail) := by
  have hlines : startupScript password pin = "#!/bin/sh" ++ "\n" ++
      ("export ZTE_AGENT_PASSWORD=" ++ shellQuote password) ++ "\n" ++
      (if pin = "" then "unset ZTE_AGENT_PIN" else "export ZTE_AGENT_PIN=" ++ shellQuote pin) ++
      "\n" ++ "# The agent writes its own rotated log: /data/local/tmp/zte-agent.log" ++ "\n" ++
      "trap '' HUP\nnohup /data/zte-agent >/dev/null 2>&1 </dev/null &" ++ "\n" := rfl
  have hnote : "# The agent writes its own rotated log: /data/local/tmp/zte-agent.log\n".toList =
      _ := String.toList_ofList
  have hnote' : "# The agent writes its own rotated log: /data/local/tmp/zte-agent.log".toList =
      _ := String.toList_ofList
  have htrap : "trap '' HUP\nnohup /data/zte-agent >/dev/null 2>&1 </dev/null &\n".toList = _ :=
    String.toList_ofList
  have htrap' : "trap '' HUP\nnohup /data/zte-agent >/dev/null 2>&1 </dev/null &".toList = _ :=
    String.toList_ofList
  have htail : nativeTail =
      "# The agent writes its own rotated log: /data/local/tmp/zte-agent.log".toList ++ '\n' ::
        ("trap '' HUP\nnohup /data/zte-agent >/dev/null 2>&1 </dev/null &".toList ++ ['\n']) := by
    unfold nativeTail
    rw [String.toList_append, hnote, hnote', htrap, htrap']
    rfl
  rw [hlines, ← String.toList_inj, String.toList_ofList]
  simp only [String.toList_append, toList_pinLine, toList_assignments.1, toList_feed]
  unfold scriptOf
  rw [htail]
  -- As steps of their own: the texts are not compared by evaluation.
  simp -implicitDefEqProofs only [List.append_assoc, List.cons_append, List.nil_append]

theorem render_eq {password pin : String} (hne : password ≠ "")
    (hnul : Char.ofNat 0 ∉ password.toList) (hpin : pin = "" ∨ isPin pin = true) :
    render password pin = some (String.ofList (scriptOf (shlexQuote password).toList
      (pinLineOf pin (shlexQuote pin).toList) terminalTail)) := by
  have hpassword : (password = "" || password.toList.contains (Char.ofNat 0)) = false := by
    simp [hne, hnul]
  have hsix : (pin != "" && !(pin.toList.length == 6 && pin.toList.all isAsciiDigit)) = false := by
    rcases hpin with rfl | hpin
    · rfl
    · obtain ⟨hsize, hdigits⟩ := Bool.and_eq_true _ _ ▸ hpin
      -- Six bytes are six characters, because they are digits.
      have hascii : ∀ c ∈ pin.toList, c.toNat < 128 := by
        intro c hc
        have hdigit := List.all_eq_true.mp hdigits c hc
        unfold isAsciiDigit at hdigit
        simp only [Bool.and_eq_true, decide_eq_true_eq] at hdigit
        omega
      rw [utf8ByteSize_ascii hascii] at hsize
      simp [hsize, hdigits]
  have hlines : render password pin = some ("#!/bin/sh" ++ "\n" ++
      ("export ZTE_AGENT_PASSWORD=" ++ shlexQuote password) ++ "\n" ++
      (if pin = "" then "unset ZTE_AGENT_PIN" else "export ZTE_AGENT_PIN=" ++ shlexQuote pin) ++
      "\n" ++ "trap '' HUP" ++ "\n" ++
      "nohup /data/zte-agent >/dev/null 2>&1 </dev/null &" ++ "\n") := by
    unfold render
    rw [hpassword, hsix]
    rfl
  have htrap : "trap '' HUP\nnohup /data/zte-agent >/dev/null 2>&1 </dev/null &\n".toList = _ :=
    String.toList_ofList
  have htrap' : "trap '' HUP".toList = _ := String.toList_ofList
  have hnohup : "nohup /data/zte-agent >/dev/null 2>&1 </dev/null &".toList = _ :=
    String.toList_ofList
  have htail : terminalTail = "trap '' HUP".toList ++ '\n' ::
      ("nohup /data/zte-agent >/dev/null 2>&1 </dev/null &".toList ++ ['\n']) := by
    unfold terminalTail
    rw [htrap, htrap', hnohup]
    rfl
  rw [hlines, Option.some.injEq, ← String.toList_inj, String.toList_ofList]
  simp only [String.toList_append, toList_pinLine, toList_assignments.1, toList_feed]
  unfold scriptOf
  rw [htail]
  simp -implicitDefEqProofs only [List.append_assoc, List.cons_append, List.nil_append]

/-- A PIN needs no quotes. -/
theorem unquoted_of_isPin {pin : String} (h : isPin pin = true) :
    ∀ c ∈ pin.toList, isAsciiDigit c = true := List.all_eq_true.mp (Bool.and_eq_true _ _ ▸ h).2

theorem ne_of_isPin {pin : String} (h : isPin pin = true) : pin ≠ "" := by
  rintro rfl
  exact absurd h (by decide)

theorem digit_plain {c : Char} (h : isAsciiDigit c = true) :
    isSafe c = true ∧ isForeign c = false ∧ c ≠ '\n' ∧ c ≠ '\'' := by
  have halpha : isAsciiAlphanumeric c = true := by
    rw [isAsciiAlphanumeric, h, Bool.true_or, Bool.true_or]
  refine ⟨by rw [isSafe, halpha, Bool.true_or], ?_, ?_, ?_⟩
  · by_contra hc
    have hlist : ("%:,".toList.all fun x => !isAsciiDigit x) = true := by
      simp only [String.reduceToList]
      decide
    have hmem : c ∈ "%:,".toList := List.contains_iff_mem.mp (Bool.of_not_eq_false hc)
    have hnot := List.all_eq_true.mp hlist c hmem
    rw [h] at hnot
    cases hnot
  · rintro rfl
    exact absurd h (by decide)
  · rintro rfl
    exact absurd h (by decide)

/-- The line about the PIN that the native installer writes. -/
theorem pinLine_native {pin : String} (hpin : pin = "" ∨ isPin pin = true) :
    PinLine pin (pinLineOf pin (shellQuote pin).toList) := by
  rcases hpin with rfl | hpin
  · exact .unset
  · rw [pinLineOf, if_neg (ne_of_isPin hpin)]
    refine .set hpin (written_shellQuote pin) ?_
    rw [toList_shellQuote, List.mem_append, not_or]
    refine ⟨fun hmem => ?_, by decide⟩
    rcases List.mem_cons.mp hmem with heq | hmem
    · cases heq
    · obtain ⟨c, hc, hmem⟩ := List.mem_flatMap.mp hmem
      obtain ⟨-, -, hfeed, hquote⟩ := digit_plain (unquoted_of_isPin hpin c hc)
      rw [if_neg hquote, List.mem_singleton] at hmem
      exact hfeed hmem.symm

/-- The one that a terminal installer writes. -/
theorem pinLine_terminal {pin : String} (hpin : pin = "" ∨ isPin pin = true) :
    PinLine pin (pinLineOf pin (shlexQuote pin).toList) := by
  rcases hpin with rfl | hpin
  · exact .unset
  · have hsafe : pin.toList.all isSafe = true :=
      List.all_eq_true.mpr fun c hc => (digit_plain (unquoted_of_isPin hpin c hc)).1
    have hbare : isLeftBare pin = false := by
      rw [isLeftBare, hsafe, Bool.true_and, ← Bool.not_eq_true, List.any_eq_true]
      rintro ⟨c, hc, hforeign⟩
      rw [(digit_plain (unquoted_of_isPin hpin c hc)).2.1] at hforeign
      cases hforeign
    rw [pinLineOf, if_neg (ne_of_isPin hpin)]
    refine .set hpin (written_shlexQuote (ne_of_isPin hpin) hbare) ?_
    rw [shlexQuote_bare (ne_of_isPin hpin) hsafe]
    exact fun hmem => (digit_plain (unquoted_of_isPin hpin _ hmem)).2.2.1 rfl

/-- **Kept credentials.** Reading back, with both kept, what the native installer wrote for a
password without NUL and a PIN gives exactly these, unless a line of the password looks like an
assignment of the password or of the PIN, or, when there is a PIN, like the line that clears it.
Then it is refused. Other credentials are never read. -/
theorem kept_native {request : InstallRequest} (hkeep : request.passwordAction = .keep)
    (hkeepPin : request.pinAction = .keep) {password pin : String} (hne : password ≠ "")
    (hnul : Char.ofNat 0 ∉ password.toList) (hpin : pin = "" ∨ isPin pin = true) :
    resolve request (startupScript password pin) =
      if isRetained password pin then .ok ⟨password, pin⟩ else .error invalid := by
  rw [startupScript_eq]
  exact resolve_scriptOf hkeep hkeepPin (written_shellQuote password) hne hnul (pinLine_native hpin)
    unrelated_nativeTail

/-- What a terminal installer wrote is read back in the same way, but a password that it leaves bare
and that contains a percent sign, a colon or a comma is refused as well. -/
theorem kept_terminal {request : InstallRequest} (hkeep : request.passwordAction = .keep)
    (hkeepPin : request.pinAction = .keep) {password pin : String} (hne : password ≠ "")
    (hnul : Char.ofNat 0 ∉ password.toList) (hpin : pin = "" ∨ isPin pin = true) :
    ∃ script, render password pin = some script ∧
      resolve request script =
        if isRetained password pin && !isLeftBare password then .ok ⟨password, pin⟩
        else .error invalid := by
  refine ⟨_, render_eq hne hnul hpin, ?_⟩
  cases hbare : isLeftBare password with
  | false =>
    rw [Bool.not_false, Bool.and_true]
    exact resolve_scriptOf hkeep hkeepPin (written_shlexQuote hne hbare) hne hnul
      (pinLine_terminal hpin) unrelated_terminalTail
  | true =>
    rw [Bool.not_true, Bool.and_false, if_neg Bool.false_ne_true]
    -- The password stands in the script as it is, and the reader stops in it.
    obtain ⟨hsafe, -⟩ := Bool.and_eq_true _ _ ▸ hbare
    have hline := pinLine_terminal hpin
    have hassigned : assigned (String.ofList (scriptOf (shlexQuote password).toList
        (pinLineOf pin (shlexQuote pin).toList) terminalTail)) "ZTE_AGENT_PASSWORD" = _ :=
      assigned_password hline.line hline.differ unrelated_terminalTail
    have hread : literalAssignment (String.ofList (scriptOf (shlexQuote password).toList
        (pinLineOf pin (shlexQuote pin).toList) terminalTail)) "ZTE_AGENT_PASSWORD" =
        .error invalid := by
      cases hinner : inner "ZTE_AGENT_PASSWORD" (shlexQuote password).toList
          ('\n' :: (pinLineOf pin (shlexQuote pin).toList ++ '\n' :: terminalTail)) with
      | cons first more => exact literalAssignment_many hassigned (by rw [hinner]; simp)
      | nil =>
        rw [hinner, shlexQuote_bare hne hsafe] at hassigned
        rw [shlexQuote_bare hne hsafe]
        unfold literalAssignment
        rw [hassigned]
        dsimp only
        rw [value_leftBare hbare]
    unfold resolve resolvePassword savedPassword
    rw [hkeep]
    dsimp only
    rw [hread]
    rfl

namespace Sample

/-- Both credentials are kept. -/
def request : InstallRequest where
  detectionId := ""
  gateway := "192.168.0.1"
  adbSerial := none
  routerPassword := ""
  backupSuffix := ""
  agentPassword := ""
  agentPasswordConfirmation := ""
  agentPin := ""
  passwordAction := .keep
  pinAction := .keep
  dryRun := false
  rebootAfter := false
  diagnosticMode := false
  bundlePath := none

end Sample

open Sample in
/-- A password with a quote and a second line is kept, with its PIN. -/
theorem multiline_kept :
    resolve request (startupScript "can't\nexport it" "123456") =
      .ok ⟨"can't\nexport it", "123456"⟩ := by
  have hnul : Char.ofNat 0 ∉ "can't\nexport it".toList := by
    simp only [String.reduceToList]
    decide
  refine (kept_native rfl rfl (by decide) hnul (.inr (by decide))).trans (if_pos ?_)
  unfold isRetained looksAssigned looksUnset contains
  simp only [String.reduceToList]
  decide

open Sample in
/-- So is one without a PIN that a terminal installer wrote. One with a colon in it is refused. -/
theorem colon_refused :
    (∃ script, render "can't" "" = some script ∧ resolve request script = .ok ⟨"can't", ""⟩) ∧
    ∃ script, render "a:b" "" = some script ∧ resolve request script = .error invalid := by
  have hnul : Char.ofNat 0 ∉ "can't".toList ∧ Char.ofNat 0 ∉ "a:b".toList := by
    simp only [String.reduceToList]
    decide
  obtain ⟨quoted, hquoted, hkept⟩ :=
    kept_terminal (rfl : request.passwordAction = .keep) rfl (by decide) hnul.1 (.inl rfl)
  obtain ⟨bare, hbare, hrefused⟩ :=
    kept_terminal (rfl : request.passwordAction = .keep) rfl (by decide) hnul.2 (.inl rfl)
  refine ⟨⟨quoted, hquoted, hkept.trans (if_pos ?_)⟩, bare, hbare, hrefused.trans (if_neg ?_)⟩
  · unfold isRetained looksAssigned looksUnset contains isLeftBare
    simp only [String.reduceToList]
    decide
  · unfold isRetained looksAssigned looksUnset contains isLeftBare
    simp only [String.reduceToList]
    decide

end OpenUI.Installer.Startup
