import Mathlib.Data.List.Flatten
import OpenUI.Deploy.BootScript
import OpenUI.Proofs.Text

/-!
# `OpenUI.Proofs.Deploy.BootScript`: what an update makes of a boot script

An update is safe for a script that ends in a line feed, and for one with an exit line, in front of
which the entries are put (`editAll_safe`). Otherwise the first entry that is missing is written
behind the unterminated last line: it is no line of its own, and neither is that line any more
(`spoiled_iff`). `boot_script_updated_iff` says for both programs on which texts and entries the
update still does what it is for.
-/

set_option autoImplicit false

namespace OpenUI.Deploy.BootScript

open OpenUI.Text

-- The equations are stated here once, before the proofs that rewrite with them.
section
attribute [local simp] editAll
end

/-! ### Text and lines -/

theorem cons_lf (s : Script) : (s.cons '\n').lines = [] :: s.lines ∧ (s.cons '\n').rest = s.rest := by
  unfold Script.cons
  exact ⟨rfl, rfl⟩

/-- A character in front of a script without a line feed. -/
theorem cons_rest {c : Char} (hc : c ≠ '\n') {s : Script} (h : s.lines = []) :
    (s.cons c).lines = [] ∧ (s.cons c).rest = c :: s.rest := by
  unfold Script.cons
  rw [dif_neg hc]
  split
  · exact ⟨rfl, rfl⟩
  · next hl =>
    rw [hl] at h
    cases h

/-- A character in front of a line. -/
theorem cons_line {c : Char} (hc : c ≠ '\n') {s : Script} {line : List Char}
    {lines : List (List Char)} (h : s.lines = line :: lines) :
    (s.cons c).lines = (c :: line) :: lines ∧ (s.cons c).rest = s.rest := by
  unfold Script.cons
  rw [dif_neg hc]
  split
  · next hl =>
    rw [hl] at h
    cases h
  · next hl =>
    rw [hl] at h
    cases h
    exact ⟨rfl, rfl⟩

/-- A text without a line feed is the rest. -/
theorem ofText_rest {rest : List Char} (h : '\n' ∉ rest) :
    (Script.ofText rest).lines = [] ∧ (Script.ofText rest).rest = rest := by
  induction rest with
  | nil => exact ⟨rfl, rfl⟩
  | cons c rest ih =>
    rw [List.mem_cons, not_or] at h
    have hrest := ih h.2
    have hcons := cons_rest (Ne.symm h.1) hrest.1
    exact ⟨hcons.1, hcons.2.trans (by rw [hrest.2])⟩

/-- A line, and what follows it. -/
theorem ofText_line {line : List Char} (h : '\n' ∉ line) (text : List Char) :
    (Script.ofText (line ++ '\n' :: text)).lines = line :: (Script.ofText text).lines ∧
      (Script.ofText (line ++ '\n' :: text)).rest = (Script.ofText text).rest := by
  induction line with
  | nil => exact cons_lf _
  | cons c line ih =>
    rw [List.mem_cons, not_or] at h
    have hline := ih h.2
    have hcons := cons_line (Ne.symm h.1) hline.1
    exact ⟨hcons.1, hcons.2.trans hline.2⟩

/-- The content of the text of a script is the script. -/
theorem ofText_text (s : Script) : Script.ofText s.text = s := by
  obtain ⟨lines, rest, hlines, hrest⟩ := s
  have hparts : (Script.ofText (lines.flatMap (· ++ ['\n']) ++ rest)).lines = lines ∧
      (Script.ofText (lines.flatMap (· ++ ['\n']) ++ rest)).rest = rest := by
    induction lines with
    | nil => exact ofText_rest hrest
    | cons line lines ih =>
      have htail := ih fun l hl => hlines l (List.mem_cons_of_mem _ hl)
      have hline := ofText_line (hlines line (List.mem_cons_self ..))
        (lines.flatMap (· ++ ['\n']) ++ rest)
      rw [htail.1, htail.2] at hline
      simpa using hline
  exact Script.ext hparts.1 hparts.2

/-! ### Entries -/

/-- An entry begins with an `s` and ends with an `h`. -/
theorem Entry.text_eq (e : Entry) : ∃ middle, e.text = 's' :: (middle ++ ['h']) := by
  cases e with
  | agent => exact ⟨"h /data/local/tmp/start_zte_agent.s".toList, by decide +kernel⟩
  | dropbear => exact ⟨"h /data/local/tmp/start_dropbear.s".toList, by decide +kernel⟩
  | dashboard => exact ⟨"h /data/local/tmp/start_dashboard.s".toList, by decide +kernel⟩

theorem Entry.text_ne_nil (e : Entry) : e.text ≠ [] := by
  obtain ⟨middle, he⟩ := e.text_eq
  simp [he]

/-- A line that ends in an entry is no debug line. -/
theorem isDebug_append (front : List Char) (e : Entry) : isDebug (front ++ e.text) = false := by
  rw [Bool.eq_false_iff]
  intro h
  simp only [isDebug, Bool.and_eq_true, List.isSuffixOf_iff_suffix] at h
  obtain ⟨middle, he⟩ := e.text_eq
  have hlast : (front ++ e.text).getLast? = some 'h' := by
    rw [he, ← List.cons_append, ← List.append_assoc, List.getLast?_concat]
  obtain ⟨start, hstart⟩ := h.2.trans (List.drop_suffix 9 (front ++ e.text))
  rw [← hstart] at hlast
  have hp : (start ++ "usb_op".toList).getLast? = some 'p' := by
    show (start ++ ("usb_o".toList ++ ['p'])).getLast? = some 'p'
    rw [← List.append_assoc, List.getLast?_concat]
  rw [hp] at hlast
  revert hlast
  decide

theorem isDebug_entry (e : Entry) : isDebug e.text = false := isDebug_append [] e

/-- A line that ends in an entry is an exit line only if it was one before. -/
theorem isExit_append {front : List Char} (h : isExit front = false) (e : Entry) :
    isExit (front ++ e.text) = false := by
  rw [Bool.eq_false_iff] at h ⊢
  intro hexit
  replace hexit : "exit 0".toList <+: front ++ e.text := List.isPrefixOf_iff_prefix.mp hexit
  by_cases hlen : "exit 0".toList.length ≤ front.length
  · exact h (List.isPrefixOf_iff_prefix.mpr
      (List.prefix_of_prefix_length_le hexit (List.prefix_append front e.text) hlen))
  · -- The line is too short, so the `s` of the entry would be a letter of the command.
    obtain ⟨middle, he⟩ := e.text_eq
    obtain ⟨tail, htail⟩ := hexit
    have hget : ("exit 0".toList ++ tail)[front.length]? = some 's' := by
      rw [htail, he]
      simp
    rw [List.getElem?_append_left (by omega)] at hget
    have hmem : 's' ∈ "exit 0".toList := List.mem_of_getElem? hget
    revert hmem
    decide

/-! ### Lines of an edited script -/

/-- The lines of a script that ends in a line feed. -/
theorem all_of_terminated {s : Script} (h : s.rest = []) : s.all = s.lines := by
  rw [Script.all, if_pos h, List.append_nil]

/-- The lines of a script that does not. -/
theorem all_of_unterminated {s : Script} (h : s.rest ≠ []) : s.all = s.lines ++ [s.rest] := by
  rw [Script.all, if_neg h]

theorem all_removeDebug (s : Script) : (removeDebug s).all = s.all.filter (!isDebug ·) := by
  by_cases hr : s.rest = []
  · have hrest : (removeDebug s).rest = [] := by
      show (if isDebug s.rest = true then [] else s.rest) = []
      rw [hr]
      rfl
    rw [all_of_terminated hrest, all_of_terminated hr]
    rfl
  · rw [all_of_unterminated hr, List.filter_append]
    by_cases hd : isDebug s.rest = true
    · have hrest : (removeDebug s).rest = [] := if_pos hd
      rw [all_of_terminated hrest]
      simp [removeDebug, hd]
    · have hrest : (removeDebug s).rest = s.rest := if_neg hd
      rw [all_of_unterminated (by rw [hrest]; exact hr), hrest]
      simp [removeDebug, hd]

theorem all_insertEntry (e : Entry) (s : Script) :
    (insertEntry e s).all = s.all.flatMap fun l => if isExit l then [e.text, l] else [l] := by
  by_cases hr : s.rest = []
  · have hrest : (insertEntry e s).rest = [] := hr
    have hempty : isExit s.rest = false := by
      rw [hr]
      rfl
    rw [all_of_terminated hrest, all_of_terminated hr]
    simp [insertEntry, hempty]
  · rw [all_of_unterminated (s := insertEntry e s) hr, all_of_unterminated hr, List.flatMap_append]
    by_cases hx : isExit s.rest = true
    · simp [insertEntry, hx]
    · simp [insertEntry, hx]

theorem all_appendEntry (e : Entry) (s : Script) :
    (appendEntry e s).all = s.lines ++ [s.rest ++ e.text] := all_of_terminated rfl

/-! ### One step -/

/-- A script whose entries find their place: it ends in a line feed, or it has an exit line. -/
def Safe (s : Script) : Prop := s.rest = [] ∨ s.all.any isExit = true

/-- A debug line is no exit line. -/
theorem isExit_of_isDebug {l : List Char} (h : isDebug l = true) : isExit l = false := by
  rw [Bool.eq_false_iff]
  intro hx
  simp only [isDebug, Bool.and_eq_true] at h
  obtain ⟨tail, rfl⟩ := List.isPrefixOf_iff_prefix.mp h.1.1.1
  obtain ⟨tail', htail⟩ := List.isPrefixOf_iff_prefix.mp hx
  have hthird := congrArg (·[1]?) htail
  revert hthird
  show some 'x' = some 'c' → False
  decide

/-- Removing the debug lines leaves the exit lines. -/
theorem any_isExit_removeDebug (s : Script) :
    (removeDebug s).all.any isExit = s.all.any isExit := by
  rw [all_removeDebug, Bool.eq_iff_iff, List.any_eq_true, List.any_eq_true]
  constructor
  · rintro ⟨l, hl, hx⟩
    exact ⟨l, List.mem_of_mem_filter hl, hx⟩
  · rintro ⟨l, hl, hx⟩
    refine ⟨l, List.mem_filter.mpr ⟨hl, ?_⟩, hx⟩
    cases hd : isDebug l with
    | false => rfl
    | true =>
      rw [isExit_of_isDebug hd] at hx
      cases hx

/-- A safe script stays one without its debug lines. -/
theorem safe_removeDebug {s : Script} (h : Safe s) : Safe (removeDebug s) := by
  rcases h with h | h
  · left
    show (if isDebug s.rest = true then [] else s.rest) = []
    rw [h]
    rfl
  · right
    rw [any_isExit_removeDebug]
    exact h

/-- In a safe script an entry becomes a line, and every line stays. -/
theorem addEntry_safe {s : Script} (h : Safe s) (e : Entry) :
    Safe (addEntry s e) ∧ e.text ∈ (addEntry s e).all ∧ s.all.Sublist (addEntry s e).all := by
  unfold addEntry
  split
  · next hc => exact ⟨h, by simpa using hc, List.Sublist.refl _⟩
  · split
    · next hx =>
      rw [all_insertEntry]
      obtain ⟨l, hl, hexit⟩ := List.any_eq_true.mp hx
      have hpair : ∀ k ∈ [e.text, l],
          k ∈ s.all.flatMap fun l => if isExit l then [e.text, l] else [l] := by
        intro k hk
        refine List.mem_flatMap.mpr ⟨l, hl, ?_⟩
        rw [if_pos hexit]
        exact hk
      refine ⟨.inr ?_, hpair _ (List.mem_cons_self ..), ?_⟩
      · rw [all_insertEntry]
        exact List.any_eq_true.mpr ⟨l, hpair l (by simp), hexit⟩
      · -- Each line is one of those that it becomes.
        have hself : s.all.flatMap (fun l => [l]) = s.all := List.flatMap_singleton' _
        conv_lhs => rw [← hself]
        refine List.Sublist.flatMap_right _ fun k _ => ?_
        split
        · exact List.sublist_cons_self ..
        · exact List.Sublist.refl _
    · next hx =>
      have hrest : s.rest = [] := h.resolve_right hx
      have hall : (appendEntry e s).all = s.all ++ [e.text] := by
        rw [all_appendEntry, hrest, all_of_terminated hrest, List.nil_append]
      rw [hall]
      exact ⟨.inl rfl, by simp, List.sublist_append_left ..⟩

/-! ### All steps -/

/-- The arguments leave the line: it is no debug line, or they do not remove those. -/
def keeps (args : List Argument) (l : List Char) : Bool :=
  !(args.contains .removeDebug && isDebug l)

theorem keeps_entry (e : Entry) (args : List Argument) : keeps (.entry e :: args) = keeps args := by
  funext l
  simp [keeps]

theorem keeps_text (args : List Argument) (e : Entry) : keeps args e.text = true := by
  simp [keeps, isDebug_entry]

/-- After the debug lines are removed, the arguments leave what is there. -/
theorem filter_keeps_removeDebug (args : List Argument) (s : Script) :
    (removeDebug s).all.filter (keeps args) = s.all.filter (keeps (.removeDebug :: args)) := by
  rw [all_removeDebug, List.filter_filter]
  refine List.filter_congr fun l _ => ?_
  simp only [keeps, List.contains_cons, beq_self_eq_true, Bool.true_or, Bool.true_and]
  cases isDebug l
  · simp
  · simp

/-- In a safe script all entries become lines, and every line that is not removed stays, in its
order. -/
theorem editAll_safe {args : List Argument} {s t : Script} (h : Safe s)
    (he : editAll s args = some t) :
    (∀ e, .entry e ∈ args → e.text ∈ t.all) ∧ (s.all.filter (keeps args)).Sublist t.all := by
  induction args generalizing s with
  | nil =>
    cases he
    exact ⟨fun e hmem => absurd hmem (List.not_mem_nil), List.filter_sublist⟩
  | cons a args ih =>
    cases a with
    | removeDebug =>
      have hrest := ih (safe_removeDebug h) he
      refine ⟨fun e hmem => hrest.1 e (by simpa using hmem), ?_⟩
      rw [← filter_keeps_removeDebug]
      exact hrest.2
    | entry e =>
      have hstep := addEntry_safe h e
      have hrest := ih hstep.1 he
      constructor
      · intro d hmem
        rcases List.mem_cons.mp hmem with heq | hmem
        · -- The entry is kept by what follows.
          cases heq
          exact hrest.2.subset (List.mem_filter.mpr ⟨hstep.2.1, keeps_text args e⟩)
        · exact hrest.1 d hmem
      · rw [keeps_entry]
        exact (hstep.2.2.filter _).trans hrest.2
    | unsupported line => cases he

/-- Without debug lines, there are none after a step either. -/
theorem no_debug_addEntry {s : Script} (h : ∀ l ∈ s.all, isDebug l = false) (e : Entry) :
    ∀ l ∈ (addEntry s e).all, isDebug l = false := by
  unfold addEntry
  split
  · exact h
  · split
    · intro l hl
      rw [all_insertEntry] at hl
      obtain ⟨k, hk, hl⟩ := List.mem_flatMap.mp hl
      split at hl
      · simp only [List.mem_cons, List.not_mem_nil, or_false] at hl
        rcases hl with rfl | rfl
        · exact isDebug_entry e
        · exact h _ hk
      · rw [List.mem_singleton.mp hl]
        exact h k hk
    · intro l hl
      rw [all_appendEntry] at hl
      rcases List.mem_append.mp hl with hl | hl
      · exact h l (List.mem_append_left _ hl)
      · rw [List.mem_singleton.mp hl]
        exact isDebug_append s.rest e

/-- Debug lines that are to be removed are gone at the end, however the script ends. -/
theorem no_debug_editAll {args : List Argument} {s t : Script} (he : editAll s args = some t)
    (h : .removeDebug ∈ args ∨ ∀ l ∈ s.all, isDebug l = false) :
    ∀ l ∈ t.all, isDebug l = false := by
  induction args generalizing s with
  | nil =>
    cases he
    exact h.resolve_left (List.not_mem_nil)
  | cons a args ih =>
    cases a with
    | removeDebug =>
      refine ih he (.inr fun l hl => ?_)
      rw [all_removeDebug] at hl
      simpa using (List.mem_filter.mp hl).2
    | entry e =>
      refine ih he ?_
      rcases h with h | h
      · exact .inl (by simpa using h)
      · exact .inr (no_debug_addEntry h e)
    | unsupported line => cases he

/-- Nothing is removed from a script without debug lines. -/
theorem removeDebug_eq_self {s : Script} (h : ∀ l ∈ s.all, isDebug l = false) :
    removeDebug s = s := by
  refine Script.ext ?_ ?_
  · refine List.filter_eq_self.mpr fun l hl => ?_
    rw [h l (List.mem_append_left _ hl)]
    rfl
  · show (if isDebug s.rest = true then [] else s.rest) = s.rest
    by_cases hr : s.rest = []
    · rw [hr]
      rfl
    · rw [if_neg]
      rw [h s.rest (by rw [all_of_unterminated hr]; simp)]
      decide

/-- A script that has all the entries and none of the lines to be removed stays as it is. -/
theorem editAll_eq_self {args : List Argument} {s t r : Script} (hr : editAll r args = some t)
    (hentries : ∀ e, .entry e ∈ args → e.text ∈ s.all)
    (hdebug : .removeDebug ∈ args → ∀ l ∈ s.all, isDebug l = false) : editAll s args = some s := by
  induction args generalizing r with
  | nil => rfl
  | cons a args ih =>
    cases a with
    | removeDebug =>
      have hnone := hdebug (List.mem_cons_self ..)
      rw [editAll, removeDebug_eq_self hnone]
      exact ih hr (fun e he => hentries e (List.mem_cons_of_mem _ he)) fun _ => hnone
    | entry e =>
      have hthere : s.all.contains e.text = true := by
        simpa using hentries e (List.mem_cons_self ..)
      rw [editAll, addEntry, if_pos hthere]
      exact ih hr (fun d hd => hentries d (List.mem_cons_of_mem _ hd))
        fun hmem => hdebug (List.mem_cons_of_mem _ hmem)
    | unsupported line => cases hr

/-- Where the script ends in a line feed and has no exit line, the entries that are missing are put
at the end. -/
theorem editAll_append {args : List Argument} {s t : Script} (hrest : s.rest = [])
    (hexit : s.all.any isExit = false) (he : editAll s args = some t) :
    ∃ added, t.all = s.all.filter (keeps args) ++ added ∧
      ∀ l ∈ added, l ∉ s.all ∧ ∃ e, .entry e ∈ args ∧ e.text = l := by
  induction args generalizing s with
  | nil =>
    cases he
    refine ⟨[], ?_, fun l hl => absurd hl (List.not_mem_nil)⟩
    rw [List.append_nil]
    exact (List.filter_eq_self.mpr fun l _ => by simp [keeps]).symm
  | cons a args ih =>
    cases a with
    | removeDebug =>
      have hterminated : (removeDebug s).rest = [] := by
        show (if isDebug s.rest = true then [] else s.rest) = []
        rw [hrest]
        rfl
      obtain ⟨added, hall, hadded⟩ := ih hterminated
        (by rw [any_isExit_removeDebug]; exact hexit) he
      rw [filter_keeps_removeDebug] at hall
      refine ⟨added, hall, fun l hl => ?_⟩
      obtain ⟨hnew, e, hmem, htext⟩ := hadded l hl
      refine ⟨fun hold => hnew ?_, e, List.mem_cons_of_mem _ hmem, htext⟩
      rw [all_removeDebug, List.mem_filter, ← htext, isDebug_entry]
      exact ⟨htext ▸ hold, rfl⟩
    | entry e =>
      rw [keeps_entry]
      by_cases hthere : s.all.contains e.text = true
      · rw [editAll, addEntry, if_pos hthere] at he
        obtain ⟨added, hall, hadded⟩ := ih hrest hexit he
        refine ⟨added, hall, fun l hl => ?_⟩
        obtain ⟨hnew, d, hmem, htext⟩ := hadded l hl
        exact ⟨hnew, d, List.mem_cons_of_mem _ hmem, htext⟩
      · rw [editAll, addEntry, if_neg hthere, if_neg (by rw [hexit]; decide)] at he
        have happended : (appendEntry e s).all = s.all ++ [e.text] := by
          rw [all_appendEntry, hrest, all_of_terminated hrest, List.nil_append]
        have hstill : (appendEntry e s).all.any isExit = false := by
          have hentry : isExit e.text = false := @isExit_append [] rfl e
          rw [happended, List.any_append, hexit]
          simp [hentry]
        obtain ⟨added, hall, hadded⟩ := ih rfl hstill he
        refine ⟨e.text :: added, ?_, fun l hl => ?_⟩
        · rw [hall, happended, List.filter_append, List.append_assoc]
          simp [keeps_text]
        · rcases List.mem_cons.mp hl with rfl | hl
          · exact ⟨by simpa using hthere, e, List.mem_cons_self .., rfl⟩
          · obtain ⟨hnew, d, hmem, htext⟩ := hadded l hl
            rw [happended] at hnew
            exact ⟨fun hold => hnew (List.mem_append_left _ hold), d, List.mem_cons_of_mem _ hmem,
              htext⟩
    | unsupported line => cases he

/-! ### Unterminated scripts -/

/-- The entry was written behind the last line, and what follows makes up for it: the entry is there
once more, and the line is a debug line that is to be removed, or an entry itself that stands
nowhere else and is there as well. -/
def Repaired (s : Script) (e : Entry) (args : List Argument) : Prop :=
  .entry e ∈ args ∧ (isDebug s.rest = true ∧ .removeDebug ∈ args ∨
    s.rest ∉ s.lines ∧ ∃ d, .entry d ∈ args ∧ d.text = s.rest)

/-- The first entry that is missing in the script comes after the removal of its last line, or is
made up for. -/
def Unspoiled (s : Script) : List Argument → Prop
  | [] => True
  | .removeDebug :: args => isDebug s.rest = true ∨ Unspoiled s args
  | .entry e :: args => (e.text ∈ s.all ∧ Unspoiled s args) ∨ (e.text ∉ s.all ∧ Repaired s e args)
  | .unsupported _ :: _ => True

/-- Only the last line and the entries matter. -/
theorem unspoiled_removeDebug {s : Script} (h : isDebug s.rest = false) (args : List Argument) :
    Unspoiled (removeDebug s) args ↔ Unspoiled s args := by
  have hrest : (removeDebug s).rest = s.rest := if_neg (by rw [h]; decide)
  have hall : ∀ l, isDebug l = false → (l ∈ (removeDebug s).all ↔ l ∈ s.all) := by
    intro l hl
    rw [all_removeDebug, List.mem_filter, hl]
    simp
  have hlines : s.rest ∈ (removeDebug s).lines ↔ s.rest ∈ s.lines := by
    show s.rest ∈ s.lines.filter (!isDebug ·) ↔ _
    rw [List.mem_filter, h]
    simp
  induction args with
  | nil => exact Iff.rfl
  | cons a args ih =>
    cases a with
    | removeDebug => exact or_congr (by rw [hrest]) ih
    | entry e =>
      have hthere := hall _ (isDebug_entry e)
      refine or_congr (and_congr hthere ih) (and_congr (not_congr hthere) ?_)
      unfold Repaired
      rw [hrest, hlines]
    | unsupported line => exact Iff.rfl

/-- The last line cannot be told from what is appended to it. -/
theorem append_text_ne (line : List Char) (e : Entry) : line ++ e.text ≠ line := by
  intro h
  exact e.text_ne_nil (List.append_right_eq_self.mp h)

/-- An entry that is missing is written behind the last line: the rest of the run brings back what is
lost exactly if it repairs it. -/
theorem repaired_iff {s t : Script} {e : Entry} {args : List Argument} (hrest : s.rest ≠ [])
    (hexit : s.all.any isExit = false) (hmissing : e.text ∉ s.all)
    (he : editAll (appendEntry e s) args = some t) :
    (e.text ∈ t.all ∧ (∀ d, .entry d ∈ args → d.text ∈ t.all) ∧
        (s.all.filter (keeps args)).Sublist t.all) ↔ Repaired s e args := by
  have hall := all_of_unterminated hrest
  have hlines : e.text ∉ s.lines := fun h => hmissing (by rw [hall]; simp [h])
  rw [hall, List.any_append] at hexit
  have hexits := (Bool.or_eq_false_iff).mp hexit
  have hlast : isExit s.rest = false := by simpa using hexits.2
  have hspoiled : (appendEntry e s).all.any isExit = false := by
    rw [all_appendEntry, List.any_append, hexits.1]
    simp [isExit_append hlast e]
  have hsafe := editAll_safe (.inl rfl : Safe (appendEntry e s)) he
  obtain ⟨added, ht, hadded⟩ := editAll_append rfl hspoiled he
  have hkept : ([s.rest ++ e.text] : List (List Char)).filter (keeps args) =
      [s.rest ++ e.text] := by simp [keeps, isDebug_append]
  rw [all_appendEntry, List.filter_append, hkept, List.append_assoc] at ht
  -- An entry among the lines is one of the old lines, or was added.
  have hfound : ∀ d : Entry, d.text ∉ s.lines → d.text ∈ t.all → d.text ≠ s.rest ++ e.text →
      d.text ∈ added := by
    intro d hd hmem hne
    rw [ht] at hmem
    rcases List.mem_append.mp hmem with hmem | hmem
    · exact absurd (List.mem_of_mem_filter hmem) hd
    · rcases List.mem_cons.mp hmem with hmem | hmem
      · exact absurd hmem hne
      · exact hmem
  have hentry : e.text ∈ t.all ↔ .entry e ∈ args := by
    constructor
    · intro hmem
      have hne : e.text ≠ s.rest ++ e.text := fun h =>
        hrest (List.append_left_eq_self.mp h.symm)
      obtain ⟨-, d, hd, htext⟩ := hadded _ (hfound e hlines hmem hne)
      have hsame : d = e := by
        revert htext
        cases d <;> cases e <;> decide +kernel
      rw [← hsame]
      exact hd
    · exact hsafe.1 e
  have hold : (s.all.filter (keeps args)).Sublist t.all ↔
      isDebug s.rest = true ∧ .removeDebug ∈ args ∨
        s.rest ∉ s.lines ∧ ∃ d, .entry d ∈ args ∧ d.text = s.rest := by
    rw [hall, List.filter_append, ht]
    cases hk : keeps args s.rest with
    | false =>
      -- The last line was to be removed.
      have hdebug : isDebug s.rest = true ∧ .removeDebug ∈ args := by
        simpa [keeps, and_comm] using hk
      refine iff_of_true ?_ (.inl hdebug)
      rw [List.filter_cons_of_neg (by rw [hk]; decide), List.filter_nil, List.append_nil]
      exact List.sublist_append_left ..
    | true =>
      have hnot : ¬(isDebug s.rest = true ∧ .removeDebug ∈ args) := by
        simpa [keeps, imp_iff_not_or, or_comm] using hk
      rw [List.filter_cons_of_pos hk, List.filter_nil, List.append_sublist_append_left,
        List.singleton_append, List.singleton_sublist, List.mem_cons]
      constructor
      · rintro (hmem | hmem)
        · exact absurd hmem.symm (append_text_ne s.rest e)
        · obtain ⟨hnew, d, hd, htext⟩ := hadded _ hmem
          rw [all_appendEntry] at hnew
          exact .inr ⟨fun hold => hnew (List.mem_append_left _ hold), d, hd, htext⟩
      · rintro (hdebug | ⟨hnew, d, hd, htext⟩)
        · exact absurd hdebug hnot
        · right
          rw [← htext]
          refine hfound d (by rw [htext]; exact hnew) (hsafe.1 d hd) ?_
          rw [htext]
          exact (append_text_ne s.rest e).symm
  rw [hentry, hold, Repaired]
  constructor
  · rintro ⟨h₁, -, h₂⟩
    exact ⟨h₁, h₂⟩
  · rintro ⟨h₁, h₂⟩
    exact ⟨h₁, hsafe.1, h₂⟩

/-- In a script that is not safe, all entries become lines and every line stays exactly if no entry
is written behind the last line, or what follows makes up for it. -/
theorem unspoiled_iff {args : List Argument} {s t : Script} (h : ¬ Safe s)
    (he : editAll s args = some t) :
    ((∀ e, .entry e ∈ args → e.text ∈ t.all) ∧ (s.all.filter (keeps args)).Sublist t.all) ↔
      Unspoiled s args := by
  have hrest : s.rest ≠ [] := fun hr => h (.inl hr)
  have hexit : s.all.any isExit = false := by simpa using fun hx => h (.inr hx)
  induction args generalizing s with
  | nil =>
    cases he
    exact iff_of_true ⟨fun e hmem => absurd hmem (List.not_mem_nil), List.filter_sublist⟩ trivial
  | cons a args ih =>
    cases a with
    | removeDebug =>
      have hentries : (∀ e, Argument.entry e ∈ Argument.removeDebug :: args → e.text ∈ t.all) ↔
          ∀ e, Argument.entry e ∈ args → e.text ∈ t.all := by simp
      rw [hentries, ← filter_keeps_removeDebug]
      cases hd : isDebug s.rest with
      | true =>
        -- Without its last line the script is safe.
        have hsafe : Safe (removeDebug s) := .inl (if_pos hd)
        exact iff_of_true (editAll_safe hsafe he) (.inl hd)
      | false =>
        have hsame : (removeDebug s).rest = s.rest := if_neg (by rw [hd]; decide)
        have hstill : (removeDebug s).all.any isExit = false := by
          rw [any_isExit_removeDebug]
          exact hexit
        have hunsafe : ¬ Safe (removeDebug s) := by
          rintro (hr | hx)
          · exact hrest (hsame.symm.trans hr)
          · rw [hstill] at hx
            cases hx
        refine (ih hunsafe he (by rw [hsame]; exact hrest) hstill).trans
          ((unspoiled_removeDebug hd args).trans ?_)
        show _ ↔ isDebug s.rest = true ∨ Unspoiled s args
        simp [hd]
    | entry e =>
      rw [keeps_entry]
      have hentries : (∀ d, Argument.entry d ∈ Argument.entry e :: args → d.text ∈ t.all) ↔
          e.text ∈ t.all ∧ ∀ d, Argument.entry d ∈ args → d.text ∈ t.all := by
        simp [forall_and, or_imp]
      rw [hentries, and_assoc]
      by_cases hthere : e.text ∈ s.all
      · rw [editAll, addEntry, if_pos (by simpa using hthere)] at he
        have hplaces : Unspoiled s (.entry e :: args) ↔ Unspoiled s args := by
          show (e.text ∈ s.all ∧ _) ∨ (e.text ∉ s.all ∧ _) ↔ _
          simp [hthere]
        refine Iff.trans ?_ ((ih h he hrest hexit).trans hplaces.symm)
        refine and_iff_right_of_imp fun hkept => ?_
        exact hkept.2.subset (List.mem_filter.mpr ⟨hthere, keeps_text args e⟩)
      · rw [editAll, addEntry, if_neg (by simpa using hthere), if_neg (by rw [hexit]; decide)] at he
        have hplaces : Unspoiled s (.entry e :: args) ↔ Repaired s e args := by
          show (e.text ∈ s.all ∧ _) ∨ (e.text ∉ s.all ∧ _) ↔ _
          simp [hthere]
        rw [hplaces]
        exact repaired_iff hrest hexit hthere he
    | unsupported line => cases he

/-! ### Both programs -/

/-- The lines of a text. -/
def linesOf (text : List Char) : List (List Char) := (Script.ofText text).all

/-- What an update is for: every entry is a line, every line that is not removed stays in its order,
and the same update changes nothing any more. -/
structure Updated (args : List Argument) (before after : List Char)
    (again : Option (List Char)) : Prop where
  added : ∀ e, .entry e ∈ args → e.text ∈ linesOf after
  kept : ((linesOf before).filter (keeps args)).Sublist (linesOf after)
  stable : again = some after

/-- The texts and arguments that an update handles: the text ends in a line feed, or has an exit
line, or no entry is written behind its last line without a remedy. -/
def Handled (args : List Argument) (text : List Char) : Prop :=
  Safe (.ofText text) ∨ Unspoiled (.ofText text) args

/-- A successful run of the script. -/
theorem updateScript_eq_some_iff {syntaxOk : List Char → Bool} {args : List Argument}
    {before after : List Char} : updateScript syntaxOk args before = some after ↔
      ∃ t, editAll (.ofText before) args = some t ∧ syntaxOk t.text = true ∧ t.text = after := by
  unfold updateScript
  rw [Option.bind_eq_some_iff]
  refine exists_congr fun t => and_congr_right fun _ => ?_
  unfold install
  cases syntaxOk t.text
  · simp
  · simp

/-- The script does what it is for exactly on the texts and arguments it handles. -/
theorem updateScript_iff {syntaxOk : List Char → Bool} {args : List Argument}
    {before after : List Char} (h : updateScript syntaxOk args before = some after) :
    Updated args before after (updateScript syntaxOk args after) ↔ Handled args before := by
  obtain ⟨t, he, hok, rfl⟩ := updateScript_eq_some_iff.mp h
  have hlines : linesOf t.text = t.all := by rw [linesOf, ofText_text]
  have hparts : ((∀ e, .entry e ∈ args → e.text ∈ t.all) ∧
      ((linesOf before).filter (keeps args)).Sublist t.all) ↔ Handled args before := by
    by_cases hs : Safe (.ofText before)
    · exact iff_of_true (editAll_safe hs he) (.inl hs)
    · rw [Handled, or_iff_right hs]
      exact unspoiled_iff hs he
  rw [← hparts]
  constructor
  · intro hu
    rw [← hlines]
    exact ⟨hu.added, hu.kept⟩
  · rintro ⟨hadded, hkept⟩
    have hagain := editAll_eq_self he hadded fun hmem => no_debug_editAll he (.inl hmem)
    refine ⟨by rw [hlines]; exact hadded, by rw [hlines]; exact hkept, ?_⟩
    refine updateScript_eq_some_iff.mpr ⟨t, ?_, hok, rfl⟩
    rw [ofText_text]
    exact hagain

/-- The arguments that make the script do what `update_rc_local` does. -/
def argumentsOf (lines : List Entry) (remove_debug : Bool) : List Argument :=
  lines.map .entry ++ if remove_debug then [.removeDebug] else []

/-- The native program is the script with the removal last. -/
theorem updateRcLocal_eq (syntaxOk : List Char → Bool) (lines : List Entry) (remove_debug : Bool)
    (text : List Char) :
    updateRcLocal syntaxOk lines remove_debug text =
      updateScript syntaxOk (argumentsOf lines remove_debug) text := by
  have hloop : ∀ s : Script, editAll s (argumentsOf lines remove_debug) =
      some (if remove_debug then removeDebug (lines.foldl addEntry s)
        else lines.foldl addEntry s) := by
    induction lines with
    | nil =>
      intro s
      cases remove_debug
      · rfl
      · rfl
    | cons e lines ih => exact fun s => ih (addEntry s e)
  unfold updateScript updateRcLocal
  rw [hloop]
  rfl

/-- After a successful update by either program, every requested entry is a line, every line that is
not a removed debug line stays in its order, and another update changes nothing, exactly if the
script before ends in a line feed, or has an exit line, or no entry is written behind its last line
without being made up for. -/
theorem boot_script_updated_iff (syntaxOk : List Char → Bool) (before after : List Char) :
    (∀ args, updateScript syntaxOk args before = some after →
      (Updated args before after (updateScript syntaxOk args after) ↔ Handled args before)) ∧
    ∀ lines remove_debug, updateRcLocal syntaxOk lines remove_debug before = some after →
      (Updated (argumentsOf lines remove_debug) before after
          (updateRcLocal syntaxOk lines remove_debug after) ↔
        Handled (argumentsOf lines remove_debug) before) := by
  refine ⟨fun args h => updateScript_iff h, fun lines remove_debug h => ?_⟩
  rw [updateRcLocal_eq] at h ⊢
  exact updateScript_iff h

/-- A stock script keeps its lines and takes the entries in front of its unterminated exit line. -/
theorem stock_script_updated :
    Updated [.removeDebug, .entry .dropbear, .entry .dashboard]
      "#!/bin/sh\necho 1 > /sys/usb_op\nexit 0".toList
      ("#!/bin/sh\nsh /data/local/tmp/start_dropbear.sh\n" ++
        "sh /data/local/tmp/start_dashboard.sh\nexit 0").toList
      (updateScript (fun _ => true) [.removeDebug, .entry .dropbear, .entry .dashboard]
        ("#!/bin/sh\nsh /data/local/tmp/start_dropbear.sh\n" ++
          "sh /data/local/tmp/start_dashboard.sh\nexit 0").toList) :=
  ((boot_script_updated_iff (fun _ => true) _ _).1 _
    (by simp only [toList_eq_asciiChars]; decide +kernel)).mpr (.inl (.inr (by decide +kernel)))

/-- Without an exit line, the entry is written behind an unterminated last line. -/
theorem entry_merged_into_last_line :
    updateScript (fun _ => true) [.entry .agent] "mount -a".toList =
        some "mount -ash /data/local/tmp/start_zte_agent.sh\n".toList ∧
      ¬ Updated [.entry .agent] "mount -a".toList
        "mount -ash /data/local/tmp/start_zte_agent.sh\n".toList
        (updateScript (fun _ => true) [.entry .agent]
          "mount -ash /data/local/tmp/start_zte_agent.sh\n".toList) := by
  refine ⟨by decide +kernel, ?_⟩
  intro h
  have hadded := h.added .agent (by decide)
  revert hadded
  decide +kernel

end OpenUI.Deploy.BootScript
