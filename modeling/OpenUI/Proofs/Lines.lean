import OpenUI.Proofs.Text

/-!
# `OpenUI.Proofs.Lines`: where the lines of a text begin

`beginnings` are the ends of a text that start where a line starts. What a program looks for at the
beginnings of lines is a prefix of one of them, and so is a whole line.

* `laterLines_append`: the beginnings of lines in a text of two parts.
* `infix_iff_laterLines`: what stands at the beginning of a later line stands behind a line feed.
* `mem_linesFrom`: the lines of `str::lines` that have no carriage return.
-/

set_option autoImplicit false

namespace OpenUI.Text

/-- The ends of a text that follow a line feed. -/
def laterLines : List Char → List (List Char)
  | [] => []
  | c :: cs => if c = '\n' then cs :: laterLines cs else laterLines cs

section
attribute [local simp] laterLines
end

/-- The ends of a text that start with a line. -/
def beginnings (cs : List Char) : List (List Char) := cs :: laterLines cs

theorem suffix_of_mem_beginnings {t cs : List Char} (h : t ∈ beginnings cs) : t <:+ cs := by
  induction cs with
  | nil =>
    obtain rfl := List.mem_singleton.mp h
    exact List.suffix_rfl
  | cons c cs ih =>
    rcases List.mem_cons.mp h with rfl | hlater
    · exact List.suffix_rfl
    · refine (ih ?_).trans (List.suffix_cons c cs)
      rw [laterLines] at hlater
      split at hlater
      · exact hlater
      · exact List.mem_cons_of_mem cs hlater

theorem laterLines_append (as bs : List Char) :
    laterLines (as ++ bs) = (laterLines as).map (· ++ bs) ++ laterLines bs := by
  induction as with
  | nil => rfl
  | cons c as ih =>
    rw [List.cons_append, laterLines, laterLines]
    split
    · rw [ih, List.map_cons, List.cons_append]
    · exact ih

theorem laterLines_eq_nil {cs : List Char} (h : '\n' ∉ cs) : laterLines cs = [] := by
  induction cs with
  | nil => rfl
  | cons c cs ih =>
    obtain ⟨hc, hcs⟩ : '\n' ≠ c ∧ '\n' ∉ cs := by simpa using h
    rw [laterLines, if_neg fun heq => hc heq.symm, ih hcs]

/-- A line of its own has one beginning. -/
theorem laterLines_line {line : List Char} (h : '\n' ∉ line) (rest : List Char) :
    laterLines (line ++ '\n' :: rest) = rest :: laterLines rest := by
  rw [laterLines_append, laterLines_eq_nil h, laterLines, if_pos rfl]
  rfl

/-- What stands at the beginning of a later line stands behind a line feed. -/
theorem infix_iff_laterLines {p cs : List Char} :
    '\n' :: p <:+: cs ↔ ∃ t ∈ laterLines cs, p <+: t := by
  induction cs with
  | nil => simp [laterLines]
  | cons c cs ih =>
    rw [List.infix_cons_iff, ih, laterLines]
    by_cases hc : c = '\n'
    · subst hc
      simp [List.cons_prefix_cons]
    · have hne : ¬ '\n' :: p <+: c :: cs := fun h => hc (List.cons_prefix_cons.mp h).1.symm
      rw [if_neg hc]
      simp [hne]

/-- The text starts with this line. -/
def StartsLine (line cs : List Char) : Prop :=
  line ++ ['\n'] <+: cs ∨ line ++ ['\r', '\n'] <+: cs ∨ cs = line

/-- Two texts without a line feed, each followed by one. -/
theorem prefix_line {as bs rest : List Char} (ha : '\n' ∉ as) (hb : '\n' ∉ bs) :
    as ++ ['\n'] <+: bs ++ '\n' :: rest ↔ as = bs := by
  induction as generalizing bs with
  | nil =>
    cases bs with
    | nil => simp [List.cons_prefix_cons]
    | cons b bs =>
      have hne : '\n' ≠ b := fun heq => hb (heq ▸ List.mem_cons_self)
      simp [List.cons_prefix_cons, hne]
  | cons a as ih =>
    obtain ⟨hne, has⟩ : '\n' ≠ a ∧ '\n' ∉ as := by simpa using ha
    cases bs with
    | nil => simp [List.cons_prefix_cons, hne.symm]
    | cons b bs =>
      have hbs : '\n' ∉ bs := fun hmem => hb (List.mem_cons_of_mem b hmem)
      rw [List.cons_append, List.cons_append, List.cons_prefix_cons, ih has hbs, List.cons.injEq]

/-- Which line a carriage return was removed from. -/
theorem stripReturn_eq_iff {line begun : List Char} (hr : '\r' ∉ line) :
    stripReturn begun = line ↔ line = begun ∨ line ++ ['\r'] = begun := by
  unfold stripReturn
  split
  · rename_i hlast
    obtain ⟨front, rfl⟩ : ∃ front, begun = front ++ ['\r'] := by
      refine ⟨begun.dropLast, ?_⟩
      have hne : begun ≠ [] := by
        rintro rfl
        cases hlast
      have hend := List.getLast?_eq_some_getLast hne
      rw [hlast] at hend
      rw [Option.some.inj hend]
      exact (List.dropLast_append_getLast hne).symm
    have hself : line ≠ front ++ ['\r'] := by
      rintro rfl
      exact hr (by simp)
    rw [List.dropLast_concat, List.append_cancel_right_eq]
    exact ⟨fun h => .inr h.symm, fun h => (h.resolve_left hself).symm⟩
  · rename_i hlast
    have hother : line ++ ['\r'] ≠ begun := by
      rintro rfl
      exact hlast (by simp)
    exact ⟨fun h => .inl h.symm, fun h => (h.resolve_right hother).symm⟩

/-- A line of a text stands where one begins. -/
theorem mem_linesFrom {line : List Char} (hne : line ≠ []) (hn : '\n' ∉ line) (hr : '\r' ∉ line)
    {begun : List Char} (hbegun : '\n' ∉ begun) (cs : List Char) :
    line ∈ linesFrom begun cs ↔
      StartsLine line (begun ++ cs) ∨ ∃ t ∈ laterLines cs, StartsLine line t := by
  induction cs generalizing begun with
  | nil =>
    have hno : ∀ more, ¬ line ++ more ++ ['\n'] <+: begun := by
      intro more hp
      exact hbegun (hp.subset (by simp))
    have hstarts : StartsLine line begun ↔ begun = line := by
      refine ⟨fun h => ?_, fun h => .inr (.inr h)⟩
      rcases h with h | h | h
      · exact absurd h (by simpa using hno [])
      · exact absurd h (by simpa using hno ['\r'])
      · exact h
    rw [List.append_nil, hstarts]
    by_cases hb : begun = []
    · subst hb
      simp [linesFrom, laterLines, hne.symm]
    · simp [linesFrom, laterLines, hb, eq_comm]
  | cons c cs ih =>
    rw [linesFrom, laterLines]
    by_cases hc : c = '\n'
    · subst hc
      have hstarts : StartsLine line (begun ++ '\n' :: cs) ↔ line = stripReturn begun := by
        have hwhole : begun ++ '\n' :: cs ≠ line := by
          rintro rfl
          exact hn (by simp)
        have hreturn : '\n' ∉ line ++ ['\r'] := by simpa using hn
        have hlong : line ++ ['\r', '\n'] = line ++ ['\r'] ++ ['\n'] := by simp
        rw [StartsLine, hlong, prefix_line hn hbegun, prefix_line hreturn hbegun,
          eq_comm (a := line) (b := stripReturn begun), stripReturn_eq_iff hr]
        exact ⟨fun h => h.imp_right fun h => h.resolve_right hwhole, fun h => h.imp_right .inl⟩
      rw [if_pos rfl, if_pos rfl, List.mem_cons, ih List.not_mem_nil, hstarts, List.nil_append]
      simp only [List.mem_cons, exists_eq_or_imp]
    · have hbegun' : '\n' ∉ begun ++ [c] := by simp [hbegun, Ne.symm hc]
      rw [if_neg hc, if_neg hc, ih hbegun', List.append_assoc]
      rfl

end OpenUI.Text
