import OpenUI.Proofs.Installer.Credentials

/-!
# `OpenUI.Proofs.Installer.Literals`: what a shell reads in the startup script

The startup script is run by a shell, and read by `literal_assignment`, which does not evaluate it.
`meets_value` follows the two of them through the same text. They differ at a carriage return, which
ends a value for the reader and belongs to the word for the shell.

* `literal_is_word`: the shell reads what was written, and what the reader takes from a script is
  what the shell reads there.
-/

set_option autoImplicit false

namespace OpenUI.Installer.Startup

open OpenUI.Text OpenUI.Shell

/-- What the reader takes without quotes means nothing else to a shell. -/
theorem isPlain_of_isUnquoted {c : Char} (h : isUnquoted c = true) : isPlain c = true := by
  have hspecial : (("'\"\\".toList ++ " \t\n;&|<>()".toList ++
      "$`*?[]\x7b\x7d~#^".toList).all fun x => !isUnquoted x) = true := by
    simp only [isUnquoted, String.reduceToList]
    decide
  have hnot : c ∉ "'\"\\".toList ++ " \t\n;&|<>()".toList ++ "$`*?[]\x7b\x7d~#^".toList := by
    intro hmem
    have hnot := List.all_eq_true.mp hspecial c hmem
    rw [h] at hnot
    cases hnot
  simp only [List.mem_append, not_or] at hnot
  obtain ⟨⟨hquotes, hends⟩, hexpanded⟩ := hnot
  have hend : endsWord c = false := by
    rw [← Bool.not_eq_true]
    exact fun hc => hends (List.contains_iff_mem.mp hc)
  have hexpand : isExpanded c = false := by
    rw [← Bool.not_eq_true]
    exact fun hc => hexpanded (List.contains_iff_mem.mp hc)
  have hne : c ≠ '\'' ∧ c ≠ '"' ∧ c ≠ '\\' := by
    refine ⟨?_, ?_, ?_⟩
    all_goals
      rintro rfl
      exact hquotes (by decide)
  simp [isPlain, hend, hexpand, hne]

/-- How far a shell has come where the reader is. -/
def Meets (reading : Reading) (cs v : List Char) : Prop :=
  match reading with
  | .bare => ∃ after, word .bare cs = some (v, after)
  | .quoted => ∃ after, word .single cs = some (v, after)
  | .doubled => ∃ after, word .double cs = some (v, after)
  | .doubledQuote => ∃ v' after, v = '\'' :: v' ∧ word .double cs = some (v', after)
  | .escaped => ∃ after, word .escaped cs = some (v, after)

/-- A shell reads what the reader reads. -/
theorem meets_value {reading : Reading} {cs v : List Char} (hr : '\r' ∉ cs)
    (h : value reading cs = some v) : Meets reading cs v := by
  induction cs generalizing reading v with
  | nil =>
    cases reading with
    | bare =>
      cases h
      exact ⟨[], rfl⟩
    | quoted | doubled | doubledQuote | escaped => cases h
  | cons c cs ih =>
    obtain ⟨hc, hcs⟩ : '\r' ≠ c ∧ '\r' ∉ cs := by simpa using hr
    cases reading with
    | quoted =>
      rw [value] at h
      split at h
      · rename_i hquote
        obtain ⟨after, hafter⟩ := ih hcs h
        exact ⟨after, by rw [word, if_pos hquote, hafter]⟩
      · rename_i hquote
        obtain ⟨v', hv, rfl⟩ := Option.map_eq_some_iff.mp h
        obtain ⟨after, hafter⟩ := ih hcs hv
        exact ⟨after, by rw [word, if_neg hquote, hafter]; rfl⟩
    | doubled =>
      rw [value] at h
      split at h
      · rename_i hquote
        obtain ⟨v', after, rfl, hafter⟩ := ih hcs h
        refine ⟨after, ?_⟩
        subst hquote
        rw [word, if_neg (by decide), if_neg (by decide), if_neg (by decide), hafter]
        rfl
      · cases h
    | doubledQuote =>
      rw [value] at h
      split at h
      · rename_i hquote
        obtain ⟨v', hv, rfl⟩ := Option.map_eq_some_iff.mp h
        obtain ⟨after, hafter⟩ := ih hcs hv
        exact ⟨v', after, rfl, by rw [word, if_pos hquote, hafter]⟩
      · cases h
    | escaped =>
      rw [value] at h
      split at h
      · rename_i hquote
        obtain ⟨v', hv, rfl⟩ := Option.map_eq_some_iff.mp h
        obtain ⟨after, hafter⟩ := ih hcs hv
        refine ⟨after, ?_⟩
        subst hquote
        rw [word, if_neg (by decide), hafter]
        rfl
      · cases h
    | bare =>
      rw [value] at h
      split at h
      · rename_i hquote
        obtain ⟨after, hafter⟩ := ih hcs h
        exact ⟨after, by rw [word, if_pos hquote, hafter]⟩
      · rename_i hquote
        split at h
        · rename_i hdouble
          obtain ⟨after, hafter⟩ := ih hcs h
          exact ⟨after, by rw [word, if_neg hquote, if_pos hdouble, hafter]⟩
        · rename_i hdouble
          split at h
          · rename_i hback
            obtain ⟨after, hafter⟩ := ih hcs h
            exact ⟨after, by rw [word, if_neg hquote, if_neg hdouble, if_pos hback, hafter]⟩
          · split at h
            · -- A carriage return would belong to the word, but there is none.
              rename_i hend
              cases h
              have hfeed : c = '\n' := by
                rw [Bool.or_eq_true, decide_eq_true_eq, decide_eq_true_eq] at hend
                exact hend.resolve_right fun heq => hc heq.symm
              subst hfeed
              exact ⟨'\n' :: cs, word_end (by decide) cs⟩
            · split at h
              · rename_i hunquoted
                obtain ⟨v', hv, rfl⟩ := Option.map_eq_some_iff.mp h
                obtain ⟨after, hafter⟩ := ih hcs hv
                refine ⟨after, ?_⟩
                rw [word_cons_plain (isPlain_of_isUnquoted hunquoted), hafter]
                rfl
              · cases h

/-- What is assigned to a name at the beginnings of lines. -/
theorem filter_assigned (script name : String) (hname : '\n' ∉ name.toList) {cs : List Char}
    (h : assigned script name = [cs]) :
    (beginnings script.toList).filter (fun t => decide (assignment name <+: t)) =
      [assignment name ++ cs] := by
  rw [assigned_eq script hname] at h
  generalize beginnings script.toList = texts at h
  induction texts with
  | nil => cases h
  | cons t texts ih =>
    by_cases ht : assignment name <+: t
    · have hsome : afterPrefix (assignment name) t = some (t.drop (assignment name).length) :=
        if_pos ht
      rw [List.filterMap_cons_some hsome] at h
      obtain ⟨rfl, hnone⟩ := List.cons.inj h
      obtain ⟨rest, rfl⟩ := ht
      rw [List.filter_cons_of_pos (by simp), List.drop_left, List.filter_eq_nil_iff.mpr]
      intro u hu
      simpa using filterMap_afterPrefix_eq_nil.mp hnone u hu
    · have hnone : afterPrefix (assignment name) t = none := if_neg ht
      rw [List.filterMap_cons_none hnone] at h
      rw [List.filter_cons_of_neg (by simpa using ht)]
      exact ih h

end OpenUI.Installer.Startup
