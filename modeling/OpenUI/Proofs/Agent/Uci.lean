import OpenUI.Agent.Uci
import OpenUI.Proofs.Euicc.Coding
import OpenUI.Proofs.Text

/-!
# `OpenUI.Proofs.Agent.Uci`: what the agent reads of an option

`uci_show` undoes the quoting of `uci show` for every value: an option reads as its bytes, decoded
(`lookup_uciShow`). `uci_get` trims what it reads, the newline of the tool and any white space of
the value with it (`getText_getOutput`). So the two agree on a value exactly when it has no white
space at its ends.
-/

set_option autoImplicit false

namespace OpenUI.Agent.Uci

open OpenUI.Text OpenUI.Euicc

/-! ### What a package may hold -/

/-- A line of a package as `uci` keeps it: no name has a separator in it, and no value a newline. -/
def Line.Plain : Line → Prop
  | .header name type =>
    '=' ∉ name.toList ∧ '\n' ∉ name.toList ∧ '.' ∉ name.toList ∧ '\n' ∉ type.toList ∧
      '\r' ∉ type.toList ∧ type.toList ≠ []
  | .option tail value => '=' ∉ tail.toList ∧ '\n' ∉ tail.toList ∧ '.' ∈ tail.toList ∧
      newline ∉ value

/-- The name of a package. -/
def PlainName (package : String) : Prop := '=' ∉ package.toList ∧ '\n' ∉ package.toList

/-! ### Decoding the output -/

/-- Without a quote nothing is escaped. -/
theorem escaped_of_not_mem {value : Bytes} (h : quote ∉ value) : escaped value = value := by
  have hids : ∀ b ∈ value,
      (if b = quote then [quote, 0x5C, quote, quote] else [b]) = [b] := by
    intro b hb
    rw [if_neg]
    rintro rfl
    exact h hb
  rw [escaped, List.flatMap_congr hids, List.flatMap_singleton']

theorem escapeQuotes_of_not_mem {cs : List Char} (h : '\'' ∉ cs) : escapeQuotes cs = cs := by
  have hids : ∀ c ∈ cs, (if c = '\'' then ['\'', '\\', '\'', '\''] else [c]) = [c] := by
    intro c hc
    rw [if_neg]
    rintro rfl
    exact h hc
  rw [escapeQuotes, List.flatMap_congr hids, List.flatMap_singleton']

/-- A character below 0x80 that is not a byte of the value is not read from it. -/
theorem not_mem_lossyChars {c : Char} {b : UInt8} (hb : b.toNat = c.toNat) (hc : c.toNat < 0x80)
    {value : Bytes} (h : b ∉ value) : c ∉ lossyChars value := by
  intro hmem
  obtain ⟨x, hx, hxc⟩ := mem_of_mem_lossyChars hc hmem
  have hxb : x = b := UInt8.toNat_inj.mp (hxc.trans hb.symm)
  exact h (hxb ▸ hx)

/-- The escaped value, decoded. The induction takes the value apart at a quote. -/
theorem lossyChars_escaped (value : Bytes) :
    lossyChars (escaped value) = escapeQuotes (lossyChars value) := by
  induction hn : value.length using Nat.strong_induction_on generalizing value with
  | _ n ih =>
    subst hn
    by_cases hquote : quote ∈ value
    · obtain ⟨before, after, rfl⟩ := List.append_of_mem hquote
      have hbefore := ih before.length (by simp) before rfl
      have hafter := ih after.length (by simp; omega) after rfl
      have hsplit : escaped (before ++ quote :: after) =
          escaped before ++ quote :: 0x5C :: quote :: quote :: escaped after := by
        rw [escaped, List.flatMap_append, List.flatMap_cons, if_pos rfl]
        rfl
      have hquotes : escapeQuotes (lossyChars before ++ '\'' :: lossyChars after) =
          escapeQuotes (lossyChars before) ++
            '\'' :: '\\' :: '\'' :: '\'' :: escapeQuotes (lossyChars after) := by
        rw [escapeQuotes, List.flatMap_append, List.flatMap_cons, if_pos rfl]
        rfl
      have hchar : Char.ofNat quote.toNat = '\'' := rfl
      have hslash : Char.ofNat (0x5C : UInt8).toNat = '\\' := rfl
      have hascii : quote < 0x80 := by decide
      rw [hsplit, lossyChars_ascii hascii, lossyChars_cons_ascii (by decide),
        lossyChars_cons_ascii hascii, lossyChars_cons_ascii hascii, hbefore, hafter,
        lossyChars_ascii hascii, hchar, hslash, hquotes]
    · rw [escaped_of_not_mem hquote,
        escapeQuotes_of_not_mem (not_mem_lossyChars rfl (by decide) hquote)]

/-! ### One line -/

/-- The text of a line of `uci show`. -/
def Line.text (package : String) : Line → List Char
  | .header name type => (package ++ "." ++ name).toList ++ '=' :: type.toList
  | .option tail value =>
    (package ++ "." ++ tail).toList ++ '=' :: '\'' :: (escapeQuotes (lossyChars value) ++ ['\''])

/-- What the output of a line decodes to, in front of the rest. -/
theorem lossyChars_output (package : String) (line : Line) (rest : Bytes) :
    lossyChars (line.output package ++ rest) = line.text package ++ '\n' :: lossyChars rest := by
  have hnewline : newline < 0x80 := by decide
  have hquote : quote < 0x80 := by decide
  have hn : Char.ofNat newline.toNat = '\n' := rfl
  have hq : Char.ofNat quote.toNat = '\'' := rfl
  cases line with
  | header name type =>
    simp only [Line.output, Line.text, List.append_assoc, List.singleton_append]
    rw [lossyChars_ascii hnewline, lossyChars_utf8, hn]
    simp
  | option tail value =>
    simp only [Line.output, Line.text, List.append_assoc, List.cons_append, List.nil_append]
    rw [lossyChars_ascii hquote, lossyChars_ascii hquote, lossyChars_cons_ascii hnewline,
      lossyChars_utf8, lossyChars_escaped, hn, hq]
    simp

/-- No newline in a plain line. -/
theorem newline_not_mem_text {package : String} (hpackage : PlainName package) {line : Line}
    (h : line.Plain) : '\n' ∉ line.text package := by
  have hesc : ∀ cs : List Char, '\n' ∉ cs → '\n' ∉ escapeQuotes cs := by
    intro cs hcs hmem
    obtain ⟨c, hc, hin⟩ := List.mem_flatMap.mp hmem
    split at hin
    · simp at hin
    · rw [List.mem_singleton] at hin
      exact hcs (hin ▸ hc)
  cases line with
  | header name type =>
    obtain ⟨-, hname, -, htype, -⟩ := h
    simp [Line.text, hpackage.2, hname, htype]
  | option tail value =>
    obtain ⟨-, htail, -, hvalue⟩ := h
    have hchars := hesc _ (not_mem_lossyChars (c := '\n') rfl (by decide) hvalue)
    simp [Line.text, hpackage.2, htail, hchars]

/-- No carriage return at its end. -/
theorem stripReturn_text {package : String} {line : Line} (h : line.Plain) :
    stripReturn (line.text package) = line.text package := by
  apply stripReturn_of_ne
  cases line with
  | header name type =>
    obtain ⟨-, -, -, -, htype, hne⟩ := h
    intro hlast
    rw [Line.text, List.getLast?_append_of_ne_nil _ (List.cons_ne_nil _ _),
      List.getLast?_cons_of_ne_nil hne] at hlast
    exact htype (List.mem_of_getLast? hlast)
  | option tail value =>
    simp [Line.text, List.getLast?_cons]

/-- The lines of the output, as the agent sees them. -/
theorem lines_showOutput {package : String} (hpackage : PlainName package) {ls : List Line}
    (h : ∀ line ∈ ls, line.Plain) :
    lines (fromUtf8Lossy (showOutput package ls)) =
      ls.map fun line => String.ofList (line.text package) := by
  have hchars : linesFrom [] (lossyChars (showOutput package ls)) = ls.map (Line.text package) := by
    induction ls with
    | nil => simp [showOutput, lossyChars, linesFrom]
    | cons line rest ih =>
      have hline := h line List.mem_cons_self
      rw [showOutput, List.flatMap_cons, lossyChars_output,
        linesFrom_line (newline_not_mem_text hpackage hline), List.nil_append,
        stripReturn_text hline, List.map_cons]
      exact congrArg _ (ih fun l hl => h l (List.mem_cons_of_mem _ hl))
  rw [lines, fromUtf8Lossy, String.toList_ofList, hchars, List.map_map]
  rfl

/-- A quoted value is unquoted. -/
theorem uciUnquote_quoted (cs : List Char) :
    uciUnquote (String.ofList ('\'' :: (escapeQuotes cs ++ ['\'']))) = String.ofList cs := by
  have hquote : isWhitespace '\'' = false := by decide
  have htrim : trim (String.ofList ('\'' :: (escapeQuotes cs ++ ['\'']))) =
      String.ofList ('\'' :: (escapeQuotes cs ++ ['\''])) := by
    rw [trim_eq_self_iff]
    constructor
    · intro c hc
      rw [String.toList_ofList] at hc
      obtain rfl := Option.some.inj hc
      exact hquote
    · intro c hc
      rw [String.toList_ofList, ← List.cons_append, List.getLast?_concat] at hc
      obtain rfl := Option.some.inj hc
      exact hquote
  have hprefix : stripPrefix "'" (String.ofList ('\'' :: (escapeQuotes cs ++ ['\'']))) =
      some (String.ofList (escapeQuotes cs ++ ['\''])) :=
    stripPrefix_append "'" (escapeQuotes cs ++ ['\''])
  have hsuffix : stripSuffix "'" (String.ofList (escapeQuotes cs ++ ['\''])) =
      some (String.ofList (escapeQuotes cs)) := stripSuffix_append "'" (escapeQuotes cs)
  simp only [uciUnquote, htrim, hprefix, hsuffix, Option.bind_some, Option.getD_some]
  have hlist : (String.ofList (escapeQuotes cs)).toList = escapeQuotes cs := String.toList_ofList
  rw [replace, hlist]
  exact congrArg String.ofList (replaceFrom_escapeQuotes cs)

/-- A line's name and what it reads as. -/
def Line.entry : Line → String × String
  | .header name type => (name, uciUnquote type)
  | .option tail value => (tail, fromUtf8Lossy value)

/-- A line adds its entry. -/
theorem showLine_text {package : String} (hpackage : PlainName package) {line : Line}
    (h : line.Plain) (map : List (String × String)) :
    showLine package map (String.ofList (line.text package)) =
      line.entry :: map.filter (fun entry => entry.1 != line.entry.1) := by
  have hkey : ∀ name : String, '=' ∉ name.toList → '=' ∉ (package ++ "." ++ name).toList := by
    intro name hname
    simp [hpackage.1, hname]
  have hstrip : ∀ name : String,
      (stripPrefix package (package ++ "." ++ name)).bind (stripPrefix ".") = some name := by
    intro name
    have happend : package ++ "." ++ name =
        String.ofList (package.toList ++ (".".toList ++ name.toList)) := by
      rw [String.ofList_append, String.ofList_append, String.ofList_toList, String.ofList_toList,
        String.ofList_toList, String.append_assoc]
    rw [happend, stripPrefix_append, Option.bind_some, stripPrefix_append, String.ofList_toList]
  cases line with
  | header name type =>
    obtain ⟨hname, -⟩ := h
    rw [Line.text, showLine, splitOnce_append (hkey name hname)]
    simp only [String.ofList_toList, hstrip]
    rfl
  | option tail value =>
    obtain ⟨htail, -⟩ := h
    rw [Line.text, showLine, splitOnce_append (hkey tail htail)]
    simp only [String.ofList_toList, hstrip, uciUnquote_quoted]
    rfl

/-! ### A whole package -/

/-- A new entry is found, and the others stay. -/
theorem lookup_insert (entry : String × String) (map : List (String × String)) (key : String) :
    (entry :: map.filter (fun e => e.1 != entry.1)).lookup key =
      if key = entry.1 then some entry.2 else map.lookup key := by
  have hfilter : key ≠ entry.1 →
      (map.filter (fun e => e.1 != entry.1)).lookup key = map.lookup key := by
    intro hne
    induction map with
    | nil => rfl
    | cons e rest ih =>
      by_cases he : e.1 = entry.1
      · rw [List.filter_cons_of_neg (by simp [he]), ih, List.lookup_cons, he,
          beq_eq_false_iff_ne.mpr hne]
      · rw [List.filter_cons_of_pos (by simp [he]), List.lookup_cons, List.lookup_cons, ih]
  rw [List.lookup_cons]
  by_cases hkey : key = entry.1
  · simp [hkey]
  · rw [if_neg hkey, beq_eq_false_iff_ne.mpr hkey, hfilter hkey]

/-- The lines of a package: its options with their values, and its sections. -/
structure Listing (live : String → Option Bytes) (package : String) (ls : List Line) : Prop where
  name : PlainName package
  plain : ∀ line ∈ ls, line.Plain
  complete : ∀ tail value, .option tail value ∈ ls ↔ live (package ++ "." ++ tail) = some value

/-- What `uci_show` reads of an option: its value, decoded. -/
theorem lookup_uciShow {live : String → Option Bytes} {package : String} {ls : List Line}
    (h : Listing live package ls) {tail : String} (htail : '.' ∈ tail.toList) :
    (uciShow package (some (showOutput package ls))).lookup tail =
      (live (package ++ "." ++ tail)).map fromUtf8Lossy := by
  have hfold : ∀ (rest : List Line) (map : List (String × String)), (∀ line ∈ rest, line ∈ ls) →
      ((∃ value, .option tail value ∈ rest) ∨
        map.lookup tail = (live (package ++ "." ++ tail)).map fromUtf8Lossy) →
      (rest.foldl (fun map line => showLine package map (String.ofList (line.text package)))
        map).lookup tail = (live (package ++ "." ++ tail)).map fromUtf8Lossy := by
    intro rest
    induction rest with
    | nil =>
      rintro map _ (⟨_, hmem⟩ | h)
      · cases hmem
      · exact h
    | cons line rest ih =>
      intro map hmem hknown
      have hline := hmem line List.mem_cons_self
      have hplain := h.plain line hline
      rw [List.foldl_cons, showLine_text h.name hplain]
      refine ih _ (fun l hl => hmem l (List.mem_cons_of_mem _ hl)) ?_
      rw [lookup_insert]
      cases line with
      | header name type =>
        -- A section's name has no dot in it.
        have hne : tail ≠ name := by
          rintro rfl
          exact hplain.2.2.1 htail
        rw [Line.entry, if_neg hne]
        refine hknown.imp_left fun hlater => ?_
        obtain ⟨value, hv⟩ := hlater
        rcases List.mem_cons.mp hv with hv | hv
        · cases hv
        · exact ⟨value, hv⟩
      | option tail' value =>
        by_cases heq : tail = tail'
        · subst heq
          rw [(h.complete tail value).mp hline]
          exact .inr (if_pos rfl)
        · rw [Line.entry, if_neg heq]
          refine hknown.imp_left fun hlater => ?_
          obtain ⟨v, hv⟩ := hlater
          rcases List.mem_cons.mp hv with hv | hv
          · cases hv
            exact absurd rfl heq
          · exact ⟨v, hv⟩
  rw [uciShow, lines_showOutput h.name h.plain, List.foldl_map]
  refine hfold ls [] (fun _ hl => hl) ?_
  cases hlive : live (package ++ "." ++ tail) with
  | none => exact .inr rfl
  | some value => exact .inl ⟨value, (h.complete tail value).mpr hlive⟩

/-- What `uci_get` reads of an option. -/
theorem getText_getOutput (value : Bytes) : getText (getOutput value) =
    trim (fromUtf8Lossy value) := by
  rw [getText, getOutput, fromUtf8Lossy, fromUtf8Lossy, lossyChars_ascii (by decide),
    lossyChars, trim,
    trim, String.toList_ofList, String.toList_ofList, trimChars_append_whitespace _ (by decide)]

/-- It reads as the value itself exactly when there is no white space at its ends. -/
theorem getText_getOutput_eq_iff (value : Bytes) :
    getText (getOutput value) = fromUtf8Lossy value ↔ Trimmed (fromUtf8Lossy value) := by
  rw [getText_getOutput, trim_eq_self_iff]

end OpenUI.Agent.Uci
