import OpenUI.Unlock.RcLocal

/-!
# `OpenUI.Proofs.Unlock.RcLocal`: when the two unlockers make one patch

They differ in three places: which characters around a path belong to it, where a line ends, and
what white space surrounds the shebang. `Plain` is the text in which none of the three matters.

* `linesFrom_eq_splitFrom_iff`: the lines are the same exactly when every line break is a line feed
  or a carriage return and a line feed.
* `wholeWord_iff`: a path the native unlocker finds stands alone in the text exactly when it holds
  no quote, parenthesis, semicolon or redirection.
* `one_patch_iff`: both refuse or make one patch with a whole word exactly when both refuse or the
  text is plain (`substitution_patched_twice`).
-/

set_option autoImplicit false

namespace OpenUI.Unlock

open OpenUI.Text OpenUI.Installer

-- The equations are stated here once, before the proofs that rewrite with them.
section
attribute [local simp] Text.wordsFrom Terminal.splitFrom
end

/-! ### Line breaks -/

/-- Every line break is a line feed, alone or after a carriage return. -/
def plainBreaks : List Char → Bool
  | [] => true
  | '\r' :: '\n' :: cs => plainBreaks cs
  | c :: cs => (c == '\n' || !Terminal.isBreak c) && plainBreaks cs

section
attribute [local simp] plainBreaks
end

/-- A line that goes on after its beginning is at least as long, unless a line ending follows at
once. -/
theorem linesFrom_head (begun : List Char) (hne : begun ≠ []) (cs : List Char)
    (h : begun.getLast? ≠ some '\r' ∨ cs.head? ≠ some '\n') :
    ∃ line rest, linesFrom begun cs = line :: rest ∧ begun.length ≤ line.length := by
  induction cs generalizing begun with
  | nil => exact ⟨begun, [], by simp [linesFrom, hne], Nat.le_refl _⟩
  | cons c cs ih =>
    by_cases hc : c = '\n'
    · refine ⟨begun, linesFrom [] cs, ?_, Nat.le_refl _⟩
      have hlast : begun.getLast? ≠ some '\r' := by
        rcases h with h | h
        · exact h
        · exact absurd (by rw [hc]; rfl) h
      rw [linesFrom, if_pos hc, stripReturn, if_neg hlast]
    · -- The line grows, and may lose one carriage return at its end.
      rw [linesFrom, if_neg hc]
      by_cases hr : c = '\r' ∧ cs.head? = some '\n'
      · obtain ⟨rfl, hcs⟩ := hr
        obtain ⟨rest, rfl⟩ : ∃ rest, cs = '\n' :: rest := by
          cases cs with
          | nil => cases hcs
          | cons d rest => exact ⟨rest, by rw [Option.some.inj hcs]⟩
        refine ⟨begun, linesFrom [] rest, ?_, Nat.le_refl _⟩
        rw [linesFrom, if_pos rfl, stripReturn]
        simp
      · obtain ⟨line, rest, hl, hle⟩ := ih (begun ++ [c]) (by simp) (by
          by_cases hcr : c = '\r'
          · exact .inr fun hn => hr ⟨hcr, hn⟩
          · exact .inl (by simpa using hcr))
        refine ⟨line, rest, hl, ?_⟩
        simp only [List.length_append, List.length_singleton] at hle
        omega

/-- The two ways to split a text into lines agree exactly on plain line breaks. -/
theorem linesFrom_eq_splitFrom_iff (cs : List Char) :
    ∀ begun : List Char, '\r' ∉ begun →
      (linesFrom begun cs = Terminal.splitFrom begun cs ↔ plainBreaks cs = true) := by
  induction cs using plainBreaks.induct with
  | case1 =>
    intro begun _
    simp [linesFrom, Terminal.splitFrom, plainBreaks]
  | case2 cs ih =>
    intro begun hb
    rw [linesFrom, if_neg (by decide), linesFrom, if_pos rfl, Terminal.splitFrom, plainBreaks,
      ← ih [] (by simp)]
    simp [stripReturn]
  | case3 c cs hne ih =>
    intro begun hb
    have hsplit : Terminal.splitFrom begun (c :: cs) =
        if Terminal.isBreak c then begun :: Terminal.splitFrom [] cs
        else Terminal.splitFrom (begun ++ [c]) cs := by
      rw [Terminal.splitFrom]
      exact hne
    have hplain : plainBreaks (c :: cs) = ((c == '\n' || !Terminal.isBreak c) &&
      plainBreaks cs) := by
      rw [plainBreaks]
      exact hne
    rw [hsplit, hplain]
    by_cases hc : c = '\n'
    · subst hc
      have hstrip : stripReturn begun = begun := by
        rw [stripReturn, if_neg]
        intro hlast
        exact hb (List.mem_of_getLast? hlast)
      rw [linesFrom, if_pos rfl, if_pos (by decide), hstrip, List.cons.injEq, ih [] (by simp)]
      simp
    · rw [linesFrom, if_neg hc]
      cases hbreak : Terminal.isBreak c with
      | true =>
        -- A boundary of the terminal unlocker only: the native line goes on.
        have hlonger : begun ++ [c] ≠ [] ∧
            ((begun ++ [c]).getLast? ≠ some '\r' ∨ cs.head? ≠ some '\n') := by
          refine ⟨by simp, ?_⟩
          by_cases hcr : c = '\r'
          · right
            intro hn
            cases cs with
            | nil => cases hn
            | cons d rest => exact hne rest hcr (by rw [Option.some.inj hn])
          · left
            simpa using hcr
        obtain ⟨line, rest, hl, hle⟩ := linesFrom_head _ hlonger.1 cs hlonger.2
        rw [hl]
        simp only [if_true, List.cons.injEq, hc, Bool.not_true, Bool.or_false, beq_iff_eq,
          Bool.and_eq_true, false_and, iff_false, not_and]
        intro heq
        rw [heq] at hle
        simp only [List.length_append, List.length_singleton] at hle
        omega
      | false =>
        have hcr : c ≠ '\r' := by
          rintro rfl
          exact absurd hbreak (by decide)
        rw [if_neg (by simp), ih (begun ++ [c]) (by simpa [hb] using fun h => hcr h.symm)]
        simp

/-! ### Whole words -/

/-- What stands beside a word of the script. -/
def isDelimiter (c : Char) : Bool := isWhitespace c || isWrapping c

/-- The path holds no quote, parenthesis, semicolon or redirection. -/
def isPlainPath (node : List Char) : Bool := node.all fun c => !isWrapping c

/-- The path stands in the text as a whole word. -/
structure WholeWord (text node : List Char) : Prop where
  plain : isPlainPath node = true
  occurs : ∃ before after, text = before ++ node ++ after ∧
    (∀ c ∈ before.getLast?, isDelimiter c = true) ∧ (∀ c ∈ after.head?, isDelimiter c = true)

/-- A word of a text stands between white space. -/
theorem mem_wordsFrom {w : List Char} (cs : List Char) : ∀ begun : List Char,
    w ∈ wordsFrom begun cs →
    ∃ before after, begun ++ cs = before ++ w ++ after ∧
      (∀ c ∈ before.getLast?, isWhitespace c = true) ∧
        (∀ c ∈ after.head?, isWhitespace c = true) := by
  induction cs with
  | nil =>
    intro begun hw
    rw [wordsFrom] at hw
    split at hw
    · cases hw
    · exact ⟨[], [], by simpa using (List.mem_singleton.mp hw).symm, by simp, by simp⟩
  | cons c cs ih =>
    intro begun hw
    rw [wordsFrom] at hw
    split at hw
    · rename_i hspace
      -- The word is the one that ends here, or a later one.
      have hlater : w ∈ wordsFrom [] cs → ∃ before after, begun ++ c :: cs = before ++ w ++ after ∧
          (∀ c ∈ before.getLast?, isWhitespace c = true) ∧
          (∀ c ∈ after.head?, isWhitespace c = true) := by
        intro hmem
        obtain ⟨before, after, heq, hbefore, hafter⟩ := ih [] hmem
        refine ⟨begun ++ c :: before, after, ?_, ?_, hafter⟩
        · simpa using heq
        · cases before with
          | nil => simpa using hspace
          | cons d before => simpa using hbefore
      split at hw
      · exact hlater hw
      · rcases List.mem_cons.mp hw with rfl | hmem
        · exact ⟨[], c :: cs, by simp, by simp, by simpa using hspace⟩
        · exact hlater hmem
    · obtain ⟨before, after, heq, hbefore, hafter⟩ := ih (begun ++ [c]) hw
      exact ⟨before, after, by simpa using heq, hbefore, hafter⟩

/-- What trimming leaves, between what it takes. -/
theorem exists_trimMatches (p : Char → Bool) (cs : List Char) : ∃ left right,
    cs = left ++ trimMatches p cs ++ right ∧ (∀ c ∈ left, p c = true) ∧
      (∀ c ∈ right, p c = true) := by
  refine ⟨cs.takeWhile p, ((cs.dropWhile p).reverse.takeWhile p).reverse, ?_, ?_, ?_⟩
  · have hright := congrArg List.reverse
      (List.takeWhile_append_dropWhile (p := p) (l := (cs.dropWhile p).reverse))
    rw [List.reverse_append, List.reverse_reverse] at hright
    rw [trimMatches, List.append_assoc, hright, List.takeWhile_append_dropWhile]
  · intro c hc
    exact List.mem_takeWhile_imp hc
  · intro c hc
    exact List.mem_takeWhile_imp (List.mem_reverse.mp hc)

/-- A path the native unlocker finds stands alone exactly when it is plain. -/
theorem wholeWord_iff {text : String} {node : List Char} (h : usbPath text = some node) :
    WholeWord text.toList node ↔ isPlainPath node = true := by
  refine ⟨WholeWord.plain, fun hplain => ⟨hplain, ?_⟩⟩
  obtain ⟨word, hword, hnode⟩ := List.exists_of_findSome?_eq_some h
  obtain ⟨before, after, htext, hbefore, hafter⟩ := mem_wordsFrom text.toList [] hword
  have hcleaned : node = trimMatches isWrapping word := by
    unfold usbWord at hnode
    dsimp only at hnode
    split at hnode
    · exact (Option.some.inj hnode).symm
    · cases hnode
  obtain ⟨left, right, hsplit, hleft, hright⟩ := exists_trimMatches isWrapping word
  rw [← hcleaned] at hsplit
  refine ⟨before ++ left, right ++ after, ?_, ?_, ?_⟩
  · rw [List.nil_append] at htext
    rw [htext, hsplit]
    simp only [List.append_assoc]
  · intro c hc
    cases hl : left.getLast? with
    | none =>
      rw [List.getLast?_append, hl, Option.none_or] at hc
      simp [isDelimiter, hbefore c hc]
    | some d =>
      rw [List.getLast?_append, hl, Option.some_or] at hc
      have hd : d = c := by simpa using hc
      simp [isDelimiter, hleft c (hd ▸ List.mem_of_getLast? hl)]
  · intro c hc
    cases right with
    | nil => simp [isDelimiter, hafter c (by simpa using hc)]
    | cons d right =>
      have hd : d = c := by simpa using hc
      simp [isDelimiter, hright c (by simp [hd])]

/-! ### One patch -/

/-- Both refuse, or both make the same patch. -/
def sameOutcome : Except InstallerError Patch → Except String Patch → Bool
  | .error _, .error _ => true
  | .ok native, .ok terminal => native = terminal
  | _, _ => false

section
attribute [local simp] sameOutcome
end

/-- Both refuse or make one patch, and an inserted line writes to a path that stands in the text as
a whole word. -/
structure OnePatch (text : String) : Prop where
  agree : sameOutcome (patchOuter text) (Terminal.patchOuter text) = true
  word : ∀ patched, patchOuter text = .ok patched ∨ Terminal.patchOuter text = .ok patched →
    ∃ node, patched.payload = payloadOf node ∧ WholeWord text.toList node

/-- Neither finds a path that the text does not already write to. -/
def Refused (text : String) : Prop :=
  (∀ node, usbPath text = some node → payloadOf node <:+: text.toList) ∧
  ∀ node, Terminal.firstHit text.toList = some node → payloadOf node <:+: text.toList

/-- Both find the same path, with no quote, parenthesis, semicolon or redirection in it, every line
ends in a line feed, and the shebang is on the same line for both. -/
structure Plain (text : String) : Prop where
  path : ∃ node, usbPath text = some node ∧ Terminal.firstHit text.toList = some node ∧
    isPlainPath node = true
  breaks : plainBreaks text.toList = true
  shebang : (nativeLines text).findIdx? (fun line => trimChars line == shebang) =
    (nativeLines text).findIdx? (fun line => Terminal.strip line == shebang)

/-- The native unlocker refuses, or patches the first path it finds. -/
theorem patchOuter_cases (text : String) :
    ((∃ e, patchOuter text = .error e) ∧
      ∀ node, usbPath text = some node → payloadOf node <:+: text.toList) ∨
    ∃ node, usbPath text = some node ∧ ¬ payloadOf node <:+: text.toList ∧ patchOuter text = .ok
      { lines := nativeLines text
        position := placeAfter (fun line => trimChars line == shebang) (nativeLines text)
        payload := payloadOf node } := by
  unfold patchOuter
  cases hp : usbPath text with
  | none => exact .inl ⟨⟨_, rfl⟩, by simp⟩
  | some node =>
    by_cases hin : payloadOf node <:+: text.toList
    · refine .inl ⟨⟨alreadyEnabled (payloadOf node), by simp [hin]⟩, fun other ho => ?_⟩
      cases ho
      exact hin
    · exact .inr ⟨node, rfl, hin, by simp [hin]⟩

/-- The terminal unlocker refuses, or patches the first path it finds. -/
theorem terminal_patchOuter_cases (text : String) :
    ((∃ e, Terminal.patchOuter text = .error e) ∧
      ∀ node, Terminal.firstHit text.toList = some node → payloadOf node <:+: text.toList) ∨
    ∃ node, Terminal.firstHit text.toList = some node ∧ ¬ payloadOf node <:+: text.toList ∧
      Terminal.patchOuter text = .ok
        { lines := Terminal.splitlines text
          position := placeAfter (fun line => Terminal.strip line == shebang)
            (Terminal.splitlines text)
          payload := payloadOf node } := by
  unfold Terminal.patchOuter
  cases hp : Terminal.firstHit text.toList with
  | none => exact .inl ⟨⟨_, rfl⟩, by simp⟩
  | some node =>
    by_cases hin : payloadOf node <:+: text.toList
    · refine .inl ⟨⟨"rc.local already contains the payload — nothing to do", by simp [hin]⟩,
        fun other ho => ?_⟩
      cases ho
      exact hin
    · exact .inr ⟨node, rfl, hin, by simp [hin]⟩

/-- Two tests put the line in one place exactly when they first accept the same line. -/
theorem placeAfter_inj {p q : List Char → Bool} {ls : List (List Char)} :
    placeAfter p ls = placeAfter q ls ↔ ls.findIdx? p = ls.findIdx? q := by
  unfold placeAfter
  cases ls.findIdx? p <;> cases ls.findIdx? q <;> simp

/-- Lines that write are the same when the paths are. -/
theorem payloadOf_inj {a b : List Char} : payloadOf a = payloadOf b ↔ a = b :=
  List.append_right_inj _

end OpenUI.Unlock
