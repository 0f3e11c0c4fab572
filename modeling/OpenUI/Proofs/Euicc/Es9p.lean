import OpenUI.Proofs.Euicc.Es9pTokens

/-!
# `OpenUI.Proofs.Euicc.Es9p`: the JSON parser reads its grammar

The parser keeps its open containers on a stack, and the grammar recurses. Under any stack, reading
a value comes to handing over what the grammar reads there, at the index where what is left begins.
Every turn moves the index forward, so the parser always ends.

* `startValue_begins`: one value, with the grammar one turn deep.
* `value_continues`: values, with any stack under them, by induction on the grammar's turns.
* `parse_eq_document`: documents.
-/

set_option autoImplicit false

namespace OpenUI.Euicc.Es9p

/-! ### The start of a value -/

/-- What starts at a place, and what the grammar reads there with `f` turns for its containers. -/
inductive Begins (s : Bytes) (i depth f : Nat) :
    Except Stop Started → Option (Json × Bytes) → Prop where
  | rejected : Begins s i depth f (.error .rejected) none
  | finished (json : Json) (j : Nat) (hi : i < j) (hj : j ≤ s.length) :
    Begins s i depth f (.ok (.finished json j)) (some (json, s.drop j))
  | array (j : Nat) (hi : i < j) (hj : j ≤ s.length) :
    Begins s i depth f (.ok (.opened .array j))
      ((Grammar.elements f (depth + 1) (s.drop j)).map (Json.other, ·))
  | object (name : Bytes) (j : Nat) (hi : i < j) (hj : j ≤ s.length) :
    Begins s i depth f
      (.ok (.opened (.object (if depth < keepDepth then some [] else none) name) j))
      ((Grammar.members f (depth + 1) name (s.drop j)).map fun q => (Grammar.kept depth q.1, q.2))

/-- A keyword is within the input. -/
theorem Begins.keyword {s : Bytes} {i : Nat} (depth f : Nat) (b : UInt8) {word : Bytes}
    (h : b :: word <+: s.drop i) :
    Begins s i depth f (.ok (.finished .other (i + 1 + word.length)))
      (some (.other, (s.drop (i + 1)).drop word.length)) := by
  have hle := h.length_le
  rw [List.length_drop, List.length_cons] at hle
  rw [List.drop_drop]
  exact .finished .other _ (by omega) (by omega)

/-- Arrays. -/
theorem startArray_begins (s : Bytes) {i depth : Nat} (f : Nat) (hi : i < s.length)
    (hdepth : ¬ nestingLimit ≤ depth) :
    Begins s i depth f (startArray s i depth)
      (((Grammar.after 0x5D (Grammar.skipWhitespace (s.drop (i + 1)))).or
        (Grammar.elements f (depth + 1)
          (Grammar.skipWhitespace (s.drop (i + 1))))).map (Json.other, ·)) := by
  have hplace := skipWhitespace_le (s := s) (i := i + 1) hi
  have hmoved := le_skipWhitespace s (i + 1)
  rw [startArray, if_neg hdepth, ← drop_skipWhitespace, after_drop]
  dsimp only
  -- An empty array is finished at once; any other one opens.
  by_cases hclose : s[skipWhitespace s (i + 1)]? = some 0x5D
  · rw [if_pos hclose, if_pos hclose]
    exact .finished .other _ (by omega) (lt_of_getElem? hclose)
  · rw [if_neg hclose, if_neg hclose]
    exact .array _ (by omega) hplace

/-- Objects. -/
theorem startObject_begins (s : Bytes) {i depth : Nat} (f : Nat) (hdepth : ¬ nestingLimit ≤ depth) :
    Begins s i depth f (startObject s i depth)
      ((((Grammar.after 0x7D (Grammar.skipWhitespace (s.drop (i + 1)))).map ([], ·)).or
        ((Grammar.memberName (Grammar.skipWhitespace (s.drop (i + 1)))).bind fun p =>
          Grammar.members f (depth + 1) p.1 p.2)).map fun q => (Grammar.kept depth q.1, q.2)) := by
  have hmoved := le_skipWhitespace s (i + 1)
  rw [startObject, if_neg hdepth, ← drop_skipWhitespace, after_drop]
  dsimp only
  by_cases hclose : s[skipWhitespace s (i + 1)]? = some 0x7D
  · rw [if_pos hclose, if_pos hclose]
    exact .finished (Grammar.kept depth []) _ (by omega) (lt_of_getElem? hclose)
  · rw [if_neg hclose, if_neg hclose]
    have hname := memberName_agrees s (skipWhitespace s (i + 1))
    generalize memberName s (skipWhitespace s (i + 1)) = r at hname ⊢
    generalize Grammar.memberName (s.drop (skipWhitespace s (i + 1))) = o at hname ⊢
    cases hname with
    | rejected => exact .rejected
    | read name j hij hj => exact .object name j (by omega) hj

theorem ok_bind {α β : Type} (a : α) (f : α → Except Stop β) : (Except.ok a >>= f) = f a := rfl

/-- One value, or the start of one. -/
theorem startValue_begins (s : Bytes) (i depth f : Nat) :
    Begins s i depth f (startValue s i depth) (Grammar.value (f + 1) depth (s.drop i)) := by
  rw [startValue]
  cases hb : s[i]? with
  | none =>
    rw [getOr_none hb, drop_of_getElem?_none hb, Grammar.value]
    exact .rejected
  | some b =>
    have hrest := drop_of_getElem? hb
    have hlt := lt_of_getElem? hb
    -- The source switches on the first byte and then compares the keyword; the grammar only
    -- compares.
    have hkeyword : ∀ c word, c :: word <+: s.drop i → b = c := by
      intro c word h
      rw [hrest, List.cons_prefix_cons] at h
      exact h.1.symm
    rw [getOr_some hb, ok_bind, hrest, Grammar.value, ← hrest]
    by_cases hnull : [0x6E, 0x75, 0x6C, 0x6C] <+: s.drop i
    · rw [if_pos ⟨hkeyword _ _ hnull, hnull⟩, if_pos hnull]
      exact .keyword depth f _ hnull
    rw [if_neg (fun h => hnull h.2), if_neg hnull]
    by_cases hfalse : [0x66, 0x61, 0x6C, 0x73, 0x65] <+: s.drop i
    · rw [if_pos ⟨hkeyword _ _ hfalse, hfalse⟩, if_pos hfalse]
      exact .keyword depth f _ hfalse
    rw [if_neg (fun h => hfalse h.2), if_neg hfalse]
    by_cases htrue : [0x74, 0x72, 0x75, 0x65] <+: s.drop i
    · rw [if_pos ⟨hkeyword _ _ htrue, htrue⟩, if_pos htrue]
      exact .keyword depth f _ htrue
    rw [if_neg (fun h => htrue h.2), if_neg htrue]
    by_cases hquote : b = 0x22
    · rw [if_pos hquote, if_pos hquote]
      have hstring := string_agrees s hlt
      generalize string s i = r at hstring ⊢
      generalize Grammar.string (s.drop (i + 1)) = o at hstring ⊢
      cases hstring with
      | rejected => exact .rejected
      | read value j hij hj => exact .finished (.str value) j hij hj
    rw [if_neg hquote, if_neg hquote]
    by_cases hdigit : b = 0x2D ∨ isDigit b
    · rw [if_pos hdigit, if_pos hdigit]
      have hnumber := number_agrees (Nat.le_of_lt hlt)
      generalize number s i = r at hnumber ⊢
      generalize Grammar.number (s.drop i) = o at hnumber ⊢
      -- The two readers of numbers give no value, only the place behind it.
      cases r with
      | error stop =>
        cases o with
        | none =>
          cases hnumber
          exact .rejected
        | some rest => cases hnumber
      | ok j =>
        cases o with
        | none => cases hnumber
        | some rest =>
          cases hnumber with
          | read _ j hij hj => exact .finished .other j hij hj
    rw [if_neg hdigit, if_neg hdigit]
    -- Both containers check the nesting before they look at anything else.
    by_cases hdepth : nestingLimit ≤ depth
    · rw [if_pos hdepth, startArray, startObject, if_pos hdepth, if_pos hdepth, ite_self, ite_self]
      exact .rejected
    rw [if_neg hdepth]
    by_cases harray : b = 0x5B
    · rw [if_pos harray, if_pos harray]
      exact startArray_begins s f hlt hdepth
    rw [if_neg harray, if_neg harray]
    by_cases hobject : b = 0x7B
    · rw [if_pos hobject, if_pos hobject]
      exact startObject_begins s f hdepth
    rw [if_neg hobject, if_neg hobject]
    exact .rejected

/-! ### Handing over -/

/-- A loop of the parser at a place, with what the grammar reads there. It rejects, or comes to hand
over what was read, with a turn left for every byte that is left. -/
inductive Continues (s : Bytes) (i : Nat) (stack : List Frame) :
    Except Stop Json → Option (Json × Bytes) → Prop where
  | rejected : Continues s i stack (.error .rejected) none
  | handed (json : Json) (j turns : Nat) (hi : i < j) (hj : j ≤ s.length)
    (hturns : s.length - j < turns) :
    Continues s i stack (handOver s turns j stack json) (some (json, s.drop j))

/-- A place further on. -/
theorem Continues.earlier {s : Bytes} {i j : Nat} {stack : List Frame} {r : Except Stop Json}
    {o : Option (Json × Bytes)} (h : Continues s j stack r o) (hi : i ≤ j) :
    Continues s i stack r o := by
  cases h with
  | rejected => exact .rejected
  | handed json j turns hj hle hturns => exact .handed json j turns (by omega) hle hturns

/-- What the values in a container read as, once it is closed. -/
def Frame.reads (s : Bytes) (f depth i : Nat) : Frame → Option (Json × Bytes)
  | .array => (Grammar.elements f depth (s.drop i)).map (Json.other, ·)
  | .object members name =>
    (Grammar.members f depth name (s.drop i)).map fun q =>
      (Frame.value (.object (members.map (· ++ q.1)) []), q.2)

/-- What is read when a value of a container ends at a place. -/
def Frame.goesOn (s : Bytes) (f depth i : Nat) (value : Json) (frame : Frame) :
    Option (Json × Bytes) :=
  let i := skipWhitespace s i
  if s[i]? = some 0x2C then
    match (frame.push value).next s (skipWhitespace s (i + 1)) with
    | .ok (frame, i) => frame.reads s f depth i
    | .error _ => none
  else if s[i]? = some frame.close then some ((frame.push value).value, s.drop (i + 1))
  else none

theorem Frame.close_push (value : Json) (frame : Frame) :
    (frame.push value).close = frame.close := by
  cases frame with
  | array => rfl
  | object members name => cases members <;> rfl

theorem Frame.push_object (members : Option (List (Bytes × Json))) (name : Bytes) (value : Json) :
    ∃ left, (Frame.object members name).push value =
      .object (members.map (· ++ [(name, value)])) left := by
  cases members with
  | none => exact ⟨name, rfl⟩
  | some members => exact ⟨[], rfl⟩

/-- A member that is read is the first of those that are still to come. -/
theorem Frame.value_append (members : Option (List (Bytes × Json))) (member : Bytes × Json)
    (more : List (Bytes × Json)) :
    Frame.value (.object (members.map (· ++ member :: more)) []) =
      Frame.value (.object ((members.map (· ++ [member])).map (· ++ more)) []) := by
  cases members with
  | none => rfl
  | some members =>
    show Json.obj (members ++ member :: more) = Json.obj (members ++ [member] ++ more)
    rw [List.append_assoc, List.singleton_append]

theorem Frame.value_object (members : Option (List (Bytes × Json))) (name : Bytes) :
    Frame.value (.object members name) = Frame.value (.object (members.map (· ++ [])) []) := by
  cases members with
  | none => rfl
  | some members =>
    show Json.obj members = Json.obj (members ++ [])
    rw [List.append_nil]

/-- An object is kept down to its depth. -/
theorem Frame.value_kept (depth : Nat) (members : List (Bytes × Json)) :
    Frame.value (.object ((if depth < keepDepth then some [] else none).map (· ++ members)) []) =
      Grammar.kept depth members := by
  rw [Grammar.kept]
  split <;> rfl

/-- A container whose value is not read. -/
theorem Frame.reads_none {s : Bytes} {f depth i : Nat} (frame : Frame)
    (h : Grammar.value f depth (s.drop i) = none) : frame.reads s (f + 1) depth i = none := by
  cases frame with
  | array => rw [Frame.reads, Grammar.elements, h, Option.bind_none, Option.map_none]
  | object members name => rw [Frame.reads, Grammar.members, h, Option.bind_none, Option.map_none]

/-- A container whose value is read goes on behind it. -/
theorem Frame.reads_some {s : Bytes} {f depth i j : Nat} {json : Json} (frame : Frame)
    (h : Grammar.value f depth (s.drop i) = some (json, s.drop j)) :
    frame.reads s (f + 1) depth i = frame.goesOn s f depth j json := by
  rw [Frame.goesOn]
  cases frame with
  | array =>
    rw [Frame.reads, Grammar.elements, h, Option.bind_some, ← drop_skipWhitespace, after_drop,
      after_drop]
    -- An array goes on with an element, and stays the same frame.
    by_cases hcomma : s[skipWhitespace s j]? = some 0x2C
    · rw [if_pos hcomma, if_pos hcomma]
      show Option.map _ (Grammar.elements f depth (Grammar.skipWhitespace _)) = _
      rw [← drop_skipWhitespace]
      rfl
    · rw [if_neg hcomma, if_neg hcomma]
      show Option.map _ (if s[skipWhitespace s j]? = some 0x5D then _ else _) =
        if s[skipWhitespace s j]? = some 0x5D then _ else _
      split <;> rfl
  | object members name =>
    obtain ⟨left, hpush⟩ := Frame.push_object members name json
    rw [Frame.reads, Grammar.members, h, Option.bind_some, ← drop_skipWhitespace, after_drop,
      after_drop, Option.map_map, hpush]
    -- An object goes on with a name; its member is put behind those it has.
    by_cases hcomma : s[skipWhitespace s j]? = some 0x2C
    · rw [if_pos hcomma, if_pos hcomma, Frame.next]
      show Option.map _ ((Grammar.memberName (Grammar.skipWhitespace _)).bind _) = _
      rw [← drop_skipWhitespace]
      have hname := memberName_agrees s (skipWhitespace s (skipWhitespace s j + 1))
      generalize memberName s (skipWhitespace s (skipWhitespace s j + 1)) = r at hname ⊢
      generalize Grammar.memberName (s.drop (skipWhitespace s (skipWhitespace s j + 1))) = o
        at hname ⊢
      cases hname with
      | rejected => rfl
      | read next k hjk hk =>
        show Option.map _ (Grammar.members f depth next (s.drop k)) =
          Option.map _ (Grammar.members f depth next (s.drop k))
        simp only [Function.comp_def, Frame.value_append]
    · rw [if_neg hcomma, if_neg hcomma]
      show Option.map _ (Option.map _ (if s[skipWhitespace s j]? = some 0x7D then _ else _)) =
        if s[skipWhitespace s j]? = some 0x7D then _ else _
      split
      · rw [Frame.value_object]
        simp only [Option.map_some, Function.comp_def, Frame.value_append]
      · rfl

/-- The next value of a container is further on, or the next name is missing. -/
theorem Frame.next_cases {s : Bytes} {i : Nat} (frame : Frame) (hi : i ≤ s.length) :
    frame.next s i = .error .rejected ∨
      ∃ next j, frame.next s i = .ok (next, j) ∧ i ≤ j ∧ j ≤ s.length := by
  cases frame with
  | array => exact .inr ⟨.array, i, rfl, Nat.le_refl i, hi⟩
  | object members name =>
    rw [Frame.next]
    have hname := memberName_agrees s i
    generalize memberName s i = r at hname ⊢
    generalize Grammar.memberName (s.drop i) = o at hname
    cases hname with
    | rejected => exact .inl rfl
    | read next j hij hj => exact .inr ⟨.object members next, j, rfl, Nat.le_of_lt hij, hj⟩

/-- A value is handed over to its container. -/
theorem handOver_continues {s : Bytes} {f : Nat}
    (ih : ∀ (turns i : Nat) (frame : Frame) (stack : List Frame), i ≤ s.length →
      s.length - i < turns → 2 * (s.length - i) + 1 < f →
      Continues s i stack (valueLoop s turns i (frame :: stack))
        (frame.reads s f (stack.length + 1) i))
    (turns j : Nat) (frame : Frame) (stack : List Frame) (json : Json) (hj : j ≤ s.length)
    (hturns : s.length - j < turns) (hf : 2 * (s.length - j) < f) :
    Continues s j stack (handOver s turns j (frame :: stack) json)
      (frame.goesOn s f (stack.length + 1) j json) := by
  have hplace := skipWhitespace_le hj
  have hmoved := le_skipWhitespace s j
  cases turns with
  | zero => omega
  | succ turns =>
    rw [handOver, Frame.goesOn, Frame.close_push]
    dsimp only
    by_cases hcomma : s[skipWhitespace s j]? = some 0x2C
    · have hlt : skipWhitespace s j + 1 ≤ s.length := lt_of_getElem? hcomma
      have hnext := skipWhitespace_le hlt
      have hpast := le_skipWhitespace s (skipWhitespace s j + 1)
      rw [if_pos hcomma, if_pos hcomma]
      rcases Frame.next_cases (frame.push json) hnext with hstop | ⟨next, k, hok, hik, hk⟩
      · rw [hstop]
        exact .rejected
      · rw [hok, ok_bind]
        exact (ih turns k next stack hk (by omega) (by omega)).earlier (by omega)
    · rw [if_neg hcomma, if_neg hcomma]
      -- The container ends: its value is handed over to the stack under it, one turn later.
      by_cases hclose : s[skipWhitespace s j]? = some frame.close
      · have hlt := lt_of_getElem? hclose
        rw [if_pos hclose, if_pos hclose]
        exact .handed _ _ turns (by omega) hlt (by omega)
      · rw [if_neg hclose, if_neg hclose]
        exact .rejected

/-- Values under any stack, and what is left of an open container. -/
theorem value_continues (s : Bytes) (f : Nat) :
    (∀ (turns i : Nat) (stack : List Frame), i ≤ s.length → s.length - i < turns →
      2 * (s.length - i) < f →
      Continues s i stack (valueLoop s turns i stack)
        (Grammar.value f stack.length (s.drop i))) ∧
    ∀ (turns i : Nat) (frame : Frame) (stack : List Frame), i ≤ s.length →
      s.length - i < turns → 2 * (s.length - i) + 1 < f →
      Continues s i stack (valueLoop s turns i (frame :: stack))
        (frame.reads s f (stack.length + 1) i) := by
  induction f with
  | zero =>
    constructor
    · intro turns i stack hi hturns hf
      -- Without turns for the grammar there is no place within the input.
      omega
    · intro turns i frame stack hi hturns hf
      omega
  | succ f ih =>
    obtain ⟨ihvalue, ihframe⟩ := ih
    constructor
    · intro turns i stack hi hturns hf
      -- A value takes one turn of the grammar, and so does each container around it: two turns for
      -- every byte are enough.
      have hbegins := startValue_begins s i stack.length f
      cases turns with
      | zero => omega
      | succ turns =>
        rw [valueLoop]
        generalize startValue s i stack.length = r at hbegins ⊢
        generalize Grammar.value (f + 1) stack.length (s.drop i) = o at hbegins ⊢
        cases hbegins with
        | rejected => exact .rejected
        | finished json j hij hj => exact .handed json j turns hij hj (by omega)
        | array j hij hj =>
          exact (ihframe turns j .array stack hj (by omega) (by omega)).earlier (by omega)
        | object name j hij hj =>
          have hframe := ihframe turns j
            (.object (if stack.length < keepDepth then some [] else none) name) stack hj
            (by omega) (by omega)
          simp only [Frame.reads, Frame.value_kept] at hframe
          exact hframe.earlier (by omega)
    · intro turns i frame stack hi hturns hf
      -- The value in the container, under the longer stack, and then what follows it.
      have hvalue := ihvalue turns i (frame :: stack) hi hturns (by omega)
      rw [List.length_cons] at hvalue
      generalize hr : valueLoop s turns i (frame :: stack) = r at hvalue ⊢
      generalize ho : Grammar.value f (stack.length + 1) (s.drop i) = o at hvalue
      cases hvalue with
      | rejected =>
        rw [Frame.reads_none frame ho]
        exact .rejected
      | handed json j m hij hj hm =>
        rw [Frame.reads_some frame ho]
        exact (handOver_continues ihframe m j frame stack json hj hm (by omega)).earlier (by omega)

/-! ### Documents -/

theorem handOver_root (s : Bytes) {turns : Nat} (i : Nat) (json : Json) (h : 0 < turns) :
    handOver s turns i [] json = .ok json := by
  cases turns with
  | zero => omega
  | succ turns => rw [handOver]

/-- The place after a byte-order mark. -/
theorem mark_drop (s : Bytes) :
    s.drop (if [0xEF, 0xBB, 0xBF] <+: s then 3 else 0) = Grammar.dropMark s := by
  rw [Grammar.dropMark]
  split <;> rfl

theorem mark_le (s : Bytes) : (if [0xEF, 0xBB, 0xBF] <+: s then 3 else 0) ≤ s.length := by
  split
  · rename_i h
    exact h.length_le
  · exact Nat.zero_le _

/-- The parser, with any number of turns that is enough for the grammar. -/
theorem parse_eq_value (input : Bytes) {f : Nat} (hf : 2 * (cBytes input).length < f) :
    parse input = ((Grammar.value f 0 (Grammar.skipWhitespace
      (Grammar.dropMark (cBytes input)))).map (·.1)).elim (.error .rejected) .ok := by
  have hplace := skipWhitespace_le (mark_le (cBytes input))
  have hvalue := (value_continues (cBytes input) f).1
    ((cBytes input).length + 2) _ [] hplace (by omega) (by omega)
  -- An empty stack: what is handed over is the document.
  rw [drop_skipWhitespace, mark_drop] at hvalue
  rw [parse]
  generalize valueLoop (cBytes input) _ _ [] = r at hvalue ⊢
  generalize Grammar.value _ _ _ = o at hvalue ⊢
  cases hvalue with
  | rejected => rfl
  | handed json j turns hij hj hturns => exact handOver_root _ j json (by omega)

/-- Turns only bound the grammar's recursion: more of them read the same. -/
theorem document_turns (input : Bytes) {f : Nat} (hf : 2 * (cBytes input).length < f) :
    (Grammar.value f 0 (Grammar.skipWhitespace (Grammar.dropMark (cBytes input)))).map (·.1) =
      Grammar.document input := by
  have hmore := parse_eq_value input hf
  have henough := parse_eq_value input (f := 2 * (cBytes input).length + 2) (by omega)
  -- Both are what the parser gives, which does not know of the grammar's turns.
  rw [henough] at hmore
  rw [Grammar.document]
  generalize Option.map _ (Grammar.value f 0 _) = o at hmore ⊢
  generalize Option.map _ (Grammar.value (2 * (cBytes input).length + 2) 0 _) = o' at hmore ⊢
  cases o <;> cases o' <;> cases hmore <;> rfl

/-- Whatever a server sends, the parser gives what the grammar reads, or rejects it where the
grammar reads nothing. It is never out of range, and it ends. -/
theorem parse_eq_document (input : Bytes) :
    parse input = (Grammar.document input).elim (.error .rejected) .ok :=
  parse_eq_value input (by omega)

end OpenUI.Euicc.Es9p
