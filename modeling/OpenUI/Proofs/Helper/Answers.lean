import OpenUI.Proofs.Helper.Chunks

/-!
# `OpenUI.Proofs.Helper.Answers`: when an answer is whole

`response_complete` and `parse_response` read the same head, the first one to know when to stop and
the second one for the result. Both fail only where a size or a length leaves the machine word. What
is complete is parsed to the same result whatever follows, and that result is an error only when the
head is no text or has no status.

* `chunked_framing`: sizes, and the body of an encoding.
* `complete_parse`: an answer that is complete, and the bytes after it.
-/

set_option autoImplicit false

namespace OpenUI.Helper.Https

open OpenUI.Euicc OpenUI.Text

/-! ### Heads -/

/-- A head ends within its answer. -/
theorem headEnd_le {answer : Bytes} {stop : Nat} (h : headEnd answer = some stop) :
    stop ≤ answer.length := by
  obtain ⟨i, hi, rfl⟩ := Option.map_eq_some_iff.mp h
  exact position_le hi

theorem headEnd_append {answer : Bytes} {stop : Nat} (h : headEnd answer = some stop)
    (more : Bytes) : headEnd (answer ++ more) = some stop := by
  obtain ⟨i, hi, rfl⟩ := Option.map_eq_some_iff.mp h
  rw [headEnd, position_append hi]
  rfl

/-- The head as `response_complete` reads it. -/
def lossyHead (answer : Bytes) (stop : Nat) : String := fromUtf8Lossy (answer.take stop)

theorem sliceTo_head {answer : Bytes} {stop : Nat} (h : headEnd answer = some stop) :
    sliceTo answer stop = .ok (answer.take stop) := if_pos (headEnd_le h)

theorem sliceFrom_head {answer : Bytes} {stop : Nat} (h : headEnd answer = some stop) :
    sliceFrom answer stop = .ok (answer.drop stop) := if_pos (headEnd_le h)

/-- Whether a length is there, in a build that checks or wraps around. -/
def arrived (checks : Bool) (answer : Bytes) (stop length : Nat) : Except Fault Bool :=
  (add checks stop length).map fun whole => decide (whole ≤ answer.length)

/-- What `response_complete` makes of an answer with a head. -/
theorem responseComplete_eq {checks : Bool} {answer : Bytes} {stop : Nat}
    (h : headEnd answer = some stop) :
    responseComplete checks answer =
      if isBodiless (lossyHead answer stop) then .ok true
      else if isChunked (lossyHead answer stop) then
        (decodeChunked checks (answer.drop stop)).map Option.isSome
      else (contentLength (lossyHead answer stop)).elim (.ok false)
        (arrived checks answer stop) := by
  rw [responseComplete, h]
  dsimp only
  rw [sliceTo_head h, ok_bind]
  show (if isBodiless (lossyHead answer stop) then _
    else if isChunked (lossyHead answer stop) then _ else _) = _
  -- The source asks in this order: no body, chunks, a length.
  by_cases hbodiless : isBodiless (lossyHead answer stop)
  · rw [if_pos hbodiless, if_pos hbodiless]
    rfl
  · rw [if_neg hbodiless, if_neg hbodiless]
    by_cases hchunked : isChunked (lossyHead answer stop)
    · rw [if_pos hchunked, if_pos hchunked, sliceFrom_head h, ok_bind]
      cases decodeChunked checks (answer.drop stop) <;> rfl
    · rw [if_neg hchunked, if_neg hchunked, lossyHead]
      cases contentLength (fromUtf8Lossy (answer.take stop)) with
      | none => rfl
      | some length =>
        show _ = arrived checks answer stop length
        rw [arrived]
        dsimp only
        cases add checks stop length <;> rfl

/-- The result of a chunked answer. -/
def chunkedResult (code : Nat) : Option Bytes → Except String (Nat × Bytes)
  | none => .error "incomplete chunked answer"
  | some decoded => .ok (code, decoded)

/-- What `parse_response` makes of the body, once it has a status. -/
def parsedBody (checks : Bool) (head : String) (body : Bytes) (code : Nat) :
    Except Fault (Except String (Nat × Bytes)) :=
  if isChunked head then (decodeChunked checks body).map (chunkedResult code)
  else .ok (.ok (code, body.take ((contentLength head).getD body.length)))

/-- What `parse_response` makes of a head and a body. -/
def parsedHead (checks : Bool) (body : Bytes) :
    Option String → Except Fault (Except String (Nat × Bytes))
  | none => .ok (.error "HTTP head is not text")
  | some head => match status head with
    | .error e => .ok (.error e)
    | .ok code => parsedBody checks head body code

theorem parsedHead_none (checks : Bool) (body : Bytes) :
    parsedHead checks body none = .ok (.error "HTTP head is not text") := rfl

theorem parsedHead_error {checks : Bool} {body : Bytes} {head e : String}
    (h : status head = .error e) : parsedHead checks body (some head) = .ok (.error e) := by
  delta parsedHead
  dsimp only
  rw [h]

theorem parsedHead_ok {checks : Bool} {body : Bytes} {head : String} {code : Nat}
    (h : status head = .ok code) :
    parsedHead checks body (some head) = parsedBody checks head body code := by
  delta parsedHead
  dsimp only
  rw [h]

theorem take_min_length (body : Bytes) (n : Nat) : body.take (min n body.length) = body.take n := by
  rcases Nat.le_total n body.length with h | h
  · rw [Nat.min_eq_left h]
  · rw [Nat.min_eq_right h, List.take_length, List.take_of_length_le h]

/-- What `parse_response` makes of an answer with a head. -/
theorem parseResponse_eq {checks : Bool} {answer : Bytes} {stop : Nat}
    (h : headEnd answer = some stop) :
    parseResponse checks answer =
      parsedHead checks (answer.drop stop) (fromUtf8 (answer.take stop)) := by
  rw [parseResponse, h]
  dsimp only
  rw [sliceTo_head h, ok_bind]
  -- A head that is not text is an error before its status is looked at.
  cases fromUtf8 (answer.take stop) with
  | none => rfl
  | some head =>
    dsimp only
    cases hstatus : status head with
    | error e =>
      rw [parsedHead_error hstatus]
      rfl
    | ok code =>
      rw [parsedHead_ok hstatus, parsedBody]
      dsimp only
      rw [sliceFrom_head h, ok_bind]
      by_cases hchunked : isChunked head
      · rw [if_pos hchunked, if_pos hchunked]
        cases decodeChunked checks (answer.drop stop) with
        | error fault => rfl
        | ok decoded => cases decoded <;> rfl
      · rw [if_neg hchunked, if_neg hchunked, sliceTo, if_pos (Nat.min_le_right _ _), ok_bind,
          take_min_length]
        rfl

/-! ### What fits a machine word -/

/-- The sizes and the length that `response_complete` adds up stay in a machine word. -/
def CompleteFits (answer : Bytes) : Prop :=
  ∀ stop, headEnd answer = some stop → isBodiless (lossyHead answer stop) = false →
    (isChunked (lossyHead answer stop) = true → ¬ Overlong (answer.drop stop)) ∧
    (isChunked (lossyHead answer stop) = false →
      ∀ length, contentLength (lossyHead answer stop) = some length → stop + length < UInt64.size)

/-- So do those that `parse_response` adds up. -/
def ParseFits (answer : Bytes) : Prop :=
  ∀ stop, headEnd answer = some stop → ∀ head, fromUtf8 (answer.take stop) = some head →
    ∀ code, status head = .ok code → isChunked head = true → ¬ Overlong (answer.drop stop)

/-- Decoding ends with a result unless it reaches an overlong size. -/
theorem decodeChunked_total {body : Bytes} (hbody : body.length < 0x8000000000000000) :
    (∃ r, decodeChunked true body = .ok r) ↔ ¬ Overlong body := by
  -- One turn more than there are bytes is enough.
  rcases decodeChunkedFrom_total (body.length + 1) [] hbody (Nat.lt_succ_self _) with
    ⟨hover, hend⟩ | ⟨hover, r, hend⟩
  · constructor
    · rintro ⟨r, hr⟩
      rw [decodeChunked, hend] at hr
      cases hr
    · intro h
      exact absurd hover h
  · exact ⟨fun _ => hover, fun _ => ⟨r, hend⟩⟩

theorem exists_ok_map {α β : Type} {f : α → β} {e : Except Fault α} :
    (∃ r, e.map f = .ok r) ↔ ∃ r, e = .ok r := by
  cases e with
  | error fault => simp [Except.map]
  | ok a => simp [Except.map]

theorem exists_add {a b : Nat} : (∃ r, add true a b = .ok r) ↔ a + b < UInt64.size := by
  rw [add]
  split
  · rename_i h
    simp [h]
  · rename_i h
    simp [h]

/-- There is one head at most. -/
theorem forall_headEnd {answer : Bytes} {stop : Nat} (h : headEnd answer = some stop)
    {P : Nat → Prop} : (∀ stop, headEnd answer = some stop → P stop) ↔ P stop := by
  constructor
  · intro hall
    exact hall stop h
  · intro hstop stop' hstop'
    rw [h] at hstop'
    cases hstop'
    exact hstop

/-- `response_complete` ends with an answer when everything it adds up fits. -/
theorem responseComplete_total {answer : Bytes} (hanswer : answer.length < 0x8000000000000000) :
    (∃ r, responseComplete true answer = .ok r) ↔ CompleteFits answer := by
  cases hhead : headEnd answer with
  | none =>
    rw [responseComplete, hhead]
    simp [CompleteFits, hhead]
  | some stop =>
    have hbody : (answer.drop stop).length < 0x8000000000000000 := by
      rw [List.length_drop]
      omega
    rw [responseComplete_eq hhead, CompleteFits, forall_headEnd hhead]
    by_cases hbodiless : isBodiless (lossyHead answer stop)
    · rw [if_pos hbodiless]
      simp [hbodiless]
    · rw [if_neg hbodiless]
      by_cases hchunked : isChunked (lossyHead answer stop)
      · rw [if_pos hchunked, exists_ok_map, decodeChunked_total hbody]
        simp [hbodiless, hchunked]
      · rw [if_neg hchunked]
        cases hlength : contentLength (lossyHead answer stop) with
        | none => simp [hchunked]
        | some length =>
          show (∃ r, arrived true answer stop length = .ok r) ↔ _
          rw [arrived, exists_ok_map, exists_add]
          simp [hbodiless, hchunked]

/-- `parse_response` ends with a result when every size that it reaches fits. -/
theorem parseResponse_total {answer : Bytes} (hanswer : answer.length < 0x8000000000000000) :
    (∃ r, parseResponse true answer = .ok r) ↔ ParseFits answer := by
  cases hhead : headEnd answer with
  | none =>
    rw [parseResponse, hhead]
    simp [ParseFits, hhead, pure, Except.pure]
  | some stop =>
    have hbody : (answer.drop stop).length < 0x8000000000000000 := by
      rw [List.length_drop]
      omega
    rw [parseResponse_eq hhead, ParseFits, forall_headEnd hhead]
    cases htext : fromUtf8 (answer.take stop) with
    | none =>
      rw [parsedHead_none]
      simp
    | some head =>
      cases hstatus : status head with
      | error e =>
        rw [parsedHead_error hstatus]
        simp [hstatus]
      | ok code =>
        rw [parsedHead_ok hstatus, parsedBody]
        by_cases hchunked : isChunked head
        · rw [if_pos hchunked, exists_ok_map, decodeChunked_total hbody]
          simp [hstatus, hchunked]
        · rw [if_neg hchunked]
          simp [hchunked]

/-- Everything ends without a fault when every size that is reached and every length fits a machine
word, and only then. An encoding is decoded to its body when its lines are text, and only then, and
nothing is decoded of what came before its last chunk. -/
theorem chunked_framing (answer : Bytes) (hanswer : answer.length < 0x8000000000000000) :
    ((∃ r, decodeChunked true answer = .ok r) ↔ ¬ Overlong answer) ∧
    ((∃ r, responseComplete true answer = .ok r) ↔ CompleteFits answer) ∧
    ((∃ r, parseResponse true answer = .ok r) ↔ ParseFits answer) ∧
    (∀ (chunks : List Chunk) (last trailer : Bytes), (∀ c ∈ chunks, c.Valid) → SizeLine 0 last →
      answer = encoded chunks last trailer →
      (decodeChunked true answer = .ok (some (bodyOf chunks)) ↔ areText chunks last = true)) ∧
    ∀ (chunks : List Chunk) (last : Bytes), (∀ c ∈ chunks, c.Valid) → SizeLine 0 last →
      answer <+: encodedChunks chunks ++ (last ++ crlf) →
      decodeChunked true answer = .ok none := by
  refine ⟨decodeChunked_total hanswer, responseComplete_total hanswer,
    parseResponse_total hanswer, ?_, ?_⟩
  · intro chunks last trailer hchunks hlast hencoded
    subst hencoded
    rw [decodeChunked, decodeChunkedFrom_encoded true _ [] hchunks hlast hanswer
      (Nat.lt_succ_self _)]
    by_cases htext : areText chunks last = true
    · simp [htext]
    · simp [htext]
  · intro chunks last hchunks hlast hcut
    exact decodeChunkedFrom_cut true _ [] hchunks hlast hcut hanswer (Nat.lt_succ_self _)

/-- Three bytes in one chunk. -/
theorem chunked_framing_sample :
    decodeChunked true (encoded [⟨[0x33], [1, 2, 3]⟩] [0x30] []) = .ok (some [1, 2, 3]) := by
  refine ((chunked_framing (encoded [⟨[0x33], [1, 2, 3]⟩] [0x30] []) (by decide)).2.2.2.1
    [⟨[0x33], [1, 2, 3]⟩] [0x30] [] ?_ ?_ rfl).mpr (by decide +kernel)
  · intro c hc
    obtain rfl := List.mem_singleton.mp hc
    refine ⟨by decide, by decide, [0x33], [], [], rfl, by decide, by decide, ?_,
      .inl rfl, by decide⟩
    intro b hb
    cases hb
  · refine ⟨[0x30], [], [], rfl, by decide, by decide, ?_, .inl rfl, by decide⟩
    intro b hb
    cases hb

/-! ### Heads, by their characters -/

/-- The value of a header, by its characters. -/
def headerChars (name head : List Char) : Option (List Char) :=
  ((linesFrom [] head).drop 1).findSome? fun l =>
    match l.span (· ≠ ':') with
    | (_, []) => none
    | (k, _ :: v) =>
      if (trimChars k).map lowerChar = name.map lowerChar then some (trimChars v) else none

theorem header_eq (head name : String) :
    header head name = (headerChars name.toList head.toList).map String.ofList := by
  rw [header, headerChars, lines, ← List.map_drop]
  generalize (linesFrom [] head.toList).drop 1 = ls
  induction ls with
  | nil => rfl
  | cons l ls ih =>
    rw [List.map_cons, List.findSome?_cons, List.findSome?_cons, ih, splitOnce,
      String.toList_ofList]
    rcases l.span (· ≠ ':') with ⟨k, _ | ⟨c, v⟩⟩
    · rfl
    · have hname : eqIgnoreAsciiCase (trim (String.ofList k)) name = true ↔
          (trimChars k).map lowerChar = name.toList.map lowerChar := by
        simp [eqIgnoreAsciiCase, toAsciiLowercase, trim, String.ofList_inj]
      dsimp only
      by_cases h : (trimChars k).map lowerChar = name.toList.map lowerChar
      · rw [if_pos h, if_pos (hname.mpr h), trim, String.toList_ofList]
        rfl
      · rw [if_neg h, if_neg (mt hname.mp h)]

theorem contains_lowercase (v : List Char) (pattern : String) :
    contains (toAsciiLowercase (String.ofList v)) pattern =
      decide (pattern.toList <:+: v.map lowerChar) := by
  rw [contains, toAsciiLowercase, @String.toList_ofList v,
    @String.toList_ofList (v.map lowerChar)]

theorem isChunked_eq (head : String) : isChunked head =
    (headerChars "transfer-encoding".toList head.toList).any fun v =>
      decide ("chunked".toList <:+: v.map lowerChar) := by
  rw [isChunked, header_eq]
  cases headerChars "transfer-encoding".toList head.toList with
  | none => rfl
  | some v => rw [Option.map_some, Option.any_some, Option.any_some, contains_lowercase]

theorem contentLength_eq (head : String) : contentLength head =
    (headerChars "content-length".toList head.toList).bind
      (parseNumber decimalValue 10 UInt64.size) := by
  rw [contentLength, header_eq]
  cases headerChars "content-length".toList head.toList with
  | none => rfl
  | some v =>
    show parseNumber decimalValue 10 UInt64.size (String.ofList v).toList = _
    rw [String.toList_ofList]
    rfl

theorem stripPrefix_isSome (pattern s : String) :
    (stripPrefix pattern s).isSome = decide (pattern.toList <+: s.toList) := by
  unfold stripPrefix
  by_cases h : pattern.toList <+: s.toList
  · simp [h]
  · simp [h]

theorem isBodiless_eq (head : String) : isBodiless head =
    (decide ("http/1.1 204".toList <+: head.toList.map lowerChar) ||
      decide ("http/1.0 204".toList <+: head.toList.map lowerChar)) := by
  rw [isBodiless, stripPrefix_isSome, stripPrefix_isSome, toAsciiLowercase,
    @String.toList_ofList (head.toList.map lowerChar)]

/-! ### A size that is too long -/

theorem decodeChunked_overlong {body : Bytes} (h : Overlong body)
    (hbody : body.length < 0x8000000000000000) : decodeChunked true body = .error .overflow := by
  rcases decodeChunkedFrom_total (body.length + 1) [] hbody (Nat.lt_succ_self _) with
    ⟨-, hend⟩ | ⟨hnot, -⟩
  · exact hend
  · exact absurd h hnot

/-- The line of a size close to the end of a machine word. -/
theorem overlong_size : Overlong (utf8 "FFFFFFFFFFFFFFFE\r\n") := by
  have hsize : chunkSize (utf8 "FFFFFFFFFFFFFFFE") = some 0xFFFFFFFFFFFFFFFE := by decide +kernel
  have hwhole : utf8 "FFFFFFFFFFFFFFFE\r\n" = utf8 "FFFFFFFFFFFFFFFE" ++ (crlf ++ []) := by
    decide +kernel
  rw [hwhole]
  exact .here (by decide +kernel) hsize (by decide)

/-- A size close to the end of a machine word makes the next position wrap around. -/
theorem size_overflows :
    decodeChunked true (utf8 "FFFFFFFFFFFFFFFE\r\n") = .error .overflow ∧
    responseComplete true (utf8 ("HTTP/1.1 200 OK\r\nTransfer-Encoding: chunked\r\n\r\n" ++
      "FFFFFFFFFFFFFFFE\r\n")) = .error .overflow := by
  have hdecoded := decodeChunked_overlong overlong_size (by decide +kernel)
  refine ⟨hdecoded, ?_⟩
  generalize hanswer : utf8 ("HTTP/1.1 200 OK\r\nTransfer-Encoding: chunked\r\n\r\n" ++
    "FFFFFFFFFFFFFFFE\r\n") = answer
  have hhead : headEnd answer = some 47 := by
    rw [← hanswer]
    decide +kernel
  have hbody : answer.drop 47 = utf8 "FFFFFFFFFFFFFFFE\r\n" := by
    rw [← hanswer]
    decide +kernel
  have hbodiless : isBodiless (lossyHead answer 47) = false := by
    rw [← hanswer]
    rw [isBodiless_eq, lossyHead, fromUtf8Lossy, String.toList_ofList]
    simp only [toList_eq_asciiChars]
    decide +kernel
  have hchunked : isChunked (lossyHead answer 47) = true := by
    rw [← hanswer]
    rw [isChunked_eq, lossyHead, fromUtf8Lossy, String.toList_ofList]
    simp only [toList_eq_asciiChars]
    decide +kernel
  rw [responseComplete_eq hhead, if_neg (by simp [hbodiless]), if_pos hchunked, hbody, hdecoded]
  rfl

/-! ### An answer that is complete -/

/-- What the two functions agree about. A head without a body has no chunked coding, and nothing
follows it within its answer; a length that is given ends within a machine word. -/
def Agreed (answer more : Bytes) : Prop :=
  ∀ stop, headEnd answer = some stop →
    (isBodiless (lossyHead answer stop) = true →
      isChunked (lossyHead answer stop) = false ∧ more = []) ∧
    (isChunked (lossyHead answer stop) = false → ∀ length,
      contentLength (lossyHead answer stop) = some length → stop + length < UInt64.size)

/-- The head is text, and its first line has a status. -/
def HasStatus (answer : Bytes) : Prop :=
  ∃ stop head code, headEnd answer = some stop ∧ fromUtf8 (answer.take stop) = some head ∧
    status head = .ok code

theorem fromUtf8_lossy {bytes : Bytes} {head : String} (h : fromUtf8 bytes = some head) :
    head = fromUtf8Lossy bytes := by
  rw [fromUtf8] at h
  split at h
  · exact (Option.some.inj h).symm
  · cases h

/-- The body of a complete answer does not change, whatever follows it. -/
theorem parsedBody_append {checks : Bool} {answer more : Bytes} {stop : Nat} (code : Nat)
    (hhead : headEnd answer = some stop) (hagreed : Agreed answer more)
    (hlength : (answer ++ more).length < 0x8000000000000000)
    (hcomplete : responseComplete checks answer = .ok true) :
    ∃ body, parsedBody checks (lossyHead answer stop) (answer.drop stop) code =
        .ok (.ok (code, body)) ∧
      parsedBody checks (lossyHead answer stop) (answer.drop stop ++ more) code =
        .ok (.ok (code, body)) := by
  have hle := headEnd_le hhead
  obtain ⟨hbodiless, hword⟩ := hagreed stop hhead
  rw [List.length_append] at hlength
  rw [responseComplete_eq hhead] at hcomplete
  rw [parsedBody, parsedBody]
  -- The two functions look at the head in a different order, so both cases ask for both.
  by_cases hchunked : isChunked (lossyHead answer stop)
  · rw [if_pos hchunked, if_pos hchunked]
    by_cases hb : isBodiless (lossyHead answer stop)
    · rw [(hbodiless hb).1] at hchunked
      cases hchunked
    · rw [if_neg hb, if_pos hchunked] at hcomplete
      -- The last chunk has arrived, so the body is decoded to the same bytes again.
      cases hdecoded : decodeChunked checks (answer.drop stop) with
      | error fault =>
        rw [hdecoded] at hcomplete
        cases hcomplete
      | ok r =>
        rw [hdecoded] at hcomplete
        cases r with
        | none => cases hcomplete
        | some decoded =>
          have hagain := decodeChunkedFrom_append hdecoded more
            (by rw [List.length_append, List.length_drop]; omega) (Nat.lt_succ_self _)
            (Nat.lt_succ_self _)
          exact ⟨decoded, rfl, by rw [decodeChunked, hagain]; rfl⟩
  · rw [if_neg hchunked, if_neg hchunked]
    by_cases hb : isBodiless (lossyHead answer stop)
    · -- A head without a body, and nothing behind it.
      rw [(hbodiless hb).2, List.append_nil]
      exact ⟨_, rfl, rfl⟩
    · rw [if_neg hb, if_neg hchunked] at hcomplete
      cases hcontent : contentLength (lossyHead answer stop) with
      | none =>
        rw [hcontent] at hcomplete
        cases hcomplete
      | some length =>
        rw [hcontent] at hcomplete
        -- The length has arrived, so both take the same bytes.
        have harrived : arrived checks answer stop length = .ok true := hcomplete
        have hfits := hword (by simpa using hchunked) length hcontent
        rw [arrived, add, if_pos hfits] at harrived
        have hthere : stop + length ≤ answer.length := by
          simpa [Except.map] using harrived
        refine ⟨(answer.drop stop).take length, rfl, ?_⟩
        rw [Option.getD_some, List.take_append_of_le_length]
        rw [List.length_drop]
        omega

/-- What is complete is parsed to one result, whatever follows it within the answer: to a status and
a body if its head has a status, and to an error otherwise. -/
theorem complete_parse (checks : Bool) (answer more : Bytes)
    (hlength : (answer ++ more).length < 0x8000000000000000)
    (hcomplete : responseComplete checks answer = .ok true) (hagreed : Agreed answer more) :
    ∃ result, parseResponse checks answer = .ok result ∧
      parseResponse checks (answer ++ more) = .ok result ∧
      ((∃ code body, result = .ok (code, body)) ↔ HasStatus answer) := by
  cases hhead : headEnd answer with
  | none =>
    rw [responseComplete, hhead] at hcomplete
    cases hcomplete
  | some stop =>
    have hle := headEnd_le hhead
    have htake : (answer ++ more).take stop = answer.take stop :=
      List.take_append_of_le_length hle
    have hdrop : (answer ++ more).drop stop = answer.drop stop ++ more :=
      List.drop_append_of_le_length hle
    have hstatus : HasStatus answer ↔ ∃ head code, fromUtf8 (answer.take stop) = some head ∧
        status head = .ok code := by
      simp [HasStatus, hhead]
    rw [parseResponse_eq hhead, parseResponse_eq (headEnd_append hhead more), htake, hdrop, hstatus]
    -- The head is the same for both; it is no text, has no status, or has one.
    cases htext : fromUtf8 (answer.take stop) with
    | none => exact ⟨_, rfl, rfl, by simp⟩
    | some head =>
      cases hcode : status head with
      | error e =>
        rw [parsedHead_error hcode, parsedHead_error hcode]
        exact ⟨_, rfl, rfl, by simp [hcode]⟩
      | ok code =>
        rw [parsedHead_ok hcode, parsedHead_ok hcode]
        have hsame : head = lossyHead answer stop := fromUtf8_lossy htext
        obtain ⟨body, hbody, hbody'⟩ := parsedBody_append code hhead hagreed hlength hcomplete
        rw [hsame, hbody, hbody']
        exact ⟨_, rfl, rfl, by simp [← hsame, hcode]⟩

/-- An answer of two bytes, and a byte after it. -/
theorem complete_parse_sample :
    ∃ result, parseResponse true (utf8 "HTTP/1.1 200 OK\r\nContent-Length: 2\r\n\r\n\x7b\x7d") =
        .ok result ∧
      parseResponse true (utf8 "HTTP/1.1 200 OK\r\nContent-Length: 2\r\n\r\n\x7b\x7d" ++ [0]) =
        .ok result := by
  generalize hanswer : utf8 "HTTP/1.1 200 OK\r\nContent-Length: 2\r\n\r\n\x7b\x7d" = answer
  have hhead : headEnd answer = some 38 := by
    rw [← hanswer]
    decide +kernel
  have hbodiless : isBodiless (lossyHead answer 38) = false := by
    rw [← hanswer, isBodiless_eq, lossyHead, fromUtf8Lossy, String.toList_ofList]
    simp only [toList_eq_asciiChars]
    decide +kernel
  have hchunked : isChunked (lossyHead answer 38) = false := by
    rw [← hanswer, isChunked_eq, lossyHead, fromUtf8Lossy, String.toList_ofList]
    simp only [toList_eq_asciiChars]
    decide +kernel
  have hcontent : contentLength (lossyHead answer 38) = some 2 := by
    rw [← hanswer, contentLength_eq, lossyHead, fromUtf8Lossy, String.toList_ofList]
    simp only [toList_eq_asciiChars]
    decide +kernel
  have hlength : answer.length = 40 := by
    rw [← hanswer]
    decide +kernel
  have hcomplete : responseComplete true answer = .ok true := by
    rw [responseComplete_eq hhead, if_neg (by simp [hbodiless]), if_neg (by simp [hchunked]),
      hcontent, Option.elim_some, arrived, hlength]
    rfl
  obtain ⟨result, hresult, hmore, -⟩ := complete_parse true answer [0]
    (by rw [List.length_append, hlength]; decide) hcomplete (by
    intro stop hstop
    obtain rfl := Option.some.inj (hhead.symm.trans hstop)
    constructor
    · intro h
      rw [hbodiless] at h
      cases h
    · intro _ length h
      obtain rfl := Option.some.inj (hcontent.symm.trans h)
      decide)
  exact ⟨result, hresult, hmore⟩

/-- A length in the head of something else than an HTTP answer: it is complete, and an error. -/
theorem complete_not_http :
    responseComplete true (utf8 "SSH-2.0\r\nContent-Length: 0\r\n\r\n") = .ok true ∧
    parseResponse true (utf8 "SSH-2.0\r\nContent-Length: 0\r\n\r\n") =
      .ok (.error "not an HTTP/1.x answer") := by
  constructor
  · rfl
  · rfl

end OpenUI.Helper.Https
