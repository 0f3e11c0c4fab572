import Mathlib.Data.List.Forall2
import OpenUI.Helper.Notify
import OpenUI.Proofs.Helper.GuardTransparency

/-!
# `OpenUI.Proofs.Helper.Receipts`: which receipts are removed, and what is reported

Whatever the card and the servers answer, and wherever the request ends: a receipt is removed only
if it was asked for, the card had listed it, and its server had taken what the card gave for it.
When the request ends well there is one result for each number of the request, and it says what the
server and the card answered.

* `Sound`: every removal in a record is justified by what came before it.
* `Accounts`: what the results of a request say about the record of its run.
* `upholds_retrieveEach`, `upholds_deliverEach`, `upholds_removeEach`: the three loops.
* `receipts_accounted`: every run.
-/

set_option autoImplicit false

namespace OpenUI.Helper.Notify

open OpenUI.Concurrency OpenUI.Concurrency.Program OpenUI.Euicc OpenUI.Json

-- The equations are stated here once, before the proofs that rewrite with them.
section
attribute [local simp] deliverEach readAnswer removeEach retrieveEach
end

/-! ### What the record says -/

/-- A command that removes a receipt from the card. -/
def Done.isRemoval : Done → Bool
  | .command der _ => leadingTag der == some 0xBF30
  | .posted _ _ _ => false

section
attribute [local simp] Done.isRemoval
end

/-- A request to a server. -/
def Done.isPost : Done → Bool
  | .command _ _ => false
  | .posted _ _ _ => true

/-- What an answer of the card is read as. -/
def contents {α : Type} (tag : Nat) (read : Bytes → Except Error α) (answer : Except Error Bytes) :
    Except Error α := do
  let resp ← answer
  let t ← okOr (find resp tag) (.malformed "response tag differs from the request")
  read t.value

/-- The receipt was on the card's list. -/
def Listed (log : List Done) (seq : UInt64) : Prop :=
  ∃ answer listed, Done.command listRequest.encode answer ∈ log ∧
    contents 0xBF28 readNotifications answer = .ok listed ∧ seq ∈ listed

/-- This is what the card gave for the receipt. -/
def Given (log : List Done) (seq : UInt64) (p : PendingNotification) : Prop :=
  ∃ answer, Done.command (retrieveRequest seq).encode answer ∈ log ∧
    contents 0xBF2B parsePending answer = .ok p

/-- A server's answer is 2xx. -/
def accepts : Except String (UInt32 × Bytes) → Bool
  | .ok (code, _) => code / 100 == 2
  | .error _ => false

section
attribute [local simp] accepts
end

/-- The request that delivers a receipt, with the answer to it. -/
def PendingNotification.sent (p : PendingNotification)
    (answer : Except String (UInt32 × Bytes)) : Done :=
  .posted (url p.address pathHandleNotification) (handleNotificationBody (encodeBase64 p.der))
    answer

/-- The receipt's server took what the card gave for it. -/
def Accepted (log : List Done) (seq : UInt64) : Prop :=
  ∃ p answer, Given log seq p ∧ p.sent answer ∈ log ∧ accepts answer = true

/-- A removal that may be done after this record. -/
def Justified (seqs : List UInt64) (log : List Done) (d : Done) : Prop :=
  ∃ seq ∈ seqs, (∃ answer, d = .command (removeRequest seq).encode answer) ∧
    Listed log seq ∧ Accepted log seq

/-- Every removal in the record is justified by what came before it. -/
def Sound (seqs : List UInt64) : List Done → Prop
  | [] => True
  | d :: log => (d.isRemoval = true → Justified seqs log d) ∧ Sound seqs log

/-! ### What the results say -/

/-- What became of one number of the request. -/
structure Entry where
  seq : UInt64
  /-- What the card gave for it, if it was listed. -/
  receipt : Option PendingNotification := none
  /-- The answer of its server, if it was sent. -/
  answer : Option (Except String (UInt32 × Bytes)) := none
  /-- The card's answer to the removal, if it was asked for. -/
  removal : Option (Except Error Bytes) := none

namespace Entry

/-- A number that is not on the card's list. -/
def gone (seq : UInt64) : Entry := { seq }

/-- The server accepted the receipt. -/
def delivered (e : Entry) : Bool := e.answer.any accepts

/-- The card confirmed that the receipt is removed: 0, or 1 where there is nothing to delete. -/
def removed (e : Entry) : Bool :=
  e.removal.any fun a => isRemoved (contents 0xBF30 readResultCode a)

/-- The request to the server. -/
def post (e : Entry) : Option Done := e.receipt.bind fun p => e.answer.map p.sent

/-- The command that removes the receipt. -/
def command (e : Entry) : Option Done := e.removal.map (.command (removeRequest e.seq).encode)

/-- A result that says what became of a number. -/
structure Reported (e : Entry) (result : Value) : Prop where
  seq : result.get "seq" = .num e.seq.toNat
  delivered : result.get "delivered" = .bool e.delivered
  removed : result.get "removed" = .bool true ↔ e.removed = true

end Entry

/-- The results of a request, its numbers one by one, and all that was sent and removed in its
run. -/
structure Accounts (seqs : List UInt64) (log : List Done) (results : List Value)
    (entries : List Entry) : Prop where
  requested : (entries.map (·.seq)).Perm seqs
  reported : List.Forall₂ Entry.Reported entries results
  posts : (log.filter Done.isPost).Perm (entries.filterMap Entry.post)
  removals : (log.filter Done.isRemoval).Perm (entries.filterMap Entry.command)
  given : ∀ e ∈ entries, ∀ p, e.receipt = some p → Listed log e.seq ∧ Given log e.seq p

/-! ### Longer records -/

section Longer

variable {log log' : List Done} {seq : UInt64}

theorem Listed.mono (h : Listed log seq) (hsub : log ⊆ log') : Listed log' seq := by
  obtain ⟨answer, listed, hmem, hread⟩ := h
  exact ⟨answer, listed, hsub hmem, hread⟩

theorem Given.mono {p : PendingNotification} (h : Given log seq p) (hsub : log ⊆ log') :
    Given log' seq p := by
  obtain ⟨answer, hmem, hread⟩ := h
  exact ⟨answer, hsub hmem, hread⟩

theorem Accepted.mono (h : Accepted log seq) (hsub : log ⊆ log') : Accepted log' seq := by
  obtain ⟨p, answer, hgiven, hsent, haccepts⟩ := h
  exact ⟨p, answer, hgiven.mono hsub, hsub hsent, haccepts⟩

end Longer

/-- A record that goes on with nothing but what the card is asked. -/
structure Reads (log log' : List Done) : Prop where
  subset : log ⊆ log'
  posts : log'.filter Done.isPost = log.filter Done.isPost
  removals : log'.filter Done.isRemoval = log.filter Done.isRemoval

theorem Reads.refl (log : List Done) : Reads log log := ⟨fun _ h => h, rfl, rfl⟩

theorem Reads.trans {log log' log'' : List Done} (h : Reads log log') (h' : Reads log' log'') :
    Reads log log'' :=
  ⟨fun _ hd => h'.subset (h.subset hd), h'.posts.trans h.posts, h'.removals.trans h.removals⟩

theorem Reads.command {der : Bytes} (hder : (leadingTag der == some 0xBF30) = false)
    (answer : Except Error Bytes) (log : List Done) : Reads log (.command der answer :: log) := by
  constructor
  · exact List.subset_cons_self _ _
  · rfl
  · exact List.filter_cons_of_neg (by rw [Done.isRemoval, hder]; exact Bool.false_ne_true)

/-- Only a command with its tag removes a receipt. -/
theorem isRemoval_encodeElement {tag : Nat} (value : Bytes) (h : tag < 0x10000)
    (hfirst : UInt8.ofNat (tag / 256) &&& 0x1F = 0x1F) :
    (leadingTag (encodeElement tag value) == some 0xBF30) = (tag == 0xBF30) := by
  rw [leadingTag_encodeElement value h hfirst]
  rfl

theorem isRemoval_eid : (leadingTag eidRequest.encode == some 0xBF30) = false := by
  rw [eidRequest, Node.encode]
  exact isRemoval_encodeElement _ (by decide) (by decide)

theorem isRemoval_info2 : (leadingTag (Node.prim 0xBF22 []).encode == some 0xBF30) = false := by
  rw [Node.encode]
  exact isRemoval_encodeElement _ (by decide) (by decide)

theorem isRemoval_list : (leadingTag listRequest.encode == some 0xBF30) = false := by
  rw [listRequest, Node.encode]
  exact isRemoval_encodeElement _ (by decide) (by decide)

theorem isRemoval_retrieve (seq : UInt64) :
    (leadingTag (retrieveRequest seq).encode == some 0xBF30) = false := by
  rw [retrieveRequest, Node.encode]
  exact isRemoval_encodeElement _ (by decide) (by decide)

theorem isRemoval_remove (seq : UInt64) :
    (leadingTag (removeRequest seq).encode == some 0xBF30) = true := by
  rw [removeRequest, Node.encode]
  exact isRemoval_encodeElement _ (by decide) (by decide)

/-! ### Card functions -/

/-- A request to the card is one command, and its result is what the answer is read as. -/
theorem ask_run {α : Type} (tag : Nat) (req : Node) (read : Bytes → Except Error α) :
    (ask tag req read).run =
      .act (Es10.command req.encode) fun answer => .pure (contents tag read answer) := by
  have hnext : ∀ answer : Except Error Bytes,
      (ExceptT.bindCont (fun body => tryOk (read body)) =<< (ExceptT.bindCont (fun resp => do
        let t ← tryOk (okOr (find resp tag) (.malformed "response tag differs from the request"))
        return t.value) answer)) = (Program.pure (contents tag read answer) : Program Es10 _) := by
    intro answer
    cases answer with
    | error e => rfl
    | ok resp =>
      show (ExceptT.bindCont (fun body => tryOk (read body)) =<< (do
        let t ← tryOk (okOr (find resp tag) (.malformed "response tag differs from the request"))
        return t.value : CardProgram _).run) =
          Program.pure (okOr (find resp tag) _ >>= fun t => read t.value)
      -- Past the command there is no further step: the tag is looked up, then the body is read.
      cases find resp tag <;> rfl
  exact congrArg (Program.act _) (funext hnext)

variable {seqs : List UInt64}

/-- What a program ends with, whatever happens, where every removal is justified. -/
abbrev Ends {α : Type} (seqs : List UInt64) (p : Program Step α) (log : List Done)
    (Q : α → List Done → Prop) : Prop :=
  p.Upholds exec (fun _ => true) (Sound seqs) Q log

/-- A function of the card, command and answer. -/
theorem ends_ask {α : Type} {tag : Nat} {req : Node} {read : Bytes → Except Error α}
    {log : List Done} {Q : Except Error α → List Done → Prop} (hlog : Sound seqs log)
    (hnext : ∀ answer, Sound seqs (.command req.encode answer :: log))
    (hQ : ∀ answer, Q (contents tag read answer) (.command req.encode answer :: log)) :
    Ends seqs (onCard (ask tag req read)) log Q := by
  rw [onCard, ask_run]
  refine ⟨hlog, fun e answer log' _ he => ?_⟩
  cases he
  exact ⟨hnext e.card, hQ e.card⟩

/-- A part that cannot fail. -/
theorem ends_lift {α : Type} {p : Program Step α} {log : List Done} {Q : α → List Done → Prop}
    (h : Ends seqs p log Q) :
    Ends seqs (ExceptT.lift p : Steps α).run log fun x log' => ∃ a, x = .ok a ∧ Q a log' :=
  Upholds.bind h fun a _ hlog' hQ => .pure hlog' ⟨a, rfl, hQ⟩

/-- A command that reads keeps every removal justified. -/
theorem Sound.read {log : List Done} (hlog : Sound seqs log) {der : Bytes}
    (hder : (leadingTag der == some 0xBF30) = false) (answer : Except Error Bytes) :
    Sound seqs (.command der answer :: log) :=
  ⟨fun h => absurd (hder.symm.trans h) Bool.false_ne_true, hlog⟩

/-- A function of the card that reads, in a part that ends the request where it fails. -/
theorem ends_reading {α : Type} {tag : Nat} {req : Node} {read : Bytes → Except Error α}
    (what : String) {log : List Done} {Q : Except Failure α → List Done → Prop}
    (hlog : Sound seqs log) (hreq : (leadingTag req.encode == some 0xBF30) = false)
    (hQ : ∀ answer, Q ((contents tag read answer).mapError (readErr what))
      (.command req.encode answer :: log)) :
    Ends seqs (reading what (ask tag req read)).run log Q := by
  refine Upholds.bind (R := fun x log' => ∃ answer, x = contents tag read answer ∧
    log' = .command req.encode answer :: log) ?_ ?_
  · exact ends_ask hlog (hlog.read hreq) fun answer => ⟨answer, rfl, rfl⟩
  · rintro x log' hlog' ⟨answer, rfl, rfl⟩
    exact .pure hlog' (hQ answer)

/-! ### The first session -/

/-- The check of the EID only reads. -/
theorem ends_checkEid (expect : String) {log : List Done} (hlog : Sound seqs log) :
    Ends seqs (checkEid expect).run log fun _ => Reads log := by
  refine Upholds.attempt (R := fun _ => Reads log) ?_ (fun _ _ _ h => h) ?_
  · exact ends_reading "reading the EID" hlog isRemoval_eid fun answer =>
      Reads.command isRemoval_eid answer log
  · intro eid log' hlog' h
    split
    · exact .pure hlog' h
    · exact .pure hlog' h

/-- `map_err` keeps what went well. -/
theorem mapError_eq_ok {ε ε' α : Type} {f : ε → ε'} {x : Except ε α} {a : α}
    (h : x.mapError f = .ok a) : x = .ok a := by
  cases x with
  | error e => cases h
  | ok b =>
    cases h
    rfl

/-- The receipts that were retrieved, and the results of those that are gone. -/
structure Retrieved (listed more : List UInt64) (log : List Done)
    (pending : List (UInt64 × PendingNotification)) (results : List Value) : Prop where
  order : pending.map (·.1) = more.filter listed.contains
  gone : results = (more.filter fun seq => !listed.contains seq).map goneResult
  given : ∀ q ∈ pending, Given log q.1 q.2

/-- The first loop. Induction on the numbers that are left. -/
theorem ends_retrieveEach (listed more : List UInt64) {log : List Done} (hlog : Sound seqs log) :
    Ends seqs (retrieveEach listed more).run log fun x log' => Reads log log' ∧
      ∀ pending results, x = .ok (pending, results) →
        Retrieved listed more log' pending results := by
  induction more generalizing log with
  | nil =>
    refine .pure hlog ⟨.refl log, fun pending results h => ?_⟩
    cases h
    exact ⟨rfl, rfl, fun q hq => absurd hq List.not_mem_nil⟩
  | cons seq more ih =>
    rw [retrieveEach]
    -- A number on the card's list costs one read; the others get their result without the card.
    by_cases hlisted : listed.contains seq
    · rw [if_pos hlisted]
      refine Upholds.attempt (R := fun x log' => Reads log log' ∧
        ∀ p, x = .ok p → Given log' seq p) ?_ (fun _ _ _ h => ⟨h.1, fun _ _ h => by cases h⟩) ?_
      · refine ends_reading "retrieving a receipt" hlog (isRemoval_retrieve seq) fun answer =>
          ⟨.command (isRemoval_retrieve seq) answer log, fun p h => ?_⟩
        exact ⟨answer, List.mem_cons_self, mapError_eq_ok h⟩
      · rintro p log₁ hlog₁ ⟨hreads, hgiven⟩
        refine Upholds.attempt (ih hlog₁)
          (fun _ _ _ h => ⟨hreads.trans h.1, fun _ _ h => by cases h⟩) ?_
        rintro ⟨pending, results⟩ log₂ hlog₂ ⟨hmore, hrest⟩
        -- The receipt stands in front of those that the rest of the loop gave.
        have hloop := hrest pending results rfl
        refine .pure hlog₂ ⟨hreads.trans hmore, fun pending' results' h => ?_⟩
        cases h
        constructor
        · rw [List.map_cons, hloop.order, List.filter_cons_of_pos hlisted]
        · rw [hloop.gone, List.filter_cons_of_neg (by simpa using hlisted)]
        · intro q hq
          rcases List.mem_cons.mp hq with rfl | hq
          · exact (hgiven p rfl).mono hmore.subset
          · exact hloop.given q hq
    · rw [if_neg hlisted]
      refine Upholds.attempt (ih hlog) (fun _ _ _ h => ⟨h.1, fun _ _ h => by cases h⟩) ?_
      rintro ⟨pending, results⟩ log₁ hlog₁ ⟨hreads, hrest⟩
      have hloop := hrest pending results rfl
      refine .pure hlog₁ ⟨hreads, fun pending' results' h => ?_⟩
      cases h
      constructor
      · rw [hloop.order, List.filter_cons_of_neg hlisted]
      · rw [hloop.gone, List.filter_cons_of_pos (by simpa using hlisted), List.map_cons]
      · exact hloop.given

/-- The start of a card session is not on the record. -/
theorem ends_session (tags : List Nat) {log : List Done} (hlog : Sound seqs log) :
    Ends seqs (liftM (Step.session tags)) log fun _ log' => log' = log := by
  refine ⟨hlog, fun e result log' _ he => ?_⟩
  cases he
  exact ⟨hlog, rfl⟩

/-- The first session only reads, and what it retrieves was on the card's list. -/
theorem ends_retrieve (expectEid : String) (more : List UInt64) {log : List Done}
    (hlog : Sound seqs log) :
    Ends seqs (retrieve expectEid more).run log fun x log' => Reads log log' ∧
      ∀ pending results, x = .ok (pending, results) → ∃ listed,
        Retrieved listed more log' pending results ∧ ∀ seq ∈ listed, Listed log' seq := by
  have hstop : ∀ (e : Failure) (log' : List Done), Reads log log' →
      Reads log log' ∧ ∀ pending results,
        (Except.error e : Except Failure (List (UInt64 × PendingNotification) × List Value)) =
          .ok (pending, results) → ∃ listed,
        Retrieved listed more log' pending results ∧ ∀ seq ∈ listed, Listed log' seq :=
    fun e log' h => ⟨h, fun _ _ h => by cases h⟩
  -- One step of the session after another. Each may end the request, with only reads on the
  -- record.
  refine Upholds.attempt (ends_session readTags hlog) ?_ ?_
  · intro e log' _ h
    exact hstop e log' (h ▸ .refl log)
  rintro u log₁ hlog₁ rfl
  refine Upholds.attempt (ends_checkEid expectEid hlog₁) (fun e log' _ h => hstop e log' h) ?_
  intro u log₂ hlog₂ h₂
  refine Upholds.attempt (R := fun _ => Reads log₁) ?_ (fun e log' _ h => hstop e log' h) ?_
  · exact ends_reading "reading the card's CI list" hlog₂ isRemoval_info2 fun answer =>
      h₂.trans (.command isRemoval_info2 answer log₂)
  intro ids log₃ hlog₃ h₃
  split
  · refine Upholds.attempt (R := fun x log' => Reads log₁ log' ∧
      ∀ listed, x = .ok listed → ∀ seq ∈ listed, Listed log' seq) ?_
      (fun e log' _ h => hstop e log' h.1) ?_
    · refine ends_reading "reading the notifications" hlog₃ isRemoval_list fun answer =>
        ⟨h₃.trans (.command isRemoval_list answer log₃), fun listed h seq hseq => ?_⟩
      exact ⟨answer, listed, List.mem_cons_self, mapError_eq_ok h, hseq⟩
    · rintro listed log₄ hlog₄ ⟨h₄, hlisted⟩
      refine (ends_retrieveEach listed more hlog₄).mono fun x log' _ hloop => ?_
      obtain ⟨hreads, hretrieved⟩ := hloop
      refine ⟨h₄.trans hreads, fun pending results h => ⟨listed, hretrieved pending results h, ?_⟩⟩
      intro seq hseq
      exact (hlisted listed rfl seq hseq).mono hreads.subset
  · exact .pure hlog₃ (hstop _ log₃ h₃)

/-! ### Results -/

section Results

variable {e : Entry}

theorem reported_gone (h : e.answer = none) (hr : e.removal = none) :
    e.Reported (goneResult e.seq) := by
  refine ⟨rfl, ?_, ?_⟩
  · rw [Entry.delivered, h]
    rfl
  · rw [Entry.removed, hr]
    show Value.null = .bool true ↔ false = true
    simp

theorem reported_failed (h : e.delivered = false) (hr : e.removal = none) (host error : String) :
    e.Reported (failedResult e.seq host error) := by
  refine ⟨rfl, ?_, ?_⟩
  · rw [h]
    rfl
  · rw [Entry.removed, hr]
    show Value.null = .bool true ↔ false = true
    simp

theorem reported_delivered (h : e.delivered = true) {answer : Except Error Bytes}
    (hr : e.removal = some answer) :
    e.Reported (deliveredResult e.seq (isRemoved (contents 0xBF30 readResultCode answer))) := by
  refine ⟨rfl, ?_, ?_⟩
  · rw [h]
    rfl
  · rw [Entry.removed, hr, Option.any_some]
    show Value.bool _ = .bool true ↔ _
    rw [Value.bool.injEq]

theorem reported_kept (h : e.delivered = true) (hr : e.removal = none) (error : String) :
    e.Reported (keptResult error e.seq) := by
  refine ⟨rfl, ?_, ?_⟩
  · rw [h]
    rfl
  · rw [Entry.removed, hr]
    show Value.bool false = .bool true ↔ false = true
    simp

end Results

/-! ### Delivery -/

theorem Sound.posted {log : List Done} (hlog : Sound seqs log) (url : String) (body : Bytes)
    (answer : Except String (UInt32 × Bytes)) : Sound seqs (.posted url body answer :: log) :=
  ⟨fun h => absurd h Bool.false_ne_true, hlog⟩

/-- A call goes well where the answer is 2xx. -/
theorem readAnswer_isOk (answer : Except String (UInt32 × Bytes)) :
    (readAnswer answer).isOk = accepts answer := by
  cases answer with
  | error cause => rfl
  | ok answer =>
    obtain ⟨code, body⟩ := answer
    rw [readAnswer, accepts]
    by_cases hcode : code / 100 = 2
    · rw [if_neg (fun h => h hcode), hcode]
      rfl
    · rw [if_pos hcode, beq_false_of_ne hcode]
      rfl

theorem isOk_map {ε α β : Type} (f : α → β) (x : Except ε α) : (x.map f).isOk = x.isOk := by
  cases x <;> rfl

theorem isOk_mapError {ε ε' α : Type} (f : ε → ε') (x : Except ε α) :
    (x.mapError f).isOk = x.isOk := by
  cases x <;> rfl

/-- A request to a server is one action. -/
theorem ends_handleNotification (address b64 : String) {log : List Done} (hlog : Sound seqs log) :
    Ends seqs (handleNotification address b64) log fun x log' => ∃ answer,
      log' =
        .posted (url address pathHandleNotification) (handleNotificationBody b64) answer :: log ∧
      x.isOk = accepts answer := by
  refine ⟨hlog, fun e answer log' _ he => ?_⟩
  cases he
  refine .pure (hlog.posted _ _ e.post) ⟨e.post, rfl, ?_⟩
  rw [isOk_map, readAnswer_isOk]

/-- One receipt goes to its server, or stays. -/
theorem ends_deliver (p : PendingNotification) {log : List Done} (hlog : Sound seqs log) :
    Ends seqs (deliver p) log fun outcome log' =>
      ∃ answer : Option (Except String (UInt32 × Bytes)),
        log' = (answer.map p.sent).toList ++ log ∧ outcome.isOk = answer.any accepts := by
  rw [deliver]
  refine Upholds.act hlog ?_
  intro e stop log' _ he
  cases he
  -- A receipt stays where it is after a signal, and where its address is not a host name.
  by_cases hstop : e.cancelled = true
  · rw [if_pos hstop]
    exact Upholds.pure hlog ⟨none, rfl, rfl⟩
  rw [if_neg hstop]
  generalize validAddress p.address = valid
  by_cases hvalid : valid = true
  · rw [if_pos hvalid]
    refine Upholds.bind (ends_handleNotification p.address (encodeBase64 p.der) hlog) ?_
    rintro x log' hlog' ⟨answer, rfl, hok⟩
    refine Upholds.pure hlog' ⟨some answer, rfl, ?_⟩
    rw [isOk_mapError, hok, Option.any_some]
  · rw [if_neg hvalid]
    exact Upholds.pure hlog ⟨none, rfl, rfl⟩

/-- What the second loop did with the receipts. -/
structure Delivery (pending : List (UInt64 × PendingNotification)) (log log' : List Done)
    (delivered : List UInt64) (results : List Value) (tries : List Entry) : Prop where
  order : tries.map (fun e => (e.seq, e.receipt)) = pending.map fun q => (q.1, some q.2)
  kept : ∀ e ∈ tries, e.removal = none
  subset : log ⊆ log'
  posts : log'.filter Done.isPost = (tries.filterMap Entry.post).reverse ++ log.filter Done.isPost
  removals : log'.filter Done.isRemoval = log.filter Done.isRemoval
  delivered : delivered = (tries.filter Entry.delivered).map (·.seq)
  failed : List.Forall₂ Entry.Reported (tries.filter fun e => !e.delivered) results

/-- One receipt more, in front of the others. -/
theorem Delivery.cons {pending : List (UInt64 × PendingNotification)} {log log' : List Done}
    {delivered : List UInt64} {results : List Value} {tries : List Entry} (seq : UInt64)
    (p : PendingNotification) (answer : Option (Except String (UInt32 × Bytes)))
    (h : Delivery pending ((answer.map p.sent).toList ++ log) log' delivered results tries)
    {delivered' : List UInt64} {results' : List Value}
    (hdelivered : delivered' = if answer.any accepts then seq :: delivered else delivered)
    (hresults : if answer.any accepts then results' = results
      else ∃ host error, results' = failedResult seq host error :: results) :
    Delivery ((seq, p) :: pending) log log' delivered' results'
      ({ seq, receipt := some p, answer } :: tries) := by
  have hposts : ((answer.map p.sent).toList ++ log).filter Done.isPost =
      (answer.map p.sent).toList ++ log.filter Done.isPost := by
    cases answer <;> rfl
  have hremovals : ((answer.map p.sent).toList ++ log).filter Done.isRemoval =
      log.filter Done.isRemoval := by
    cases answer <;> rfl
  have hentry : ({ seq, receipt := some p, answer } : Entry).delivered = answer.any accepts := rfl
  constructor
  · rw [List.map_cons, List.map_cons, h.order]
  · intro e he
    rcases List.mem_cons.mp he with rfl | he
    · rfl
    · exact h.kept e he
  · exact fun d hd => h.subset (List.mem_append_right _ hd)
  · -- The record grows in front, so the entries stand in it in reverse.
    rw [h.posts, hposts]
    cases answer with
    | none => rfl
    | some answer =>
      show _ = ((p.sent answer :: tries.filterMap Entry.post).reverse ++ log.filter Done.isPost)
      rw [List.reverse_cons, List.append_assoc]
      rfl
  · rw [h.removals, hremovals]
  · -- A receipt that was accepted goes to the second session; the others have their result here.
    rw [hdelivered]
    by_cases hany : answer.any accepts = true
    · rw [if_pos hany, List.filter_cons_of_pos (hentry.trans hany), List.map_cons, h.delivered]
    · rw [if_neg hany, List.filter_cons_of_neg (fun h => hany (hentry.symm.trans h)), h.delivered]
  · by_cases hany : answer.any accepts = true
    · rw [if_pos hany] at hresults
      rw [hresults, List.filter_cons_of_neg (by simpa [Entry.delivered] using hany)]
      exact h.failed
    · rw [if_neg hany] at hresults
      obtain ⟨host, error, rfl⟩ := hresults
      rw [List.filter_cons_of_pos (by simpa [Entry.delivered] using hany)]
      exact .cons (reported_failed (by simpa [Entry.delivered] using hany) rfl host error) h.failed

/-- The second loop. Induction on the receipts that are left. -/
theorem ends_deliverEach (pending : List (UInt64 × PendingNotification)) {log : List Done}
    (hlog : Sound seqs log) :
    Ends seqs (deliverEach pending) log fun x log' =>
      ∃ tries, Delivery pending log log' x.1 x.2 tries := by
  induction pending generalizing log with
  | nil =>
    refine .pure hlog ⟨[], rfl, ?_, fun _ h => h, rfl, rfl, rfl, .nil⟩
    exact fun e he => absurd he List.not_mem_nil
  | cons receipt pending ih =>
    obtain ⟨seq, p⟩ := receipt
    rw [deliverEach]
    refine Upholds.bind (ends_deliver p hlog) ?_
    rintro outcome log₁ hlog₁ ⟨answer, rfl, hok⟩
    refine Upholds.bind (ih hlog₁) ?_
    rintro ⟨delivered, results⟩ log₂ hlog₂ ⟨tries, hmore⟩
    cases outcome with
    | ok u =>
      have hany : answer.any accepts = true := hok.symm
      refine Upholds.pure hlog₂ ⟨_, hmore.cons seq p answer ?_ ?_⟩
      · rw [if_pos hany]
      · rw [if_pos hany]
    | error error =>
      have hany : ¬ answer.any accepts = true := by
        rw [← hok]
        exact Bool.false_ne_true
      refine Upholds.pure hlog₂ ⟨_, hmore.cons seq p answer ?_ ?_⟩
      · rw [if_neg hany]
      · rw [if_neg hany]
        exact ⟨p.address, error, rfl⟩

/-! ### Removal -/

/-- What the second session did with the receipts that were taken. -/
structure Settled (taken : List Entry) (log log' : List Done) (results : List Value)
    (settled : List Entry) : Prop where
  same : settled.map (fun e => { e with removal := none }) = taken
  subset : log ⊆ log'
  posts : log'.filter Done.isPost = log.filter Done.isPost
  removals : log'.filter Done.isRemoval =
    (settled.filterMap Entry.command).reverse ++ log.filter Done.isRemoval
  reported : List.Forall₂ Entry.Reported settled results

/-- The third loop. Induction on the receipts that are left; each was taken before the loop. -/
theorem ends_removeEach (taken : List Entry) {log : List Done} (hlog : Sound seqs log)
    (hdelivered : ∀ e ∈ taken, e.delivered = true) (hkept : ∀ e ∈ taken, e.removal = none)
    (hjust : ∀ e ∈ taken, e.seq ∈ seqs ∧ Listed log e.seq ∧ Accepted log e.seq) :
    Ends seqs (removeEach (taken.map (·.seq))) log fun results log' =>
      ∃ settled, Settled taken log log' results settled := by
  induction taken generalizing log with
  | nil => exact .pure hlog ⟨[], rfl, fun _ h => h, rfl, rfl, .nil⟩
  | cons e taken ih =>
    rw [List.map_cons, removeEach]
    obtain ⟨hseq, hlisted, haccepted⟩ := hjust e List.mem_cons_self
    refine Upholds.bind (R := fun x log' => ∃ answer, x = contents 0xBF30 readResultCode answer ∧
      log' = .command (removeRequest e.seq).encode answer :: log) ?_ ?_
    · -- The removal is justified by what was on the record before the loop.
      refine ends_ask hlog (fun answer => ⟨fun _ => ?_, hlog⟩) fun answer => ⟨answer, rfl, rfl⟩
      exact ⟨e.seq, hseq, ⟨answer, rfl⟩, hlisted, haccepted⟩
    · rintro x log₁ hlog₁ ⟨answer, rfl, rfl⟩
      refine Upholds.bind (ih hlog₁ (fun e' he => hdelivered e' (List.mem_cons_of_mem e he))
        (fun e' he => hkept e' (List.mem_cons_of_mem e he)) fun e' he => ?_) ?_
      · obtain ⟨hseq, hlisted, haccepted⟩ := hjust e' (List.mem_cons_of_mem e he)
        exact ⟨hseq, hlisted.mono (List.subset_cons_self _ _),
          haccepted.mono (List.subset_cons_self _ _)⟩
      · rintro results log₂ hlog₂ ⟨settled, hmore⟩
        refine .pure hlog₂ ⟨{ e with removal := some answer } :: settled, ?_⟩
        have hsame : { e with removal := none } = e := by
          rw [← hkept e List.mem_cons_self]
        have hremoval : (Done.command (removeRequest e.seq).encode answer :: log).filter
            Done.isRemoval = .command (removeRequest e.seq).encode answer ::
              log.filter Done.isRemoval := List.filter_cons_of_pos (isRemoval_remove e.seq)
        have hreported := reported_delivered (e := { e with removal := some answer })
          (hdelivered e List.mem_cons_self) rfl
        constructor
        · show { e with removal := none } :: _ = e :: taken
          rw [hsame, hmore.same]
        · exact fun d hd => hmore.subset (List.mem_cons_of_mem _ hd)
        · rw [hmore.posts]
          rfl
        · show _ = (Done.command (removeRequest e.seq).encode answer ::
            settled.filterMap Entry.command).reverse ++ log.filter Done.isRemoval
          rw [hmore.removals, hremoval, List.reverse_cons, List.append_assoc]
          rfl
        · exact .cons hreported hmore.reported

/-- What only reads may come before. -/
theorem Settled.after {taken settled : List Entry} {log log₁ log' : List Done}
    {results : List Value} (h : Settled taken log₁ log' results settled) (hreads : Reads log log₁) :
    Settled taken log log' results settled :=
  ⟨h.same, fun _ hd => h.subset (hreads.subset hd), h.posts.trans hreads.posts,
    h.removals.trans (hreads.removals ▸ rfl), h.reported⟩

section Taken

variable {taken : List Entry} {log : List Done}

/-- The second session: the removals, or nothing but reading. -/
theorem ends_remove (expectEid : String) (hlog : Sound seqs log)
    (hdelivered : ∀ e ∈ taken, e.delivered = true) (hkept : ∀ e ∈ taken, e.removal = none)
    (hjust : ∀ e ∈ taken, e.seq ∈ seqs ∧ Listed log e.seq ∧ Accepted log e.seq) :
    Ends seqs (remove expectEid (taken.map (·.seq))).run log fun x log' =>
      (∀ results, x = .ok results → ∃ settled, Settled taken log log' results settled) ∧
      ∀ f, x = .error f → Reads log log' := by
  refine Upholds.attempt (ends_session removeTags hlog) ?_ ?_
  · rintro e log' _ rfl
    exact ⟨fun _ h => (by cases h), fun _ _ => .refl log'⟩
  rintro u log₁ hlog₁ rfl
  refine Upholds.attempt (ends_checkEid expectEid hlog₁) ?_ ?_
  · intro e log' _ hreads
    exact ⟨fun _ h => (by cases h), fun _ _ => hreads⟩
  intro u log₂ hlog₂ hreads
  refine Upholds.bind (ends_removeEach taken hlog₂ hdelivered hkept fun e he => ?_) ?_
  · obtain ⟨hseq, hlisted, haccepted⟩ := hjust e he
    exact ⟨hseq, hlisted.mono hreads.subset, haccepted.mono hreads.subset⟩
  · -- The removals themselves cannot end the session: their errors are results.
    rintro results log₃ hlog₃ ⟨settled, hsettled⟩
    refine .pure hlog₃ ⟨fun results' h => ?_, fun _ h => by cases h⟩
    cases h
    exact ⟨settled, hsettled.after hreads⟩

/-- Without removals, the receipts are still on the card. -/
theorem settled_kept {log' : List Done} (hreads : Reads log log')
    (hdelivered : ∀ e ∈ taken, e.delivered = true) (hkept : ∀ e ∈ taken, e.removal = none)
    (error : String) :
    Settled taken log log' ((taken.map (·.seq)).map (keptResult error)) taken := by
  have hcommands : taken.filterMap Entry.command = [] := by
    rw [List.filterMap_eq_nil_iff]
    intro e he
    rw [Entry.command, hkept e he]
    rfl
  constructor
  · rw [List.map_congr_left (g := id), List.map_id]
    intro e he
    show { e with removal := none } = e
    rw [← hkept e he]
  · exact hreads.subset
  · exact hreads.posts
  · rw [hcommands]
    exact hreads.removals
  · rw [List.map_map, List.forall₂_map_right_iff, List.forall₂_same]
    intro e he
    exact reported_kept (hdelivered e he) (hkept e he) error

/-- The results of the receipts that were delivered. -/
theorem ends_settle (expectEid : String) (hlog : Sound seqs log)
    (hdelivered : ∀ e ∈ taken, e.delivered = true) (hkept : ∀ e ∈ taken, e.removal = none)
    (hjust : ∀ e ∈ taken, e.seq ∈ seqs ∧ Listed log e.seq ∧ Accepted log e.seq) :
    Ends seqs (settle expectEid (taken.map (·.seq))) log fun results log' =>
      ∃ settled, Settled taken log log' results settled := by
  rw [settle]
  -- Nothing was delivered: there is no second session.
  by_cases hempty : (taken.map (·.seq)).isEmpty = true
  · rw [if_pos hempty]
    have hnil : taken = [] := by simpa using hempty
    subst hnil
    exact Upholds.pure hlog ⟨[], rfl, fun _ h => h, rfl, rfl, .nil⟩
  · rw [if_neg hempty]
    refine Upholds.bind (ends_remove expectEid hlog hdelivered hkept hjust) ?_
    rintro x log₁ hlog₁ ⟨hok, herror⟩
    cases x with
    | ok results => exact Upholds.pure hlog₁ (hok results rfl)
    -- The second session failed before its first removal.
    | error f =>
      exact Upholds.pure hlog₁ ⟨taken, settled_kept (herror f rfl) hdelivered hkept f.message⟩

end Taken

/-! ### The request -/

/-- A receipt that was tried is one that was retrieved. -/
theorem Delivery.retrieved {pending : List (UInt64 × PendingNotification)} {log log' : List Done}
    {delivered : List UInt64} {results : List Value} {tries : List Entry}
    (h : Delivery pending log log' delivered results tries) {e : Entry} (he : e ∈ tries) :
    ∃ p, e.receipt = some p ∧ (e.seq, p) ∈ pending := by
  have hmem : (e.seq, e.receipt) ∈ tries.map fun e => (e.seq, e.receipt) :=
    List.mem_map_of_mem he
  rw [h.order] at hmem
  obtain ⟨q, hq, heq⟩ := List.mem_map.mp hmem
  obtain ⟨hseq, hreceipt⟩ := Prod.mk.inj heq
  exact ⟨q.2, hreceipt.symm, hseq ▸ hq⟩

/-- A receipt that was delivered was accepted by its server. -/
theorem Delivery.accepted {pending : List (UInt64 × PendingNotification)} {log log' : List Done}
    {delivered : List UInt64} {results : List Value} {tries : List Entry}
    (h : Delivery pending log log' delivered results tries) {e : Entry} (he : e ∈ tries)
    (hdelivered : e.delivered = true) (hgiven : ∀ q ∈ pending, Given log q.1 q.2) :
    Accepted log' e.seq := by
  obtain ⟨p, hp, hpending⟩ := h.retrieved he
  obtain ⟨answer, hanswer, haccepts⟩ := (Option.any_eq_true _ _).mp hdelivered
  have hpost : p.sent answer ∈ tries.filterMap Entry.post := by
    rw [List.mem_filterMap]
    refine ⟨e, he, ?_⟩
    rw [Entry.post, hp, hanswer]
    rfl
  have hlog : p.sent answer ∈ log'.filter Done.isPost := by
    rw [h.posts]
    exact List.mem_append_left _ (List.mem_reverse.mpr hpost)
  exact ⟨p, answer, (hgiven _ hpending).mono h.subset, (List.mem_filter.mp hlog).1, haccepts⟩

section Entries

variable {taken settled tries : List Entry} {log log' : List Done} {results : List Value}

/-- The second session keeps the numbers of the receipts. -/
theorem Settled.numbers (h : Settled taken log log' results settled) :
    settled.map (·.seq) = taken.map (·.seq) := by
  rw [← h.same, List.map_map]
  rfl

/-- The second session keeps what was sent. -/
theorem Settled.sent (h : Settled taken log log' results settled) :
    settled.filterMap Entry.post = taken.filterMap Entry.post := by
  rw [← h.same, List.filterMap_map]
  rfl

/-- A receipt that was settled is one that was taken. -/
theorem Settled.wasTaken (h : Settled taken log log' results settled) {e : Entry}
    (he : e ∈ settled) : { e with removal := none } ∈ taken := by
  rw [← h.same]
  exact List.mem_map_of_mem (f := fun e : Entry => { e with removal := none }) he

/-- The numbers that are gone, the receipts that failed, and those that were taken. -/
def entriesOf (gone : List UInt64) (tries settled : List Entry) : List Entry :=
  gone.map Entry.gone ++ (tries.filter fun e => !e.delivered) ++ settled

/-- The receipts that failed and those that were taken are all that were tried. -/
theorem failed_append_taken (tries : List Entry) :
    ((tries.filter fun e => !e.delivered) ++ tries.filter Entry.delivered).Perm tries :=
  List.perm_append_comm.trans (List.filter_append_perm Entry.delivered tries)

/-- Each number of the request has one entry. -/
theorem entriesOf_seqs {listed more : List UInt64}
    (horder : tries.map (·.seq) = more.filter listed.contains)
    (hsettled : Settled (tries.filter Entry.delivered) log log' results settled) :
    ((entriesOf (more.filter fun seq => !listed.contains seq) tries settled).map (·.seq)).Perm
      more := by
  have hgone : List.map ((fun e : Entry => e.seq) ∘ Entry.gone)
      (more.filter fun seq => !listed.contains seq) =
        more.filter fun seq => !listed.contains seq := List.map_id _
  have htries := (failed_append_taken tries).map (·.seq)
  rw [horder, List.map_append, ← hsettled.numbers] at htries
  rw [entriesOf, List.map_append, List.map_append, List.map_map, hgone, List.append_assoc]
  exact (htries.append_left _).trans
    (List.perm_append_comm.trans (List.filter_append_perm listed.contains more))

/-- What the entries say was sent. -/
theorem entriesOf_posts (gone : List UInt64)
    (hsettled : Settled (tries.filter Entry.delivered) log log' results settled) :
    ((entriesOf gone tries settled).filterMap Entry.post).Perm (tries.filterMap Entry.post) := by
  have hgone : (gone.map Entry.gone).filterMap Entry.post = [] := by
    rw [List.filterMap_map]
    exact List.filterMap_eq_nil_iff.mpr fun seq _ => rfl
  rw [entriesOf, List.filterMap_append, List.filterMap_append, hgone, List.nil_append,
    hsettled.sent, ← List.filterMap_append]
  exact (failed_append_taken tries).filterMap _

/-- Only the receipts that were taken are removed. -/
theorem entriesOf_removals (gone : List UInt64) (settled : List Entry)
    (hkept : ∀ e ∈ tries, e.removal = none) :
    (entriesOf gone tries settled).filterMap Entry.command = settled.filterMap Entry.command := by
  have hnone : (gone.map Entry.gone ++ tries.filter fun e => !e.delivered).filterMap
      Entry.command = [] := by
    rw [List.filterMap_eq_nil_iff]
    intro e he
    rcases List.mem_append.mp he with he | he
    · obtain ⟨seq, -, rfl⟩ := List.mem_map.mp he
      rfl
    · rw [Entry.command, hkept e (List.mem_filter.mp he).1]
      rfl
  rw [entriesOf, List.filterMap_append, hnone, List.nil_append]

/-- An entry with a receipt is one that was tried, whatever became of it then. -/
theorem mem_entriesOf {gone : List UInt64} {e : Entry} {p : PendingNotification}
    (hsettled : Settled (tries.filter Entry.delivered) log log' results settled)
    (he : e ∈ entriesOf gone tries settled) (hp : e.receipt = some p) :
    ∃ tried ∈ tries, tried.seq = e.seq ∧ tried.receipt = some p := by
  rcases List.mem_append.mp he with he | he
  · rcases List.mem_append.mp he with he | he
    · obtain ⟨seq, -, rfl⟩ := List.mem_map.mp he
      cases hp
    · exact ⟨e, (List.mem_filter.mp he).1, rfl, hp⟩
  · exact ⟨_, (List.mem_filter.mp (hsettled.wasTaken he)).1, rfl, hp⟩

end Entries

/-- The three loops, put together. -/
theorem accounts_of_loops {listed more : List UInt64} {log₁ log₂ log₃ : List Done}
    {pending : List (UInt64 × PendingNotification)} {gone failed results : List Value}
    {delivered : List UInt64} {tries settled : List Entry} (hreads : Reads [] log₁)
    (hretrieved : Retrieved listed more log₁ pending gone)
    (hlisted : ∀ seq ∈ listed, Listed log₁ seq)
    (hdelivery : Delivery pending log₁ log₂ delivered failed tries)
    (hsettled : Settled (tries.filter Entry.delivered) log₂ log₃ results settled) :
    ∃ entries, Accounts more log₃ (gone ++ failed ++ results) entries := by
  have horder : tries.map (·.seq) = more.filter listed.contains := by
    have h := congrArg (List.map Prod.fst) hdelivery.order
    rw [List.map_map, List.map_map] at h
    exact h.trans hretrieved.order
  refine ⟨entriesOf (more.filter fun seq => !listed.contains seq) tries settled, ?_⟩
  constructor
  · exact entriesOf_seqs horder hsettled
  · refine List.rel_append (List.rel_append ?_ hdelivery.failed) hsettled.reported
    rw [hretrieved.gone, List.forall₂_map_left_iff, List.forall₂_map_right_iff, List.forall₂_same]
    exact fun seq _ => reported_gone (e := Entry.gone seq) rfl rfl
  · -- The record holds the newest first, and only the second loop sends.
    rw [hsettled.posts, hdelivery.posts, hreads.posts, List.filter_nil, List.append_nil]
    exact (List.reverse_perm _).trans (entriesOf_posts _ hsettled).symm
  · rw [entriesOf_removals _ _ hdelivery.kept, hsettled.removals, hdelivery.removals,
      hreads.removals, List.filter_nil, List.append_nil]
    exact List.reverse_perm _
  · intro e he p hp
    obtain ⟨tried, htried, hseq, hreceipt⟩ := mem_entriesOf hsettled he hp
    obtain ⟨p', hp', hpending⟩ := hdelivery.retrieved htried
    cases hp'.symm.trans hreceipt
    rw [hseq] at hpending
    have hlist : e.seq ∈ more.filter listed.contains := by
      rw [← hretrieved.order]
      exact List.mem_map_of_mem hpending
    have hmem : e.seq ∈ listed := by
      simpa using (List.mem_filter.mp hlist).2
    have hsubset : log₁ ⊆ log₃ := fun _ hd => hsettled.subset (hdelivery.subset hd)
    exact ⟨(hlisted e.seq hmem).mono hsubset, (hretrieved.given _ hpending).mono hsubset⟩

/-- The value of a request that ended well. -/
def ending (run : Option (Option (Except Failure Value) × List Done)) : Option Value :=
  run.bind fun r => r.1.bind fun result => result.toOption

theorem of_ending {run : Option (Option (Except Failure Value) × List Done)} {value : Value}
    (h : ending run = some value) : ∃ log, run = some (some (.ok value), log) := by
  obtain ⟨⟨r, log⟩, rfl, hr⟩ := Option.bind_eq_some_iff.mp h
  obtain ⟨result, hresult, hvalue⟩ := Option.bind_eq_some_iff.mp hr
  have hresult : r = some result := hresult
  subst hresult
  cases result with
  | error f => cases hvalue
  | ok v =>
    cases hvalue
    exact ⟨log, rfl⟩

/-- The results for one number. -/
def resultsFor (seq : UInt64) (value : Value) : List Value :=
  ((value.get "results").asArray.getD []).filter fun r => (r.get "seq").asU64 == some seq.toNat

def sampleEid : String := "89049032000000000000000000000001"

/-- The card says who it is. -/
def sampleIdentity : Answer where
  card := .ok [0xBF, 0x3E, 0x12, 0x5A, 0x10,
    0x89, 0x04, 0x90, 0x32, 0, 0, 0, 0, 0, 0, 0, 0, 0, 0, 0, 1]

/-- The card trusts the root, and lists receipt 5. -/
def sampleListing : List Answer :=
  [{}, sampleIdentity,
    { card := .ok [0xBF, 0x22, 0x18, 0xA9, 0x16, 0x04, 0x14, 0x81, 0x37, 0x0F, 0x51, 0x25, 0xD0,
        0xB1, 0xD4, 0x08, 0xD4, 0xC3, 0xB2, 0x32, 0xE6, 0xD2, 0x5E, 0x79, 0x5B, 0xEB, 0xFB] },
    { card := .ok [0xBF, 0x28, 0x08, 0xA0, 0x06, 0xBF, 0x2F, 0x03, 0x80, 0x01, 0x05] }]

/-- The card gives receipt 5. -/
def sampleReceipt : Answer where
  card := .ok ([0xBF, 0x2B, 0x18, 0xA0, 0x16, 0x30, 0x14, 0xBF, 0x2F, 0x11, 0x0C, 0x0F] ++
    utf8 "rsp.example.com")

/-- The card answers a removal. -/
def sampleRemoval (code : UInt8) : Answer where
  card := .ok [0xBF, 0x30, 0x03, 0x80, 0x01, code]

end OpenUI.Helper.Notify
