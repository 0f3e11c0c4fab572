import OpenUI.Helper.Guard

/-!
# `OpenUI.Proofs.Helper.GuardSafety`: what reaches the card behind the guard

An operation may offer any APDUs to the guard, in any order, and a stop signal may arrive between
any two of them. `openCommand` reads the card's side alone: from the APDUs that reached it, the
command whose next block is due. `Session.Sound` ties the guard's `continuing` to it, as long as the
guard passes anything at all, and `guard_safe` says what follows for every APDU that reached the
card and for the classification of errors by `write_result`.
-/

set_option autoImplicit false

namespace OpenUI.Helper

open OpenUI.Concurrency OpenUI.Euicc OpenUI.Json

/-! ### The card's side -/

/-- GET RESPONSE. -/
def isGetResponse (apdu : Bytes) : Bool := apdu[1]? == some 0xC0

/-- A STORE DATA block: P1 says whether more blocks follow. -/
def isStoreData (apdu : Bytes) : Bool :=
  apdu[1]? == some 0xE2 && (apdu[2]? == some 0x11 || apdu[2]? == some 0x91)

/-- A block that begins a command has the number 0. -/
def beginsCommand (apdu : Bytes) : Bool := apdu[3]? == some 0

/-- The block announces another one. -/
def announcesMore (apdu : Bytes) : Bool := apdu[2]? == some 0x11

/-- The tag of the command whose next block is due, from the APDUs that reached the card, the
latest first. GET RESPONSE belongs to the command it collects the answer of. -/
def openCommand : List Bytes → Option Nat
  | [] => none
  | prev :: earlier =>
    if isGetResponse prev then openCommand earlier
    else if announcesMore prev then
      if beginsCommand prev then leadingTag (prev.drop 5) else openCommand earlier
    else none

/-- The tag of the command a block belongs to, given what reached the card before it. -/
def commandOf (before : List Bytes) (apdu : Bytes) : Option Nat :=
  if beginsCommand apdu then leadingTag (apdu.drop 5) else openCommand before

/-- The tags of the commands that change the card. -/
def changesCard (t : Nat) : Bool := Tag.install.contains t || Tag.writes.contains t

/-! ### A session -/

/-- One APDU offered to the guard. `stop`: a stop signal has arrived since the last one. -/
structure Offer where
  apdu : Bytes
  stop : Bool

/-- A card session: the guard, and what reached the card, the latest first. Each APDU is kept with
`write_sent` as it was when the APDU left. -/
structure Session where
  flags : Flags
  guard : Guard
  reached : List (Bytes × Bool) := []

namespace Session

/-- A session as `Card::session` opens it. -/
def opened (flags : Flags) (allowed : List Nat) : Session := ⟨flags, { allowed }, []⟩

/-- The operation offers an APDU. -/
def offer (s : Session) (o : Offer) : Session :=
  match s.guard.offer { s.flags with cancelled := s.flags.cancelled || o.stop } o.apdu with
  | (.error _, f, g) => { s with flags := f, guard := g }
  | (.ok t, f, g) => ⟨f.answered t, g, (o.apdu, g.writeSent) :: s.reached⟩

/-- The APDUs that reached the card. -/
def apdus (s : Session) : List Bytes := s.reached.map Prod.fst

/-- A stop was asked for before anything was changed: nothing more leaves. -/
def Stopped (s : Session) : Prop :=
  s.flags.cancelled = true ∧ s.guard.writeSent = false ∧ s.flags.installing = false

/-- What may be said of an APDU that reached the card after `before`, with `write_sent` as it
was. -/
def Permitted (allowed : List Nat) (before : List Bytes) (apdu : Bytes) (writeSent : Bool) : Prop :=
  isGetResponse apdu = true ∨
    isStoreData apdu = true ∧ ∃ t, commandOf before apdu = some t ∧ allowed.contains t = true ∧
      (changesCard t = true → writeSent = true)

/-- A block of a command that changes the card, sent after `before`. -/
def Changes (before : List Bytes) (apdu : Bytes) : Prop :=
  isGetResponse apdu = false ∧ ∃ t, commandOf before apdu = some t ∧ changesCard t = true

/-- The guard and the card agree on the command whose next block is due. -/
structure Sound (allowed : List Nat) (s : Session) : Prop where
  allowed_eq : s.guard.allowed = allowed
  due : s.Stopped ∨ s.guard.continuing = openCommand s.apdus
  due_allowed : ∀ t, s.guard.continuing = some t → allowed.contains t = true
  permitted : ∀ apdu writeSent before, (apdu, writeSent) :: before <:+ s.reached →
    Permitted allowed (before.map Prod.fst) apdu writeSent
  changed : s.guard.writeSent = true ↔ ∃ apdu writeSent before,
    (apdu, writeSent) :: before <:+ s.reached ∧ Changes (before.map Prod.fst) apdu

end Session

/-! ### One offer -/

/-- What `allows` makes of an APDU. -/
inductive Guard.Allowed (g : Guard) (apdu : Bytes) : Option Nat × Guard → Prop where
  | refused : Allowed g apdu (none, g)
  | response (h : isGetResponse apdu = true) : Allowed g apdu (some 0, g)
  /-- A block that begins a command, or continues the one the guard remembers. -/
  | block {t : Nat} (hno : isGetResponse apdu = false) (hstore : isStoreData apdu = true)
      (hcont : beginsCommand apdu = false → g.continuing = some t)
      (hbegin : beginsCommand apdu = true →
        leadingTag (apdu.drop 5) = some t ∧ g.allowed.contains t = true) :
      Allowed g apdu (some t, { g with continuing := if announcesMore apdu then some t else none })

theorem Guard.allows_cases (g : Guard) (apdu : Bytes) : g.Allowed apdu (g.allows apdu) := by
  unfold Guard.allows
  split
  · exact .response (by simpa [isGetResponse] using ‹apdu[1]? = some 0xC0›)
  · rename_i hno
    split
    · rename_i hstore
      split
      · exact .refused
      · rename_i block hblock
        dsimp only
        split
        · exact .refused
        · rename_i t ht
          have hmore : (if apdu[2]? = some 0x11 then some t else none) =
              if announcesMore apdu then some t else none := by simp [announcesMore]
          rw [hmore]
          refine .block (by simpa [isGetResponse] using hno) (by simpa [isStoreData] using hstore)
            (fun hb => ?_) fun hb => ?_
          · have hne : block ≠ 0 := by simpa [beginsCommand, hblock] using hb
            rwa [if_neg hne] at ht
          · have heq : block = 0 := by simpa [beginsCommand, hblock] using hb
            rw [if_pos heq] at ht
            exact Option.filter_eq_some_iff.mp ht
    · exact .refused

namespace Session

variable {allowed : List Nat}

theorem sound_opened (flags : Flags) (allowed : List Nat) :
    (opened flags allowed).Sound allowed := by
  refine ⟨rfl, .inr rfl, by rintro _ ⟨⟩, fun apdu writeSent before h => ?_, by rintro ⟨⟩, ?_⟩
  · exact absurd (List.suffix_nil.mp h) (by rintro ⟨⟩)
  · rintro ⟨apdu, writeSent, before, h, -⟩
    exact absurd (List.suffix_nil.mp h) (by simp)

/-- What is said of the APDUs that reached the card, with one more. -/
theorem permitted_cons {reached : List (Bytes × Bool)} {new : Bytes} {sent : Bool}
    (h : ∀ apdu writeSent before, (apdu, writeSent) :: before <:+ reached →
      Permitted allowed (before.map Prod.fst) apdu writeSent)
    (hnew : Permitted allowed (reached.map Prod.fst) new sent) :
    ∀ apdu writeSent before, (apdu, writeSent) :: before <:+ (new, sent) :: reached →
      Permitted allowed (before.map Prod.fst) apdu writeSent := by
  intro apdu writeSent before hs
  rcases List.suffix_cons_iff.mp hs with heq | hs
  · cases heq
    exact hnew
  · exact h apdu writeSent before hs

/-- One more APDU changes the card, or something before it did. -/
theorem changed_cons {reached : List (Bytes × Bool)} {new : Bytes} {sent : Bool} :
    (∃ apdu writeSent before, (apdu, writeSent) :: before <:+ (new, sent) :: reached ∧
      Changes (before.map Prod.fst) apdu) ↔
    Changes (reached.map Prod.fst) new ∨ ∃ apdu writeSent before,
      (apdu, writeSent) :: before <:+ reached ∧ Changes (before.map Prod.fst) apdu := by
  constructor
  · rintro ⟨apdu, writeSent, before, hs, hc⟩
    rcases List.suffix_cons_iff.mp hs with heq | hs
    · cases heq
      exact .inl hc
    · exact .inr ⟨apdu, writeSent, before, hs, hc⟩
  · rintro (hc | ⟨apdu, writeSent, before, hs, hc⟩)
    · exact ⟨new, sent, reached, List.suffix_refl _, hc⟩
    · exact ⟨apdu, writeSent, before, List.suffix_cons_iff.mpr (.inr hs), hc⟩

/-- An APDU that does not leave: only the stop flag may move, and, after a stop, what the guard
remembers. -/
theorem Sound.refused {s : Session} (h : s.Sound allowed) (stop : Bool) {continuing : Option Nat}
    (hcont : continuing = s.guard.continuing ∨
      (⟨{ s.flags with cancelled := s.flags.cancelled || stop }, s.guard, s.reached⟩ :
        Session).Stopped ∧ ∀ t, continuing = some t → allowed.contains t = true) :
    Sound allowed ⟨{ s.flags with cancelled := s.flags.cancelled || stop },
      { s.guard with continuing }, s.reached⟩ := by
  refine ⟨h.allowed_eq, ?_, ?_, h.permitted, h.changed⟩
  · rcases hcont with rfl | ⟨hstop, -⟩
    · exact h.due.imp (fun hs => ⟨by simp [hs.1], hs.2⟩) id
    · exact .inl hstop
  · rcases hcont with rfl | ⟨-, hallowed⟩
    · exact h.due_allowed
    · exact hallowed

/-- An APDU of the command `t` leaves. -/
theorem Sound.sent {s : Session} (h : s.Sound allowed) {f : Flags} {apdu : Bytes} {t : Nat}
    (hno : isGetResponse apdu = false) (hstore : isStoreData apdu = true)
    (hcommand : commandOf s.apdus apdu = some t) (ht : allowed.contains t = true) :
    Sound allowed ⟨f,
      { s.guard with
        continuing := if announcesMore apdu then some t else none
        writeSent := s.guard.writeSent || Tag.install.contains t || Tag.writes.contains t },
      (apdu, s.guard.writeSent || Tag.install.contains t || Tag.writes.contains t) ::
        s.reached⟩ := by
  have hsent : (s.guard.writeSent || Tag.install.contains t || Tag.writes.contains t) =
      (s.guard.writeSent || changesCard t) := by rw [changesCard, Bool.or_assoc]
  refine ⟨h.allowed_eq, .inr ?_, fun t' ht' => ?_, permitted_cons h.permitted (.inr ⟨hstore, t,
    hcommand, ht, fun hc => ?_⟩), ?_⟩
  · show (if announcesMore apdu then some t else none) = openCommand (apdu :: s.apdus)
    rw [openCommand, if_neg (ne_true_of_eq_false hno), ← hcommand]
    rfl
  · have ht' : (if announcesMore apdu then some t else none) = some t' := ht'
    split at ht'
    · exact Option.some.inj ht' ▸ ht
    · cases ht'
  · rw [hsent, hc, Bool.or_true]
  · have hchanges : Changes s.apdus apdu ↔ changesCard t = true := by
      refine ⟨?_, fun hc => ⟨hno, t, hcommand, hc⟩⟩
      rintro ⟨-, t', ht', hc⟩
      exact Option.some.inj (hcommand.symm.trans ht') ▸ hc
    rw [changed_cons]
    show (s.guard.writeSent || Tag.install.contains t || Tag.writes.contains t) = true ↔
      Changes s.apdus apdu ∨ _
    rw [hsent, Bool.or_eq_true, hchanges, ← h.changed, or_comm]

/-- GET RESPONSE leaves. -/
theorem Sound.collected {s : Session} (h : s.Sound allowed) {f : Flags} {apdu : Bytes}
    (hresponse : isGetResponse apdu = true) (hdue : s.guard.continuing = openCommand s.apdus) :
    Sound allowed ⟨f, s.guard, (apdu, s.guard.writeSent) :: s.reached⟩ := by
  refine ⟨h.allowed_eq, .inr ?_, h.due_allowed, permitted_cons h.permitted (.inl hresponse), ?_⟩
  · show s.guard.continuing = openCommand (apdu :: s.apdus)
    rw [openCommand, if_pos hresponse, hdue]
  · rw [changed_cons, ← h.changed, or_iff_right]
    rintro ⟨hno, -⟩
    rw [hresponse] at hno
    cases hno

/-- Every offer keeps the session sound. -/
theorem Sound.offer {s : Session} (h : s.Sound allowed) (o : Offer) :
    (s.offer o).Sound allowed := by
  have hdue : ¬ (((s.flags.cancelled || o.stop) && !s.guard.writeSent && !s.flags.installing) =
      true) → s.guard.continuing = openCommand s.apdus := by
    intro hgo
    refine h.due.resolve_left fun hs => hgo ?_
    simp [hs.1, hs.2.1, hs.2.2]
  unfold Session.offer Guard.offer
  have hcases := s.guard.allows_cases o.apdu
  generalize s.guard.allows o.apdu = r at hcases
  cases hcases with
  | refused => exact h.refused o.stop (.inl rfl)
  | response hresponse =>
    by_cases hgo : ((s.flags.cancelled || o.stop) && !s.guard.writeSent && !s.flags.installing) =
      true
    · simp only [if_pos hgo]
      exact h.refused o.stop (.inl rfl)
    · simp only [if_neg hgo]
      have hzero : (s.guard.writeSent || Tag.install.contains 0 || Tag.writes.contains 0) =
          s.guard.writeSent := by simp [Tag.install, Tag.writes]
      rw [hzero]
      exact h.collected hresponse (hdue hgo)
  | @block t hno hstore hcont hbegin =>
    have hallowed : allowed.contains t = true := by
      cases hb : beginsCommand o.apdu with
      | true => exact h.allowed_eq ▸ (hbegin hb).2
      | false => exact h.due_allowed t (hcont hb)
    by_cases hgo : ((s.flags.cancelled || o.stop) && !s.guard.writeSent && !s.flags.installing) =
      true
    · simp only [if_pos hgo]
      refine h.refused o.stop (.inr ⟨?_, fun t' ht' => ?_⟩)
      · simpa [Stopped, and_assoc] using hgo
      · split at ht'
        · exact Option.some.inj ht' ▸ hallowed
        · cases ht'
    · simp only [if_neg hgo]
      refine h.sent hno hstore ?_ hallowed
      unfold commandOf
      cases hb : beginsCommand o.apdu with
      | true => rw [if_pos rfl]; exact (hbegin hb).1
      | false => rw [if_neg Bool.false_ne_true, ← hdue hgo]; exact hcont hb

/-- Every sequence of offers keeps the session sound. -/
theorem sound_offers (flags : Flags) (allowed : List Nat) (offers : List Offer) :
    (offers.foldl Session.offer (opened flags allowed)).Sound allowed := by
  suffices h : ∀ s : Session, s.Sound allowed → (offers.foldl Session.offer s).Sound allowed from
    h _ (sound_opened flags allowed)
  induction offers with
  | nil => exact fun s hs => hs
  | cons o os ih => exact fun s hs => ih _ (hs.offer o)

end Session

/-- An error of a write is an unknown outcome exactly when the write left for the card. -/
theorem writeResult_unknown (reason : String → Nat → String) (op : String) (x : Error)
    (writeSent : Bool) (data : List (String × Value)) :
    (∃ failure, writeResult reason op (.error x) writeSent data = .error failure ∧
      failure.kind = "outcome_unknown") ↔ writeSent = true := by
  cases writeSent with
  | true => exact ⟨fun _ => rfl, fun _ => ⟨_, rfl, rfl⟩⟩
  | false =>
    refine ⟨?_, by simp⟩
    rintro ⟨failure, heq, hkind⟩
    obtain rfl : readErr op x = failure := Except.error.inj heq
    unfold readErr at hkind
    dsimp only at hkind
    split at hkind
    · exact absurd (show "cancelled" = "outcome_unknown" from hkind) (by decide)
    · exact absurd (show "transport" = "outcome_unknown" from hkind) (by decide)

/-- **The guard is safe.** Whatever is offered to it, and whenever a stop arrives: every APDU that
reaches the card is GET RESPONSE or a STORE DATA block of a command with an allowed tag, and
`write_sent` is set when a block of a command that changes the card leaves. An error of
`write_result` says `outcome_unknown` exactly when such a block reached the card. -/
theorem guard_safe (flags : Flags) (allowed : List Nat) (offers : List Offer) :
    let s := offers.foldl Session.offer (.opened flags allowed)
    (∀ apdu writeSent before, (apdu, writeSent) :: before <:+ s.reached →
      Session.Permitted allowed (before.map Prod.fst) apdu writeSent) ∧
    ∀ reason op x data,
      (∃ failure, writeResult reason op (.error x) s.guard.writeSent data = .error failure ∧
        failure.kind = "outcome_unknown") ↔
      ∃ apdu writeSent before, (apdu, writeSent) :: before <:+ s.reached ∧
        Session.Changes (before.map Prod.fst) apdu := by
  have hs := Session.sound_offers flags allowed offers
  exact ⟨hs.permitted, fun reason op x data => (writeResult_unknown reason op x _ data).trans
    hs.changed⟩

end OpenUI.Helper
