import OpenUI.Agent.Auth
import OpenUI.Concurrency.History

/-!
# `OpenUI.Proofs.Agent.Logins`: how many wrong credentials are tried

`login_against` checks the failures of an address in one section, compares the credential, and
counts the failure in a later section. Logins in between see a count that is too low, and the
lock-out is measured on a clock that may jump. `paced` says when neither matters.

* `counted_run`: in such a run, the logins under way and the failures counted are at most five.
* `login_bounded`: at most five wrong credentials are compared between two resets, and none before
  a lock-out has lasted.
* `six_guesses`: the run in which six requests are let through at once.
-/

set_option autoImplicit false

namespace OpenUI.Agent.Auth

open OpenUI.Text OpenUI.Json OpenUI.Euicc OpenUI.Concurrency
open OpenUI.Agent.Esim (Platform)

-- The equations are stated here once, before the proofs that rewrite with them.
section
attribute [local simp] Stage.underWay exec
end

variable {P : Platform}

/-! ### The order of the sections -/

/-- Which actions a request may perform where it stands. -/
def Stage.allows (c : Stage) {β : Type} : Call β → Prop
  | .checkAttempts _ _ => c = .out
  | .compareHash ip _ _ => c = .admitted ip
  | .recordFailedLogin ip _ => c = .out ∨ c = .wrong ip
  | .clearAttempts ip => ∃ kind, c = .right ip kind
  | .openSession _ kind => c = .granted kind
  | _ => True

/-- A request starts and ends outside. -/
def regime (P : Platform) : (server P).Regime where
  ok c a := c.allows a
  facts _ _ _ := True
  pre _ c := c = .out
  fin c := c = .out

/-- What a part of a request does to where it stands. -/
abbrev Leads {α : Type} (P : Platform) (c : Stage) (p : Program Call α) : Prop :=
  (regime P).discipline.wp p (fun c' _ => c' = .out) c

theorem leads_grant (hash ip : String) (kind : CredentialKind) (now : Nat) :
    Leads P (.right ip kind) (grant P hash ip kind now) := by
  refine ⟨⟨kind, rfl⟩, fun _ _ _ => ?_⟩
  refine ⟨trivial, fun random _ _ => ?_⟩
  exact ⟨rfl, fun _ _ _ => rfl⟩

theorem leads_loginAgainst (credential ip : String) (kind : CredentialKind) :
    Leads P .out (loginAgainst P credential ip kind) := by
  refine ⟨trivial, fun now _ _ => ?_⟩
  refine ⟨rfl, fun locked _ _ => ?_⟩
  cases locked with
  | some retryAfterSecs => exact rfl
  | none =>
    refine ⟨rfl, fun compared _ _ => ?_⟩
    obtain ⟨hash, same⟩ := compared
    cases same with
    | true => exact leads_grant hash ip kind now
    | false => exact ⟨.inr rfl, fun _ _ _ => rfl⟩

theorem leads_loginPin (pin ip : String) : Leads P .out (loginPin P pin ip) := by
  unfold loginPin
  split
  · refine ⟨trivial, fun now _ _ => ?_⟩
    exact ⟨.inl rfl, fun _ _ _ => rfl⟩
  · exact leads_loginAgainst pin ip .pin

theorem leads_login (body : Option Value) (ip : String) (userAgent : Option String) :
    Leads P .out (login P body ip userAgent) := by
  cases body with
  | none => exact rfl
  | some parsed =>
    have hanswer : ∀ (answer : LoginResult → Nat × Value) {p : Program Call LoginResult},
        Leads P .out p → Leads P .out (answer <$> p) := by
      intro answer p hp
      exact ((regime P).discipline.wp_bind p _ _ _).mpr
        ((regime P).discipline.wp_mono hp fun _ _ h => h)
    unfold login
    dsimp only
    split
    · exact rfl
    · exact hanswer _ (leads_loginAgainst _ ip .password)
    · split
      · exact hanswer _ (leads_loginPin _ ip)
      · exact rfl
    · exact rfl

/-- Every request keeps the order. -/
theorem program_keeps (P : Platform) : (regime P).Bodies := by
  intro b c hc
  obtain rfl : c = .out := hc
  cases b with
  | login body ip userAgent =>
    refine ((regime P).discipline.wp_bind _ _ _ _).mpr ?_
    exact (regime P).discipline.wp_mono (leads_login body ip userAgent) fun _ _ h => h
  | validate token => exact ⟨trivial, fun _ _ _ => ⟨trivial, fun _ _ _ => rfl⟩⟩

/-! ### The bound -/

/-- The full duration of a lock-out, in milliseconds. -/
def lockoutTime : Nat := 30000

/-- How many wrong credentials of an address were compared since its entry was last removed. -/
def wrongSince (ip : String) : List Note → Nat
  | [] => 0
  | .evaluated a _ same _ :: earlier =>
    (if a = ip ∧ same = false then 1 else 0) + wrongSince ip earlier
  | .reset gone :: earlier => if gone ip then 0 else wrongSince ip earlier
  | _ :: earlier => wrongSince ip earlier

section
attribute [local simp] wrongSince
end

/-- After this note no address has had more than five wrong credentials compared. If it notes a
comparison, every lock-out set before has lasted its full duration. -/
structure Note.Bounded (n : Note) (earlier : List Note) : Prop where
  few : ∀ ip, wrongSince ip (n :: earlier) ≤ 5
  full : ∀ ip kind same t, n = .evaluated ip kind same t →
    ∀ t₀, .armed ip t₀ ∈ earlier → t₀ + lockoutTime ≤ t

/-- A lock-out of the address was set less than its full duration ago. -/
def World.lockedOut (w : World) (ip : String) : Bool :=
  w.log.any fun
    | .armed a t => a == ip && decide (w.now < t + lockoutTime)
    | _ => false

/-- The logins of an address that are under way. -/
def underWay (cs : List Stage) (ip : String) : Nat := cs.countP (Stage.underWay ip)

/-- With the logins of the address that are under way, five failures or more are counted. -/
def crowded (w : World) (cs : List Stage) (ip : String) : Bool :=
  underWay cs ip != 0 && decide (5 ≤ w.auth.failures ip + underWay cs ip)

/-- A login looks at the failures of its address, or counts a malformed PIN, only where it is not
crowded. No clock reading takes a lock-out for over, or its entry for forgotten, before its full
duration has passed. No counter wraps around. -/
def paced : Condition Call Stage World Input Outside where
  act w cs c a _ := match a with
    | .checkAttempts ip now => !crowded w cs ip && !(w.auth.expired ip now && w.lockedOut ip)
    | .recordFailedLogin ip now =>
      (c != .out || !crowded w cs ip) && decide (w.auth.failures ip + 1 < UInt32.size) &&
      w.log.all fun
        | .armed a _ => !(w.auth.forgets now a && w.lockedOut a)
        | _ => true
    | _ => true
  outside _ _ := true

/-! ### What is counted -/

/-- The login was let through; its credential is not compared yet. -/
def Stage.isAdmitted (ip : String) : Stage → Bool
  | .admitted a => a == ip
  | _ => false

section
attribute [local simp] Stage.isAdmitted
end

/-- Its credential was wrong, which is not recorded yet. -/
def Stage.isWrong (ip : String) : Stage → Bool
  | .wrong a => a == ip
  | _ => false

section
attribute [local simp] Stage.isWrong
end

/-- What the failure table, the log and the logins under way have to do with each other. -/
structure Counted (w : World) (cs : List Stage) (ip : String) : Prop where
  crowd : underWay cs ip = 0 ∨ w.auth.failures ip + underWay cs ip ≤ 5
  counted : wrongSince ip w.log ≤ w.auth.failures ip + cs.countP (Stage.isWrong ip)
  few : wrongSince ip w.log + cs.countP (Stage.isAdmitted ip) ≤ 5
  firm : ∀ t, .armed ip t ∈ w.log →
    t + lockoutTime ≤ w.now ∨ (5 ≤ w.auth.failures ip ∧ underWay cs ip = 0)

/-- A login let through or found wrong is under way. -/
theorem admitted_add_wrong_le (cs : List Stage) (ip : String) :
    cs.countP (Stage.isAdmitted ip) + cs.countP (Stage.isWrong ip) ≤ underWay cs ip := by
  induction cs with
  | nil => simp [underWay]
  | cons c cs ih =>
    simp only [underWay, List.countP_cons] at ih ⊢
    cases c with
    | out | granted => simpa [Stage.underWay, Stage.isAdmitted, Stage.isWrong] using ih
    | admitted a | wrong a | right a =>
      by_cases ha : a = ip
      · simp [Stage.underWay, Stage.isAdmitted, Stage.isWrong, ha]
        omega
      · simpa [Stage.underWay, Stage.isAdmitted, Stage.isWrong, ha] using ih

/-- An address that an action does not touch. -/
theorem Counted.frame {w w' : World} {cs cs' : List Stage} {ip : String} (h : Counted w cs ip)
    (hfailures : w'.auth.failures ip = w.auth.failures ip)
    (hwrong : wrongSince ip w'.log = wrongSince ip w.log)
    (harmed : ∀ t, .armed ip t ∈ w'.log → .armed ip t ∈ w.log) (hnow : w.now ≤ w'.now)
    (hunder : underWay cs' ip = underWay cs ip)
    (hadmitted : cs'.countP (Stage.isAdmitted ip) = cs.countP (Stage.isAdmitted ip))
    (hfound : cs'.countP (Stage.isWrong ip) = cs.countP (Stage.isWrong ip)) :
      Counted w' cs' ip := by
  constructor
  · rw [hunder, hfailures]
    exact h.crowd
  · rw [hwrong, hfailures, hfound]
    exact h.counted
  · rw [hwrong, hadmitted]
    exact h.few
  · intro t ht
    rw [hfailures, hunder]
    rcases h.firm t (harmed t ht) with hold | hlocked
    · left
      omega
    · exact .inr hlocked

/-! ### The failure table -/

namespace AuthState

variable {s : AuthState} {ip : String} {now : Nat}

theorem failures_removeFailed (gone : String → Bool) (a : String) :
    (s.removeFailed gone).failures a = if gone a then 0 else s.failures a := by
  simp only [failures, removeFailed]
  split <;> rfl

/-- A lock-out that is over was one. -/
theorem failures_of_expired (h : s.expired ip now = true) : 5 ≤ s.failures ip := by
  unfold expired at h
  unfold failures
  cases ha : s.failedLogins ip with
  | none =>
    rw [ha] at h
    cases h
  | some attempt =>
    rw [ha, Option.any_some, Bool.and_eq_true, decide_eq_true_eq] at h
    exact h.1

/-- A login is let through with fewer than five failures, if there is no lock-out that is over. -/
theorem failures_of_unlocked (hover : s.expired ip now = false) (h : s.lockedFor ip now = none) :
    s.failures ip < 5 := by
  unfold expired at hover
  unfold lockedFor at h
  unfold failures
  cases ha : s.failedLogins ip with
  | none => exact Nat.zero_lt_succ 4
  | some attempt =>
    rw [ha] at hover h
    show attempt.count.toNat < 5
    by_contra hfive
    have hcount : maxLoginAttempts ≤ attempt.count := by
      show 5 ≤ attempt.count.toNat
      omega
    by_cases hnow : now < attempt.lockedUntil
    · simp [hcount, hnow] at h
    · simp [hcount, Nat.not_lt.mp hnow] at hover

/-- What a recorded failure makes of the counts. -/
theorem failures_recordFailedLogin (hwrap : s.failures ip + 1 < UInt32.size) (a : String) :
    (s.recordFailedLogin ip now).failures a =
      (if s.forgets now a then 0 else s.failures a) + if a = ip then 1 else 0 := by
  have hkept : ∀ b, (s.removeFailed (s.forgets now)).failures b =
      if s.forgets now b then 0 else s.failures b := failures_removeFailed _
  rw [← hkept a]
  by_cases ha : a = ip
  · subst ha
    have hle : (s.removeFailed (s.forgets now)).failures a + 1 < UInt32.size := by
      rw [hkept]
      split <;> omega
    unfold failures at hle ⊢
    simp only [recordFailedLogin, entry, LoginAttempt.failed, if_true, Option.elim_some]
    cases hb : (s.removeFailed (s.forgets now)).failedLogins a with
    | none => rfl
    | some attempt =>
      rw [hb] at hle
      exact Nat.mod_eq_of_lt hle
  · rw [if_neg ha, Nat.add_zero]
    simp [recordFailedLogin, failures, ha]

/-- A failure arms the lock-out when five are counted. -/
theorem armed_iff :
    maxLoginAttempts ≤ ((s.recordFailedLogin ip now).entry ip now).count ↔
      5 ≤ (s.recordFailedLogin ip now).failures ip := by
  simp only [entry, failures, recordFailedLogin, if_true, Option.getD_some, Option.elim_some]
  exact UInt32.le_iff_toNat_le

end AuthState

/-! ### One action -/

section Actions

variable {w w' : World} {cs : List Stage} {i : Nat} {ip : String} {now : Nat} {e : Input}

/-- The census after an action of the request at `i`. -/
theorem census {c : Stage} (hc : cs[i]? = some c) (c' : Stage) (p : Stage → Bool) :
    (cs.set i c' ++ []).countP p + (p c).toNat = cs.countP p + (p c').toNat := by
  have h := Pool.countP_update p c' [] hc
  rw [List.countP_nil, Nat.add_zero] at h
  cases hold : p c <;> cases hnew : p c' <;> simpa [hold, hnew] using h

/-- An address that is not the request's own. -/
theorem Counted.other {a : String} {c c' : Stage} (h : Counted w cs a) (hc : cs[i]? = some c)
    (hold : c.underWay a = false ∧ c.isAdmitted a = false ∧ c.isWrong a = false)
    (hnew : c'.underWay a = false ∧ c'.isAdmitted a = false ∧ c'.isWrong a = false)
    (hfailures : w'.auth.failures a = w.auth.failures a)
    (hwrong : wrongSince a w'.log = wrongSince a w.log)
    (harmed : ∀ t, .armed a t ∈ w'.log → .armed a t ∈ w.log) (hnow : w.now ≤ w'.now) :
    Counted w' (cs.set i c' ++ []) a := by
  obtain ⟨hunder, hadmitted, hfound⟩ := hold
  obtain ⟨hunder', hadmitted', hfound'⟩ := hnew
  refine h.frame hfailures hwrong harmed hnow ?_ ?_ ?_
  · simpa [underWay, hunder, hunder'] using census hc c' (Stage.underWay a)
  · simpa [hadmitted, hadmitted'] using census hc c' (Stage.isAdmitted a)
  · simpa [hfound, hfound'] using census hc c' (Stage.isWrong a)

theorem crowded_eq_false (h : crowded w cs ip = false) :
    underWay cs ip = 0 ∨ w.auth.failures ip + underWay cs ip < 5 := by
  simp only [crowded, Bool.and_eq_false_iff, bne_eq_false_iff_eq, decide_eq_false_iff_not] at h
  omega

theorem lockedOut_eq_false (h : w.lockedOut ip = false) {t : Nat} (ht : .armed ip t ∈ w.log) :
    t + lockoutTime ≤ w.now := by
  have hn := List.any_eq_false.mp h _ ht
  simp only [beq_self_eq_true, Bool.true_and, decide_eq_true_eq] at hn
  omega

/-- A login that is let through. The table either has no lock-out or one that is over. -/
theorem counted_admitted {auth : AuthState} {log : List Note} (h : ∀ a, Counted w cs a)
    (hc : cs[i]? = some .out)
    (hfailures : ∀ a, a ≠ ip → auth.failures a = w.auth.failures a)
    (hlog : ∀ a, a ≠ ip → wrongSince a log = wrongSince a w.log)
    (harmed : ∀ a t, .armed a t ∈ log → .armed a t ∈ w.log)
    (hroom : auth.failures ip + underWay cs ip < 5)
    (hcounted : wrongSince ip log ≤ auth.failures ip + cs.countP (Stage.isWrong ip))
    (hlasted : ∀ t, .armed ip t ∈ log → t + lockoutTime ≤ w.now) (a : String) :
    Counted { w with auth, log } (cs.set i (.admitted ip) ++ []) a := by
  by_cases ha : ip = a
  · subst ha
    have hunder := census hc (.admitted ip) (Stage.underWay ip)
    have hadmitted := census hc (.admitted ip) (Stage.isAdmitted ip)
    have hfound := census hc (.admitted ip) (Stage.isWrong ip)
    simp only [Stage.underWay, Stage.isAdmitted, Stage.isWrong, beq_self_eq_true, Bool.toNat_true,
      Bool.toNat_false, Nat.add_zero] at hunder hadmitted hfound
    have hparts := admitted_add_wrong_le cs ip
    unfold underWay at hroom hparts
    constructor
    · right
      show auth.failures ip + _ ≤ 5
      unfold underWay
      omega
    · show wrongSince ip log ≤ auth.failures ip + _
      omega
    · show wrongSince ip log + _ ≤ 5
      omega
    · exact fun t ht => .inl (hlasted t ht)
  · have hne : (ip == a) = false := by simpa using ha
    have hother : a ≠ ip := fun h => ha h.symm
    exact (h a).other hc ⟨rfl, rfl, rfl⟩ ⟨hne, hne, rfl⟩ (hfailures a hother) (hlog a hother)
      (harmed a) le_rfl

/-- A comparison. -/
theorem counted_compared (h : ∀ a, Counted w cs a) (hc : cs[i]? = some (.admitted ip))
    (kind : CredentialKind) (same : Bool) (a : String) :
    Counted (w.note [.evaluated ip kind same w.now] w.auth)
      (cs.set i (if same then .right ip kind else .wrong ip) ++ []) a := by
  have harmed : ∀ t, .armed a t ∈ .evaluated ip kind same w.now :: w.log → .armed a t ∈ w.log := by
    intro t ht
    simpa using ht
  generalize hnew : (if same then Stage.right ip kind else .wrong ip) = c'
  have hstage : ∀ b, c'.underWay b = (ip == b) ∧ c'.isAdmitted b = false ∧
      c'.isWrong b = (ip == b && !same) := by
    intro b
    subst hnew
    cases same <;> simp [Stage.underWay, Stage.isAdmitted, Stage.isWrong]
  obtain ⟨hunder', hadmitted', hfound'⟩ := hstage a
  by_cases ha : ip = a
  · subst ha
    obtain ⟨hcrowd, hcounted, hfew, hfirm⟩ := h ip
    have hunder := census hc c' (Stage.underWay ip)
    have hadmitted := census hc c' (Stage.isAdmitted ip)
    have hfound := census hc c' (Stage.isWrong ip)
    rw [hunder'] at hunder
    rw [hadmitted'] at hadmitted
    rw [hfound'] at hfound
    simp only [Stage.underWay, Stage.isAdmitted, Stage.isWrong, beq_self_eq_true, Bool.toNat_true,
      Bool.toNat_false, Nat.add_zero, Bool.true_and] at hunder hadmitted hfound
    have hwrong : wrongSince ip (.evaluated ip kind same w.now :: w.log) =
        (!same).toNat + wrongSince ip w.log := by
      cases same <;> simp [wrongSince]
    have hone : (!same).toNat ≤ 1 := Bool.toNat_le _
    have hparts := admitted_add_wrong_le cs ip
    unfold underWay at hcrowd hfirm hparts
    constructor
    · show underWay _ _ = 0 ∨ w.auth.failures ip + underWay _ _ ≤ 5
      unfold underWay
      omega
    · show wrongSince ip (_ :: w.log) ≤ w.auth.failures ip + _
      omega
    · show wrongSince ip (_ :: w.log) + _ ≤ 5
      omega
    · intro t ht
      -- The login compared is under way, so no lock-out is in force.
      left
      show t + lockoutTime ≤ w.now
      rcases hfirm t (harmed t ht) with hlasted | hlocked <;> omega
  · have hne : (ip == a) = false := by simpa using ha
    rw [hne] at hunder' hfound'
    refine (h a).other hc ⟨hne, hne, rfl⟩ ⟨hunder', hadmitted', hfound'⟩ rfl ?_ harmed le_rfl
    simp [World.note, wrongSince, ha]

/-- A comparison comes after the lock-outs, and with room for it. -/
theorem bounded_compared (h : ∀ a, Counted w cs a) (hlog : Each Note.Bounded w.log)
    (hc : cs[i]? = some (.admitted ip)) (kind : CredentialKind) (same : Bool) :
    Each Note.Bounded (.evaluated ip kind same w.now :: w.log) := by
  have hthere : 0 < cs.countP (Stage.isAdmitted ip) :=
    List.countP_pos_iff.mpr ⟨_, List.mem_of_getElem? hc, beq_self_eq_true ip⟩
  refine hlog.cons ⟨fun a => ?_, ?_⟩
  · have hfew := (h a).few
    by_cases ha : ip = a
    · subst ha
      simp only [wrongSince]
      split <;> omega
    · simp only [wrongSince, ha, false_and, if_false]
      omega
  · intro a kind' same' t heq t₀ ht₀
    cases heq
    have hparts := admitted_add_wrong_le cs ip
    rcases (h ip).firm t₀ ht₀ with hlasted | ⟨-, hnone⟩
    · exact hlasted
    · omega

/-- What recording a failure leaves in the log, the latest first. -/
def recorded (w : World) (ip : String) (now : Nat) : List Note :=
  (if 5 ≤ (w.auth.recordFailedLogin ip now).failures ip then [.armed ip w.now] else []) ++
    [.reset (w.auth.forgets now)]

theorem exec_recordFailedLogin (c : Stage) :
    exec P (.recordFailedLogin ip now) c e w =
      some ((), w.note (recorded w ip now) (w.auth.recordFailedLogin ip now)) := by
  simp only [exec, recorded, AuthState.armed_iff]

theorem wrongSince_recorded (a : String) :
    wrongSince a (recorded w ip now ++ w.log) =
      if w.auth.forgets now a then 0 else wrongSince a w.log := by
  unfold recorded
  split <;> rfl

theorem mem_recorded {a : String} {t : Nat} (h : .armed a t ∈ recorded w ip now ++ w.log) :
    .armed a t ∈ w.log ∨
      a = ip ∧ t = w.now ∧ 5 ≤ (w.auth.recordFailedLogin ip now).failures ip := by
  unfold recorded at h
  split at h
  · simp only [List.cons_append, List.nil_append, List.mem_cons, Note.armed.injEq, reduceCtorEq,
      false_or] at h
    rcases h with ⟨rfl, rfl⟩ | h
    · exact .inr ⟨rfl, rfl, ‹_›⟩
    · exact .inl h
  · left
    simpa using h

/-- A failure that is recorded, of a login under way or of a malformed PIN. -/
theorem counted_recorded {c : Stage} (h : ∀ a, Counted w cs a) (hc : cs[i]? = some c)
    (hfrom : c = .out ∧ crowded w cs ip = false ∨ c = .wrong ip)
    (hwrap : w.auth.failures ip + 1 < UInt32.size)
    (hforgets : ∀ a t, .armed a t ∈ w.log → w.auth.forgets now a = true → w.lockedOut a = false)
    (a : String) :
    Counted (w.note (recorded w ip now) (w.auth.recordFailedLogin ip now))
      (cs.set i .out ++ []) a := by
  have hfailures : (w.auth.recordFailedLogin ip now).failures a =
      (if w.auth.forgets now a then 0 else w.auth.failures a) + if a = ip then 1 else 0 :=
    AuthState.failures_recordFailedLogin hwrap a
  have hwrong : wrongSince a (recorded w ip now ++ w.log) =
      if w.auth.forgets now a then 0 else wrongSince a w.log := wrongSince_recorded a
  obtain ⟨hcrowd, hcounted, hfew, hfirm⟩ := h a
  -- A lock-out that is forgotten has lasted.
  have hkept : ∀ t, .armed a t ∈ w.log → w.auth.forgets now a = true → t + lockoutTime ≤ w.now :=
    fun t ht hgone => lockedOut_eq_false (hforgets a t ht hgone) ht
  have hunder := census hc .out (Stage.underWay a)
  have hadmitted := census hc .out (Stage.isAdmitted a)
  have hfound := census hc .out (Stage.isWrong a)
  by_cases ha : ip = a
  · subst ha
    rw [if_pos rfl] at hfailures
    -- Where five failures are counted then, no other login is under way.
    have hroom : (cs.set i .out ++ []).countP (Stage.underWay ip) = 0 ∨
        w.auth.failures ip + 1 + (cs.set i .out ++ []).countP (Stage.underWay ip) ≤ 5 := by
      unfold underWay at hcrowd
      rcases hfrom with ⟨rfl, hfree⟩ | rfl
      · have hfree := crowded_eq_false hfree
        simp only [Stage.underWay, Bool.toNat_false, Nat.add_zero] at hunder
        unfold underWay at hfree
        omega
      · simp only [Stage.underWay, beq_self_eq_true, Bool.toNat_true, Bool.toNat_false] at hunder
        omega
    have hsettled : (cs.set i .out ++ []).countP (Stage.underWay ip) ≤ underWay cs ip ∧
        (cs.set i .out ++ []).countP (Stage.isAdmitted ip) = cs.countP (Stage.isAdmitted ip) ∧
        cs.countP (Stage.isWrong ip) ≤ (cs.set i .out ++ []).countP (Stage.isWrong ip) + 1 := by
      unfold underWay
      rcases hfrom with ⟨rfl, -⟩ | rfl <;>
      · simp only [Stage.underWay, Stage.isAdmitted, Stage.isWrong, beq_self_eq_true,
          Bool.toNat_true, Bool.toNat_false] at hunder hadmitted hfound
        omega
    obtain ⟨hless, hsame, hone⟩ := hsettled
    constructor
    · show underWay _ _ = 0 ∨ (w.auth.recordFailedLogin ip now).failures ip + underWay _ _ ≤ 5
      unfold underWay
      split at hfailures <;> omega
    · show wrongSince ip (recorded w ip now ++ w.log) ≤
        (w.auth.recordFailedLogin ip now).failures ip + _
      by_cases hgone : w.auth.forgets now ip = true
      · rw [if_pos hgone] at hwrong
        omega
      · rw [if_neg hgone] at hwrong hfailures
        omega
    · show wrongSince ip (recorded w ip now ++ w.log) + _ ≤ 5
      split at hwrong <;> omega
    · intro t ht
      show t + lockoutTime ≤ w.now ∨ 5 ≤ (w.auth.recordFailedLogin ip now).failures ip ∧
        (cs.set i .out ++ []).countP (Stage.underWay ip) = 0
      rcases mem_recorded ht with hold | ⟨-, rfl, hfive⟩
      · by_cases hgone : w.auth.forgets now ip = true
        · exact .inl (hkept t hold hgone)
        · rw [if_neg hgone] at hfailures
          rcases hfirm t hold with hlasted | hlocked
          · exact .inl hlasted
          · right
            omega
      · right
        split at hfailures <;> omega
  · have hne : (ip == a) = false := by simpa using ha
    have hother : ¬a = ip := fun h => ha h.symm
    rw [if_neg hother, Nat.add_zero] at hfailures
    have hsettled : (cs.set i .out ++ []).countP (Stage.underWay a) = underWay cs a ∧
        (cs.set i .out ++ []).countP (Stage.isAdmitted a) = cs.countP (Stage.isAdmitted a) ∧
        (cs.set i .out ++ []).countP (Stage.isWrong a) = cs.countP (Stage.isWrong a) := by
      unfold underWay
      rcases hfrom with ⟨rfl, -⟩ | rfl <;>
      · simp only [Stage.underWay, Stage.isAdmitted, Stage.isWrong, hne, Bool.toNat_false,
          Nat.add_zero] at hunder hadmitted hfound
        exact ⟨hunder, hadmitted, hfound⟩
    obtain ⟨hunder, hadmitted, hfound⟩ := hsettled
    by_cases hgone : w.auth.forgets now a = true
    · rw [if_pos hgone] at hwrong hfailures
      constructor
      · show underWay _ _ = 0 ∨ (w.auth.recordFailedLogin ip now).failures a + underWay _ _ ≤ 5
        unfold underWay at hcrowd hunder ⊢
        omega
      · show wrongSince a (recorded w ip now ++ w.log) ≤ _
        omega
      · show wrongSince a (recorded w ip now ++ w.log) + _ ≤ 5
        omega
      · intro t ht
        rcases mem_recorded ht with hold | ⟨hip, -⟩
        · exact .inl (hkept t hold hgone)
        · exact absurd hip hother
    · rw [if_neg hgone] at hwrong hfailures
      refine (h a).frame hfailures hwrong ?_ le_rfl hunder hadmitted hfound
      intro t ht
      rcases mem_recorded ht with hold | ⟨hip, -⟩
      · exact hold
      · exact absurd hip hother

/-- The failures of an address are cleared. -/
theorem counted_cleared {kind : CredentialKind} (h : ∀ a, Counted w cs a)
    (hc : cs[i]? = some (.right ip kind)) (a : String) :
    Counted (w.note [.reset (· == ip)] (w.auth.removeFailed (· == ip)))
      (cs.set i (.granted kind) ++ []) a := by
  have harmed : ∀ t, .armed a t ∈ .reset (· == ip) :: w.log → .armed a t ∈ w.log := by
    intro t ht
    simpa using ht
  have hfailures : (w.auth.removeFailed (· == ip)).failures a =
      if a == ip then 0 else w.auth.failures a := AuthState.failures_removeFailed _ a
  by_cases ha : ip = a
  · subst ha
    rw [if_pos (beq_self_eq_true ip)] at hfailures
    obtain ⟨hcrowd, hcounted, hfew, hfirm⟩ := h ip
    have hunder := census hc (.granted kind) (Stage.underWay ip)
    have hadmitted := census hc (.granted kind) (Stage.isAdmitted ip)
    have hfound := census hc (.granted kind) (Stage.isWrong ip)
    simp only [Stage.underWay, Stage.isAdmitted, Stage.isWrong, beq_self_eq_true, Bool.toNat_true,
      Bool.toNat_false, Nat.add_zero] at hunder hadmitted hfound
    have hparts := admitted_add_wrong_le cs ip
    have hwrong : wrongSince ip (.reset (· == ip) :: w.log) = 0 := if_pos (beq_self_eq_true ip)
    unfold underWay at hcrowd hfirm hparts
    constructor
    · show underWay _ _ = 0 ∨ (w.auth.removeFailed (· == ip)).failures ip + underWay _ _ ≤ 5
      unfold underWay
      omega
    · show wrongSince ip (.reset (· == ip) :: w.log) ≤ _
      omega
    · show wrongSince ip (.reset (· == ip) :: w.log) + _ ≤ 5
      omega
    · intro t ht
      left
      show t + lockoutTime ≤ w.now
      rcases hfirm t (harmed t ht) with hlasted | hlocked <;> omega
  · have hne : (ip == a) = false := by simpa using ha
    have hne' : (a == ip) = false := by simpa using fun h : a = ip => ha h.symm
    rw [hne'] at hfailures
    refine (h a).other hc ⟨hne, rfl, rfl⟩ ⟨rfl, rfl, rfl⟩ hfailures ?_ harmed le_rfl
    show (if a == ip then 0 else _) = _
    rw [hne']
    rfl

end Actions

/-! ### Every run -/

/-- Notes that are neither comparisons, resets nor lock-outs. -/
def Note.isSession : Note → Bool
  | .issued _ _ _ | .used _ _ _ | .evicted _ => true
  | _ => false

theorem wrongSince_sessions (ip : String) {notes : List Note} (h : ∀ n ∈ notes, n.isSession = true)
    (log : List Note) : wrongSince ip (notes ++ log) = wrongSince ip log := by
  induction notes with
  | nil => rfl
  | cons n notes ih =>
    rw [List.cons_append, ← ih fun n' h' => h n' (List.mem_cons_of_mem _ h')]
    have hn := h n List.mem_cons_self
    cases n with
    | issued | used | evicted => rfl
    | evaluated | reset | armed => cases hn

theorem armed_of_sessions {ip : String} {t : Nat} {notes log : List Note}
    (h : ∀ n ∈ notes, n.isSession = true) (ht : .armed ip t ∈ notes ++ log) :
      .armed ip t ∈ log := by
  rcases List.mem_append.mp ht with hnew | hold
  · cases h _ hnew
  · exact hold

/-- A note that is not a comparison asks for nothing. -/
theorem Note.Bounded.of_le {n : Note} {earlier : List Note}
    (hn : ∀ ip kind same t, n ≠ .evaluated ip kind same t)
    (hle : ∀ ip, wrongSince ip (n :: earlier) ≤ wrongSince ip earlier)
    (hfew : ∀ ip, wrongSince ip earlier ≤ 5) : n.Bounded earlier where
  few ip := (hle ip).trans (hfew ip)
  full _ _ _ _ h := absurd h (hn _ _ _ _)

theorem bounded_sessions {notes log : List Note} (h : ∀ n ∈ notes, n.isSession = true)
    (hfew : ∀ ip, wrongSince ip log ≤ 5) (hlog : Each Note.Bounded log) :
    Each Note.Bounded (notes ++ log) := by
  induction notes with
  | nil => exact hlog
  | cons n notes ih =>
    have hrest := fun n' h' => h n' (List.mem_cons_of_mem _ h')
    refine (ih hrest).cons (.of_le ?_ ?_ ?_)
    · rintro ip kind same t rfl
      cases h _ List.mem_cons_self
    · intro ip
      have hfirst : ∀ n' ∈ [n], n'.isSession = true := by
        intro n' h'
        rw [List.mem_singleton.mp h']
        exact h n List.mem_cons_self
      exact (wrongSince_sessions ip hfirst (notes ++ log)).le
    · intro ip
      rw [wrongSince_sessions ip hrest]
      exact hfew ip

/-- What every paced run keeps. -/
structure Tallied (w : World) (cs : List Stage) : Prop where
  counted : ∀ ip, Counted w cs ip
  bounded : Each Note.Bounded w.log

theorem Tallied.few {w : World} {cs : List Stage} (h : Tallied w cs) (ip : String) :
    wrongSince ip w.log ≤ 5 :=
  (Nat.le_add_right _ _).trans (h.counted ip).few

/-- Removing entries asks for nothing. -/
theorem Tallied.reset {w : World} {cs : List Stage} (h : Tallied w cs) (gone : String → Bool) :
    Each Note.Bounded (.reset gone :: w.log) := by
  refine h.bounded.cons (.of_le (fun _ _ _ _ => by simp) (fun ip => ?_) h.few)
  show (if gone ip then 0 else _) ≤ _
  split
  · exact Nat.zero_le _
  · exact le_rfl

/-- An action on the sessions leaves the failures and the logins under way alone. -/
theorem Tallied.session {w : World} {cs cs' : List Stage} (h : Tallied w cs) {auth : AuthState}
    {notes : List Note} (hfailures : auth.failedLogins = w.auth.failedLogins)
    (hnotes : ∀ n ∈ notes, n.isSession = true)
    (hcs : ∀ ip, underWay cs' ip = underWay cs ip ∧
      cs'.countP (Stage.isAdmitted ip) = cs.countP (Stage.isAdmitted ip) ∧
      cs'.countP (Stage.isWrong ip) = cs.countP (Stage.isWrong ip)) :
    Tallied (w.note notes auth) cs' where
  counted ip := by
    obtain ⟨hunder, hadmitted, hfound⟩ := hcs ip
    refine (h.counted ip).frame ?_ (wrongSince_sessions ip hnotes w.log)
      (fun _ => armed_of_sessions hnotes) le_rfl hunder hadmitted hfound
    show (auth.failedLogins ip).elim 0 _ = _
    rw [hfailures]
    rfl
  bounded := bounded_sessions hnotes h.few h.bounded

/-- Every action a request may perform keeps it, if it is paced. -/
theorem tallied_act {β : Type} {w w' : World} {cs : List Stage} {i : Nat} {c : Stage}
    {call : Call β} {e : Input} {r : β} (h : Tallied w cs) (hc : cs[i]? = some c)
    (hok : c.allows call) (hK : paced.act w cs c call e = true)
    (he : exec P call c e w = some (r, w')) :
    Tallied w' (cs.set i (c.after call r) ++ []) := by
  have hquiet : Tallied w (cs.set i c ++ []) := by
    rw [Pool.set_self hc]
    exact h
  cases call with
  | epochSecs | instantNow | urandom =>
    cases he
    exact hquiet
  | checkAttempts ip now =>
    obtain rfl : c = .out := hok
    simp only [paced, Bool.and_eq_true, Bool.not_eq_true', Bool.and_eq_false_imp] at hK
    obtain ⟨hfree, hover⟩ := hK
    have hroom := crowded_eq_false hfree
    obtain ⟨hcrowd, hcounted, hfew, hfirm⟩ := h.counted ip
    have hparts := admitted_add_wrong_le cs ip
    simp only [exec] at he
    split at he
    · rename_i hexpired
      cases he
      have hfive := AuthState.failures_of_expired hexpired
      have hcleared : ∀ a, (w.auth.removeFailed (· == ip)).failures a =
          if a == ip then 0 else w.auth.failures a := AuthState.failures_removeFailed _
      have hip := hcleared ip
      rw [if_pos (beq_self_eq_true ip)] at hip
      refine ⟨counted_admitted h.counted hc ?_ ?_ ?_ ?_ ?_ ?_, h.reset _⟩
      · intro a ha
        rw [hcleared, if_neg (by simpa using ha)]
      · intro a ha
        exact if_neg (by simpa using ha)
      · intro a t ht
        simpa using ht
      · omega
      · show (if ip == ip then 0 else _) ≤ _
        rw [if_pos (beq_self_eq_true ip)]
        exact Nat.zero_le _
      · intro t ht
        exact lockedOut_eq_false (hover hexpired) (by simpa using ht)
    · rename_i hexpired
      cases hlocked : w.auth.lockedFor ip now with
      | some seconds =>
        rw [hlocked] at he
        cases he
        exact hquiet
      | none =>
        rw [hlocked] at he
        cases he
        have hfour := AuthState.failures_of_unlocked (by simpa using hexpired) hlocked
        refine ⟨counted_admitted h.counted hc (fun _ _ => rfl) (fun _ _ => rfl) (fun _ _ => id) ?_
          hcounted ?_, h.bounded⟩
        · omega
        · intro t ht
          rcases hfirm t ht with hlasted | hlocked <;> omega
  | compareHash ip kind credential =>
    obtain rfl : c = .admitted ip := hok
    cases he
    exact ⟨counted_compared h.counted hc kind _, bounded_compared h.counted h.bounded hc kind _⟩
  | recordFailedLogin ip now =>
    simp only [paced, Bool.and_eq_true, Bool.or_eq_true, bne_iff_ne, Bool.not_eq_true',
      decide_eq_true_eq, List.all_eq_true] at hK
    obtain ⟨⟨hfree, hwrap⟩, hforgets⟩ := hK
    have hfrom : c = .out ∧ crowded w cs ip = false ∨ c = .wrong ip := by
      rcases hok with rfl | rfl
      · left
        exact ⟨rfl, hfree.resolve_left fun h => h rfl⟩
      · exact .inr rfl
    have hlasted : ∀ a t, .armed a t ∈ w.log → w.auth.forgets now a = true →
        w.lockedOut a = false := by
      intro a t ht hgone
      simpa [hgone] using hforgets _ ht
    rw [exec_recordFailedLogin] at he
    cases he
    refine ⟨counted_recorded h.counted hc hfrom hwrap hlasted, ?_⟩
    have hreset := h.reset (w.auth.forgets now)
    show Each Note.Bounded (recorded w ip now ++ w.log)
    unfold recorded
    split
    · refine hreset.cons (.of_le (fun _ _ _ _ => by simp) (fun _ => le_rfl) fun a => ?_)
      show (if w.auth.forgets now a then 0 else _) ≤ 5
      split
      · exact Nat.zero_le 5
      · exact h.few a
    · exact hreset
  | clearAttempts ip =>
    obtain ⟨kind, rfl⟩ := hok
    cases he
    exact ⟨counted_cleared h.counted hc, h.reset _⟩
  | openSession value kind =>
    obtain rfl : c = .granted kind := hok
    cases he
    refine h.session rfl ?_ fun ip => ?_
    · intro n hn
      rcases List.mem_cons.mp hn with rfl | hn
      · rfl
      · obtain ⟨t, -, rfl⟩ := List.mem_map.mp hn
        rfl
    · have hunder := census hc .out (Stage.underWay ip)
      have hadmitted := census hc .out (Stage.isAdmitted ip)
      have hfound := census hc .out (Stage.isWrong ip)
      exact ⟨Nat.add_right_cancel hunder, Nat.add_right_cancel hadmitted,
        Nat.add_right_cancel hfound⟩
  | findSession token now =>
    cases he
    refine h.session rfl ?_ fun ip => ?_
    · intro n hn
      obtain ⟨t, -, rfl⟩ := List.mem_map.mp hn
      rfl
    · show underWay (cs.set i c ++ []) ip = _ ∧ (cs.set i c ++ []).countP _ = _ ∧
        (cs.set i c ++ []).countP _ = _
      rw [Pool.set_self hc]
      exact ⟨rfl, rfl, rfl⟩

/-- Where the agent has just started, nothing is counted. -/
theorem tallied_start {auth : AuthState} (hauth : auth.failedLogins = fun _ => none) :
    Tallied { auth } [] where
  counted ip := by
    have hnone : auth.failures ip = 0 := by
      unfold AuthState.failures
      rw [hauth]
      rfl
    exact ⟨.inl rfl, Nat.zero_le _, Nat.zero_le 5, fun t ht => absurd ht List.not_mem_nil⟩
  bounded := trivial

/-- The states of paced runs. -/
theorem tallied_run {auth : AuthState} (hauth : auth.failedLogins = fun _ => none)
    {s : State Call Stage World Body} (h : (server P).Run paced (start auth) s) :
    Tallied s.world s.ctxs := by
  refine (Machine.sound (regime P) (program_keeps P) (I := Tallied) ?_ ?_ (tallied_start hauth)
    (fun _ ht => absurd ht List.not_mem_nil) h).1
  · intro β w w' cs i c call e r hI hc hok hK he
    exact ⟨trivial, fun _ h => absurd h List.not_mem_nil, tallied_act hI hc hok hK he⟩
  · intro w cs x o hI _ ho
    cases x with
    | request body =>
      cases ho
      refine ⟨fun bc hbc => ?_, ?_⟩
      · obtain rfl := List.mem_singleton.mp hbc
        rfl
      · have hcs : ∀ p : Stage → Bool, p .out = false →
            (cs ++ [Stage.out]).countP p = cs.countP p := by
          intro p hp
          simp [List.countP_append, hp]
        exact hI.session rfl (fun n hn => absurd hn List.not_mem_nil)
          fun ip => ⟨hcs _ rfl, hcs _ rfl, hcs _ rfl⟩
    | wait duration =>
      cases ho
      refine ⟨fun bc hbc => absurd hbc List.not_mem_nil, ?_⟩
      show Tallied _ (cs ++ [])
      rw [List.append_nil]
      refine ⟨fun ip => ?_, hI.bounded⟩
      exact (hI.counted ip).frame rfl rfl (fun _ => id) (Nat.le_add_right _ _) rfl rfl rfl

/-- The agent starts without sessions and failures. -/
theorem started_eq (P : Platform) (salt : Bytes) (password pin : Option String) :
    ∃ passwordHash pinHash, AuthState.started P salt password pin =
      { passwordHash, pinHash, salt } := by
  unfold AuthState.started
  cases password with
  | none =>
    cases pin with
    | none => exact ⟨none, none, rfl⟩
    | some pin =>
      dsimp only [Option.elim, AuthState.setPin]
      cases validatePin pin <;> exact ⟨_, _, rfl⟩
  | some password =>
    cases pin with
    | none => exact ⟨_, none, rfl⟩
    | some pin =>
      dsimp only [Option.elim, AuthState.setPin]
      cases validatePin pin <;> exact ⟨_, _, rfl⟩

/-- **The bound on logins.** In every run whose steps are paced, every address has at most five
wrong credentials compared between two resets of its counter, and no credential of an address is
compared before a lock-out that was set has lasted for its full duration. -/
theorem login_bounded (P : Platform) (salt : Bytes) (password pin : Option String)
    {s : State Call Stage World Body}
    (h : (server P).Run paced (start (.started P salt password pin)) s) :
    Each Note.Bounded s.world.log := by
  obtain ⟨passwordHash, pinHash, hstarted⟩ := started_eq P salt password pin
  rw [hstarted] at h
  exact (tallied_run rfl h).bounded

namespace Guessing

/-- The guesser's address. -/
def address : String := "192.168.0.42"

/-- A request with a wrong PIN, from a phone. -/
def guess : Event Input Outside :=
  .outside (.request (.login (some (.obj [("pin", .str "000000")])) address (some "Android")))

/-- A turn of one request. The wall clock shows `clock`. -/
def turn (clock i : Nat) : Event Input Outside := .thread i { clock }

/-- One guess after the other, from the request to the recorded failure. -/
def inTurn (clock i : Nat) : List (Event Input Outside) := guess :: List.replicate 4 (turn clock i)

/-- Five guesses; then half a minute passes, and a sixth is let through. -/
def patient : List (Event Input Outside) :=
  (List.range 5).flatMap (inTurn 1000) ++
    [.outside (.wait 30000), guess, turn 1030 5, turn 1030 5, turn 1030 5]

/-- Six guesses look at the counter, one after the other; then five are compared and recorded, and
then the sixth is compared. -/
def hasty : List (Event Input Outside) :=
  List.replicate 6 guess ++ (List.range 6).map (turn 1000) ++ (List.range 6).map (turn 1000) ++
    (List.range 5).flatMap (fun i => [turn 1000 i, turn 1000 i]) ++ [turn 1000 5]

/-- Some digest; no PIN is set, so no guess depends on it. -/
def digest : Platform := ⟨fun _ => List.replicate 32 0, fun _ => List.length_replicate⟩

/-- The agent before the guesses. -/
def fresh : State Call Stage World Body := start (.started digest [] (some "secret") none)

end Guessing

open Guessing in
/-- Patient guessing: five wrong PINs, then the lock-out, then a sixth. -/
theorem login_bounded_sample : ∃ s, (server digest).Run paced fresh s ∧ s.world.now = 30000 ∧
    wrongSince address (s.world.log.drop 2) = 5 ∧ wrongSince address s.world.log = 1 ∧
    Each Note.Bounded s.world.log := by
  have hrun : ((server digest).run paced fresh patient).any (fun s => decide (s.world.now = 30000 ∧
      wrongSince address (s.world.log.drop 2) = 5 ∧ wrongSince address s.world.log = 1)) =
        true := by
    decide +kernel
  obtain ⟨s, hs, hp⟩ := Machine.Run.exists_of_run hrun
  obtain ⟨hnow, hfive, hone⟩ := of_decide_eq_true hp
  exact ⟨s, hs, hnow, hfive, hone, login_bounded digest [] (some "secret") none hs⟩

open Guessing in
/-- Hasty guessing: six wrong PINs are compared in a row, the last of them after the lock-out is
set. -/
theorem six_guesses : ¬ ∀ (P : Platform) (salt : Bytes) (password pin : Option String) s,
    (server P).Run .any (start (.started P salt password pin)) s →
      Each Note.Bounded s.world.log := by
  intro hclaim
  have hrun : ((server digest).run .any fresh hasty).any
      (fun s => decide (5 < wrongSince address s.world.log)) = true := by
    decide +kernel
  obtain ⟨s, hs, hp⟩ := Machine.Run.exists_of_run hrun
  have hsix : 5 < wrongSince address s.world.log := of_decide_eq_true hp
  have hbounded := hclaim digest [] (some "secret") none s hs
  cases hlog : s.world.log with
  | nil =>
    rw [hlog] at hsix
    exact absurd hsix (Nat.not_lt_zero 5)
  | cons n earlier =>
    rw [hlog] at hsix hbounded
    exact absurd (hbounded.1.few address) (Nat.not_le.mpr hsix)

end OpenUI.Agent.Auth
