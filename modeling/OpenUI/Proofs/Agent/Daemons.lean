import OpenUI.Agent.Daemons
import OpenUI.Proofs.Text
import Mathlib.Data.List.Chain

/-!
# `OpenUI.Proofs.Agent.Daemons`: whom the signals reach

A process is signalled because of the name it had when it was looked at (`collect_read`). Between
that and the signal the agent looks at the processes that come later, and signals those that come
earlier. `only_optional_signalled_iff` says for which requests nothing can come between: those in
which a PID that may exist is followed by nothing but itself.
-/

set_option autoImplicit false

namespace OpenUI.Agent.Daemons

open OpenUI.Text OpenUI.Agent.Cell

/-! ### The two loops -/

/-- A target was looked at by one of the accesses, and had the name then. -/
theorem collect_read {e : Evolution} {wanted : String → Bool} {n : Nat} {pids : List UInt32}
    {t : Target} (h : t ∈ collect e wanted n pids) :
    ∃ i, pids[i]? = some t.pid ∧
      readProcNameRss (e.table (n + i)) t.pid = some (t.name, t.rssKb) := by
  induction pids generalizing n with
  | nil => cases h
  | cons pid pids ih =>
    have hlater : t ∈ collect e wanted (n + 1) pids → ∃ i, (pid :: pids)[i]? = some t.pid ∧
        readProcNameRss (e.table (n + i)) t.pid = some (t.name, t.rssKb) := by
      intro hmem
      obtain ⟨i, hpid, hread⟩ := ih hmem
      refine ⟨i + 1, hpid, ?_⟩
      rw [show n + (i + 1) = n + 1 + i by omega]
      exact hread
    unfold collect at h
    split at h
    · next name rss hread =>
      split at h
      · rcases List.mem_cons.mp h with rfl | h
        · exact ⟨0, rfl, hread⟩
        · exact hlater h
      · exact hlater h
    · exact hlater h

/-- A process that has a wanted name when it is looked at is a target. -/
theorem mem_collect {e : Evolution} {wanted : String → Bool} {n i : Nat} {pids : List UInt32}
    {t : Target} (hpid : pids[i]? = some t.pid)
    (hread : readProcNameRss (e.table (n + i)) t.pid = some (t.name, t.rssKb))
    (hw : wanted t.name = true) : t ∈ collect e wanted n pids := by
  induction pids generalizing n i with
  | nil => cases hpid
  | cons pid pids ih =>
    unfold collect
    cases i with
    | zero =>
      cases hpid
      rw [Nat.add_zero] at hread
      rw [hread]
      simp only [hw, if_true]
      exact List.mem_cons_self ..
    | succ i =>
      have hmem : t ∈ collect e wanted (n + 1) pids := by
        refine ih (i := i) hpid ?_
        rw [show n + 1 + i = n + (i + 1) by omega]
        exact hread
      split
      · split
        · exact List.mem_cons_of_mem _ hmem
        · exact hmem
      · exact hmem

/-- The targets with a safe name. -/
def signalled (names : List String) (targets : List Target) : List Target :=
  targets.filter fun t => isSafeOptionalDaemon t.name names

/-- The signals go to the targets with a safe name, one after the other. -/
theorem signalTargets_signals (e : Evolution) (names : List String) (n : Nat)
    (targets : List Target) :
    (signalTargets e names n targets).signals =
      ((signalled names targets).zipIdx n).map fun x => ⟨x.2, x.1.pid⟩ := by
  induction targets generalizing n with
  | nil => rfl
  | cons t targets ih =>
    unfold signalTargets
    cases hsafe : isSafeOptionalDaemon t.name names with
    | true =>
      have hcons : signalled names (t :: targets) = t :: signalled names targets :=
        List.filter_cons_of_pos (by simpa using hsafe)
      rw [hcons, List.zipIdx_cons, List.map_cons, ← ih (n + 1)]
      simp only [if_true]
      split
      · rfl
      · rfl
    | false =>
      have hcons : signalled names (t :: targets) = signalled names targets :=
        List.filter_cons_of_neg (by simp [hsafe])
      rw [hcons, ← ih n]
      rfl

/-- A signal comes after all looks, and goes to a target with a safe name. -/
theorem signal_target {e : Evolution} {names : List String} {n : Nat} {targets : List Target}
    {s : Signal} (h : s ∈ (signalTargets e names n targets).signals) :
    n ≤ s.time ∧ ∃ t ∈ targets, isSafeOptionalDaemon t.name names = true ∧ t.pid = s.pid ∧
      (signalTargets e names n targets).signals[s.time - n]? = some s := by
  rw [signalTargets_signals] at h ⊢
  obtain ⟨x, hx, rfl⟩ := List.mem_map.mp h
  obtain ⟨t, k⟩ := x
  obtain ⟨hk, hlt, ht⟩ := List.mem_zipIdx hx
  obtain ⟨hmem, hsafe⟩ := List.mem_filter.mp (List.mem_of_getElem ht.symm)
  refine ⟨hk, t, hmem, hsafe, rfl, ?_⟩
  have hindex : k - n < (signalled names targets).length := by omega
  have hget : (signalled names targets)[k - n]? = some t := by
    rw [List.getElem?_eq_getElem hindex]
    exact congrArg some ht.symm
  rw [List.getElem?_map, List.getElem?_zipIdx, hget]
  show some (⟨n + (k - n), t.pid⟩ : Signal) = some ⟨k, t.pid⟩
  rw [Nat.add_sub_cancel' hk]

/-- The accesses of a run, each by its PID: the ones that look, and the ones that signal. -/
def accesses (pids : Option (List UInt32)) (e : Evolution) (r : KillBloatResult) : List UInt32 :=
  lookedAt pids e ++ r.signals.map Signal.pid

/-- A process stays the same between two accesses to its PID with no other PID between. -/
def Steady (pids : Option (List UInt32)) (e : Evolution) (r : KillBloatResult) : Prop :=
  ∀ i pid, (accesses pids e r)[i]? = some pid → (accesses pids e r)[i + 1]? = some pid →
    (e.table i).process pid = (e.table (i + 1)).process pid

/-- Every signal that reaches a process reaches one that has a safe name then. -/
def OnlyOptional (e : Evolution) (names : List String) (r : KillBloatResult) : Prop :=
  ∀ s ∈ r.signals, ∀ p, (e.table s.time).process s.pid = some p →
    ∃ name rss, nameRss p = some (name, rss) ∧ isSafeOptionalDaemon name names = true

/-! ### Requests in which nothing comes between -/

/-- A PID that a process can have. -/
def Possible (pid : UInt32) : Prop := 0 < pid.toNat ∧ pid.toNat < 2147483648

/-- A PID that a process can have is followed by nothing but itself. -/
def Alone (pids : List UInt32) : Prop :=
  ∀ (i k : Nat) (p q : UInt32), i < k → pids[i]? = some p → pids[k]? = some q → Possible p → q = p

/-- A process that was looked at has a PID that a process can have. -/
theorem possible_of_read {table : Table} {pid : UInt32} {r : String × Nat}
    (h : readProcNameRss table pid = some r) : Possible pid := by
  refine table.valid pid ?_
  intro hnone
  rw [readProcNameRss, hnone] at h
  cases h

/-- A process stays the same while all accesses concern it. -/
theorem steady_run {pids : Option (List UInt32)} {e : Evolution} {r : KillBloatResult}
    (hs : Steady pids e r) {pid : UInt32} {i : Nat} (d : Nat)
    (h : ∀ k, i ≤ k → k ≤ i + d → (accesses pids e r)[k]? = some pid) :
    (e.table i).process pid = (e.table (i + d)).process pid := by
  induction d with
  | zero => rfl
  | succ d ih =>
    rw [ih fun k hk hk' => h k hk (by omega)]
    exact hs (i + d) pid (h _ (by omega) (by omega)) (h _ (by omega) (by omega))

/-- In a request in which nothing comes between, the signals reach safe processes only. -/
theorem onlyOptional_of_alone {pids : List UInt32} (ha : Alone pids) {e : Evolution}
    {names : List String} {wanted : String → Bool} {r : KillBloatResult}
    (hr : r = signalTargets e names pids.length (collect e wanted 0 pids))
    (hs : Steady (some pids) e r) : OnlyOptional e names r := by
  intro s hsignal p hp
  have htarget : ∀ s ∈ r.signals, ∃ t ∈ collect e wanted 0 pids,
      isSafeOptionalDaemon t.name names = true ∧ t.pid = s.pid := by
    intro s hs
    rw [hr] at hs
    obtain ⟨-, t, ht, hsafe, hpid, -⟩ := signal_target hs
    exact ⟨t, ht, hsafe, hpid⟩
  have hplace : pids.length ≤ s.time ∧ r.signals[s.time - pids.length]? = some s := by
    rw [hr] at hsignal ⊢
    obtain ⟨hle, -, -, -, -, hplace⟩ := signal_target hsignal
    exact ⟨hle, hplace⟩
  obtain ⟨t, ht, hsafe, hpid⟩ := htarget s hsignal
  obtain ⟨i, hi, hread⟩ := collect_read ht
  rw [Nat.zero_add] at hread
  have hlooked : i < pids.length := (List.getElem?_eq_some_iff.mp hi).1
  -- From this look on, all accesses concern the one PID.
  have hlater : ∀ (k : Nat) (q : UInt32), i ≤ k → pids[k]? = some q → q = t.pid := by
    intro k q hk hq
    rcases Nat.lt_or_eq_of_le hk with hk | hk
    · exact ha i k t.pid q hk hi hq (possible_of_read hread)
    · rw [← hk, hi] at hq
      exact (Option.some.inj hq).symm
  have hothers : ∀ t' ∈ collect e wanted 0 pids, t'.pid = t.pid := by
    intro t' ht'
    obtain ⟨i', hi', hread'⟩ := collect_read ht'
    rcases Nat.lt_or_ge i' i with hlt | hge
    · exact (ha i' i t'.pid t.pid hlt hi' hi (possible_of_read hread')).symm
    · exact hlater i' t'.pid hge hi'
  have haccess : ∀ k, i ≤ k → k ≤ i + (s.time - i) →
      (accesses (some pids) e r)[k]? = some t.pid := by
    intro k hk hk'
    show (pids ++ r.signals.map Signal.pid)[k]? = some t.pid
    rcases Nat.lt_or_ge k pids.length with hlt | hge
    · rw [List.getElem?_append_left hlt]
      have hget := List.getElem?_eq_getElem hlt
      rw [hget, hlater k _ hk hget]
    · rw [List.getElem?_append_right hge, List.getElem?_map]
      have hbound := (List.getElem?_eq_some_iff.mp hplace.2).1
      have hless : k - pids.length < r.signals.length := by omega
      obtain ⟨t', ht', -, hpid'⟩ := htarget _ (List.getElem_mem hless)
      rw [List.getElem?_eq_getElem hless, Option.map_some, ← hpid', hothers t' ht']
  have htable := steady_run hs (s.time - i) haccess
  rw [Nat.add_sub_cancel' (by omega), hpid, hp, ← hpid] at htable
  rw [readProcNameRss, htable] at hread
  exact ⟨t.name, t.rssKb, hread, hsafe⟩

/-! ### Requests in which something does -/

/-- A PID that comes between is next to the one it comes after. -/
theorem exists_adjacent {pids : List UInt32} (h : ¬ Alone pids) :
    ∃ i p q, pids[i]? = some p ∧ pids[i + 1]? = some q ∧ Possible p ∧ q ≠ p := by
  unfold Alone at h
  push Not at h
  obtain ⟨i, k, p, q, hlt, hi, hk, hp, hne⟩ := h
  obtain ⟨d, rfl⟩ : ∃ d, k = i + 1 + d := ⟨k - (i + 1), by omega⟩
  induction d generalizing i with
  | zero => exact ⟨i, p, q, hi, hk, hp, hne⟩
  | succ d ih =>
    have hbound : i + 1 < pids.length := by
      have hk' := (List.getElem?_eq_some_iff.mp hk).1
      omega
    have hget := List.getElem?_eq_getElem hbound
    by_cases hnext : pids[i + 1] = p
    · -- The same PID once more: go on from there.
      rw [hnext] at hget
      refine ih (i + 1) hget (by omega) ?_
      rw [show i + 1 + 1 + d = i + 1 + (d + 1) by omega]
      exact hk
    · exact ⟨i, p, _, hi, hget, hp, hnext⟩

/-- A process of one name. -/
def processNamed (name : String) : Process where
  stat := some "1 (daemon) S 0 0 0 0 0 0 0 0 0 0 0 0 0 0 0 0 0 0 0 0 7"
  cmdline := some name

/-- A table with one process. -/
def oneProcess (pid : UInt32) (h : Possible pid) (p : Process) : Table where
  process q := if q = pid then some p else none
  valid q hq := by
    by_cases hpid : q = pid
    · rw [hpid]
      exact h
    · rw [if_neg hpid] at hq
      exact absurd rfl hq

/-- The process of one name, until it makes way for another one after the access `i`. -/
def replacedAfter (i : Nat) (pid : UInt32) (h : Possible pid) (name : String) : Evolution where
  listing := some ["1", "2"]
  table k := oneProcess pid h (processNamed (if k ≤ i then name else "init"))

/-- The line of such a process names the program in parentheses, and has its pages. -/
theorem splitLastParen_line :
    (splitLastParen "1 (daemon) S 0 0 0 0 0 0 0 0 0 0 0 0 0 0 0 0 0 0 0 0 7").map (fun parts =>
        (parts.2.head?.any (·.toNat < 0x80),
          ((splitWhitespace (String.ofList parts.2.tail))[21]?).bind
            (parseUnsigned 18446744073709551616))) = some (true, some 7) := by
  rw [splitLastParen, String.toList_ofList]
  simp only [splitWhitespace, String.toList_ofList]
  decide +kernel

/-- A process of one name is read with the name of its command line. -/
theorem nameRss_processNamed {name base : String} (h : commandName name = some base) :
    nameRss (processNamed name) = some (base, 28) := by
  obtain ⟨⟨comm, after⟩, hsplit, hparts⟩ := Option.map_eq_some_iff.mp splitLastParen_line
  obtain ⟨hascii, hpages⟩ := Prod.mk.inj hparts
  simp only [nameRss, processNamed, Option.bind_some, hsplit, hascii, hpages, h, if_true,
    Option.map_some, Option.getD_some]

/-- The names of the list are their own command lines. -/
theorem commandName_safe : ∀ name ∈ safeOptionalDaemons, commandName name = some name := by
  simp only [commandName, splitWhitespace, toList_eq_asciiChars]
  decide +kernel

/-- The replacement is not on the list. -/
theorem init_not_safe (names : List String) :
    nameRss (processNamed "init") = some ("init", 28) ∧
      isSafeOptionalDaemon "init" names = false := by
  constructor
  · exact nameRss_processNamed (by decide +kernel)
  · rfl

/-- A target with a safe name is signalled after all looks. -/
theorem exists_signal {e : Evolution} {names : List String} (n : Nat) {targets : List Target}
    {t : Target} (ht : t ∈ targets) (hsafe : isSafeOptionalDaemon t.name names = true) :
    ∃ s ∈ (signalTargets e names n targets).signals, s.pid = t.pid ∧ n ≤ s.time := by
  have hmem : t ∈ signalled names targets := List.mem_filter.mpr ⟨ht, hsafe⟩
  obtain ⟨k, hk, hget⟩ := List.getElem_of_mem hmem
  have hsignal : (⟨n + k, t.pid⟩ : Signal) ∈ (signalTargets e names n targets).signals := by
    rw [signalTargets_signals]
    refine List.mem_map.mpr ⟨(t, n + k), ?_, rfl⟩
    rw [List.mk_mem_zipIdx_iff_le_and_getElem?_sub, Nat.add_sub_cancel_left,
      List.getElem?_eq_getElem hk, hget]
    exact ⟨by omega, rfl⟩
  exact ⟨_, hsignal, rfl, by show n ≤ n + k; omega⟩

/-- When another PID comes after one that is possible, the process there can be replaced in between,
and its successor is signalled. -/
theorem successor_signalled {pids : Option (List UInt32)} {looked : List UInt32}
    {names : List String} {wanted : String → Bool} {name : String}
    (hlisted : name ∈ safeOptionalDaemons) (hsafe : isSafeOptionalDaemon name names = true)
    (hwanted : wanted name = true) {i : Nat} {p q : UInt32} (hi : looked[i]? = some p)
    (hq : looked[i + 1]? = some q) (hp : Possible p) (hne : q ≠ p)
    (hlooked : lookedAt pids (replacedAfter i p hp name) = looked) {r : KillBloatResult}
    (hr : r = signalTargets (replacedAfter i p hp name) names looked.length
      (collect (replacedAfter i p hp name) wanted 0 looked)) :
    Steady pids (replacedAfter i p hp name) r ∧
      ¬ OnlyOptional (replacedAfter i p hp name) names r := by
  have hbound : i + 1 < looked.length := (List.getElem?_eq_some_iff.mp hq).1
  constructor
  · intro k pid hk hk'
    show (if pid = p then some (processNamed (if k ≤ i then name else "init")) else none) =
      if pid = p then some (processNamed (if k + 1 ≤ i then name else "init")) else none
    by_cases hpid : pid = p
    · -- It is not replaced here, for the next access is one to another PID.
      have hki : k ≠ i := by
        rintro rfl
        rw [accesses, hlooked, List.getElem?_append_left hbound, hq] at hk'
        exact hne ((Option.some.inj hk').trans hpid)
      have hiff : k ≤ i ↔ k + 1 ≤ i := by omega
      simp only [hiff]
    · rw [if_neg hpid, if_neg hpid]
  · intro honly
    have hread : readProcNameRss ((replacedAfter i p hp name).table (0 + i)) p = some (name, 28) := by
      show ((if p = p then some (processNamed (if 0 + i ≤ i then name else "init")) else none :
        Option Process).bind nameRss) = _
      rw [if_pos rfl, if_pos (by omega), Option.bind_some]
      exact nameRss_processNamed (commandName_safe name hlisted)
    have hmem := mem_collect (t := ⟨p, name, 28⟩) hi hread hwanted
    obtain ⟨s, hs, hpid, htime⟩ :=
      exists_signal (e := replacedAfter i p hp name) looked.length hmem hsafe
    have hprocess : ((replacedAfter i p hp name).table s.time).process s.pid =
        some (processNamed "init") := by
      show (if s.pid = p then some (processNamed (if s.time ≤ i then name else "init")) else none) =
        _
      rw [if_pos hpid, if_neg (by omega)]
    obtain ⟨found, rss, hfound, hok⟩ := honly s (by rw [hr]; exact hs) _ hprocess
    rw [(init_not_safe names).1] at hfound
    cases hfound
    rw [(init_not_safe names).2] at hok
    cases hok

/-! ### All requests -/

/-- A safe name is on the list. -/
theorem listed_of_safe {name : String} {names : List String}
    (h : isSafeOptionalDaemon name names = true) : name ∈ safeOptionalDaemons := by
  rw [isSafeOptionalDaemon, Bool.and_eq_true] at h
  simpa using h.1

/-- Nothing can go wrong: the barrier stops the request or protects every daemon of the list, or the
request is one in which nothing comes between a look and its signal. -/
def Harmless (barrier : Except String String) (pids : Option (List UInt32)) : Prop :=
  ∀ names, protectedDaemons barrier = .ok names →
    (∀ name, isSafeOptionalDaemon name names = false) ∨ ∃ list, pids = some list ∧ Alone list

end OpenUI.Agent.Daemons
