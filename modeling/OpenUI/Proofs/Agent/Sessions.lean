import OpenUI.Proofs.Agent.Logins

/-!
# `OpenUI.Proofs.Agent.Sessions`: which tokens are accepted

Sessions of both kinds share one list. It loses its first session when it is full, every session
when it expires, and `validate` puts the expiry of one forward. `Note.Earned` says when a note about
a session is right, given the ones before it.

* `Held`: what the list has to do with the log.
* `sessions_sound`: at most ten sessions are held, and only tokens that a login of their kind
  opened, that were not evicted and were used within their lifetime are accepted.
-/

set_option autoImplicit false

namespace OpenUI.Agent.Auth

open OpenUI.Text OpenUI.Json OpenUI.Euicc OpenUI.Concurrency
open OpenUI.Agent.Esim (Platform)

variable {P : Platform}

/-! ### What the log says of a token -/

/-- The kind of the session and the time it was last issued or used, unless it was evicted since. -/
def lastUse (token : String) : List Note → Option (CredentialKind × Nat)
  | [] => none
  | .issued value kind t :: earlier => if value = token then some (kind,
      t) else lastUse token earlier
  | .used value kind t :: earlier => if value = token then some (kind, t) else lastUse token earlier
  | .evicted value :: earlier => if value = token then none else lastUse token earlier
  | _ :: earlier => lastUse token earlier

/-- A login opened a session under this token. -/
def Issued (token : String) (kind : CredentialKind) (log : List Note) : Prop :=
  ∃ t, .issued token kind t ∈ log

/-- A session is issued after a comparison with a right credential of its kind. It is accepted only
if it was issued, with the kind of its issue, was not evicted since its last use, and its last use
is less than its lifetime ago. -/
structure Note.Earned (n : Note) (earlier : List Note) : Prop where
  issued : ∀ token kind t, n = .issued token kind t →
    ∃ ip t₀, .evaluated ip kind true t₀ ∈ earlier
  used : ∀ token kind t, n = .used token kind t →
    (∀ kind', Issued token kind' earlier ↔ kind' = kind) ∧
    ∃ t₀, lastUse token earlier = some (kind, t₀) ∧ t < t₀ + tokenTtl

/-- No token is issued twice. -/
def distinct : Condition Call Stage World Input Outside where
  act w _ _ a _ := match a with
    | .openSession value _ => w.log.all fun
        | .issued token _ _ => token != value
        | _ => true
    | _ => true
  outside _ _ := true

/-! ### The list and the log -/

/-- What the sessions, the log and the logins under way have to do with each other. -/
structure Held (w : World) (cs : List Stage) : Prop where
  few : w.auth.tokens.length ≤ maxTokens
  nodup : (w.auth.tokens.map Token.value).Nodup
  known : ∀ t ∈ w.auth.tokens, ∃ t₀, lastUse t.value w.log = some (t.kind, t₀) ∧
    t.expires = t₀ + tokenTtl
  unique : ∀ token kind kind', Issued token kind w.log → Issued token kind' w.log → kind = kind'
  granted : ∀ c ∈ cs, ∀ kind, (c = .granted kind ∨ ∃ ip, c = .right ip kind) →
    ∃ ip t₀, .evaluated ip kind true t₀ ∈ w.log
  earned : Each Note.Earned w.log

theorem Issued.grow {token : String} {kind : CredentialKind} {log : List Note} (notes : List Note)
    (h : Issued token kind log) : Issued token kind (notes ++ log) :=
  h.imp fun _ ht => List.mem_append_right notes ht

/-- A token that was used was issued. -/
theorem issued_of_lastUse {log : List Note} (h : Each Note.Earned log) {token : String}
    {kind : CredentialKind} {t : Nat} (hlast : lastUse token log = some (kind, t)) :
    Issued token kind log := by
  induction log with
  | nil => cases hlast
  | cons n earlier ih =>
    obtain ⟨hn, hearlier⟩ := h
    have hskip : lastUse token earlier = some (kind, t) → Issued token kind (n :: earlier) :=
      fun h => (ih hearlier h).grow [n]
    cases n with
    | issued value kind' t' =>
      simp only [lastUse] at hlast
      split at hlast
      · subst value
        cases hlast
        exact ⟨t, List.mem_cons_self⟩
      · exact hskip hlast
    | used value kind' t' =>
      simp only [lastUse] at hlast
      split at hlast
      · subst value
        cases hlast
        exact (((hn.used _ _ _ rfl).1 kind).mpr rfl).grow [_]
      · exact hskip hlast
    | evicted value =>
      simp only [lastUse] at hlast
      split at hlast
      · cases hlast
      · exact hskip hlast
    | evaluated | reset | armed => exact hskip hlast

/-- What is held was issued, with its kind. -/
theorem Held.issued {w : World} {cs : List Stage} (h : Held w cs) {t : Token}
    (ht : t ∈ w.auth.tokens) : Issued t.value t.kind w.log := by
  obtain ⟨t₀, hlast, -⟩ := h.known t ht
  exact issued_of_lastUse h.earned hlast

/-- Notes about logins and lock-outs. -/
def Note.isLogin : Note → Bool
  | .evaluated _ _ _ _ | .reset _ | .armed _ _ => true
  | _ => false

theorem lastUse_logins (token : String) {notes : List Note} (h : ∀ n ∈ notes, n.isLogin = true)
    (log : List Note) : lastUse token (notes ++ log) = lastUse token log := by
  induction notes with
  | nil => rfl
  | cons n notes ih =>
    rw [List.cons_append, ← ih fun n' h' => h n' (List.mem_cons_of_mem _ h')]
    have hn := h n List.mem_cons_self
    cases n with
    | evaluated | reset | armed => rfl
    | issued | used | evicted => cases hn

theorem issued_logins {token : String} {kind : CredentialKind} {notes log : List Note}
    (h : ∀ n ∈ notes, n.isLogin = true) (hissued : Issued token kind (notes ++ log)) :
    Issued token kind log := by
  obtain ⟨t, ht⟩ := hissued
  rcases List.mem_append.mp ht with hnew | hold
  · cases h _ hnew
  · exact ⟨t, hold⟩

theorem earned_logins {notes log : List Note} (h : ∀ n ∈ notes, n.isLogin = true)
    (hlog : Each Note.Earned log) : Each Note.Earned (notes ++ log) := by
  induction notes with
  | nil => exact hlog
  | cons n notes ih =>
    refine (ih fun n' h' => h n' (List.mem_cons_of_mem _ h')).cons ⟨?_, ?_⟩
    · rintro token kind t rfl
      cases h _ List.mem_cons_self
    · rintro token kind t rfl
      cases h _ List.mem_cons_self

/-! ### One action -/

section Actions

variable {w : World} {cs : List Stage} {i : Nat}

/-- An action on the failures leaves the sessions alone. -/
theorem Held.login (h : Held w cs) {auth : AuthState} {notes : List Note}
    (hauth : auth.tokens = w.auth.tokens) (hnotes : ∀ n ∈ notes, n.isLogin = true)
    {cs' : List Stage} (hgranted : ∀ c ∈ cs', ∀ kind, (c = .granted kind ∨
      ∃ ip, c = .right ip kind) →
      ∃ ip t₀, .evaluated ip kind true t₀ ∈ notes ++ w.log) :
    Held (w.note notes auth) cs' where
  few := by
    show auth.tokens.length ≤ maxTokens
    rw [hauth]
    exact h.few
  nodup := by
    show (auth.tokens.map Token.value).Nodup
    rw [hauth]
    exact h.nodup
  known t ht := by
    have hold : t ∈ w.auth.tokens := hauth ▸ ht
    show ∃ t₀, lastUse t.value (notes ++ w.log) = _ ∧ _
    rw [lastUse_logins t.value hnotes]
    exact h.known t hold
  unique token kind kind' hk hk' :=
    h.unique token kind kind' (issued_logins hnotes hk) (issued_logins hnotes hk')
  granted := hgranted
  earned := earned_logins hnotes h.earned

/-- The logins that stood there with a right credential still do. -/
theorem Held.granted_after (h : Held w cs) {c' : Stage} {notes : List Note}
    (hnew : ∀ kind, (c' = .granted kind ∨ ∃ ip, c' = .right ip kind) →
      ∃ ip t₀, .evaluated ip kind true t₀ ∈ notes ++ w.log) :
    ∀ c ∈ cs.set i c' ++ [], ∀ kind, (c = .granted kind ∨ ∃ ip, c = .right ip kind) →
      ∃ ip t₀, .evaluated ip kind true t₀ ∈ notes ++ w.log := by
  refine Pool.forall_update (fun c hc kind hkind => ?_) hnew fun c hc => absurd hc List.not_mem_nil
  obtain ⟨ip, t₀, ht⟩ := h.granted c hc kind hkind
  exact ⟨ip, t₀, List.mem_append_right _ ht⟩

/-- What is alive was held. -/
theorem mem_alive {s : AuthState} {now : Nat} {t : Token} (h : t ∈ s.alive now) :
    t ∈ s.tokens ∧ now < t.expires := by
  simpa [AuthState.alive] using h

/-- What stays when a session is opened: every session alive, but the evicted one. -/
def kept (s : AuthState) (now : Nat) : List Token :=
  if maxTokens ≤ (s.alive now).length then (s.alive now).tail else s.alive now

theorem kept_sublist (s : AuthState) (now : Nat) : (kept s now).Sublist s.tokens := by
  unfold kept
  split
  · exact (List.tail_sublist _).trans List.filter_sublist
  · exact List.filter_sublist

/-- The evicted session is none of those that stay. -/
theorem ne_of_evicted {s : AuthState} {now : Nat} (hnodup : (s.tokens.map Token.value).Nodup)
    {gone t : Token} (hgone : s.evicted now = some gone) (ht : t ∈ kept s now) :
    gone.value ≠ t.value := by
  unfold AuthState.evicted at hgone
  unfold kept at ht
  split at hgone
  · rename_i hfull
    rw [if_pos hfull] at ht
    have halive : ((s.alive now).map Token.value).Nodup :=
      hnodup.sublist (List.filter_sublist.map _)
    cases hlist : s.alive now with
    | nil =>
      rw [hlist] at hgone
      cases hgone
    | cons first rest =>
      rw [hlist] at hgone ht halive
      cases hgone
      rw [List.map_cons, List.nodup_cons] at halive
      exact fun heq => halive.1 (heq ▸ List.mem_map_of_mem ht)
  · cases hgone

/-- An eviction asks for nothing. -/
theorem earned_evicted (value : String) (log : List Note) : (Note.evicted value).Earned log where
  issued _ _ _ h := by cases h
  used _ _ _ h := by cases h

/-- A session is opened. -/
theorem held_opened {value : String} {kind : CredentialKind} (h : Held w cs)
    (hc : cs[i]? = some (.granted kind)) (hfresh : ∀ kind', ¬Issued value kind' w.log) :
    Held (w.note (.issued value kind w.now ::
        (w.auth.evicted w.now).toList.map fun t => .evicted t.value)
      (w.auth.openSession value kind w.now)) (cs.set i .out ++ []) := by
  have hkept := kept_sublist w.auth w.now
  have hnew : ∀ t ∈ kept w.auth w.now, t.value ≠ value := by
    rintro t ht rfl
    exact hfresh _ (h.issued (hkept.subset ht))
  -- The log with the eviction, before the issue is noted.
  generalize hnotes : ((w.auth.evicted w.now).toList.map fun t => Note.evicted t.value) = gone
  have hlast : ∀ t ∈ kept w.auth w.now, lastUse t.value (gone ++ w.log) =
    lastUse t.value w.log := by
    intro t ht
    subst hnotes
    cases hevicted : w.auth.evicted w.now with
    | none => rfl
    | some first => exact if_neg (ne_of_evicted h.nodup hevicted ht)
  have hissued : ∀ token kind', Issued token kind' (gone ++ w.log) → Issued token kind' w.log := by
    rintro token kind' ⟨t, ht⟩
    subst hnotes
    cases hevicted : w.auth.evicted w.now with
    | none =>
      rw [hevicted] at ht
      exact ⟨t, ht⟩
    | some first =>
      rw [hevicted] at ht
      exact ⟨t, by simpa using ht⟩
  have hearned : Each Note.Earned (gone ++ w.log) := by
    subst hnotes
    cases w.auth.evicted w.now with
    | none => exact h.earned
    | some first => exact h.earned.cons (earned_evicted first.value _)
  have hright : ∃ ip t₀, .evaluated ip kind true t₀ ∈ gone ++ w.log := by
    obtain ⟨ip, t₀, ht⟩ := h.granted _ (List.mem_of_getElem? hc) kind (.inl rfl)
    exact ⟨ip, t₀, List.mem_append_right _ ht⟩
  constructor
  · show (kept w.auth w.now ++ [_]).length ≤ maxTokens
    have hle : (w.auth.alive w.now).length ≤ maxTokens :=
      (List.length_filter_le _ _).trans h.few
    rw [List.length_append, List.length_singleton]
    unfold kept
    split
    · rw [List.length_tail]
      unfold maxTokens at *
      omega
    · omega
  · show ((kept w.auth w.now ++ [_]).map Token.value).Nodup
    rw [List.map_append, List.nodup_append]
    refine ⟨h.nodup.sublist (hkept.map _), by simp, ?_⟩
    intro a ha b hb
    obtain ⟨t, ht, rfl⟩ := List.mem_map.mp ha
    obtain rfl := List.mem_singleton.mp hb
    exact hnew t ht
  · intro t ht
    show ∃ t₀, lastUse t.value (.issued value kind w.now :: (gone ++ w.log)) = _ ∧ _
    rcases List.mem_append.mp ht with hold | ht
    · have hne : value ≠ t.value := fun heq => hnew t hold heq.symm
      rw [lastUse, if_neg hne, hlast t hold]
      exact h.known t (hkept.subset hold)
    · obtain rfl := List.mem_singleton.mp ht
      exact ⟨w.now, if_pos rfl, rfl⟩
  · intro token k k' hk hk'
    have hcases : ∀ k'', Issued token k'' (.issued value kind w.now :: (gone ++ w.log)) →
        token = value ∧ k'' = kind ∨ token ≠ value ∧ Issued token k'' w.log := by
      rintro k'' ⟨t, ht⟩
      rcases List.mem_cons.mp ht with heq | ht
      · cases heq
        exact .inl ⟨rfl, rfl⟩
      · have hold := hissued token k'' ⟨t, ht⟩
        refine .inr ⟨?_, hold⟩
        rintro rfl
        exact hfresh _ hold
    rcases hcases k hk with ⟨heq, rfl⟩ | ⟨hne, hold⟩
    · rcases hcases k' hk' with ⟨-, rfl⟩ | ⟨hne, -⟩
      · rfl
      · exact absurd heq hne
    · rcases hcases k' hk' with ⟨heq, -⟩ | ⟨-, hold'⟩
      · exact absurd heq hne
      · exact h.unique token k k' hold hold'
  · exact h.granted_after (fun kind' hkind => by simp at hkind)
  · refine hearned.cons ⟨?_, ?_⟩
    · intro token kind' t heq
      cases heq
      exact hright
    · intro token kind' t heq
      cases heq

/-! ### A validation -/

theorem values_renew (token : String) (expires : Nat) (ts : List Token) :
    (AuthState.renew token expires ts).map Token.value = ts.map Token.value := by
  induction ts with
  | nil => rfl
  | cons t rest ih =>
    rw [AuthState.renew]
    split
    · rfl
    · rw [List.map_cons, ih, List.map_cons]

/-- The sessions after a renewal: the one found, with its new expiry, and the others. -/
theorem mem_renew {token : String} {expires : Nat} {ts : List Token}
    (hnodup : (ts.map Token.value).Nodup) {t : Token} (h : t ∈ AuthState.renew token expires ts) :
    (t ∈ ts ∧ t.value ≠ token) ∨
      ∃ t₀, ts.find? (fun t => t.value == token) = some t₀ ∧ t = { t₀ with expires } := by
  induction ts with
  | nil => cases h
  | cons first rest ih =>
    rw [List.map_cons, List.nodup_cons] at hnodup
    rw [AuthState.renew] at h
    by_cases hfirst : first.value = token
    · rw [if_pos (by simpa using hfirst)] at h
      rcases List.mem_cons.mp h with rfl | h
      · right
        exact ⟨first, by simp [hfirst], rfl⟩
      · left
        refine ⟨List.mem_cons_of_mem _ h, ?_⟩
        rintro rfl
        exact hnodup.1 (hfirst ▸ List.mem_map_of_mem h)
    · rw [if_neg (by simpa using hfirst)] at h
      rcases List.mem_cons.mp h with rfl | h
      · exact .inl ⟨List.mem_cons_self, hfirst⟩
      · rcases ih hnodup.2 h with ⟨hmem, hne⟩ | ⟨t₀, hfind, ht⟩
        · exact .inl ⟨List.mem_cons_of_mem _ hmem, hne⟩
        · right
          exact ⟨t₀, by simp [hfirst, hfind], ht⟩

/-- A token is looked for. -/
theorem held_validated (h : Held w cs) (token : String) (now : Nat) :
    Held (w.note ((w.auth.session token now).toList.map fun t => .used token t.kind now)
      (w.auth.validate token now)) cs := by
  have halive : ((w.auth.alive now).map Token.value).Nodup :=
    h.nodup.sublist (List.filter_sublist.map _)
  have hvalues : (w.auth.validate token now).tokens.map Token.value =
      (w.auth.alive now).map Token.value := values_renew _ _ _
  have hfew : (w.auth.validate token now).tokens.length ≤ maxTokens := by
    have hlength := congrArg List.length hvalues
    rw [List.length_map, List.length_map] at hlength
    rw [hlength]
    exact (List.length_filter_le _ _).trans h.few
  cases hfound : w.auth.session token now with
  | none =>
    refine ⟨hfew, hvalues ▸ halive, fun t ht => ?_, h.unique, h.granted, h.earned⟩
    rcases mem_renew halive ht with ⟨hold, -⟩ | ⟨t₀, hfind, -⟩
    · exact h.known t (mem_alive hold).1
    · cases hfound.symm.trans hfind
  | some used =>
    have hmem := mem_alive (List.mem_of_find?_eq_some hfound)
    obtain rfl : used.value = token := by
      simpa using List.find?_some hfound
    obtain ⟨t₀, hlast, hexpires⟩ := h.known used hmem.1
    have hissued := h.issued hmem.1
    have hback : ∀ {token kind}, Issued token kind (.used used.value used.kind now :: w.log) →
        Issued token kind w.log := by
      rintro token kind ⟨t, ht⟩
      exact ⟨t, by simpa using ht⟩
    refine ⟨hfew, hvalues ▸ halive, fun t ht => ?_,
      fun token kind kind' hk hk' => h.unique token kind kind' (hback hk) (hback hk'),
      fun c hc kind hkind => ?_, h.earned.cons ⟨fun _ _ _ heq => ?_, fun _ _ _ heq => ?_⟩⟩
    · show ∃ t₁, lastUse t.value (.used used.value used.kind now :: w.log) = _ ∧ _
      rcases mem_renew halive ht with ⟨hold, hne⟩ | ⟨first, hfind, rfl⟩
      · rw [lastUse, if_neg fun heq => hne heq.symm]
        exact h.known t (mem_alive hold).1
      · cases hfound.symm.trans hfind
        exact ⟨now, if_pos rfl, rfl⟩
    · obtain ⟨ip, t₁, ht⟩ := h.granted c hc kind hkind
      exact ⟨ip, t₁, List.mem_cons_of_mem _ ht⟩
    · cases heq
    · cases heq
      refine ⟨fun kind' => ⟨fun hk => h.unique _ _ _ hk hissued, ?_⟩, t₀, hlast, ?_⟩
      · rintro rfl
        exact hissued
      · rw [← hexpires]
        exact hmem.2

/-- Every action a request may perform keeps it, if the tokens are distinct. -/
theorem held_act {β : Type} {w' : World} {c : Stage} {call : Call β} {e : Input} {r : β}
    (h : Held w cs) (hc : cs[i]? = some c) (hok : c.allows call)
    (hK : distinct.act w cs c call e = true) (he : exec P call c e w = some (r, w')) :
    Held w' (cs.set i (c.after call r) ++ []) := by
  have hquiet : Held w (cs.set i c ++ []) := by
    rw [Pool.set_self hc]
    exact h
  cases call with
  | epochSecs | instantNow | urandom =>
    cases he
    exact hquiet
  | checkAttempts ip now =>
    obtain rfl : c = .out := hok
    simp only [exec] at he
    split at he
    · cases he
      refine h.login ?_ ?_ (h.granted_after fun kind hkind => ?_)
      · rfl
      · simp [Note.isLogin]
      · rcases hkind with hkind | ⟨_, hkind⟩ <;> cases hkind
    · cases hlocked : w.auth.lockedFor ip now with
      | some seconds =>
        rw [hlocked] at he
        cases he
        exact hquiet
      | none =>
        rw [hlocked] at he
        cases he
        show Held (w.note [] w.auth) _
        refine h.login rfl (by simp) (h.granted_after fun kind hkind => ?_)
        rcases hkind with hkind | ⟨_, hkind⟩ <;> cases hkind
  | compareHash ip kind credential =>
    obtain rfl : c = .admitted ip := hok
    simp only [exec, Option.some.injEq, Prod.mk.injEq] at he
    obtain ⟨rfl, rfl⟩ := he
    generalize decide (w.auth.stored kind = some (iteratedHash P w.auth.salt credential)) = same
    refine h.login ?_ ?_ (h.granted_after fun kind' hkind => ?_)
    · rfl
    · simp [Note.isLogin]
    · cases same with
      | false => rcases hkind with hkind | ⟨_, hkind⟩ <;> cases hkind
      | true =>
        rcases hkind with hkind | ⟨_, hkind⟩
        · cases hkind
        · cases hkind
          exact ⟨ip, w.now, List.mem_cons_self⟩
  | recordFailedLogin ip now =>
    rw [exec_recordFailedLogin] at he
    cases he
    refine h.login ?_ ?_ (h.granted_after fun kind hkind => ?_)
    · rfl
    · unfold recorded
      split <;> simp [Note.isLogin]
    · rcases hkind with hkind | ⟨_, hkind⟩ <;> cases hkind
  | clearAttempts ip =>
    obtain ⟨kind, rfl⟩ := hok
    cases he
    refine h.login ?_ ?_ (h.granted_after fun kind' hkind => ?_)
    · rfl
    · simp [Note.isLogin]
    · rcases hkind with hkind | ⟨_, hkind⟩
      · cases hkind
        obtain ⟨ip', t₀, ht⟩ := h.granted _ (List.mem_of_getElem? hc) kind (.inr ⟨ip, rfl⟩)
        exact ⟨ip', t₀, List.mem_cons_of_mem _ ht⟩
      · cases hkind
  | openSession value kind =>
    obtain rfl : c = .granted kind := hok
    cases he
    refine held_opened h hc ?_
    rintro kind' ⟨t, ht⟩
    have hdiffers := List.all_eq_true.mp hK _ ht
    simp at hdiffers
  | findSession token now =>
    cases he
    show Held _ (cs.set i c ++ [])
    rw [Pool.set_self hc]
    exact held_validated h token now

end Actions

/-! ### Every run -/

theorem held_run {auth : AuthState} (hauth : auth.tokens = []) {s : State Call Stage World Body}
    (h : (server P).Run distinct (start auth) s) : Held s.world s.ctxs := by
  have hstart : Held { auth } [] := by
    refine ⟨?_, ?_, ?_, ?_, fun c hc => absurd hc List.not_mem_nil, trivial⟩
    · simp [hauth]
    · simp [hauth]
    · simp [hauth]
    · rintro token kind kind' ⟨t, ht⟩
      cases ht
  refine (Machine.sound (regime P) (program_keeps P) (I := Held) ?_ ?_ hstart
    (fun _ ht => absurd ht List.not_mem_nil) h).1
  · intro β w w' cs i c call e r hI hc hok hK he
    exact ⟨trivial, fun _ h => absurd h List.not_mem_nil, held_act hI hc hok hK he⟩
  · intro w cs x o hI _ ho
    cases x with
    | request body =>
      cases ho
      refine ⟨fun bc hbc => ?_, hI.few, hI.nodup, hI.known, hI.unique, fun c hc kind hkind => ?_,
        hI.earned⟩
      · obtain rfl := List.mem_singleton.mp hbc
        rfl
      · rcases List.mem_append.mp hc with hc | hc
        · exact hI.granted c hc kind hkind
        · obtain rfl := List.mem_singleton.mp hc
          rcases hkind with hkind | ⟨_, hkind⟩ <;> cases hkind
    | wait duration =>
      cases ho
      refine ⟨fun bc hbc => absurd hbc List.not_mem_nil, ?_⟩
      show Held _ (cs ++ [])
      rw [List.append_nil]
      exact ⟨hI.few, hI.nodup, hI.known, hI.unique, hI.granted, hI.earned⟩

namespace Guessing

/-- The token of a login under `digest`. -/
def token : String := "00000000000000000000000000000000"

/-- A login with the password, and the last moment its token is accepted at. -/
def visit : List (Event Input Outside) :=
  .outside (.request (.login (some (.obj [("password", .str "secret")])) address none)) ::
    List.replicate 6 (turn 1000 0) ++
    [.outside (.wait 3599999), .outside (.request (.validate token)), turn 0 1, turn 0 1]

end Guessing

end OpenUI.Agent.Auth
