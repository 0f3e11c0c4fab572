import OpenUI.Json

/-!
# `OpenUI.Agent.Cache`: samples that are kept for a time

`agent/src/cache.rs`. `Observed` keeps the last sample of a source and the error of the last attempt
to read it; `Cached` keeps one value. What they do under their mutex is here; who holds it and for
how long is up to the programs that use them. Times are readings of the monotonic clock in
milliseconds.

* `Observation.records`: an observation says what the attempts to read its source came to.
-/

set_option autoImplicit false

namespace OpenUI.Agent.Cache

open OpenUI.Json

variable {T : Type}

/-- `Observation`. -/
structure Observation (T : Type) where
  attempted : Option Nat := none
  sampled : Option Nat := none
  sampledUnixMs : Option Nat := none
  value : Option T := none
  error : Option String := none

/-- `Freshness`. -/
structure Freshness where
  sampledAtMs : Option Nat
  ageMs : Option Nat
  ttlMs : Nat
  stale : Bool
  error : Option String

/-- `Sample`. -/
structure Sample (T : Type) where
  value : Option T
  freshness : Freshness

namespace Observation

/-- `read` has to refresh. -/
def due (ttl now : Nat) (slot : Observation T) : Bool :=
  match slot.attempted with
  | none => true
  | some attempted => decide (ttl ≤ now - attempted)

/-- What a refresh makes of the slot. -/
def refreshed (result : Except String T) (now unixMs : Nat) (slot : Observation T) :
    Observation T :=
  match result with
  | .ok value =>
    { attempted := some now, sampled := some now, sampledUnixMs := some unixMs,
      value := some value }
  | .error error => { slot with attempted := some now, error := some error }

/-- What `read` returns. -/
def sample (ttl now : Nat) (slot : Observation T) : Sample T :=
  let age := slot.sampled.map (now - ·)
  { value := slot.value
    freshness := {
      sampledAtMs := slot.sampledUnixMs
      ageMs := age
      ttlMs := ttl
      stale := slot.error.isSome || age.all (ttl < ·)
      error := slot.error } }

/-- `Observed::invalidate`. -/
def invalidated (slot : Observation T) : Observation T := { slot with attempted := none }

/-- The last value that was read. The attempts come latest first. -/
def lastRead : List (Except String T) → Option T
  | [] => none
  | .ok value :: _ => some value
  | .error _ :: earlier => lastRead earlier

/-- The error of the last attempt. -/
def lastError : List (Except String T) → Option String
  | .error error :: _ => some error
  | _ => none

/-- The slot holds the last value that was read, and the error of the last attempt. -/
structure Records (slot : Observation T) (attempts : List (Except String T)) : Prop where
  value : slot.value = lastRead attempts
  error : slot.error = lastError attempts

variable {slot : Observation T} {attempts : List (Except String T)}

theorem records_new : Records ({} : Observation T) [] := ⟨rfl, rfl⟩

/-- A refresh is one more attempt. -/
theorem Records.refreshed (h : Records slot attempts) (result : Except String T)
    (now unixMs : Nat) :
    Records (slot.refreshed result now unixMs) (result :: attempts) := by
  cases result with
  | ok value => exact ⟨rfl, rfl⟩
  | error error => exact ⟨h.value, rfl⟩

theorem Records.invalidated (h : Records slot attempts) : Records slot.invalidated attempts :=
  ⟨h.value, h.error⟩

/-- A sample has the last value that was read. After a failure it is stale and says why. -/
structure Tells (sample : Sample T) (attempts : List (Except String T)) : Prop where
  value : sample.value = lastRead attempts
  failed : ∀ error, lastError attempts = some error →
    sample.freshness.stale = true ∧ sample.freshness.error = some error

/-- What is reported is what the attempts came to. -/
theorem Records.sample (h : Records slot attempts) (ttl now : Nat) :
    Tells (slot.sample ttl now) attempts where
  value := h.value
  failed error herror := by
    have hslot : slot.error = some error := h.error.trans herror
    simp [Observation.sample, hslot]

/-- A sample that is not stale comes from an attempt that did not fail. -/
theorem error_of_fresh {ttl now : Nat} (h : (slot.sample ttl now).freshness.stale = false) :
    slot.error = none := by
  cases herror : slot.error with
  | none => rfl
  | some error => simp [Observation.sample, herror] at h

/-- A slot that need not be refreshed was attempted. -/
theorem attempted_of_not_due {ttl now : Nat} (h : slot.due ttl now = false) :
    slot.attempted ≠ none := by
  intro hnone
  simp [due, hnone] at h

theorem attempted_refreshed (result : Except String T) (now unixMs : Nat) :
    (slot.refreshed result now unixMs).attempted ≠ none := by
  cases result <;> simp [Observation.refreshed]

end Observation

/-- The slot of a `Cached`: when it was refreshed, and with what. -/
abbrev Cached (T : Type) := Option (Nat × T)

/-- `get_or_refresh` has a value that is young enough. -/
def Cached.young (ttl now : Nat) (slot : Cached T) : Option T :=
  slot.bind fun (at', value) => if now - at' < ttl then some value else none

end OpenUI.Agent.Cache
