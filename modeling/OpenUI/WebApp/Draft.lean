import Mathlib.Data.Rat.Init
import Mathlib.Data.List.Sort

/-!
# `OpenUI.WebApp.Draft`: settings that are edited locally and applied explicitly

`features/signal/locking/draft.ts`: the reducer behind the band lock and network mode editors, and
the two specifications it runs with. Four things are kept apart: the latest observation, the draft,
the snapshot of a submission in flight, and a submission that waits for the read-back that confirms
it.

A JavaScript `number` is a rational here. Whether a submission is in flight is tested by the truth
value of its snapshot, which is a matter of the type of the value (`Truthy`).
-/

set_option autoImplicit false

universe u v

namespace OpenUI.WebApp

/-- How a value of the type counts in a condition. -/
class Truthy (V : Type u) where
  truthy : V → Bool

/-- An array is an object, and counts as true. -/
instance {α : Type u} : Truthy (List α) := ⟨fun _ => true⟩

/-- The empty string counts as false. -/
instance : Truthy String := ⟨fun s => s ≠ ""⟩

/-- How a setting's observation maps to an editable value. -/
structure DraftSpec (O : Type u) (V : Type v) where
  /-- The value a pristine draft shows. -/
  draftOf : O → V
  sameValue : V → V → Bool
  sameObs : O → O → Bool
  /-- False when the observation is missing or unreadable. -/
  known : O → Bool
  /-- The observation proves that the value is now in effect. -/
  confirms : O → V → Bool

/-- A submission that was accepted, waiting for a read-back that shows it. -/
structure Verifying (O : Type u) (V : Type v) where
  applied : V
  previous : O
  stale : Nat

structure DraftState (O : Type u) (V : Type v) where
  observed : O
  draft : V
  /-- The snapshot of the submission in flight. -/
  pending : Option V
  /-- The device changed this setting while the draft was dirty; the draft was kept. -/
  conflict : Bool
  verifying : Option (Verifying O V)
  /-- The read-back never showed the applied value. -/
  mismatch : Bool

inductive DraftAction (O : Type u) (V : Type v) where
  | observe (obs : O)
  | edit (update : V → V)
  | cancel
  | submit (snapshot : V)
  | applied (snapshot : V)
  | failed

/-- `VERIFY_STALE_LIMIT`. -/
def verifyStaleLimit : Nat := 3

section
variable {O : Type u} {V : Type v} [Truthy V] (spec : DraftSpec O V)

def initDraft (obs : O) : DraftState O V :=
  { observed := obs, draft := spec.draftOf obs, pending := none, conflict := false,
    verifying := none, mismatch := false }

/-- The value the draft is compared against: the applied value while a read-back is awaited. -/
def baselineOf (s : DraftState O V) : V :=
  match s.verifying with
  | some v => v.applied
  | none => spec.draftOf s.observed

def isDirty (s : DraftState O V) : Bool := !spec.sameValue s.draft (baselineOf spec s)

/-- Conflict is only meaningful while there is something to lose. -/
def hasConflict (s : DraftState O V) : Bool := s.conflict && isDirty spec s

/-- `if (s.pending)`. -/
def DraftState.inFlight (s : DraftState O V) : Bool := s.pending.any Truthy.truthy

/-- The observation still shows the old value, or nothing. -/
def stillOld (v : Verifying O V) (obs : O) : Bool := !spec.known obs || spec.sameObs obs v.previous

/-- The `observe` case of `reduceDraft`. -/
def observe (s : DraftState O V) (obs : O) : DraftState O V :=
  if s.inFlight then
    -- The submitted request owns the draft until it settles.
    if spec.sameObs obs s.observed then s else { s with observed := obs }
  else match s.verifying with
  | some v =>
    if spec.confirms obs v.applied then
      { s with
          observed := obs
          draft := if spec.sameValue s.draft v.applied then spec.draftOf obs else s.draft
          verifying := none
          conflict := false
          mismatch := false }
    else if stillOld spec v obs && v.stale + 1 < verifyStaleLimit then
      { s with verifying := some { v with stale := v.stale + 1 } }
    else
      -- Still old after several reads, or a third value.
      { s with
          observed := obs
          draft := if spec.known obs then spec.draftOf obs else s.draft
          verifying := none
          conflict := false
          mismatch := true }
  | none =>
    if spec.sameObs obs s.observed then s
    else if spec.sameValue s.draft (spec.draftOf s.observed) then
      { s with observed := obs, draft := spec.draftOf obs, conflict := false }
    else { s with observed := obs, conflict := !spec.sameValue s.draft (spec.draftOf obs) }

def reduceDraft (s : DraftState O V) : DraftAction O V → DraftState O V
  | .observe obs => observe spec s obs
  | .edit update =>
    if s.inFlight then s
    else { s with
      draft := update s.draft
      conflict := s.conflict && !spec.sameValue (update s.draft) (spec.draftOf s.observed)
      mismatch := false }
  | .cancel =>
    if s.inFlight then s
    else { s with draft := baselineOf spec s, conflict := false, mismatch := false }
  | .submit snapshot =>
    if s.inFlight then s else { s with pending := some snapshot, mismatch := false }
  | .applied snapshot =>
    { s with
        pending := none
        draft := snapshot
        conflict := false
        mismatch := false
        verifying := some { applied := snapshot, previous := s.observed, stale := 0 } }
  | .failed => { s with pending := none, conflict := false }

end

/-! ### Band locks -/

inductive BandLockState where
  | unknown
  | automatic
  | locked (bands : List ℚ)
  deriving DecidableEq

/-- `out.add(b)` of the positive integers only. -/
def addBand (out : List ℚ) (b : ℚ) : List ℚ :=
  if b.isInt && 0 < b && b ∉ out then out ++ [b] else out

/-- Positive integers only, deduplicated and ascending. -/
def normaliseBands : Option (List ℚ) → List ℚ
  | none => []
  | some list => (list.foldl addBand []).insertionSort (· ≤ ·)

/-- Semantic equality: order and duplicates do not matter. -/
def sameBands (a b : Option (List ℚ)) : Bool :=
  (normaliseBands a).length == (normaliseBands b).length &&
    ((normaliseBands a).zip (normaliseBands b)).all fun (x, y) => x == y

/-- Bands of a locked state. -/
def lockedBandsOf : BandLockState → Option (List ℚ)
  | .locked bands => some bands
  | _ => none

/-- `a.kind === b.kind`, and the same bands where both are locked. -/
def sameLock : BandLockState → BandLockState → Bool
  | .unknown, .unknown => true
  | .automatic, .automatic => true
  | .locked a, .locked b => sameBands (some a) (some b)
  | _, _ => false

def bandSpec : DraftSpec BandLockState (List ℚ) where
  draftOf o := normaliseBands (lockedBandsOf o)
  sameValue a b := sameBands (some a) (some b)
  sameObs := sameLock
  known o := o ≠ .unknown
  confirms o v := o ≠ .unknown && sameBands (lockedBandsOf o) (some v)

/-! ### Network mode -/

/-- The observation is the reported `net_select`; the empty draft is nothing chosen. -/
def modeSpec : DraftSpec (Option String) String where
  draftOf o := o.getD ""
  sameValue a b := a == b
  sameObs a b := a == b
  known o := o.isSome
  confirms o v := o.isSome && o == some v

end OpenUI.WebApp
