import OpenUI.Proofs.WebApp.Signal
import OpenUI.WebApp.Alerts
import OpenUI.WebApp.WifiStatus

/-!
# `OpenUI.Proofs.WebApp.Fields`: numbers that the payload carried

A number in a mapper's result is `Honest` when it is unknown, or one that the payload carried for
the field: what is malformed or absent is not made a number, and 0 stands only where the payload had
one. Fields that are checked are honest whatever the payload is; of the others it is said when they
are.

* `honest_cast_iff`, `honest_castOrZero_iff`, `whenTruthy_iff`: fields that are cast.
-/

set_option autoImplicit false

namespace OpenUI.WebApp.Js

open OpenUI.Text OpenUI.WebApp OpenUI.WebApp.Wifi

/-- A field, and the number that the payload carried for it. -/
abbrev Reading := Field × Option ℚ

/-- Unknown, or a number that was carried, and 0 only when that was 0. -/
def Honest (r : Reading) : Prop :=
  r.1 = .unknown ∨ ∃ x y, r.1 = .number (.finite x) ∧ r.2 = some y ∧ (x = 0 → y = 0)

/-- A number is honest when the payload carried one, which was 0 where it is. -/
theorem honest_number_iff {x : ℚ} {carried : Option ℚ} :
    Honest (.number (.finite x), carried) ↔ ∃ y, carried = some y ∧ (x = 0 → y = 0) := by
  constructor
  · rintro (⟨⟨⟩⟩ | ⟨z, y, hz, hy, hzero⟩)
    obtain rfl : x = z := Number.finite.inj (Field.number.inj hz)
    exact ⟨y, hy, hzero⟩
  · rintro ⟨y, hy, hzero⟩
    exact .inr ⟨x, y, rfl, hy, hzero⟩

/-! ### Fields that are checked -/

/-- A checked number that is the one that was carried. -/
theorem honest_checked {f carried : Option ℚ} (h : ∀ x, f = some x → carried = some x) :
    Honest (checked f, carried) := by
  cases f with
  | none => exact .inl rfl
  | some x => exact .inr ⟨x, x, rfl, h x rfl, id⟩

/-- A filter keeps what it lets through. -/
theorem honest_filter (f : Option ℚ) (p : ℚ → Bool) : Honest (checked (f.filter p), f) :=
  honest_checked fun _ hx => (Option.filter_eq_some_iff.mp hx).1

/-- A number as it was carried. -/
theorem honest_self (f : Option ℚ) : Honest (checked f, f) := honest_checked fun _ hx => hx

/-- The checks of `data/validate.ts`. -/
theorem honest_finiteNumber (v : Option Value) :
    Honest (checked (finiteNumber v), finiteNumber v) :=
  honest_self _

theorem honest_nonNegative (v : Option Value) : Honest (checked (nonNegative v), finiteNumber v) :=
  honest_filter _ _

theorem honest_intInRange (v : Option Value) (min max : ℚ) :
    Honest (checked (intInRange v min max), finiteNumber v) :=
  honest_filter _ _

theorem honest_validRsrp (v : Option Value) : Honest (checked (validRsrp v), finiteNumber v) :=
  honest_filter _ _

/-- A number that is made of something else than a number of the payload, and should not be 0. -/
def derived (f : Option ℚ) : Reading := (checked f, f.filter (· ≠ 0))

theorem honest_derived {f : Option ℚ} (h : f ≠ some 0) : Honest (derived f) := by
  refine honest_checked fun x hx => Option.filter_eq_some_iff.mpr ⟨hx, decide_eq_true ?_⟩
  rintro rfl
  exact h hx

/-! ### Fields that are cast -/

/-- Absent, `null`, or a number. -/
def PlainCast (v : Option Value) : Prop := ∀ w, v = some w → w = .null ∨ ∃ x, w = .num x

/-- A cast is honest when nothing but a number is cast. -/
theorem honest_cast_iff (v : Option Value) : Honest (cast v, finiteNumber v) ↔ PlainCast v := by
  have hother : ∀ w, cast (some w) = .other w → (∀ x, w ≠ .num x) → w ≠ .null →
      (Honest (cast (some w), finiteNumber (some w)) ↔ PlainCast (some w)) := by
    intro w hcast hnum hnull
    rw [hcast]
    refine iff_of_false (by rintro (⟨⟨⟩⟩ | ⟨x, y, ⟨⟩, -⟩)) fun h => ?_
    rcases h w rfl with heq | ⟨x, heq⟩
    · exact hnull heq
    · exact hnum x heq
  cases v with
  | none => exact iff_of_true (.inl rfl) (by rintro w ⟨⟩)
  | some w =>
    cases w with
    | null => exact iff_of_true (.inl rfl) fun w hw => .inl (Option.some.inj hw).symm
    | num x =>
      exact iff_of_true (.inr ⟨x, x, rfl, rfl, id⟩) fun w hw => .inr ⟨x, (Option.some.inj hw).symm⟩
    | bool b => exact hother _ rfl (by rintro x ⟨⟩) (by rintro ⟨⟩)
    | str s => exact hother _ rfl (by rintro x ⟨⟩) (by rintro ⟨⟩)
    | arr items => exact hother _ rfl (by rintro x ⟨⟩) (by rintro ⟨⟩)
    | obj fields => exact hother _ rfl (by rintro x ⟨⟩) (by rintro ⟨⟩)

/-- `|| 0` is honest on numbers only: what is absent becomes 0. -/
theorem honest_castOrZero_iff (v : Option Value) :
    Honest (castOrZero v, finiteNumber v) ↔ ∃ x, v = some (.num x) := by
  have hzero : ∀ w, falsy w = true → finiteNumber w = none →
      ¬Honest (castOrZero w, finiteNumber w) := by
    intro w hfalsy hnone
    rw [castOrZero, if_pos hfalsy, hnone]
    rintro (⟨⟨⟩⟩ | ⟨x, y, -, ⟨⟩, -⟩)
  have hother : ∀ w, falsy (some w) = false → cast (some w) = .other w →
      ¬Honest (castOrZero (some w), finiteNumber (some w)) := by
    intro w htruthy hcast
    rw [castOrZero, htruthy, hcast]
    rintro (⟨⟨⟩⟩ | ⟨x, y, ⟨⟩, -⟩)
  cases v with
  | none => exact iff_of_false (hzero none rfl rfl) (by rintro ⟨x, ⟨⟩⟩)
  | some w =>
    cases w with
    | null => exact iff_of_false (hzero _ rfl rfl) (by rintro ⟨x, ⟨⟩⟩)
    | num x =>
      refine iff_of_true (.inr ⟨x, x, ?_, rfl, id⟩) ⟨x, rfl⟩
      by_cases hx : x = 0
      · subst hx
        rfl
      · have htruthy : falsy (some (.num x)) = false := beq_false_of_ne hx
        rw [castOrZero, htruthy]
        rfl
    | bool b =>
      refine iff_of_false ?_ (by rintro ⟨x, ⟨⟩⟩)
      cases b with
      | false => exact hzero _ rfl rfl
      | true => exact hother _ rfl rfl
    | str s =>
      refine iff_of_false ?_ (by rintro ⟨x, ⟨⟩⟩)
      by_cases hs : s = ""
      · subst hs
        exact hzero _ rfl rfl
      · exact hother _ (beq_false_of_ne hs) rfl
    | arr items => exact iff_of_false (hother _ rfl rfl) (by rintro ⟨x, ⟨⟩⟩)
    | obj fields => exact iff_of_false (hother _ rfl rfl) (by rintro ⟨x, ⟨⟩⟩)

/-! ### Values that are made numbers -/

/-- A text of digits is not one of the other numerals. -/
theorem numericText_letter {c : Char} {rest : List Char} (hdigit : isAsciiDigit c = false)
    (hdot : c ≠ '.') (he : c ≠ 'e') (hupper : c ≠ 'E') : numericText ('0' :: c :: rest) = none := by
  have hzero : isAsciiDigit '0' = true := rfl
  simp [numericText, exponentOf, hzero, hdigit, hdot, he, hupper]

/-- `Number` of a text that is strictly numeric. -/
theorem numberOfText_eq {s : String} {x : ℚ} (h : finiteNumber (some (.str s)) = some x) :
    numberOfText s = .finite x := by
  obtain ⟨q, hq, hx⟩ := Option.bind_eq_some_iff.mp h
  have hnot : ∀ t, numericText t = none → trimText s ≠ t := by
    rintro t hnone rfl
    rw [hnone] at hq
    cases hq
  -- No other numeral is a strictly numeric text.
  have hletter : ∀ c, isAsciiDigit c = false → c ≠ '.' → c ≠ 'e' → c ≠ 'E' →
      (trimText s).take 2 ≠ ['0', c] := by
    intro c hdigit hdot he hupper htake
    refine hnot ('0' :: c :: (trimText s).drop 2) (numericText_letter hdigit hdot he hupper) ?_
    calc trimText s = (trimText s).take 2 ++ (trimText s).drop 2 :=
          (List.take_append_drop 2 _).symm
      _ = _ := by rw [htake]; rfl
  have hhex : ¬((trimText s).take 2 = ['0', 'x'] ∨ (trimText s).take 2 = ['0', 'X']) :=
    not_or.mpr ⟨hletter 'x' rfl (by decide) (by decide) (by decide),
      hletter 'X' rfl (by decide) (by decide) (by decide)⟩
  have hoctal : ¬((trimText s).take 2 = ['0', 'o'] ∨ (trimText s).take 2 = ['0', 'O']) :=
    not_or.mpr ⟨hletter 'o' rfl (by decide) (by decide) (by decide),
      hletter 'O' rfl (by decide) (by decide) (by decide)⟩
  have hbinary : ¬((trimText s).take 2 = ['0', 'b'] ∨ (trimText s).take 2 = ['0', 'B']) :=
    not_or.mpr ⟨hletter 'b' rfl (by decide) (by decide) (by decide),
      hletter 'B' rfl (by decide) (by decide) (by decide)⟩
  have hinfinite : ¬(trimText s = "Infinity".toList ∨ trimText s = "+Infinity".toList) :=
    not_or.mpr ⟨hnot _ rfl, hnot _ rfl⟩
  unfold numberOfText
  rw [if_neg (hnot [] rfl), if_neg hinfinite, if_neg (hnot _ rfl), if_neg fun h => hhex h.1,
    if_neg fun h => hoctal h.1, if_neg fun h => hbinary h.1, hq]
  simp only [nearest, hx]

/-- A value that carries a number is made that number. -/
theorem toNumber_eq {v : Value} {x : ℚ} (h : finiteNumber (some v) = some x) :
    v.toNumber = some (.finite x) := by
  cases v with
  | num y => exact congrArg (some ∘ Number.finite) (Option.some.inj h)
  | str s => exact congrArg some (numberOfText_eq h)
  | null => cases h
  | bool b => cases h
  | arr items => cases h
  | obj fields => cases h

/-- A value that is not there, or a number that does not become 0 where it is none. -/
def PlainScaled (f : Number → Number) (v : Option Value) : Prop :=
  falsy v = true ∨
    ∃ x y, finiteNumber v = some x ∧ f (.finite x) = .finite y ∧ (y = 0 → x = 0)

/-- A value that is made a number when it is truthy. -/
theorem whenTruthy_iff (f : Number → Number) (v : Option Value) :
    (∃ r, whenTruthy v f = some r ∧ Honest (r, finiteNumber v)) ↔ PlainScaled f v := by
  cases v with
  | none => exact iff_of_true ⟨.unknown, rfl, .inl rfl⟩ (.inl rfl)
  | some w =>
    by_cases hfalsy : falsy (some w) = true
    · exact iff_of_true ⟨.unknown, if_pos hfalsy, .inl rfl⟩ (.inl hfalsy)
    · have hmap : whenTruthy (some w) f = w.toNumber.map fun n => .number (f n) := if_neg hfalsy
      rw [hmap, PlainScaled, or_iff_right hfalsy]
      constructor
      · rintro ⟨r, hr, hhonest⟩
        obtain ⟨n, hn, rfl⟩ := Option.map_eq_some_iff.mp hr
        rcases hhonest with ⟨⟨⟩⟩ | ⟨y, x, hy, hx, hzero⟩
        have hnumber := toNumber_eq hx
        obtain rfl : n = .finite x := Option.some.inj (hn.symm.trans hnumber)
        exact ⟨x, y, hx, Field.number.inj hy, hzero⟩
      · rintro ⟨x, y, hx, hy, hzero⟩
        refine ⟨.number (f (.finite x)), by rw [toNumber_eq hx]; rfl, .inr ⟨y, x, ?_, hx, hzero⟩⟩
        exact congrArg Field.number hy

end OpenUI.WebApp.Js
