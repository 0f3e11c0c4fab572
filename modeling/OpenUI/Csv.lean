import Mathlib.Data.List.Basic
import Mathlib.Data.List.Flatten

/-!
# `OpenUI.Csv`: one record of comma-separated values

The record of RFC 4180, read in one pass (`readRecord`), and the writers it is meant for: a field is
written as it is, or in quotes with each quote doubled. A field is text without separators, quotes
and line breaks, in any character set, or it stands in quotes, where everything may occur.

* `readRecord_written_iff`: a record is read back exactly if every field that is written as it is
  has only such text. A field that begins with a quote is never read back as it is
  (`scan_raw_quote`), because the quotes at its beginning would have to be doubled.
-/

set_option autoImplicit false

namespace OpenUI.Csv

/-- What a field may hold without quotes: `TEXTDATA`. -/
def isTextData (c : Char) : Bool := c != ',' && c != '"' && c != '\r' && c != '\n'

/-- Where the reader is. -/
inductive State where
  /-- In a field without quotes, after its first characters. -/
  | plain (begun : List Char)
  /-- Within quotes. -/
  | quoted (begun : List Char)
  /-- After a quote within quotes: it closes the field, or is the first of two. -/
  | closed (begun : List Char)

/-- The fields from here on, if the rest is one record. -/
def scan : State → List Char → Option (List (List Char))
  | .plain begun, [] => some [begun]
  | .plain begun, c :: cs =>
    if c = ',' then (scan (.plain []) cs).map (begun :: ·)
    else if c = '"' ∧ begun = [] then scan (.quoted []) cs
    else if isTextData c then scan (.plain (begun ++ [c])) cs
    else none
  | .quoted _, [] => none
  | .quoted begun, c :: cs =>
    if c = '"' then scan (.closed begun) cs else scan (.quoted (begun ++ [c])) cs
  | .closed begun, [] => some [begun]
  | .closed begun, c :: cs =>
    if c = ',' then (scan (.plain []) cs).map (begun :: ·)
    else if c = '"' then scan (.quoted (begun ++ ['"'])) cs
    else none

attribute [local simp] scan

/-- The fields of one record. -/
def readRecord (text : List Char) : Option (List (List Char)) := scan (.plain []) text

/-- Each quote doubled. -/
def double (value : List Char) : List Char :=
  value.flatMap fun c => if c = '"' then ['"', '"'] else [c]

/-- A field in quotes. -/
def quote (value : List Char) : List Char := '"' :: (double value ++ ['"'])

/-- A field as a writer leaves it. -/
structure Field where
  quoted : Bool
  value : List Char

/-- The text of a field. -/
def Field.text (f : Field) : List Char := if f.quoted then quote f.value else f.value

/-- A field that is written as it is needs to be text. -/
def Field.Plain (f : Field) : Prop := f.quoted = false → f.value.all isTextData = true

/-- The text of a record. -/
def recordText (fields : List Field) : List Char :=
  List.intercalate [','] (fields.map Field.text)

/-- What follows a field: the end of the text, or a comma. -/
def Ends (rest : List Char) : Prop := rest = [] ∨ ∃ more, rest = ',' :: more

/-! ### Fields that are read back -/

/-- Text is collected. -/
theorem scan_text {value : List Char} (h : value.all isTextData = true) (begun rest : List Char) :
    scan (.plain begun) (value ++ rest) = scan (.plain (begun ++ value)) rest := by
  induction value generalizing begun with
  | nil => simp
  | cons c value ih =>
    rw [List.all_cons, Bool.and_eq_true] at h
    have hc := h.1
    simp only [isTextData, Bool.and_eq_true, bne_iff_ne, ne_eq] at hc
    rw [List.cons_append, scan, if_neg hc.1.1.1, if_neg (fun hq => hc.1.1.2 hq.1), if_pos h.1,
      ih h.2, List.append_assoc]
    rfl

/-- Doubled quotes are read as one. -/
theorem scan_double (value begun rest : List Char) :
    scan (.quoted begun) (double value ++ rest) = scan (.quoted (begun ++ value)) rest := by
  induction value generalizing begun with
  | nil => simp [double]
  | cons c value ih =>
    have hcons : double (c :: value) = (if c = '"' then ['"', '"'] else [c]) ++ double value := rfl
    rw [hcons]
    by_cases hc : c = '"'
    · subst hc
      show scan (.quoted begun) ('"' :: '"' :: (double value ++ rest)) = _
      rw [scan, if_pos rfl, scan, if_neg (by decide), if_pos rfl, ih, List.append_assoc]
      rfl
    · rw [if_neg hc]
      show scan (.quoted begun) (c :: (double value ++ rest)) = _
      rw [scan, if_neg hc, ih, List.append_assoc]
      rfl

/-- A plain field is read back, and the reader goes on after it. -/
theorem scan_field {f : Field} (h : f.Plain) {rest : List Char} (hr : Ends rest) :
    scan (.plain []) (f.text ++ rest) = scan (.closed f.value) rest := by
  unfold Field.text
  cases hq : f.quoted with
  | true =>
    have htext : quote f.value ++ rest = '"' :: (double f.value ++ '"' :: rest) := by
      simp [quote]
    rw [if_pos rfl, htext, scan, if_neg (by decide), if_pos ⟨rfl, rfl⟩, scan_double, List.nil_append,
      scan, if_pos rfl]
  | false =>
    rw [if_neg (by decide), scan_text (h hq), List.nil_append]
    rcases hr with hr | ⟨more, hr⟩
    · rw [hr]
      rfl
    · rw [hr, scan, scan, if_pos rfl, if_pos rfl]

/-! ### Fields that are not -/

/-- Within quotes, and after one, what is read as a field has its quotes doubled in the text. -/
theorem scan_inverse (cs : List Char) (begun value : List Char) (more : List (List Char)) :
    (scan (.quoted begun) cs = some (value :: more) →
      ∃ u rest, value = begun ++ u ∧ cs = double u ++ '"' :: rest) ∧
    (scan (.closed begun) cs = some (value :: more) → value = begun ∨
      ∃ u rest, value = begun ++ '"' :: u ∧ cs = '"' :: (double u ++ '"' :: rest)) := by
  induction cs generalizing begun with
  | nil =>
    constructor
    · intro h
      cases h
    · intro h
      cases h
      exact .inl rfl
  | cons c cs ih =>
    constructor
    · intro h
      rw [scan] at h
      split at h
      · next hc =>
        subst hc
        rcases (ih begun).2 h with hv | ⟨u, rest, hv, hcs⟩
        · exact ⟨[], cs, by rw [hv, List.append_nil], rfl⟩
        · exact ⟨'"' :: u, rest, hv, by rw [hcs]; rfl⟩
      · next hc =>
        obtain ⟨u, rest, hv, hcs⟩ := (ih (begun ++ [c])).1 h
        refine ⟨c :: u, rest, ?_, ?_⟩
        · rw [hv, List.append_assoc]
          rfl
        · have hcons : double (c :: u) = c :: double u := by
            show (if c = '"' then ['"', '"'] else [c]) ++ double u = c :: double u
            rw [if_neg hc]
            rfl
          rw [hcons, hcs]
          rfl
    · intro h
      rw [scan] at h
      split at h
      · obtain ⟨fields, -, hfields⟩ := Option.map_eq_some_iff.mp h
        cases hfields
        exact .inl rfl
      · split at h
        · next hc =>
          subst hc
          obtain ⟨u, rest, hv, hcs⟩ := (ih (begun ++ ['"'])).1 h
          refine .inr ⟨u, rest, ?_, by rw [hcs]⟩
          rw [hv, List.append_assoc]
          rfl
        · cases h

/-- The quotes at the beginning of a text are not all doubled in itself. -/
theorem append_ne_double (post : List Char) {rest : List Char} (hr : Ends rest) (n : Nat)
    (tail : List Char) :
    post ++ rest ≠ List.replicate (n + 1) '"' ++ (double post ++ tail) := by
  induction post generalizing n with
  | nil =>
    intro h
    rcases hr with hr | ⟨more, hr⟩
    · rw [hr] at h
      cases h
    · rw [hr] at h
      cases h
  | cons c post ih =>
    intro h
    rw [List.replicate_succ, List.cons_append, List.cons_append, List.cons.injEq] at h
    obtain ⟨hc, hrest⟩ := h
    subst hc
    have hmore : List.replicate n '"' ++ (double ('"' :: post) ++ tail) =
        List.replicate (n + 1 + 1) '"' ++ (double post ++ tail) := by
      rw [List.replicate_add n 2, List.append_assoc]
      rfl
    exact ih (n + 1) (hrest.trans hmore)

/-- A field that begins with a quote is not read back as it is. -/
theorem scan_raw_quote (post : List Char) {rest : List Char} (hr : Ends rest)
    (more : List (List Char)) :
    scan (.plain []) ('"' :: post ++ rest) ≠ some (('"' :: post) :: more) := by
  intro h
  rw [List.cons_append, scan, if_neg (by decide), if_pos ⟨rfl, rfl⟩] at h
  obtain ⟨u, tail, hu, hcs⟩ := (scan_inverse _ [] _ more).1 h
  rw [List.nil_append] at hu
  subst hu
  exact append_ne_double post hr 1 ('"' :: tail) hcs

/-- Nor is another one that is not text. -/
theorem scan_raw {value : List Char} (h : ¬ value.all isTextData = true) (begun : List Char)
    (hq : begun ≠ [] ∨ value.head? ≠ some '"') (rest : List Char) (more : List (List Char)) :
    scan (.plain begun) (value ++ rest) ≠ some ((begun ++ value) :: more) := by
  induction value generalizing begun with
  | nil => exact absurd rfl h
  | cons c value ih =>
    intro hs
    rw [List.cons_append, scan] at hs
    split at hs
    · -- A comma ends the field too early.
      obtain ⟨fields, -, hfields⟩ := Option.map_eq_some_iff.mp hs
      have hself := (List.cons.inj hfields).1
      exact List.cons_ne_nil c value (List.append_cancel_left (hself.symm.trans
        (List.append_nil begun).symm))
    · split at hs
      · next hquote =>
        rcases hq with hq | hq
        · exact hq hquote.2
        · exact hq (by rw [hquote.1]; rfl)
      · split at hs
        · next hc =>
          have hvalue : ¬ value.all isTextData = true := by
            intro hall
            exact h (by rw [List.all_cons, hc, hall]; rfl)
          refine ih hvalue (begun ++ [c]) (.inl (by simp)) ?_
          rw [List.append_assoc]
          exact hs
        · cases hs

/-- A field that is written as it is and is not text is not read back. -/
theorem scan_not_plain {f : Field} (h : ¬ f.Plain) {rest : List Char} (hr : Ends rest)
    (more : List (List Char)) : scan (.plain []) (f.text ++ rest) ≠ some (f.value :: more) := by
  have hparts : f.quoted = false ∧ ¬ f.value.all isTextData = true := by
    simpa only [Field.Plain, Classical.not_imp] using h
  have htext : f.text = f.value := by
    rw [Field.text, hparts.1]
    rfl
  rw [htext]
  by_cases hq : f.value.head? = some '"'
  · obtain ⟨post, hpost⟩ : ∃ post, f.value = '"' :: post := List.head?_eq_some_iff.mp hq
    rw [hpost]
    exact scan_raw_quote post hr more
  · exact scan_raw hparts.2 [] (.inr hq) rest more

/-! ### Records -/

/-- One field and what follows it. -/
theorem scan_field_iff {f : Field} {rest : List Char} (hr : Ends rest)
    (more : List (List Char)) :
    scan (.plain []) (f.text ++ rest) = some (f.value :: more) ↔
      f.Plain ∧ scan (.closed f.value) rest = some (f.value :: more) := by
  constructor
  · intro h
    have hplain : f.Plain := by
      by_contra hp
      exact scan_not_plain hp hr more h
    rw [scan_field hplain hr] at h
    exact ⟨hplain, h⟩
  · intro h
    rw [scan_field h.1 hr]
    exact h.2

/-- A record is read back exactly if each of its fields that is written as it is has only text. -/
theorem readRecord_written_iff {fields : List Field} (hne : fields ≠ []) :
    readRecord (recordText fields) = some (fields.map Field.value) ↔ ∀ f ∈ fields, f.Plain := by
  induction fields with
  | nil => exact absurd rfl hne
  | cons f fields ih =>
    cases fields with
    | nil =>
      have hone : readRecord (recordText [f]) = scan (.plain []) (f.text ++ []) := by
        simp [readRecord, recordText]
      rw [hone]
      show scan (.plain []) (f.text ++ []) = some (f.value :: []) ↔ _
      rw [scan_field_iff (.inl rfl)]
      simp [scan]
    | cons g fields =>
      have hmore : readRecord (recordText (f :: g :: fields)) =
          scan (.plain []) (f.text ++ ',' :: recordText (g :: fields)) := by
        simp [readRecord, recordText, List.intercalate_cons_cons]
      have htail : scan (.closed f.value) (',' :: recordText (g :: fields)) =
            some (f.value :: (g :: fields).map Field.value) ↔
          readRecord (recordText (g :: fields)) = some ((g :: fields).map Field.value) := by
        rw [scan, if_pos rfl]
        show (readRecord (recordText (g :: fields))).map _ = _ ↔ _
        simp
      rw [hmore, List.map_cons, scan_field_iff (.inr ⟨_, rfl⟩), htail, ih (List.cons_ne_nil g fields)]
      exact List.forall_mem_cons.symm

end OpenUI.Csv
