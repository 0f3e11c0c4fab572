import OpenUI.Text

/-!
# `OpenUI.Json`: `serde_json::Value`

The agent and its helper talk in JSON lines, and the agent's state files are JSON. Programs
index a value by key and read a leaf; a missing key or a leaf of another type reads as `null`
or `none`. Printing and parsing of the text is left to serde_json.
-/

set_option autoImplicit false

namespace OpenUI.Json

/-- `serde_json::Value`. `num` is a non-negative integer, the only number `as_u64` reads;
`otherNum` is a negative or a fractional one. -/
inductive Value where
  | null
  | bool (b : Bool)
  | num (n : Nat)
  | otherNum
  | str (s : String)
  | arr (items : List Value)
  | obj (fields : List (String × Value))

namespace Value

/-- `v[key]`: `null` when `v` is no object or has no such key. -/
def get (v : Value) (key : String) : Value :=
  match v with
  | .obj fields => (fields.lookup key).getD .null
  | _ => .null

/-- `as_str`. -/
def asStr : Value → Option String
  | .str s => some s
  | _ => none

/-- `as_u64`. -/
def asU64 : Value → Option Nat
  | .num n => some n
  | _ => none

/-- `as_bool`. -/
def asBool : Value → Option Bool
  | .bool b => some b
  | _ => none

/-- `as_array`. -/
def asArray : Value → Option (List Value)
  | .arr items => some items
  | _ => none

/-- `v == true`. -/
def isTrue (v : Value) : Bool := v.asBool == some true

/-- The strings of an array, as `a.iter().filter_map(|h| h.as_str().map(String::from))`; empty
when `v` is no array. -/
def strings (v : Value) : List String := (v.asArray.getD []).filterMap asStr

/-- The numbers of an array, as `a.iter().filter_map(Value::as_u64)`; empty when `v` is no
array. -/
def numbers (v : Value) : List Nat := (v.asArray.getD []).filterMap asU64

/-- `json!(s)` of an optional string. -/
def ofOption : Option String → Value
  | some s => .str s
  | none => .null

/-- `json!(list)` of strings. -/
def ofStrings (xs : List String) : Value := .arr (xs.map .str)

/-- `json!(list)` of numbers. -/
def ofNumbers (xs : List Nat) : Value := .arr (xs.map .num)

/-- `v[key] = value` on an object. -/
def set (v : Value) (key : String) (value : Value) : Value :=
  match v with
  | .obj fields => .obj ((key, value) :: fields.filter (fun f => f.1 != key))
  | v => v

mutual

/-- The strings in a value, keys included. -/
def texts : Value → List String
  | .str s => [s]
  | .arr items => textsOfItems items
  | .obj fields => textsOfFields fields
  | _ => []

/-- The strings in the items of an array. -/
def textsOfItems : List Value → List String
  | [] => []
  | v :: vs => v.texts ++ textsOfItems vs

/-- The keys and the strings in the fields of an object. -/
def textsOfFields : List (String × Value) → List String
  | [] => []
  | (key, v) :: fields => key :: (v.texts ++ textsOfFields fields)

end

/-- A key that was set is read back, and the others stay. -/
theorem get_set {v : Value} (h : ∃ fields, v = .obj fields) (key key' : String) (value : Value) :
    (v.set key value).get key' = if key' = key then value else v.get key' := by
  obtain ⟨fields, rfl⟩ := h
  have hfilter : key' ≠ key →
      (fields.filter (fun f => f.1 != key)).lookup key' = fields.lookup key' := by
    intro hk
    induction fields with
    | nil => rfl
    | cons f fs ih =>
      by_cases hf : f.1 = key
      · rw [List.filter_cons_of_neg (by simp [hf]), ih, List.lookup_cons, hf,
          beq_eq_false_iff_ne.mpr hk]
      · rw [List.filter_cons_of_pos (by simp [hf]), List.lookup_cons, List.lookup_cons, ih]
  simp only [set, get, List.lookup_cons]
  by_cases hk : key' = key
  · simp [hk]
  · rw [if_neg hk, beq_eq_false_iff_ne.mpr hk, hfilter hk]

/-- Setting a key of an object leaves an object. -/
theorem set_obj {v : Value} (h : ∃ fields, v = .obj fields) (key : String) (value : Value) :
    ∃ fields, v.set key value = .obj fields := by
  obtain ⟨fields, rfl⟩ := h
  exact ⟨_, rfl⟩

@[simp] theorem strings_ofStrings (xs : List String) : (ofStrings xs).strings = xs := by
  simp only [strings, ofStrings, asArray, Option.getD_some, List.filterMap_map]
  exact List.filterMap_some

@[simp] theorem numbers_ofNumbers (xs : List Nat) : (ofNumbers xs).numbers = xs := by
  simp only [numbers, ofNumbers, asArray, Option.getD_some, List.filterMap_map]
  exact List.filterMap_some

end Value

/-- `opt_text`: a string that is not blank, without white space around it. -/
def optText (v : Value) : Option String :=
  (v.asStr.map Text.trim).filter (fun s => !s.isEmpty)

/-- `opt_text` reads a text back that is not empty and has no white space in it. -/
theorem optText_str {s : String} (hne : s.isEmpty = false)
    (h : ∀ c ∈ s.toList, Text.isWhitespace c = false) : optText (.str s) = some s := by
  simp [optText, Value.asStr, Text.trim_eq_self h, hne]

/-- What `opt_text` reads, it reads back. -/
theorem optText_read {v : Value} {s : String} (h : optText v = some s) :
    optText (.str s) = some s := by
  obtain ⟨ht, hne⟩ := Option.filter_eq_some_iff.mp h
  obtain ⟨raw, -, rfl⟩ := Option.map_eq_some_iff.mp ht
  rw [optText, Value.asStr, Option.map_some, Text.trim_trim, Option.filter_some, if_pos hne]

end OpenUI.Json
