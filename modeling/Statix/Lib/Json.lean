import Mathlib.Data.List.Basic

/-!
# Compact JSON text

A writer of JSON without white space, as a list of characters: numbers, strings with their escapes,
arrays and objects of values already written. `utf8` gives the bytes of a text.
-/

namespace Statix.Lib.Json

/-- A text that is being written. -/
abbrev Text := List Char

/-- The bytes of a text in UTF-8. -/
def utf8 (t : Text) : List UInt8 := t.flatMap String.utf8EncodeChar

/-- A natural number in decimal. -/
def nat (n : Nat) : Text := (toString n).toList

/-- `true` or `false`. -/
def bool (b : Bool) : Text := (if b then "true" else "false").toList

/-- A character of a string: the quote, the backslash and the control characters are escaped. -/
def escape (c : Char) : Text :=
  match c.toNat with
  | 0x22 => ['\\', '"']
  | 0x5c => ['\\', '\\']
  | 0x08 => ['\\', 'b']
  | 0x0c => ['\\', 'f']
  | 0x0a => ['\\', 'n']
  | 0x0d => ['\\', 'r']
  | 0x09 => ['\\', 't']
  | n =>
    if n < 0x20 then ['\\', 'u', '0', '0', Nat.digitChar (n / 16), Nat.digitChar (n % 16)]
    else [c]

/-- A string. -/
def string (s : String) : Text := ['"'] ++ s.toList.flatMap escape ++ ['"']

/-- An array of values. -/
def array (values : List Text) : Text := ['['] ++ [','].intercalate values ++ [']']

/-- An object with these fields, in this order. -/
def object (fields : List (String × Text)) : Text :=
  ['\x7b'] ++ [','].intercalate (fields.map fun (name, value) => string name ++ [':'] ++ value) ++
    ['\x7d']

theorem array_ne_nil {value : Text} (h : value ≠ []) : array [value] ≠ array [] := by
  intro e
  have hlen := congrArg List.length e
  simp [array, List.intercalate] at hlen
  exact h hlen

theorem object_ne_nil (fields : List (String × Text)) : object fields ≠ [] := by
  simp [object]

end Statix.Lib.Json
