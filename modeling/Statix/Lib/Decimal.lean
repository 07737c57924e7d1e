import Mathlib.Algebra.Field.Rat
import Mathlib.Data.Rat.Cast.Defs
import Mathlib.Tactic.FieldSimp
import Mathlib.Tactic.Ring

/-!
# Decimal literals

`f64::from_str` of the Rust standard library with exact results: `parseF64` accepts an optional sign
and `inf`, `infinity`, `nan` or a decimal number with an optional exponent, and gives the rational the
literal stands for in place of the nearest double.

* `Mantissa`, `Exponent`: the parts of a literal, which carry that they are well formed.
* **`parseF64_text`**: what is parsed of a mantissa and what follows it.
-/

namespace Statix.Lib

/-- A double, exact where it is finite. -/
inductive F64 where
  | finite (x : ℚ)
  | infinite (negative : Bool)
  | nan

/-- A product with a positive number. -/
def F64.scale (factor : ℚ) : F64 → F64
  | .finite x => .finite (x * factor)
  | x => x

/-! ## The parser -/

/-- The number the digits stand for. -/
def digitsValue (digits : List Char) : Nat := Nat.ofDigitChars 10 digits 0

/-- One digit or more. -/
def parseDigits (s : List Char) : Option Nat :=
  if s ≠ [] ∧ s.all Char.isDigit then some (digitsValue s) else none

/-- Digits with an optional sign. -/
def parseInteger : List Char → Option ℤ
  | '-' :: s => (parseDigits s).map fun n => -(n : ℤ)
  | '+' :: s => (parseDigits s).map fun n => (n : ℤ)
  | s => (parseDigits s).map fun n => (n : ℤ)

/-- What follows the number. -/
def parseExponent : List Char → Option ℤ
  | [] => some 0
  | c :: s => if c = 'e' ∨ c = 'E' then parseInteger s else none

/-- The digits after the point, and what follows them. -/
def splitFraction : List Char → List Char × List Char
  | '.' :: s => (s.takeWhile Char.isDigit, s.dropWhile Char.isDigit)
  | s => ([], s)

/-- A decimal number. -/
def parseNumber (s : List Char) : Option ℚ :=
  let whole := s.takeWhile Char.isDigit
  let (frac, rest) := splitFraction (s.dropWhile Char.isDigit)
  if whole = [] ∧ frac = [] then none
  else (parseExponent rest).map fun e => digitsValue (whole ++ frac) * 10 ^ (e - (frac.length : ℤ))

/-- The sign of a literal, and what follows it. -/
def splitSign : List Char → Bool × List Char
  | '-' :: s => (true, s)
  | '+' :: s => (false, s)
  | s => (false, s)

/-- `str::parse::<f64>`. -/
def parseF64 (s : List Char) : Option F64 :=
  let (negative, rest) := splitSign s
  let word := rest.map Char.toLower
  if word = "inf".toList ∨ word = "infinity".toList then some (.infinite negative)
  else if word = "nan".toList then some .nan
  else (parseNumber rest).map fun x => .finite (if negative then -x else x)

/-! ## Literals -/

/-- A number without sign and exponent: digits before or after the point, or both. -/
structure Mantissa where
  whole : List Char
  frac : Option (List Char)
  wholeDigits : ∀ c ∈ whole, c.isDigit = true
  fracDigits : ∀ c ∈ frac.getD [], c.isDigit = true
  nonempty : whole ≠ [] ∨ frac.getD [] ≠ []

namespace Mantissa

/-- The point and what follows it. -/
def fracText (m : Mantissa) : List Char :=
  match m.frac with
  | none => []
  | some f => '.' :: f

def text (m : Mantissa) : List Char := m.whole ++ m.fracText

def value (m : Mantissa) : ℚ :=
  digitsValue m.whole + digitsValue (m.frac.getD []) / 10 ^ (m.frac.getD []).length

end Mantissa

/-- A decimal exponent. -/
structure Exponent where
  upper : Bool
  /-- Whether there is a sign, and whether it is a minus. -/
  sign : Option Bool
  digits : List Char
  isDigits : ∀ c ∈ digits, c.isDigit = true
  nonempty : digits ≠ []

namespace Exponent

def signText (e : Exponent) : List Char :=
  match e.sign with
  | none => []
  | some negative => if negative then ['-'] else ['+']

def text (e : Exponent) : List Char := (if e.upper then 'E' else 'e') :: (e.signText ++ e.digits)

def value (e : Exponent) : ℤ :=
  if e.sign = some true then -(digitsValue e.digits : ℤ) else digitsValue e.digits

end Exponent

variable {s t digits : List Char} {c : Char}

/-! ## The characters of a literal -/

theorem Mantissa.mem_text (m : Mantissa) (h : c ∈ m.text) :
    c.isDigit = true ∨ c = '.' := by
  have hdigits := m.fracDigits
  unfold Mantissa.text Mantissa.fracText at h
  rcases List.mem_append.mp h with h | h
  · exact Or.inl (m.wholeDigits c h)
  · cases hfrac : m.frac with
    | none =>
      rw [hfrac] at h
      cases h
    | some f =>
      rw [hfrac] at h hdigits
      rcases List.mem_cons.mp h with rfl | h
      · exact Or.inr rfl
      · exact Or.inl (hdigits c h)

theorem Exponent.mem_text (e : Exponent) (h : c ∈ e.text) :
    c.isDigit = true ∨ c ∈ ['e', 'E', '+', '-'] := by
  unfold Exponent.text Exponent.signText at h
  rcases List.mem_cons.mp h with rfl | h
  · right
    cases e.upper <;> decide
  · rcases List.mem_append.mp h with h | h
    · right
      rcases hsign : e.sign with _ | _ | _
      · rw [hsign] at h
        cases h
      · rw [hsign] at h
        rw [List.mem_singleton.mp h]
        decide
      · rw [hsign] at h
        rw [List.mem_singleton.mp h]
        decide
    · exact Or.inl (e.isDigits c h)

/-! ## Digits -/

/-- The list does not begin with a digit. -/
def NoDigit (s : List Char) : Prop := ∀ c ∈ s.head?, c.isDigit = false

theorem takeWhile_digits (h : ∀ c ∈ digits, c.isDigit = true) (hs : NoDigit s) :
    (digits ++ s).takeWhile Char.isDigit = digits := by
  rw [List.takeWhile_append_of_pos h]
  cases s with
  | nil => simp
  | cons c s => simp [hs c rfl]

theorem dropWhile_digits (h : ∀ c ∈ digits, c.isDigit = true) (hs : NoDigit s) :
    (digits ++ s).dropWhile Char.isDigit = s := by
  rw [List.dropWhile_append_of_pos h]
  cases s with
  | nil => rfl
  | cons c s => exact List.dropWhile_cons_of_neg (by rw [hs c rfl]; decide)

theorem digitsValue_append (s t : List Char) :
    digitsValue (s ++ t) = 10 ^ t.length * digitsValue s + digitsValue t := by
  unfold digitsValue
  rw [Nat.ofDigitChars_append, Nat.ofDigitChars_eq_ofDigitChars_zero]

theorem parseDigits_of_digits (h : ∀ c ∈ digits, c.isDigit = true) (hne : digits ≠ []) :
    parseDigits digits = some (digitsValue digits) := by
  unfold parseDigits
  exact if_pos ⟨hne, List.all_eq_true.mpr h⟩

theorem parseInteger_of_digits (h : ∀ c ∈ digits, c.isDigit = true) (hne : digits ≠ []) :
    parseInteger digits = some (digitsValue digits : ℤ) := by
  have hsome := parseDigits_of_digits h hne
  unfold parseInteger
  split
  · exact absurd (h '-' List.mem_cons_self) (by decide)
  · exact absurd (h '+' List.mem_cons_self) (by decide)
  · rw [hsome]
    rfl

theorem parseExponent_text (e : Exponent) : parseExponent e.text = some e.value := by
  have hletter : (if e.upper then 'E' else 'e') = 'e' ∨ (if e.upper then 'E' else 'e') = 'E' := by
    cases e.upper
    · exact Or.inl rfl
    · exact Or.inr rfl
  have hdigits := parseDigits_of_digits e.isDigits e.nonempty
  have hrest : parseExponent e.text = parseInteger (e.signText ++ e.digits) := if_pos hletter
  rw [hrest]
  unfold Exponent.signText Exponent.value
  rcases e.sign with _ | _ | _
  · exact parseInteger_of_digits e.isDigits e.nonempty
  · simp [parseInteger, hdigits]
  · simp [parseInteger, hdigits]

/-! ## Numbers -/

/-- The list begins neither with a digit nor with a point. -/
def Ends (s : List Char) : Prop := ∀ c ∈ s.head?, c.isDigit = false ∧ c ≠ '.'

theorem Ends.noDigit (h : Ends s) : NoDigit s := fun c hc => (h c hc).1

theorem splitFraction_of_ends (hs : Ends s) : splitFraction s = ([], s) := by
  unfold splitFraction
  split
  · exact absurd rfl (hs '.' (by rfl)).2
  · rfl

/-- **What is parsed of a number and what follows it.** -/
theorem parseNumber_text (m : Mantissa) (hs : Ends s) :
    parseNumber (m.text ++ s) = (parseExponent s).map fun e => m.value * 10 ^ e := by
  have hrest : NoDigit (m.fracText ++ s) := by
    unfold Mantissa.fracText
    cases m.frac with
    | none => exact hs.noDigit
    | some f =>
      rintro c ⟨⟩
      rfl
  have hwhole : (m.text ++ s).takeWhile Char.isDigit = m.whole := by
    rw [Mantissa.text, List.append_assoc]
    exact takeWhile_digits m.wholeDigits hrest
  have hafter : (m.text ++ s).dropWhile Char.isDigit = m.fracText ++ s := by
    rw [Mantissa.text, List.append_assoc]
    exact dropWhile_digits m.wholeDigits hrest
  have hsplit : splitFraction (m.fracText ++ s) = (m.frac.getD [], s) := by
    unfold Mantissa.fracText
    cases hfrac : m.frac with
    | none => exact splitFraction_of_ends hs
    | some f =>
      have hdigits : ∀ c ∈ f, c.isDigit = true := by
        have := m.fracDigits
        rwa [hfrac] at this
      show (List.takeWhile _ (f ++ s), List.dropWhile _ (f ++ s)) = (f, s)
      rw [takeWhile_digits hdigits hs.noDigit, dropWhile_digits hdigits hs.noDigit]
  have hsome : ¬ (m.whole = [] ∧ m.frac.getD [] = []) := by
    rintro ⟨hw, hf⟩
    exact m.nonempty.elim (fun h => h hw) fun h => h hf
  have hvalue : ∀ e : ℤ, (digitsValue (m.whole ++ m.frac.getD []) : ℚ) *
      10 ^ (e - ((m.frac.getD []).length : ℤ)) = m.value * 10 ^ e := by
    intro e
    rw [digitsValue_append, zpow_sub₀ (by norm_num), zpow_natCast]
    unfold Mantissa.value
    push_cast
    field_simp
  unfold parseNumber
  simp only [hwhole, hafter, hsplit]
  rw [if_neg hsome]
  simp only [hvalue]

/-- A number begins with a digit or a point. -/
theorem text_cons (m : Mantissa) (s : List Char) :
    ∃ c rest, m.text ++ s = c :: rest ∧ (c.isDigit = true ∨ c = '.') := by
  obtain ⟨whole, frac, hwhole, hfrac, hne⟩ := m
  cases whole with
  | cons c whole => exact ⟨c, _, rfl, Or.inl (hwhole c List.mem_cons_self)⟩
  | nil =>
    cases frac with
    | none => exact absurd rfl (hne.resolve_left fun h => h rfl)
    | some f => exact ⟨'.', f ++ s, rfl, Or.inr rfl⟩

theorem splitSign_of_start (hc : c.isDigit = true ∨ c = '.') (s : List Char) :
    splitSign (c :: s) = (false, c :: s) := by
  unfold splitSign
  split
  · rename_i heq
    obtain ⟨rfl, -⟩ := List.cons.inj heq
    exact absurd hc (by decide)
  · rename_i heq
    obtain ⟨rfl, -⟩ := List.cons.inj heq
    exact absurd hc (by decide)
  · rfl

theorem toLower_of_start (hc : c.isDigit = true ∨ c = '.') : c.toLower = c := by
  rcases hc with hc | rfl
  · have hle : c.val ≤ '9'.val := (by simpa [Char.isDigit] using hc : _ ∧ c.val ≤ '9'.val).2
    refine dif_neg fun h => ?_
    exact absurd (UInt32.le_trans h.1 hle) (by decide)
  · rfl

/-- **What is parsed of a number with or without a plus, and what follows it.** -/
theorem parseF64_text (plus : Bool) (m : Mantissa) (hs : Ends s) :
    parseF64 ((if plus then ['+'] else []) ++ m.text ++ s) =
      (parseExponent s).map fun e => .finite (m.value * 10 ^ e) := by
  obtain ⟨c, rest, htext, hc⟩ := text_cons m s
  have hsign : splitSign ((if plus then ['+'] else []) ++ m.text ++ s) = (false, m.text ++ s) := by
    cases plus with
    | true => rfl
    | false =>
      show splitSign (m.text ++ s) = _
      rw [htext]
      exact splitSign_of_start hc rest
  have hword : ∀ {d : Char} {word : List Char}, ¬ (d.isDigit = true ∨ d = '.') →
      (m.text ++ s).map Char.toLower ≠ d :: word := by
    intro d word hd h
    rw [htext, List.map_cons, toLower_of_start hc] at h
    exact hd ((List.cons.inj h).1 ▸ hc)
  unfold parseF64
  simp only [hsign]
  rw [if_neg, if_neg, parseNumber_text m hs, Option.map_map]
  · rfl
  · exact hword (by decide)
  · rintro (h | h)
    · exact hword (by decide) h
    · exact hword (by decide) h

end Statix.Lib
