import Statix.Attribution.Host
import Statix.Attribution.Search

/-!
# Kubernetes quantities

Which quantities the readers of `Resources.lean` take for what they are
(`statix/src/attribution/mod.rs:530-589`).

* `Amount`: a non-negative quantity of the Kubernetes grammar, with its text and its value.
* `ReadAsCpu`, `ReadAsMemory`: the suffixes the two readers know.
* `cpuMillicores_text`, `memoryBytes_text`: what each reader makes of the text of an amount.

Result:

* **`quantities_read_iff`**: an amount is read as its value exactly if its suffix is known.
-/

namespace Statix.Attribution

open Statix.Lib
open Statix.Rollup (Resources)

/-! ## Amounts -/

/-- What may follow the number of a quantity. -/
inductive Suffix where
  | nano
  | micro
  | milli
  | one
  | kilo
  | mega
  | giga
  | tera
  | peta
  | exa
  | kibi
  | mebi
  | gibi
  | tebi
  | pebi
  | exbi
  | exponent (e : Exponent)

namespace Suffix

def text : Suffix → Text
  | .nano => ['n']
  | .micro => ['u']
  | .milli => ['m']
  | .one => []
  | .kilo => ['k']
  | .mega => ['M']
  | .giga => ['G']
  | .tera => ['T']
  | .peta => ['P']
  | .exa => ['E']
  | .kibi => ['K', 'i']
  | .mebi => ['M', 'i']
  | .gibi => ['G', 'i']
  | .tebi => ['T', 'i']
  | .pebi => ['P', 'i']
  | .exbi => ['E', 'i']
  | .exponent e => e.text

def factor : Suffix → ℚ
  | .nano => 1 / 10 ^ 9
  | .micro => 1 / 10 ^ 6
  | .milli => 1 / 10 ^ 3
  | .one => 1
  | .kilo => 10 ^ 3
  | .mega => 10 ^ 6
  | .giga => 10 ^ 9
  | .tera => 10 ^ 12
  | .peta => 10 ^ 15
  | .exa => 10 ^ 18
  | .kibi => 2 ^ 10
  | .mebi => 2 ^ 20
  | .gibi => 2 ^ 30
  | .tebi => 2 ^ 40
  | .pebi => 2 ^ 50
  | .exbi => 2 ^ 60
  | .exponent e => 10 ^ e.value

/-- The suffixes `cpu_millicores` reads. -/
def ReadAsCpu : Suffix → Prop
  | .milli | .one | .exponent _ => True
  | _ => False

/-- The suffixes `memory_bytes` reads. -/
def ReadAsMemory : Suffix → Prop
  | .nano | .micro | .milli => False
  | _ => True

end Suffix

/-- **A non-negative quantity** of the Kubernetes grammar. -/
structure Amount where
  plus : Bool
  number : Mantissa
  suffix : Suffix

namespace Amount

/-- The number with its sign. -/
def numberText (a : Amount) : Text := (if a.plus then ['+'] else []) ++ a.number.text

def text (a : Amount) : Text := a.numberText ++ a.suffix.text

def value (a : Amount) : ℚ := a.number.value * a.suffix.factor

end Amount

variable {a : Amount} {s t : Text} {v : Nat}

/-! ## The text of an amount -/

theorem trim_of_plain (h : ∀ c ∈ s, isWhitespace c = false) : trim s = s := by
  have hdrop : ∀ {t : Text}, (∀ c ∈ t, isWhitespace c = false) → t.dropWhile isWhitespace = t := by
    intro t ht
    cases t with
    | nil => rfl
    | cons c t => exact List.dropWhile_cons_of_neg (by rw [ht c List.mem_cons_self]; decide)
  unfold trim
  rw [hdrop h, hdrop fun c hc => h c (List.mem_reverse.mp hc), List.reverse_reverse]

theorem isWhitespace_of_digit {c : Char} (h : c.isDigit = true) : isWhitespace c = false := by
  have hrange : 48 ≤ c.toNat ∧ c.toNat ≤ 57 := by
    simpa [Char.isDigit, UInt32.le_iff_toNat_le] using h
  simp only [isWhitespace, Bool.or_eq_false_iff, Bool.and_eq_false_iff, decide_eq_false_iff_not,
    beq_eq_false_iff_ne]
  omega

/-- A character of the text of an amount: a digit, or one of the others it may have. -/
def AmountChar (c : Char) : Prop := c.isDigit = true ∨ c ∈ "+-.eEnumkMGTPKi".toList

theorem AmountChar.notWhitespace {c : Char} (h : AmountChar c) : isWhitespace c = false := by
  have hother : ("+-.eEnumkMGTPKi".toList.all fun c => !isWhitespace c) = true := by decide
  rcases h with h | h
  · exact isWhitespace_of_digit h
  · simpa using List.all_eq_true.mp hother c h

theorem Amount.mem_numberText {c : Char} (h : c ∈ a.numberText) :
    c.isDigit = true ∨ c = '.' ∨ c = '+' := by
  rcases List.mem_append.mp h with h | h
  · split at h
    · exact Or.inr (Or.inr (List.mem_singleton.mp h))
    · cases h
  · exact (a.number.mem_text h).imp_right Or.inl

theorem amountChar_of_all (h : (s.all fun c => "+-.eEnumkMGTPKi".toList.contains c) = true) {c : Char}
    (hc : c ∈ s) : AmountChar c :=
  Or.inr (List.contains_iff_mem.mp (List.all_eq_true.mp h c hc))

theorem Suffix.mem_text (s : Suffix) {c : Char} (h : c ∈ s.text) : AmountChar c := by
  cases s with
  | exponent e =>
    rcases e.mem_text h with hd | hletter
    · exact Or.inl hd
    · exact amountChar_of_all (by decide) hletter
  | _ => exact amountChar_of_all (by decide) h

/-- The text of an amount is not trimmed. -/
theorem trim_text (a : Amount) : trim a.text = a.text := by
  refine trim_of_plain fun c hc => AmountChar.notWhitespace ?_
  rcases List.mem_append.mp hc with h | h
  · rcases Amount.mem_numberText h with h | rfl | rfl
    · exact Or.inl h
    · exact Or.inr (by decide)
    · exact Or.inr (by decide)
  · exact Suffix.mem_text _ h

theorem Suffix.ends (s : Suffix) : Ends s.text := by
  cases s with
  | exponent e =>
    rintro c ⟨⟩
    cases e.upper <;> decide
  | one => nofun
  | _ =>
    rintro c ⟨⟩
    decide

/-- What is parsed of the number of an amount and its suffix. -/
theorem parseF64_suffix (a : Amount) (s : Suffix) : parseF64 (a.numberText ++ s.text) =
    (parseExponent s.text).map fun e => .finite (a.number.value * 10 ^ e) :=
  parseF64_text a.plus a.number s.ends

theorem parseF64_number (a : Amount) : parseF64 a.numberText = some (.finite a.number.value) := by
  have h := parseF64_suffix a .one
  simpa [Suffix.text, parseExponent] using h

theorem toU64_whole (hv : v < 2 ^ 64) : toU64 (.finite v) = some v := by
  have hfloor : ⌊(v : ℚ) + 1 / 2⌋ = v := by
    rw [Int.floor_natCast_add]
    norm_num
  have hround : roundU64 v = v := by
    unfold roundU64
    rw [hfloor]
    omega
  show (if (0 : ℚ) ≤ v then some (roundU64 v) else none) = some v
  rw [if_pos (Nat.cast_nonneg v), hround]

/-! ## CPU -/

theorem m_notMem_text (h : a.suffix ≠ .milli) : 'm' ∉ a.text := by
  intro hm
  rcases List.mem_append.mp hm with hm | hm
  · rcases Amount.mem_numberText hm with h' | h' | h' <;> cases h'
  · revert hm
    cases hs : a.suffix with
    | milli => exact absurd hs h
    | exponent e =>
      intro hm
      rcases e.mem_text hm with h' | h'
      · cases h'
      · exact absurd h' (by decide)
    | _ => decide

theorem numberText_ne_nil (a : Amount) : a.numberText ≠ [] := by
  intro hnil
  obtain ⟨c, rest, htext, -⟩ := text_cons a.number []
  rw [List.append_nil] at htext
  have hnumber := (List.append_eq_nil_iff.mp hnil).2
  rw [htext] at hnumber
  cases hnumber

/-- Without an `m` at the end the whole text is parsed. -/
theorem cpuMillicores_plain (h : a.suffix ≠ .milli) : cpuMillicores a.text =
    ((parseExponent a.suffix.text).map fun e =>
      F64.finite (a.number.value * 10 ^ e * 1000)).bind toU64 := by
  have hlen : 1 ≤ a.text.length := by
    rw [Amount.text, List.length_append]
    have := List.length_pos_iff.mpr (numberText_ne_nil a)
    omega
  have hstrip : stripSuffix "m".toList a.text = none :=
    stripSuffix_of_notMem (a := []) ⟨'m', by decide, m_notMem_text h⟩ hlen
  unfold cpuMillicores
  rw [trim_text]
  simp only [hstrip]
  rw [Amount.text, parseF64_suffix, Option.map_map]
  rfl

/-- **`cpu_millicores` reads its suffixes.** -/
theorem cpuMillicores_of_read (h : a.suffix.ReadAsCpu) :
    cpuMillicores a.text = toU64 (.finite (a.value * 1000)) := by
  cases hs : a.suffix with
  | milli =>
    have hstrip : stripSuffix "m".toList a.text = some a.numberText := by
      rw [Amount.text, hs]
      exact stripSuffix_append ['m'] a.numberText
    have hvalue : a.value * 1000 = a.number.value := by
      rw [Amount.value, hs, Suffix.factor]
      ring
    unfold cpuMillicores
    rw [trim_text]
    simp only [hstrip]
    rw [parseF64_number, hvalue]
    rfl
  | one =>
    have hvalue : a.value = a.number.value := by rw [Amount.value, hs, Suffix.factor, mul_one]
    rw [cpuMillicores_plain (by rw [hs]; nofun), hs, hvalue]
    simp [Suffix.text, parseExponent]
  | exponent e =>
    have hvalue : a.value = a.number.value * 10 ^ e.value := by rw [Amount.value, hs, Suffix.factor]
    rw [cpuMillicores_plain (by rw [hs]; nofun), hs, hvalue]
    show ((parseExponent e.text).map _).bind toU64 = _
    rw [parseExponent_text]
    rfl
  | _ =>
    rw [hs] at h
    exact h.elim

/-- The other suffixes are no exponents. -/
theorem cpuMillicores_of_unread (h : ¬ a.suffix.ReadAsCpu) : cpuMillicores a.text = none := by
  have hmilli : a.suffix ≠ .milli := fun hs => h (by rw [hs]; trivial)
  have hnone : parseExponent a.suffix.text = none := by
    cases hs : a.suffix with
    | milli => exact absurd hs hmilli
    | one | exponent e =>
      rw [hs] at h
      exact absurd trivial h
    | _ => rfl
  rw [cpuMillicores_plain hmilli, hnone]
  rfl

/-! ## Memory -/

/-- **A unit is split off its number.** -/
theorem splitUnit_unit {unit : Text} {factor : ℚ} (h : (unit, factor) ∈ units) (n : Text) :
    splitUnit (n ++ unit) = (n, factor) := by
  simp only [units, List.mem_cons, Prod.mk.injEq, List.not_mem_nil, or_false] at h
  rcases h with ⟨rfl, rfl⟩ | ⟨rfl, rfl⟩ | ⟨rfl, rfl⟩ | ⟨rfl, rfl⟩ | ⟨rfl, rfl⟩ | ⟨rfl, rfl⟩ |
    ⟨rfl, rfl⟩ | ⟨rfl, rfl⟩ | ⟨rfl, rfl⟩ | ⟨rfl, rfl⟩ | ⟨rfl, rfl⟩ | ⟨rfl, rfl⟩
  all_goals
    unfold splitUnit units
    simp (disch := decide) only [List.findSome?_cons, stripSuffix_of_disagree, stripSuffix_append,
      Option.map_none, Option.map_some, Option.getD_some]

/-- What ends in another character than a unit has no unit. -/
theorem splitUnit_plain {c : Char} (hc : c ∉ "ikMGTPE".toList) (n : Text) :
    splitUnit (n ++ [c]) = (n ++ [c], 1) := by
  have hlast : ∀ unit ∈ units, (unit.1.reverse.head?.any fun l => l ∈ "ikMGTPE".toList) = true := by
    decide
  have hnone : ∀ unit ∈ units, stripSuffix unit.1 (n ++ [c]) = none := by
    intro unit hunit
    refine stripSuffix_of_disagree n ?_
    have hl := hlast unit hunit
    unfold disagree
    cases hrev : unit.1.reverse with
    | nil =>
      rw [hrev] at hl
      cases hl
    | cons l rest =>
      rw [hrev] at hl
      have hmem : l ∈ "ikMGTPE".toList := by simpa using hl
      have hne : l ≠ c := fun h => hc (h ▸ hmem)
      simpa using hne
  have hfind : (units.findSome? fun unit =>
      (stripSuffix unit.1 (n ++ [c])).map fun number => (number, unit.2)) = none := by
    rw [List.findSome?_eq_none_iff]
    intro unit hunit
    rw [hnone unit hunit]
    rfl
  unfold splitUnit
  rw [hfind, Option.getD_none]

/-- A number, and a number with an exponent, end in a character of a number. -/
theorem splitUnit_number (h : a.suffix = .one ∨ ∃ e, a.suffix = .exponent e) :
    splitUnit a.text = (a.text, 1) := by
  have hend : ∀ {c : Char}, (c.isDigit = true ∨ c = '.' ∨ c = '+') → c ∉ "ikMGTPE".toList := by
    have hletters : ("ikMGTPE".toList.all fun c => !c.isDigit) = true := by decide
    rintro c (hc | rfl | rfl) hmem
    · have := List.all_eq_true.mp hletters c hmem
      rw [hc] at this
      cases this
    · exact absurd hmem (by decide)
    · exact absurd hmem (by decide)
  rcases h with h | ⟨e, h⟩
  · have hne := numberText_ne_nil a
    rw [Amount.text, h, Suffix.text, List.append_nil, ← List.dropLast_append_getLast hne]
    exact splitUnit_plain (hend (Amount.mem_numberText (List.getLast_mem hne))) _
  · have hdigit := e.isDigits _ (List.getLast_mem e.nonempty)
    have htext : a.text = (a.numberText ++ (if e.upper then 'E' else 'e') :: (e.signText ++
        e.digits.dropLast)) ++ [e.digits.getLast e.nonempty] := by
      rw [Amount.text, h, Suffix.text, Exponent.text]
      simp only [List.append_assoc, List.cons_append, List.dropLast_append_getLast]
    rw [htext]
    exact splitUnit_plain (hend (Or.inl hdigit)) _

/-- Where no unit is split off, the whole text is parsed. -/
theorem memoryBytes_plain (h : splitUnit a.text = (a.text, 1)) : memoryBytes a.text =
    ((parseExponent a.suffix.text).map fun e =>
      F64.finite (a.number.value * 10 ^ e * 1)).bind toU64 := by
  unfold memoryBytes
  rw [trim_text, h]
  simp only
  rw [Amount.text, parseF64_suffix, Option.map_map]
  rfl

theorem memoryBytes_unit (h : (a.suffix.text, a.suffix.factor) ∈ units) :
    memoryBytes a.text = toU64 (.finite a.value) := by
  unfold memoryBytes
  rw [trim_text, Amount.text, splitUnit_unit h]
  simp only
  rw [parseF64_number]
  rfl

/-- **`memory_bytes` reads its suffixes.** -/
theorem memoryBytes_of_read (h : a.suffix.ReadAsMemory) :
    memoryBytes a.text = toU64 (.finite a.value) := by
  cases hs : a.suffix with
  | one =>
    have hvalue : a.value = a.number.value := by rw [Amount.value, hs, Suffix.factor, mul_one]
    rw [memoryBytes_plain (splitUnit_number (Or.inl hs)), hs, hvalue]
    simp [Suffix.text, parseExponent]
  | exponent e =>
    have hvalue : a.value = a.number.value * 10 ^ e.value := by rw [Amount.value, hs, Suffix.factor]
    rw [memoryBytes_plain (splitUnit_number (Or.inr ⟨e, hs⟩)), hs, hvalue]
    show ((parseExponent e.text).map _).bind toU64 = _
    rw [parseExponent_text, Option.map_some, mul_one]
    rfl
  | nano | micro | milli =>
    rw [hs] at h
    exact h.elim
  | _ =>
    refine memoryBytes_unit ?_
    rw [hs]
    simp only [units, Suffix.text, Suffix.factor]
    norm_num
    rfl

theorem memoryBytes_of_unread (h : ¬ a.suffix.ReadAsMemory) : memoryBytes a.text = none := by
  cases hs : a.suffix with
  | nano | micro | milli =>
    have hplain : splitUnit a.text = (a.text, 1) := by
      rw [Amount.text, hs]
      exact splitUnit_plain (by decide) _
    rw [memoryBytes_plain hplain, hs]
    rfl
  | _ =>
    rw [hs] at h
    exact absurd trivial h

/-! ## Whole amounts -/

theorem cpuMillicores_whole_iff (hv : v < 2 ^ 64) (hvalue : a.value * 1000 = v) :
    cpuMillicores a.text = some v ↔ a.suffix.ReadAsCpu := by
  constructor
  · intro h
    by_contra hunread
    rw [cpuMillicores_of_unread hunread] at h
    cases h
  · intro h
    rw [cpuMillicores_of_read h, hvalue, toU64_whole hv]

theorem memoryBytes_whole_iff (hv : v < 2 ^ 64) (hvalue : a.value = v) :
    memoryBytes a.text = some v ↔ a.suffix.ReadAsMemory := by
  constructor
  · intro h
    by_contra hunread
    rw [memoryBytes_of_unread hunread] at h
    cases h
  · intro h
    rw [memoryBytes_of_read h, hvalue, toU64_whole hv]

/-- A field of `resources_from`: what is not read is 0. -/
theorem field_iff {q : Option Text} {read : Text → Option Nat} {P : Prop} (hq : q = some a.text)
    (hread : read a.text = some v ↔ P) (hunread : ¬ P → read a.text = none) :
    (q.bind read).getD 0 = v ↔ P ∨ v = 0 := by
  rw [hq, Option.bind_some]
  by_cases h : P
  · rw [hread.mpr h]
    exact ⟨fun _ => Or.inl h, fun _ => rfl⟩
  · rw [hunread h]
    exact ⟨fun e => Or.inr e.symm, fun e => (e.resolve_left h).symm⟩

/-- **When quantities are read in full.** An amount that is a whole number of millicores, or of bytes,
below `2 ^ 64` is read as that number exactly if the reader knows its suffix. Any other amount than
zero becomes zero in the resources. -/
theorem quantities_read_iff (a : Amount) {v : Nat} (hv : v < 2 ^ 64) :
    (a.value * 1000 = v →
      (cpuMillicores a.text = some v ↔ a.suffix.ReadAsCpu) ∧
      ∀ r : ResourceRequirements,
        (quantity r.requests "cpu" = some a.text →
          ((resourcesFrom (some r)).cpuRequestMillicores = v ↔ a.suffix.ReadAsCpu ∨ v = 0)) ∧
        (quantity r.limits "cpu" = some a.text →
          ((resourcesFrom (some r)).cpuLimitMillicores = v ↔ a.suffix.ReadAsCpu ∨ v = 0))) ∧
    (a.value = v →
      (memoryBytes a.text = some v ↔ a.suffix.ReadAsMemory) ∧
      ∀ r : ResourceRequirements,
        (quantity r.requests "memory" = some a.text →
          ((resourcesFrom (some r)).memoryRequestBytes = v ↔ a.suffix.ReadAsMemory ∨ v = 0)) ∧
        (quantity r.limits "memory" = some a.text →
          ((resourcesFrom (some r)).memoryLimitBytes = v ↔ a.suffix.ReadAsMemory ∨ v = 0))) := by
  refine ⟨fun hvalue => ?_, fun hvalue => ?_⟩
  · have hcpu := cpuMillicores_whole_iff hv hvalue
    exact ⟨hcpu, fun r => ⟨fun hq => field_iff hq hcpu cpuMillicores_of_unread,
      fun hq => field_iff hq hcpu cpuMillicores_of_unread⟩⟩
  · have hmemory := memoryBytes_whole_iff hv hvalue
    exact ⟨hmemory, fun r => ⟨fun hq => field_iff hq hmemory memoryBytes_of_unread,
      fun hq => field_iff hq hmemory memoryBytes_of_unread⟩⟩

/-- An amount with a whole number. -/
def wholeAmount (digits : Text) (h : digits.all Char.isDigit = true) (hne : digits ≠ [])
    (suffix : Suffix) : Amount where
  plus := false
  number := ⟨digits, none, List.all_eq_true.mp h, fun _ hc => absurd hc List.not_mem_nil, Or.inl hne⟩
  suffix := suffix

theorem value_wholeAmount (digits : Text) (h : digits.all Char.isDigit = true) (hne : digits ≠ [])
    (suffix : Suffix) :
    (wholeAmount digits h hne suffix).value = digitsValue digits * suffix.factor := by
  have hnil : digitsValue [] = 0 := rfl
  simp [wholeAmount, Amount.value, Mantissa.value, hnil]

/-- `250m` of a CPU. -/
theorem quantities_read_iff_250m : cpuMillicores "250m".toList = some 250 := by
  let a := wholeAmount "250".toList (by decide) (by decide) .milli
  have htext : a.text = "250m".toList := by decide
  have hdigits : digitsValue "250".toList = 250 := by decide
  have hvalue : a.value * 1000 = (250 : ℕ) := by
    rw [value_wholeAmount, hdigits, Suffix.factor]
    norm_num
  exact htext ▸ ((quantities_read_iff a (by decide)).1 hvalue).1.mpr trivial

/-- **A memory request of `128974848000m`, which is 128974848 bytes, counts as not set**, and so does
a CPU request of `1k`. -/
theorem suffixes_dropped :
    let memory := wholeAmount "128974848000".toList (by decide) (by decide) .milli
    let cpu := wholeAmount "1".toList (by decide) (by decide) .kilo
    let r : ResourceRequirements := ⟨some fun key =>
      if key = "memory".toList then some "128974848000m".toList
      else if key = "cpu".toList then some "1k".toList else none, none⟩
    memory.text = "128974848000m".toList ∧ memory.value = 128974848 ∧
      memoryBytes "128974848000m".toList = none ∧
      (resourcesFrom (some r)).memoryRequestBytes = 0 ∧
      cpu.text = "1k".toList ∧ cpu.value * 1000 = 1000000 ∧
      cpuMillicores "1k".toList = none ∧ (resourcesFrom (some r)).cpuRequestMillicores = 0 := by
  intro memory cpu r
  have hmemory : memory.text = "128974848000m".toList := by decide
  have hcpu : cpu.text = "1k".toList := by decide
  have hbytes : memoryBytes "128974848000m".toList = none :=
    hmemory ▸ memoryBytes_of_unread (a := memory) id
  have hmillicores : cpuMillicores "1k".toList = none := hcpu ▸ cpuMillicores_of_unread (a := cpu) id
  have hquantity : quantity r.requests "memory" = some "128974848000m".toList := by decide
  have hquantity' : quantity r.requests "cpu" = some "1k".toList := by decide
  have hvalue : memory.value = 128974848 := by
    have hdigits : digitsValue "128974848000".toList = 128974848000 := by decide
    rw [value_wholeAmount, hdigits, Suffix.factor]
    norm_num
  have hvalue' : cpu.value * 1000 = 1000000 := by
    have hdigits : digitsValue "1".toList = 1 := by decide
    rw [value_wholeAmount, hdigits, Suffix.factor]
    norm_num
  refine ⟨hmemory, hvalue, hbytes, ?_, hcpu, hvalue', hmillicores, ?_⟩
  · show ((quantity r.requests "memory").bind memoryBytes).getD 0 = 0
    rw [hquantity, Option.bind_some, hbytes]
    rfl
  · show ((quantity r.requests "cpu").bind cpuMillicores).getD 0 = 0
    rw [hquantity', Option.bind_some, hmillicores]
    rfl

end Statix.Attribution
