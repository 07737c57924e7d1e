import Mathlib.Data.Rat.Floor
import Statix.Lib.Decimal
import Statix.Rollup.Aggregator

/-!
# The reservation of a container

How the agent reads the `resources:` block of a container (`cpu_millicores`, `memory_bytes`,
`quantity` and `resources_from`, `statix/src/attribution/mod.rs:530-589`), with exact arithmetic in
place of doubles. A text that is not read is 0, as if nothing were set.
-/

namespace Statix.Attribution

open Statix.Lib
open Statix.Rollup (Resources)

/-- `String`, `&str`. -/
abbrev Text := List Char

/-- `FxHashMap`. -/
abbrev Map (K V : Type) := K → Option V

/-! ## Texts -/

/-- `str::strip_suffix`. -/
def stripSuffix (suffix s : Text) : Option Text :=
  if suffix.isSuffixOf s then some (s.take (s.length - suffix.length)) else none

/-- `char::is_whitespace`. -/
def isWhitespace (c : Char) : Bool :=
  let n := c.toNat
  (9 ≤ n && n ≤ 13) || n == 0x20 || n == 0x85 || n == 0xa0 || n == 0x1680 ||
    (0x2000 ≤ n && n ≤ 0x200a) || n == 0x2028 || n == 0x2029 || n == 0x202f || n == 0x205f ||
    n == 0x3000

/-- `str::trim`. -/
def trim (s : Text) : Text :=
  ((s.dropWhile isWhitespace).reverse.dropWhile isWhitespace).reverse

/-! ## Quantities -/

/-- `round()` and `as u64` of a number that is not negative. -/
def roundU64 (x : ℚ) : Nat := min ⌊x + 1 / 2⌋.toNat (2 ^ 64 - 1)

/-- `(x.is_finite() && x >= 0.0).then(|| x.round() as u64)`. -/
def toU64 : F64 → Option Nat
  | .finite x => if 0 ≤ x then some (roundU64 x) else none
  | _ => none

/-- `cpu_millicores`. -/
def cpuMillicores (q : Text) : Option Nat :=
  let q := trim q
  let millicores := match stripSuffix "m".toList q with
    | some m => parseF64 m
    | none => (parseF64 q).map (F64.scale 1000)
  millicores.bind toU64

/-- `UNITS`. -/
def units : List (Text × ℚ) :=
  [("Ki".toList, 1024),
    ("Mi".toList, 1024 * 1024),
    ("Gi".toList, 1024 * 1024 * 1024),
    ("Ti".toList, 1024 * 1024 * 1024 * 1024),
    ("Pi".toList, 1024 * 1024 * 1024 * 1024 * 1024),
    ("Ei".toList, 1024 * 1024 * 1024 * 1024 * 1024 * 1024),
    ("k".toList, 10 ^ 3),
    ("M".toList, 10 ^ 6),
    ("G".toList, 10 ^ 9),
    ("T".toList, 10 ^ 12),
    ("P".toList, 10 ^ 15),
    ("E".toList, 10 ^ 18)]

/-- The number in front of the unit, and the factor of the unit. -/
def splitUnit (q : Text) : Text × ℚ :=
  (units.findSome? fun unit => (stripSuffix unit.1 q).map fun number => (number, unit.2)).getD (q, 1)

/-- `memory_bytes`. -/
def memoryBytes (q : Text) : Option Nat :=
  let (number, factor) := splitUnit (trim q)
  ((parseF64 number).map (F64.scale factor)).bind toU64

/-- `ResourceRequirements`. -/
structure ResourceRequirements where
  requests : Option (Map Text Text)
  limits : Option (Map Text Text)

/-- `quantity`. -/
def quantity (map : Option (Map Text Text)) (key : String) : Option Text :=
  map.bind fun map => map key.toList

/-- `resources_from`. -/
def resourcesFrom : Option ResourceRequirements → Resources
  | none => {}
  | some r =>
    { cpuRequestMillicores := ((quantity r.requests "cpu").bind cpuMillicores).getD 0
      memoryRequestBytes := ((quantity r.requests "memory").bind memoryBytes).getD 0
      cpuLimitMillicores := ((quantity r.limits "cpu").bind cpuMillicores).getD 0
      memoryLimitBytes := ((quantity r.limits "memory").bind memoryBytes).getD 0 }

end Statix.Attribution
