import Mathlib.Algebra.Order.Group.Nat
import Mathlib.Tactic.Ring

/-!
# Fixed-width little-endian integers

`toLe w n` writes the low `8 * w` bits of `n` as `w` bytes, least significant first, which is
`to_le_bytes` after a cast to the `8 * w`-bit type; `ofLe` reads bytes back (`from_le_bytes`).

* `length_toLe`: the width is exact.
* `ofLe_toLe`: reading back is the identity below `256 ^ w`.
* `toLe_ofLe`: every `w` bytes are the encoding of the number they stand for.
-/

namespace Statix.Lib

/-- The `w` little-endian bytes of `n`; higher bits are cut off. -/
def toLe : Nat → Nat → List UInt8
  | 0, _ => []
  | w + 1, n => UInt8.ofNat n :: toLe w (n / 256)

/-- The number with the given little-endian bytes. -/
def ofLe (bs : List UInt8) : Nat :=
  bs.foldr (fun b n => b.toNat + 256 * n) 0

@[simp] theorem length_toLe (w n : Nat) : (toLe w n).length = w := by
  induction w generalizing n with
  | zero => rfl
  | succ w ih => rw [toLe, List.length_cons, ih]

/-- Reading back what was written, for a number that fits the width. -/
theorem ofLe_toLe {w n : Nat} (h : n < 256 ^ w) : ofLe (toLe w n) = n := by
  induction w generalizing n with
  | zero =>
    have : n = 0 := by simpa using h
    rw [this]
    rfl
  | succ w ih =>
    have hdiv : n / 256 < 256 ^ w := by
      rw [pow_succ] at h
      exact Nat.div_lt_of_lt_mul (by rwa [Nat.mul_comm])
    have ih := ih hdiv
    have hb : (UInt8.ofNat n).toNat = n % 256 := UInt8.toNat_ofNat'
    unfold ofLe at ih ⊢
    rw [toLe, List.foldr_cons, ih, hb]
    exact Nat.mod_add_div n 256

theorem ofLe_cons (b : UInt8) (bs : List UInt8) : ofLe (b :: bs) = b.toNat + 256 * ofLe bs := rfl

theorem ofLe_lt (bs : List UInt8) : ofLe bs < 256 ^ bs.length := by
  induction bs with
  | nil => exact Nat.one_pos
  | cons b bs ih =>
    have hb := b.toNat_lt
    rw [ofLe_cons, List.length_cons, pow_succ]
    omega

/-- Writing the number that some bytes stand for gives the bytes back. -/
theorem toLe_ofLe (bs : List UInt8) : toLe bs.length (ofLe bs) = bs := by
  induction bs with
  | nil => rfl
  | cons b bs ih =>
    have hb := b.toNat_lt
    have hdiv : ofLe (b :: bs) / 256 = ofLe bs := by rw [ofLe_cons]; omega
    have hbyte : UInt8.ofNat (ofLe (b :: bs)) = b := by
      apply UInt8.toNat_inj.mp
      rw [UInt8.toNat_ofNat', ofLe_cons]
      omega
    rw [List.length_cons, toLe, hdiv, hbyte, ih]

end Statix.Lib
