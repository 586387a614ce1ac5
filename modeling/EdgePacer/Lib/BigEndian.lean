import Mathlib.Data.Nat.ModEq
import Mathlib.Tactic.Ring

/-!
# Big-endian numbers

Fixed-width big-endian byte strings, most significant byte first. Writing keeps the low bytes of
the number and reading gives it back modulo `256 ^ w` (`ofBe_toBe`).
-/

namespace EdgePacer.Lib

/-- The `w` low bytes of `n`, most significant first. -/
def toBe : Nat → Nat → List UInt8
  | 0, _ => []
  | w + 1, n => UInt8.ofNat (n / 256 ^ w) :: toBe w n

/-- The number a big-endian byte string stands for. -/
def ofBe : List UInt8 → Nat
  | [] => 0
  | b :: bs => b.toNat * 256 ^ bs.length + ofBe bs

@[simp] theorem length_toBe (w n : Nat) : (toBe w n).length = w := by
  induction w with
  | zero => rfl
  | succ w ih => simp [toBe, ih]

theorem ofBe_toBe (w n : Nat) : ofBe (toBe w n) = n % 256 ^ w := by
  induction w with
  | zero => simp [toBe, ofBe, Nat.mod_one]
  | succ w ih =>
    have hbyte : (UInt8.ofNat (n / 256 ^ w)).toNat = n / 256 ^ w % 256 := by simp
    rw [toBe, ofBe, length_toBe, ih, hbyte, Nat.mod_pow_succ]
    ring

theorem ofBe_toBe_of_lt {w n : Nat} (h : n < 256 ^ w) : ofBe (toBe w n) = n := by
  rw [ofBe_toBe, Nat.mod_eq_of_lt h]

theorem take_drop_take {α : Type} {l : List α} {n k m : Nat} (h : k + m ≤ n) :
    ((l.take n).drop k).take m = (l.drop k).take m := by
  rw [List.drop_take, List.take_take, min_eq_left (by omega)]

end EdgePacer.Lib
