import Dfs.Lib.PosixPath
import Mathlib.Tactic.Ring

/-!
# Big-endian naturals

A natural number as a fixed number of bytes, most significant byte first.
-/

namespace Dfs.Lib

/-- The low `width` bytes of `n`, most significant first. -/
def toBytes : Nat → Nat → Bytes
  | 0, _ => []
  | width + 1, n => UInt8.ofNat (n / 256 ^ width) :: toBytes width n

/-- Shift in one byte after the other. -/
def ofBytes (b : Bytes) : Nat := b.foldl (fun acc x => acc * 256 + x.toNat) 0

@[simp] theorem length_toBytes (width n : Nat) : (toBytes width n).length = width := by
  induction width with
  | zero => rfl
  | succ width ih => simp [toBytes, ih]

theorem foldl_shift (b : Bytes) (acc : Nat) :
    b.foldl (fun acc x => acc * 256 + x.toNat) acc = acc * 256 ^ b.length + ofBytes b := by
  induction b generalizing acc with
  | nil => simp [ofBytes]
  | cons x b ih =>
      rw [ofBytes, List.foldl_cons, List.foldl_cons, ih, ih (0 * 256 + x.toNat), List.length_cons]
      ring

theorem ofBytes_cons (x : UInt8) (b : Bytes) :
    ofBytes (x :: b) = x.toNat * 256 ^ b.length + ofBytes b := by
  rw [ofBytes, List.foldl_cons, foldl_shift]
  simp

theorem ofBytes_toBytes (width n : Nat) : ofBytes (toBytes width n) = n % 256 ^ width := by
  induction width with
  | zero => simp [toBytes, ofBytes, Nat.mod_one]
  | succ width ih =>
      rw [toBytes, ofBytes_cons, ih, length_toBytes, UInt8.toNat_ofNat', pow_succ 256, Nat.mod_mul]
      rw [show (2 : Nat) ^ 8 = 256 from rfl]
      ring

/-- Only the low bytes count. -/
theorem toBytes_add_mul (width n k : Nat) : toBytes width (n + k * 256 ^ width) = toBytes width n := by
  induction width generalizing k with
  | zero => rfl
  | succ width ih =>
      have shifted : n + k * 256 ^ (width + 1) = n + k * 256 * 256 ^ width := by ring
      rw [toBytes, toBytes, shifted, ih, Nat.add_mul_div_right _ _ (Nat.pow_pos (by decide))]
      congr 1
      apply UInt8.toNat_inj.1
      simp [UInt8.toNat_ofNat']

theorem ofBytes_lt (b : Bytes) : ofBytes b < 256 ^ b.length := by
  induction b with
  | nil => simp [ofBytes]
  | cons x b ih =>
      rw [ofBytes_cons, List.length_cons, pow_succ]
      have high : x.toNat ≤ 255 := Nat.le_of_lt_succ x.toNat_lt
      calc x.toNat * 256 ^ b.length + ofBytes b
          < x.toNat * 256 ^ b.length + 256 ^ b.length := Nat.add_lt_add_left ih _
        _ = (x.toNat + 1) * 256 ^ b.length := by ring
        _ ≤ 256 * 256 ^ b.length := Nat.mul_le_mul_right _ (by omega)
        _ = 256 ^ b.length * 256 := by ring

theorem toBytes_ofBytes (b : Bytes) : toBytes b.length (ofBytes b) = b := by
  induction b with
  | nil => rfl
  | cons x b ih =>
      have low := ofBytes_lt b
      rw [ofBytes_cons, List.length_cons, toBytes, Nat.add_comm, toBytes_add_mul, ih,
        Nat.add_mul_div_right _ _ (Nat.pow_pos (by decide)), Nat.div_eq_of_lt low, Nat.zero_add, UInt8.ofNat_toNat]

/-! ## Bits -/

/-- Bit `j` of byte `i`. -/
theorem testBit_toBytes (n : Nat) {width i j : Nat} (within : i < width) (small : j < 8) :
    ((toBytes width n).getD i 0).toNat.testBit j = n.testBit (8 * (width - 1 - i) + j) := by
  induction width generalizing i with
  | zero => omega
  | succ width ih =>
      cases i with
      | zero =>
          have power : 256 ^ width = 2 ^ (8 * width) := by rw [Nat.pow_mul]
          rw [toBytes, List.getD_cons_zero, UInt8.toNat_ofNat', Nat.testBit_mod_two_pow, power, Nat.testBit_div_two_pow]
          simp only [small, decide_true, Bool.true_and, Nat.add_sub_cancel, Nat.sub_zero, Nat.add_comm]
      | succ i =>
          rw [toBytes, List.getD_cons_succ, ih (by omega)]
          congr 2
          omega

/-- A byte is its eight bits. -/
theorem byte_ext {b c : UInt8} (bits : ∀ j < 8, b.toNat.testBit j = c.toNat.testBit j) : b = c := by
  apply UInt8.toNat_inj.1
  apply Nat.eq_of_testBit_eq
  intro j
  rcases Nat.lt_or_ge j 8 with small | large
  · exact bits j small
  · have beyond : ∀ d : UInt8, d.toNat < 2 ^ j := fun d =>
      Nat.lt_of_lt_of_le d.toNat_lt (Nat.pow_le_pow_right (by decide) large)
    rw [Nat.testBit_lt_two_pow (beyond b), Nat.testBit_lt_two_pow (beyond c)]

end Dfs.Lib
