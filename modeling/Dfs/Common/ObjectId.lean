import Dfs.Lib.BigEndian
import Mathlib.Data.List.GetD

/-!
# Object ids (`ObjectId.hpp`)
-/

namespace Dfs.ObjectId

open Lib

def hexDigit (n : UInt8) : UInt8 := if n.toNat < 10 then 48 + n else 87 + n

/-- The sixteen bytes, with the version and variant bits of a UUID in place. -/
def bytes (first second : UInt64) : Bytes :=
  ((toBytes 8 first.toNat ++ toBytes 8 second.toNat).modify 6 fun b => (b &&& 0x0f) ||| 0x40).modify 8
    fun b => (b &&& 0x3f) ||| 0x80

/-- The text of byte `b` at place `i`. -/
def digits (b : UInt8) (i : Nat) : Bytes :=
  (if i = 4 ∨ i = 6 ∨ i = 8 ∨ i = 10 then [(45 : UInt8)] else []) ++ [hexDigit (b >>> 4), hexDigit (b &&& 0x0f)]

/-- `generate` for two outputs of the random generator. -/
def generate (first second : UInt64) : Bytes := (bytes first second).zipIdx.flatMap fun (b, i) => digits b i

/-- The bytes of an object id: digits, the letters from `a` to `f` and dashes. -/
def Plain (b : UInt8) : Prop := b = 45 ∨ (48 ≤ b.toNat ∧ b.toNat ≤ 57) ∨ (97 ≤ b.toNat ∧ b.toNat ≤ 102)

theorem toNat_hexDigit {n : UInt8} (small : n.toNat < 16) :
    (hexDigit n).toNat = if n.toNat < 10 then 48 + n.toNat else 87 + n.toNat := by
  unfold hexDigit
  split
  · rw [UInt8.toNat_add]
    simp only [UInt8.reduceToNat, Nat.reducePow]
    omega
  · rw [UInt8.toNat_add]
    simp only [UInt8.reduceToNat, Nat.reducePow]
    omega

theorem hexDigit_plain {n : UInt8} (small : n.toNat < 16) : Plain (hexDigit n) := by
  have value := toNat_hexDigit small
  split at value
  · refine Or.inr (Or.inl ?_)
    omega
  · refine Or.inr (Or.inr ?_)
    omega

theorem toNat_high (b : UInt8) : (b >>> 4).toNat = b.toNat / 16 := by
  rw [UInt8.toNat_shiftRight]
  simp only [UInt8.reduceToNat, Nat.reduceMod, Nat.shiftRight_eq_div_pow, Nat.reducePow]

theorem toNat_low (b : UInt8) : (b &&& 0x0f).toNat = b.toNat % 16 := by
  rw [UInt8.toNat_and]
  exact Nat.and_two_pow_sub_one_eq_mod b.toNat 4

theorem high_lt (b : UInt8) : (b >>> 4).toNat < 16 := by
  rw [toNat_high]
  have := b.toNat_lt
  omega

theorem low_lt (b : UInt8) : (b &&& 0x0f).toNat < 16 := by
  rw [toNat_low]
  omega

theorem digits_plain {c b : UInt8} {i : Nat} (mem : c ∈ digits b i) : Plain c := by
  unfold digits at mem
  rcases List.mem_append.1 mem with mem | mem
  · split at mem
    · exact Or.inl (List.mem_singleton.1 mem)
    · cases mem
  · simp only [List.mem_cons, List.not_mem_nil, or_false] at mem
    rcases mem with rfl | rfl
    · exact hexDigit_plain (high_lt b)
    · exact hexDigit_plain (low_lt b)

variable {first second : UInt64}

theorem generate_plain {c : UInt8} (mem : c ∈ generate first second) : Plain c := by
  obtain ⟨⟨b, i⟩, -, mem⟩ := List.mem_flatMap.1 mem
  exact digits_plain mem

theorem not_mem_generate {c : UInt8} (odd : ¬ Plain c) : c ∉ generate first second := fun mem =>
  odd (generate_plain mem)

theorem length_bytes (first second : UInt64) : (bytes first second).length = 16 := by simp [bytes, length_toBytes]

theorem length_generate : (generate first second).length = 36 := by
  have count := length_bytes first second
  obtain ⟨b0, b1, b2, b3, b4, b5, b6, b7, b8, b9, b10, b11, b12, b13, b14, b15, same⟩ :
      ∃ b0 b1 b2 b3 b4 b5 b6 b7 b8 b9 b10 b11 b12 b13 b14 b15, bytes first second =
        [b0, b1, b2, b3, b4, b5, b6, b7, b8, b9, b10, b11, b12, b13, b14, b15] := by
    match bytes first second, count with
    | [b0, b1, b2, b3, b4, b5, b6, b7, b8, b9, b10, b11, b12, b13, b14, b15], _ => exact ⟨_, _, _, _, _, _, _, _, _, _, _, _, _, _, _, _, rfl⟩
  simp [generate, same, digits]

/-! ## Nothing is lost -/

/-- Blocks whose lengths depend only on their places determine the list they are written for. -/
theorem flatMap_zipIdx_injective {α β : Type} {block : α → Nat → List β}
    (width : ∀ a b i, (block a i).length = (block b i).length) (inj : ∀ a b i, block a i = block b i → a = b)
    {xs ys : List α} (length : xs.length = ys.length) (n : Nat)
    (same : ((xs.zipIdx n).flatMap fun (a, i) => block a i) = (ys.zipIdx n).flatMap fun (a, i) => block a i) :
    xs = ys := by
  induction xs generalizing ys n with
  | nil => exact (List.eq_nil_of_length_eq_zero length.symm).symm
  | cons x xs ih =>
      cases ys with
      | nil => cases length
      | cons y ys =>
          rw [List.zipIdx_cons, List.zipIdx_cons, List.flatMap_cons, List.flatMap_cons] at same
          obtain ⟨head, tail⟩ := List.append_inj same (width x y n)
          rw [inj x y n head, ih (Nat.succ.inj length) (n + 1) tail]

theorem hexDigit_injective {m n : UInt8} (smallM : m.toNat < 16) (smallN : n.toNat < 16)
    (same : hexDigit m = hexDigit n) : m = n := by
  apply UInt8.toNat_inj.1
  have values := congrArg UInt8.toNat same
  rw [toNat_hexDigit smallM, toNat_hexDigit smallN] at values
  split at values <;> split at values <;> omega

/-- The two halves of a byte can be read back from its digits. -/
theorem digits_injective {b c : UInt8} {i : Nat} (same : digits b i = digits c i) : b = c := by
  have pair := List.append_cancel_left same
  simp only [List.cons.injEq, and_true] at pair
  have high := congrArg UInt8.toNat (hexDigit_injective (high_lt b) (high_lt c) pair.1)
  have low := congrArg UInt8.toNat (hexDigit_injective (low_lt b) (low_lt c) pair.2)
  rw [toNat_high, toNat_high] at high
  rw [toNat_low, toNat_low] at low
  apply UInt8.toNat_inj.1
  omega

theorem length_digits (b c : UInt8) (i : Nat) : (digits b i).length = (digits c i).length := by
  simp [digits]

theorem generate_eq_iff {first second first' second' : UInt64} :
    generate first second = generate first' second' ↔ bytes first second = bytes first' second' := by
  constructor
  · intro same
    exact flatMap_zipIdx_injective length_digits (fun _ _ _ => digits_injective)
      (by rw [length_bytes, length_bytes]) 0 same
  · intro same
    rw [generate, generate, same]

/-- Bit `k` of the two outputs, counted from the most significant bit of `first`. -/
def outputBit (first second : UInt64) (k : Nat) : Bool :=
  if k < 64 then first.toNat.testBit (63 - k) else second.toNat.testBit (127 - k)

/-- The places of the four version bits and the two variant bits. -/
def fixedBits : List Nat := [48, 49, 50, 51, 64, 65]

/-- Bit `k` of the sixteen bytes, counted likewise. -/
def byteBit (b : Bytes) (k : Nat) : Bool := (b.getD (k / 8) 0).toNat.testBit (7 - k % 8)

theorem bytes_ext {b c : Bytes} (length : b.length = c.length) (bits : ∀ k < 8 * b.length, byteBit b k = byteBit c k) :
    b = c := by
  apply List.ext_getElem length
  intro i within within'
  apply byte_ext
  intro j small
  have bit := bits (8 * i + (7 - j)) (by omega)
  rw [byteBit, byteBit, show (8 * i + (7 - j)) / 8 = i by omega, show 7 - (8 * i + (7 - j)) % 8 = j by omega] at bit
  rwa [List.getD_eq_getElem _ _ within, List.getD_eq_getElem _ _ within'] at bit

theorem byteBit_outputs {k : Nat} (within : k < 128) (first second : UInt64) :
    byteBit (toBytes 8 first.toNat ++ toBytes 8 second.toNat) k = outputBit first second k := by
  unfold byteBit outputBit
  split
  · rw [List.getD_append _ _ _ _ (by rw [length_toBytes]; omega), testBit_toBytes _ (by omega) (by omega)]
    congr 1
    omega
  · rw [List.getD_append_right _ _ _ _ (by rw [length_toBytes]; omega), length_toBytes,
      testBit_toBytes _ (by omega) (by omega)]
    congr 1
    omega

/-- A stamp on byte `i` keeps the bits of `mask` and sets those of `mark`. -/
theorem byteBit_modify (b : Bytes) (mask mark : UInt8) {i k : Nat} (within : i < b.length) :
    byteBit (b.modify i fun x => (x &&& mask) ||| mark) k =
      if k / 8 = i then byteBit b k && mask.toNat.testBit (7 - k % 8) || mark.toNat.testBit (7 - k % 8) else byteBit b k := by
  unfold byteBit
  rw [List.getD_eq_getElem?_getD, List.getD_eq_getElem?_getD, List.getElem?_modify]
  split
  · next there =>
      rw [if_pos there.symm, ← there, List.getElem?_eq_getElem within]
      change (b[i] &&& mask ||| mark).toNat.testBit (7 - k % 8) = _
      rw [UInt8.toNat_or, UInt8.toNat_and, Nat.testBit_or, Nat.testBit_and]
      rfl
  · next elsewhere =>
      rw [if_neg (Ne.symm elsewhere)]
      simp

/-- The stamps write the bits of the version and the variant and keep every other bit. -/
theorem byteBit_bytes {k : Nat} (within : k < 128) (first second : UInt64) :
    byteBit (bytes first second) k =
      if k ∈ fixedBits then decide (k = 49 ∨ k = 64) else outputBit first second k := by
  rw [bytes, byteBit_modify _ _ _ (by simp), byteBit_modify _ _ _ (by simp), byteBit_outputs within]
  generalize outputBit first second k = bit
  revert bit k
  decide +kernel

/-- Two pairs of outputs give one id when they agree on every bit that is not fixed, and only then. -/
theorem generate_inj {first second first' second' : UInt64} :
    generate first second = generate first' second' ↔
      ∀ k < 128, k ∉ fixedBits → outputBit first second k = outputBit first' second' k := by
  rw [generate_eq_iff]
  constructor
  · intro same k within free
    have bit := byteBit_bytes within first second
    rw [same, byteBit_bytes within, if_neg free, if_neg free] at bit
    exact bit.symm
  · intro agree
    apply bytes_ext
    · rw [length_bytes, length_bytes]
    · intro k within
      rw [length_bytes] at within
      rw [byteBit_bytes within, byteBit_bytes within]
      split
      · rfl
      · next free => exact agree k within free

example : ((List.range 128).filter fun k => k ∉ fixedBits).length = 122 := by decide +kernel

end Dfs.ObjectId
