import Dfs.Common.Serializer

/-!
# The reader on its span (`Serializer.hpp`, `Serializer.cpp`)

`BinaryReader` with its `std::size_t` offset, one access to the span at a time. An access outside the span ends the run with
`Wild`, so that a run that ends otherwise has stayed inside.
-/

namespace Dfs

open Lib

/-- `std::span<const std::byte>`. -/
structure Span where
  bytes : Bytes
  fits : bytes.length < 2 ^ 64

namespace Span

def size (s : Span) : UInt64 := .ofNat s.bytes.length

/-- An access to a byte that does not belong to the span. -/
structure Wild where
  index : UInt64

/-- `data_[index]` -/
def byte (s : Span) (index : UInt64) : Except Wild UInt8 :=
  match s.bytes[index.toNat]? with
  | some b => .ok b
  | none => .error ⟨index⟩

/-- A copy of the `count` bytes from `index` on. -/
def slice (s : Span) : Nat → UInt64 → Except Wild Bytes
  | 0, _ => .ok []
  | count + 1, index => do
      let b ← s.byte index
      let rest ← s.slice count (index + 1)
      return b :: rest

/-- `std::find` for a NUL byte, from `index` to the end of the span. -/
def findNul (s : Span) (index : UInt64) : Except Wild UInt64 :=
  if index = s.size then .ok index
  else if _inside : index.toNat < s.bytes.length then
    if s.bytes[index.toNat] = 0 then .ok index else s.findNul (index + 1)
  else .error ⟨index⟩
termination_by s.bytes.length - index.toNat
decreasing_by
  have fits := s.fits
  rw [UInt64.toNat_add, UInt64.toNat_one, Nat.mod_eq_of_lt (by omega)]
  omega

end Span

/-- The widths of the integers. -/
inductive Width where
  | w8
  | w16
  | w32
  | w64
  deriving DecidableEq

/-- `sizeof(T)` -/
def Width.bytes : Width → Nat
  | w8 => 1
  | w16 => 2
  | w32 => 4
  | w64 => 8

/-- What can be read. -/
inductive TypedRead where
  | unsigned (width : Width)
  | signed (width : Width)
  | bool
  | enumeration (underlying : Width)
  | string
  | timePoint
  | bytes (count : UInt64)
  | remaining
  deriving DecidableEq

inductive ReadValue where
  | unsigned (value : Nat)
  | signed (value : Int)
  | bool (value : Bool)
  | enumeration (value : Nat)
  | string (value : Bytes)
  | timePoint (value : TimePoint)
  | bytes (value : Bytes)
  deriving DecidableEq

structure SpanReader where
  span : Span
  offset : UInt64

namespace SpanReader

open Dfs.Span

/-- What a read returns is made into another value; what it throws is thrown. -/
def mapValue {α β : Type} (f : α → β) (read : Except Wild (Except Exn α × SpanReader)) : Except Wild (Except Exn β × SpanReader) := do
  let (result, r) ← read
  return (result.map f, r)

def start (span : Span) : SpanReader := ⟨span, 0⟩

def remaining (r : SpanReader) : UInt64 := r.span.size - r.offset

/-- The loop of `read_integral` over the last `left` bytes of `width`. -/
def shiftIn (r : SpanReader) (width : Nat) : Nat → UInt64 → Nat → Except Wild Nat
  | 0, _, bits => .ok bits
  | left + 1, index, bits => do
      let b ← r.span.byte (r.offset + index)
      r.shiftIn width left (index + 1) (bits <<< 8 % 2 ^ (8 * width) ||| b.toNat)

def readIntegral (r : SpanReader) (width : Width) : Except Wild (Except Exn Nat × SpanReader) :=
  if r.offset > r.span.size ∨ .ofNat width.bytes > r.span.size - r.offset then .ok (.error .outOfRange, r)
  else do
    let bits ← r.shiftIn width.bytes width.bytes 0 0
    return (.ok bits, { r with offset := r.offset + .ofNat width.bytes })

def readString (r : SpanReader) : Except Wild (Except Exn Bytes × SpanReader) := do
  let nullTerminator ← r.span.findNul r.offset
  if nullTerminator = r.span.size then return (.error .runtimeError, r)
  let length := nullTerminator - r.offset
  let value ← r.span.slice length.toNat r.offset
  return (.ok value, { r with offset := r.offset + (length + 1) })

def readBytes (r : SpanReader) (n : UInt64) : Except Wild (Except Exn Bytes × SpanReader) :=
  if r.offset > r.span.size ∨ n > r.span.size - r.offset then .ok (.error .outOfRange, r)
  else do
    let out ← r.span.slice n.toNat r.offset
    return (.ok out, { r with offset := r.offset + n })

def readRemaining (r : SpanReader) : Except Wild (Except Exn Bytes × SpanReader) := r.readBytes r.remaining

/-- `std::bit_cast` to the signed integer of the width. -/
def bitCast (width : Width) (bits : Nat) : Int := (BitVec.ofNat (8 * width.bytes) bits).toInt

def read (r : SpanReader) : TypedRead → Except Wild (Except Exn ReadValue × SpanReader)
  | .unsigned width => mapValue .unsigned (r.readIntegral width)
  | .signed width => mapValue (fun bits => .signed (bitCast width bits)) (r.readIntegral width)
  | .bool => mapValue (fun bits => .bool (bits = 1)) (r.readIntegral .w8)
  | .enumeration underlying => mapValue .enumeration (r.readIntegral underlying)
  | .string => mapValue .string r.readString
  | .timePoint => mapValue (fun bits => .timePoint (.ofMilliseconds (UInt64.ofNat bits).toInt64)) (r.readIntegral .w64)
  | .bytes count => mapValue .bytes (r.readBytes count)
  | .remaining => mapValue .bytes r.readRemaining

/-- One read of a sequence. -/
structure Step where
  read : TypedRead
  before : SpanReader
  result : Except Exn ReadValue
  after : SpanReader

/-- One read after the other, whether or not they throw. -/
def run : List TypedRead → SpanReader → Except Wild (List Step × SpanReader)
  | [], r => .ok ([], r)
  | typed :: rest, r => do
      let (result, r') ← r.read typed
      let (steps, last) ← run rest r'
      return (⟨typed, r, result, r'⟩ :: steps, last)

end SpanReader

/-! ## Accesses inside the span -/

namespace Span

variable {s : Span} {i : UInt64} {n : Nat}

theorem size_toNat (s : Span) : s.size.toNat = s.bytes.length := UInt64.toNat_ofNat_of_lt' s.fits

theorem next_toNat (inside : i.toNat < s.bytes.length) : (i + 1).toNat = i.toNat + 1 := by
  have fits := s.fits
  rw [UInt64.toNat_add, UInt64.toNat_one, Nat.mod_eq_of_lt (by omega)]

theorem byte_inside (inside : i.toNat < s.bytes.length) : s.byte i = .ok s.bytes[i.toNat] := by
  rw [byte, List.getElem?_eq_getElem inside]

theorem slice_inside (inside : i.toNat + n ≤ s.bytes.length) : s.slice n i = .ok ((s.bytes.drop i.toNat).take n) := by
  induction n generalizing i with
  | zero => rfl
  | succ n ih =>
      have here : i.toNat < s.bytes.length := by omega
      have next := next_toNat here
      rw [slice, byte_inside here, ih (by omega), next, List.drop_eq_getElem_cons here]
      rfl

/-- The search ends at the first NUL byte, or else at the end of the span. -/
theorem findNul_inside (inside : i.toNat ≤ s.bytes.length) :
    ∃ j, s.findNul i = .ok j ∧ j.toNat = i.toNat + ((s.bytes.drop i.toNat).takeWhile (· ≠ 0)).length := by
  fun_induction findNul s i with
  | case1 =>
      refine ⟨s.size, rfl, ?_⟩
      rw [size_toNat, List.drop_length]
      rfl
  | case2 i _ here found =>
      refine ⟨i, rfl, ?_⟩
      rw [List.drop_eq_getElem_cons here, List.takeWhile_cons_of_neg (by simp [found])]
      rfl
  | case3 i _ here other ih =>
      have next := next_toNat here
      obtain ⟨j, found, place⟩ := ih (by omega)
      refine ⟨j, found, ?_⟩
      rw [List.drop_eq_getElem_cons here, List.takeWhile_cons_of_pos (by simp [other]), List.length_cons, place, next]
      omega
  | case4 i away outside =>
      refine absurd (UInt64.toNat_inj.1 ?_) away
      rw [size_toNat]
      omega

end Span

namespace SpanReader

open Dfs.Span

variable {α β : Type} {r : SpanReader} {width : Width} {index : UInt64} {w k left bits b : Nat}

/-- The offset does not exceed the size of the span. -/
def Inside (r : SpanReader) : Prop := r.offset.toNat ≤ r.span.bytes.length

theorem remaining_toNat (inside : r.Inside) : r.remaining.toNat = r.span.bytes.length - r.offset.toNat := by
  have size := r.span.size_toNat
  unfold Inside at inside
  rw [remaining, UInt64.toNat_sub_of_le _ _ (UInt64.le_iff_toNat_le.2 (by omega)), size]

/-- Where there is room for another byte, shifting and `or` put it behind the others. -/
theorem shift_or (small : bits < 256 ^ k) (room : k < w) (byte : b < 256) :
    bits <<< 8 % 2 ^ (8 * w) ||| b = bits * 256 + b := by
  have fits : bits * 2 ^ 8 < 2 ^ (8 * w) := by
    calc bits * 2 ^ 8 < 256 ^ k * 2 ^ 8 := Nat.mul_lt_mul_of_pos_right small (by decide)
      _ = 256 ^ (k + 1) := by rw [pow_succ]; rfl
      _ ≤ 256 ^ w := Nat.pow_le_pow_right (by decide) room
      _ = 2 ^ (8 * w) := by rw [pow_mul]; rfl
  rw [Nat.shiftLeft_eq, Nat.mod_eq_of_lt fits, ← Nat.shiftLeft_eq, ← Nat.shiftLeft_add_eq_or_of_lt byte, Nat.shiftLeft_eq]

theorem shiftIn_inside (inside : r.offset.toNat + index.toNat + left ≤ r.span.bytes.length) (small : bits < 256 ^ k)
    (room : k + left ≤ w) : r.shiftIn w left index bits =
      .ok (bits * 256 ^ left + ofBytes ((r.span.bytes.drop (r.offset.toNat + index.toNat)).take left)) := by
  induction left generalizing index bits k with
  | zero => simp [shiftIn, ofBytes]
  | succ left ih =>
      have fits := r.span.fits
      have place : (r.offset + index).toNat = r.offset.toNat + index.toNat := by
        rw [UInt64.toNat_add, Nat.mod_eq_of_lt (by omega)]
      have here : (r.offset + index).toNat < r.span.bytes.length := by omega
      have next : (index + 1).toNat = index.toNat + 1 := by
        rw [UInt64.toNat_add, UInt64.toNat_one, Nat.mod_eq_of_lt (by omega)]
      have byte := r.span.bytes[(r.offset + index).toNat].toNat_lt
      have more : bits * 256 + r.span.bytes[(r.offset + index).toNat].toNat < 256 ^ (k + 1) := by
        rw [pow_succ]
        omega
      have rest := @ih (index + 1) (k + 1) _ (by omega) more (by omega)
      rw [shiftIn, Span.byte_inside here]
      simp only [bind, Except.bind]
      rw [shift_or small (by omega) byte, rest, next, ← Nat.add_assoc, ← place, List.drop_eq_getElem_cons here, List.take_succ_cons,
        ofBytes_cons, List.length_take, List.length_drop, Nat.min_eq_left (by omega)]
      congr 1
      ring

/-- Behind the next `n` bytes. -/
def moved (r : SpanReader) (n : Nat) : SpanReader := { r with offset := r.offset + .ofNat n }

theorem moved_toNat {n : Nat} (within : r.offset.toNat + n ≤ r.span.bytes.length) :
    (r.moved n).offset.toNat = r.offset.toNat + n := by
  have fits := r.span.fits
  rw [moved, UInt64.toNat_add, UInt64.toNat_ofNat_of_lt' (by omega : n < 2 ^ 64), Nat.mod_eq_of_lt (by omega)]

/-- The bytes that have not been read. -/
def tail (r : SpanReader) : Bytes := r.span.bytes.drop r.offset.toNat

theorem tail_length (inside : r.Inside) (n : Nat) : n ≤ r.tail.length ↔ r.offset.toNat + n ≤ r.span.bytes.length := by
  unfold Inside at inside
  rw [tail, List.length_drop]
  omega

/-! ## One read -/

/-- The two comparisons of a bounds check. -/
theorem check_iff (inside : r.Inside) {n : UInt64} :
    (r.offset > r.span.size ∨ n > r.span.size - r.offset) ↔ ¬ n.toNat ≤ r.tail.length := by
  have size := r.span.size_toNat
  have left := remaining_toNat inside
  rw [tail_length inside]
  unfold Inside at inside
  rw [remaining] at left
  rw [gt_iff_lt, gt_iff_lt, UInt64.lt_iff_toNat_lt, UInt64.lt_iff_toNat_lt, left, size]
  omega

theorem readIntegral_eq (inside : r.Inside) (width : Width) : r.readIntegral width =
    if width.bytes ≤ r.tail.length then .ok (.ok (ofBytes (r.tail.take width.bytes)), r.moved width.bytes)
    else .ok (.error .outOfRange, r) := by
  have narrow : width.bytes < 2 ^ 64 := by cases width <;> decide
  have size : (UInt64.ofNat width.bytes).toNat = width.bytes := UInt64.toNat_ofNat_of_lt' narrow
  unfold readIntegral
  by_cases room : width.bytes ≤ r.tail.length
  · have within := (tail_length inside _).1 room
    rw [if_neg (by rwa [check_iff inside, not_not, size]), if_pos room,
      @shiftIn_inside r 0 width.bytes 0 width.bytes 0 (by simpa using within) (by simp) (by omega)]
    simp only [Nat.zero_mul, Nat.zero_add]
    rfl
  · rw [if_pos (by rwa [check_iff inside, size]), if_neg room]

theorem readBytes_eq (inside : r.Inside) (n : UInt64) : r.readBytes n =
    if n.toNat ≤ r.tail.length then .ok (.ok (r.tail.take n.toNat), r.moved n.toNat) else .ok (.error .outOfRange, r) := by
  unfold readBytes
  by_cases room : n.toNat ≤ r.tail.length
  · rw [if_neg (by rwa [check_iff inside, not_not]), if_pos room, slice_inside ((tail_length inside _).1 room), moved,
      UInt64.ofNat_toNat]
    rfl
  · rw [if_pos (by rwa [check_iff inside]), if_neg room]

theorem readRemaining_eq (inside : r.Inside) : r.readRemaining = .ok (.ok r.tail, r.moved r.tail.length) := by
  have left : r.remaining.toNat = r.tail.length := by rw [remaining_toNat inside, tail, List.length_drop]
  rw [readRemaining, readBytes_eq inside, left, if_pos le_rfl, List.take_length]

/-- The string in front of the reader, up to the next NUL byte. -/
def text (r : SpanReader) : Bytes := r.tail.takeWhile (· ≠ 0)

theorem readString_eq (inside : r.Inside) : r.readString =
    if r.text.length < r.tail.length then .ok (.ok r.text, r.moved (r.text.length + 1))
    else .ok (.error .runtimeError, r) := by
  obtain ⟨j, found, place⟩ := findNul_inside inside
  change j.toNat = r.offset.toNat + r.text.length at place
  have size := r.span.size_toNat
  have fits := r.span.fits
  have shorter : r.text.length ≤ r.tail.length := (r.tail.takeWhile_prefix fun b => decide (b ≠ 0)).length_le
  have whole : r.tail.length = r.span.bytes.length - r.offset.toNat := List.length_drop
  unfold Inside at inside
  rw [readString, found]
  simp only [bind, Except.bind]
  by_cases ends : r.text.length < r.tail.length
  · have before : j ≠ r.span.size := fun same => by
      rw [same, size] at place
      omega
    have length : (j - r.offset).toNat = r.text.length := by
      rw [UInt64.toNat_sub_of_le _ _ (UInt64.le_iff_toNat_le.2 (by omega))]
      omega
    have value : (r.span.bytes.drop r.offset.toNat).take r.text.length = r.text :=
      (List.prefix_iff_eq_take.1 (r.tail.takeWhile_prefix _)).symm
    have next : j - r.offset + 1 = .ofNat (r.text.length + 1) := by
      apply UInt64.toNat_inj.1
      rw [UInt64.toNat_add, UInt64.toNat_one, length, UInt64.toNat_ofNat_of_lt' (by omega : r.text.length + 1 < 2 ^ 64)]
      omega
    rw [if_neg before, if_pos ends, length, slice_inside (by omega), value, next]
    rfl
  · have atEnd : j = r.span.size := by
      apply UInt64.toNat_inj.1
      omega
    rw [if_pos atEnd, if_neg ends]
    rfl

/-! ### The reader without its machine words -/

def toReader (r : SpanReader) : BinaryReader := ⟨r.span.bytes, r.offset.toNat⟩

/-- A read does what it does to the `BinaryReader`. -/
inductive Refines (r : SpanReader) : Except Wild (Except Exn α × SpanReader) → Except Exn (α × BinaryReader) → Prop where
  | thrown (e : Exn) : Refines r (.ok (.error e, r)) (.error e)
  | returned (v : α) (r' : SpanReader) (span : r'.span = r.span) : Refines r (.ok (.ok v, r')) (.ok (v, r'.toReader))

theorem refines_ite {p : Prop} [Decidable p] {v : α} {n : Nat} {e : Exn} (within : p → n ≤ r.tail.length) (inside : r.Inside) :
    Refines r (if p then .ok (.ok v, r.moved n) else .ok (.error e, r)) (if p then .ok (v, r.toReader.advance n) else .error e) := by
  split
  · rename_i holds
    have place := moved_toNat ((tail_length inside n).1 (within holds))
    have same : r.toReader.advance n = (r.moved n).toReader := by
      rw [toReader, toReader, BinaryReader.advance, place]
      rfl
    rw [same]
    exact .returned v _ rfl
  · exact .thrown e

theorem Refines.map {x : Except Wild (Except Exn α × SpanReader)} {y : Except Exn (α × BinaryReader)} (refines : Refines r x y)
    (f : α → β) : Refines r (mapValue f x) (do let (v, b) ← y; return (f v, b) : Except Exn (β × BinaryReader)) := by
  cases refines with
  | thrown e => exact .thrown e
  | returned v r' span => exact .returned (f v) r' span

theorem toReader_tail (r : SpanReader) : r.toReader.data.drop r.toReader.offset = r.tail := rfl

theorem toReader_check (inside : r.Inside) (n : Nat) :
    (r.toReader.offset > r.toReader.data.length ∨ n > r.toReader.data.length - r.toReader.offset) ↔ ¬ n ≤ r.tail.length := by
  have whole : r.tail.length = r.toReader.data.length - r.toReader.offset := List.length_drop
  have here : r.toReader.offset ≤ r.toReader.data.length := inside
  omega

theorem readIntegral_refines (inside : r.Inside) (width : Width) :
    Refines r (r.readIntegral width) (r.toReader.readIntegral width.bytes) := by
  have abstract : r.toReader.readIntegral width.bytes = if width.bytes ≤ r.tail.length then
      .ok (ofBytes (r.tail.take width.bytes), r.toReader.advance width.bytes) else .error .outOfRange := by
    rw [BinaryReader.readIntegral, toReader_tail]
    simp only [toReader_check inside, ite_not]
  rw [readIntegral_eq inside, abstract]
  exact refines_ite id inside

theorem readBytes_refines (inside : r.Inside) (n : UInt64) : Refines r (r.readBytes n) (r.toReader.readBytes n.toNat) := by
  have abstract : r.toReader.readBytes n.toNat = if n.toNat ≤ r.tail.length then
      .ok (r.tail.take n.toNat, r.toReader.advance n.toNat) else .error .outOfRange := by
    rw [BinaryReader.readBytes, toReader_tail]
    simp only [toReader_check inside, ite_not]
  rw [readBytes_eq inside, abstract]
  exact refines_ite id inside

theorem readRemaining_refines (inside : r.Inside) : Refines r r.readRemaining r.toReader.readRemaining := by
  have all := readBytes_refines inside r.remaining
  rwa [remaining_toNat inside] at all

theorem readString_refines (inside : r.Inside) : Refines r r.readString r.toReader.readString := by
  have shorter : r.text.length ≤ r.tail.length := (r.tail.takeWhile_prefix fun b => decide (b ≠ 0)).length_le
  have abstract : r.toReader.readString = if r.text.length < r.tail.length then
      .ok (r.text, r.toReader.advance (r.text.length + 1)) else .error .runtimeError := by
    unfold BinaryReader.readString
    rw [toReader_tail]
    change (if r.text.length = r.tail.length then _ else _) = _
    by_cases ends : r.text.length < r.tail.length
    · rw [if_neg (by omega), if_pos ends]
      rfl
    · rw [if_pos (by omega), if_neg ends]
  rw [readString_eq inside, abstract]
  exact refines_ite id inside

/-- The reads that the decoders are made of. -/
theorem decoders_refine (inside : r.Inside) :
    Refines r (mapValue UInt8.ofNat (r.readIntegral .w8)) (r.toReader.read UInt8) ∧
    Refines r (mapValue UInt16.ofNat (r.readIntegral .w16)) (r.toReader.read UInt16) ∧
    Refines r (mapValue UInt32.ofNat (r.readIntegral .w32)) (r.toReader.read UInt32) ∧
    Refines r (mapValue UInt64.ofNat (r.readIntegral .w64)) (r.toReader.read UInt64) ∧
    Refines r (mapValue (fun n => (UInt64.ofNat n).toInt64) (r.readIntegral .w64)) (r.toReader.read Int64) ∧
    Refines r r.readString (r.toReader.read Bytes) ∧
    Refines r r.readRemaining r.toReader.readRemaining :=
  ⟨(readIntegral_refines inside .w8).map _, (readIntegral_refines inside .w16).map _, (readIntegral_refines inside .w32).map _,
    (readIntegral_refines inside .w64).map _, (readIntegral_refines inside .w64).map _, readString_refines inside,
    readRemaining_refines inside⟩

/-! ### What is read -/

/-- A read has thrown and left the reader alone, or it has returned what the piece in front of the reader means and has put the
reader behind the piece. -/
inductive Outcome (r : SpanReader) (means : Bytes → α → Prop) : Except Wild (Except Exn α × SpanReader) → Prop where
  | thrown (e : Exn) : Outcome r means (.ok (.error e, r))
  | returned (v : α) (n : Nat) (within : n ≤ r.tail.length) (meant : means (r.tail.take n) v) :
      Outcome r means (.ok (.ok v, r.moved n))

theorem outcome_ite {means : Bytes → α → Prop} {p : Prop} [Decidable p] {v : α} {n : Nat} {e : Exn}
    (within : p → n ≤ r.tail.length) (meant : p → means (r.tail.take n) v) :
    Outcome r means (if p then .ok (.ok v, r.moved n) else .ok (.error e, r)) := by
  split
  · rename_i holds
    exact .returned v n (within holds) (meant holds)
  · exact .thrown e

theorem Outcome.map {means : Bytes → α → Prop} {means' : Bytes → β → Prop} {x : Except Wild (Except Exn α × SpanReader)}
    {f : α → β} (outcome : Outcome r means x) (same : ∀ piece v, means piece v → means' piece (f v)) :
    Outcome r means' (mapValue f x) := by
  cases outcome with
  | thrown e => exact .thrown e
  | returned v n within meant => exact .returned (f v) n within (same _ v meant)

theorem readIntegral_outcome (inside : r.Inside) (width : Width) :
    Outcome r (fun piece bits => piece.length = width.bytes ∧ bits = ofBytes piece) (r.readIntegral width) := by
  rw [readIntegral_eq inside]
  exact outcome_ite id fun room => ⟨List.length_take_of_le room, rfl⟩

theorem readBytes_outcome (inside : r.Inside) (n : UInt64) :
    Outcome r (fun piece out => piece.length = n.toNat ∧ out = piece) (r.readBytes n) := by
  rw [readBytes_eq inside]
  exact outcome_ite id fun room => ⟨List.length_take_of_le room, rfl⟩

theorem readRemaining_outcome (inside : r.Inside) :
    Outcome r (fun piece out => piece = r.tail ∧ out = piece) r.readRemaining := by
  rw [readRemaining_eq inside]
  refine .returned r.tail r.tail.length le_rfl ?_
  rw [List.take_length]
  exact ⟨rfl, rfl⟩

theorem nulFree_takeWhile (bytes : Bytes) : NulFree (bytes.takeWhile (· ≠ 0)) := fun mem =>
  absurd (List.all_eq_true.1 List.all_takeWhile 0 mem) (by decide)

/-- The NUL byte behind a string that ends before the bytes do. -/
theorem take_terminated {bytes : Bytes} (ends : (bytes.takeWhile (· ≠ 0)).length < bytes.length) :
    bytes.take ((bytes.takeWhile (· ≠ 0)).length + 1) = bytes.takeWhile (· ≠ 0) ++ [0] := by
  have split := List.takeWhile_append_dropWhile (p := fun b : UInt8 => decide (b ≠ 0)) (l := bytes)
  cases dropped : bytes.dropWhile (· ≠ 0) with
  | nil =>
      rw [dropped, List.append_nil] at split
      rw [split] at ends
      exact absurd ends (lt_irrefl _)
  | cons b rest =>
      have nul := List.head_dropWhile_not (fun b : UInt8 => decide (b ≠ 0)) (l := bytes) (by rw [dropped]; simp)
      simp only [dropped, List.head_cons, decide_eq_false_iff_not, not_not] at nul
      rw [dropped, nul] at split
      calc bytes.take ((bytes.takeWhile (· ≠ 0)).length + 1)
          = (bytes.takeWhile (· ≠ 0) ++ 0 :: rest).take ((bytes.takeWhile (· ≠ 0)).length + 1) := by rw [split]
        _ = bytes.takeWhile (· ≠ 0) ++ [0] := by rw [List.take_length_add_append]; rfl

theorem readString_outcome (inside : r.Inside) :
    Outcome r (fun piece value => NulFree value ∧ piece = value ++ [0]) r.readString := by
  rw [readString_eq inside]
  exact outcome_ite id fun ends => ⟨nulFree_takeWhile _, take_terminated ends⟩

/-- The piece of the span that is read as `v` where `rest` is still to be read. -/
def Spells (rest : Bytes) : TypedRead → Bytes → ReadValue → Prop
  | .unsigned width, piece, v => piece.length = width.bytes ∧ v = .unsigned (ofBytes piece)
  | .signed width, piece, v => piece.length = width.bytes ∧ v = .signed (bitCast width (ofBytes piece))
  | .bool, piece, v => piece.length = 1 ∧ v = .bool (ofBytes piece = 1)
  | .enumeration underlying, piece, v => piece.length = underlying.bytes ∧ v = .enumeration (ofBytes piece)
  | .string, piece, v => ∃ value, NulFree value ∧ piece = value ++ [0] ∧ v = .string value
  | .timePoint, piece, v =>
      piece.length = 8 ∧ v = .timePoint (.ofMilliseconds (UInt64.ofNat (ofBytes piece)).toInt64)
  | .bytes count, piece, v => piece.length = count.toNat ∧ v = .bytes piece
  | .remaining, piece, v => piece = rest ∧ v = .bytes piece

theorem read_outcome (inside : r.Inside) (typed : TypedRead) : Outcome r (Spells r.tail typed) (r.read typed) := by
  have word : ∀ (width : Width) (f : Nat → ReadValue),
      Outcome r (fun piece v => piece.length = width.bytes ∧ v = f (ofBytes piece)) (mapValue f (r.readIntegral width)) :=
    fun width f => (readIntegral_outcome inside width).map fun _ _ meant => ⟨meant.1, congrArg f meant.2⟩
  cases typed with
  | unsigned width => exact word width .unsigned
  | signed width => exact word width fun bits => .signed (bitCast width bits)
  | bool => exact word .w8 fun bits => .bool (bits = 1)
  | enumeration underlying => exact word underlying .enumeration
  | string => exact (readString_outcome inside).map fun _ value meant => ⟨value, meant.1, meant.2, rfl⟩
  | timePoint => exact word .w64 fun bits => .timePoint (.ofMilliseconds (UInt64.ofNat bits).toInt64)
  | bytes count => exact (readBytes_outcome inside count).map fun _ _ meant => ⟨meant.1, congrArg _ meant.2⟩
  | remaining => exact (readRemaining_outcome inside).map fun _ _ meant => ⟨meant.1, congrArg _ meant.2⟩

/-! ## Any number of reads -/

/-- What a read that returned has consumed. -/
def Step.piece (s : Step) : Bytes :=
  match s.result with
  | .ok _ => s.before.tail.take (s.after.offset.toNat - s.before.offset.toNat)
  | .error _ => []

structure Step.Sound (s : Step) : Prop where
  span : s.after.span = s.before.span
  inside : s.after.offset.toNat ≤ s.after.span.bytes.length
  remaining : s.after.remaining.toNat = s.after.span.bytes.length - s.after.offset.toNat
  thrown : ∀ e, s.result = .error e → s.after = s.before
  returned : ∀ v, s.result = .ok v →
    s.after.offset.toNat = s.before.offset.toNat + s.piece.length ∧ Spells s.before.tail s.read s.piece v

/-- Every read starts where the one before it has left the reader. -/
def Linked : SpanReader → List Step → SpanReader → Prop
  | r, [], last => last = r
  | r, s :: rest, last => s.before = r ∧ Linked s.after rest last

theorem step_sound (inside : r.Inside) (typed : TypedRead) : ∃ result r', r.read typed = .ok (result, r') ∧
    Step.Sound ⟨typed, r, result, r'⟩ ∧ r'.Inside ∧
      r.span.bytes.take r.offset.toNat ++ Step.piece ⟨typed, r, result, r'⟩ = r.span.bytes.take r'.offset.toNat := by
  have outcome := read_outcome inside typed
  cases reads : r.read typed with
  | error wild =>
      rw [reads] at outcome
      cases outcome
  | ok v =>
      rw [reads] at outcome
      cases outcome with
      | thrown e =>
          refine ⟨.error e, r, rfl, ⟨rfl, inside, remaining_toNat inside, fun _ _ => rfl, nofun⟩, inside, ?_⟩
          rw [Step.piece, List.append_nil]
      | returned v n within meant =>
          have place := moved_toNat ((tail_length inside n).1 within)
          have after : (r.moved n).Inside := by
            unfold Inside
            rw [place]
            exact (tail_length inside n).1 within
          have piece : Step.piece ⟨typed, r, .ok v, r.moved n⟩ = r.tail.take n := by
            rw [Step.piece]
            dsimp only
            rw [place, Nat.add_sub_cancel_left]
          refine ⟨.ok v, r.moved n, rfl, ⟨rfl, after, remaining_toNat after, nofun, fun v' same => ?_⟩, after, ?_⟩
          · cases same
            rw [piece, List.length_take_of_le within]
            exact ⟨place, meant⟩
          · rw [piece, place, tail, List.take_add]

theorem run_sound (inside : r.Inside) (reads : List TypedRead) : ∃ steps last, run reads r = .ok (steps, last) ∧
    steps.map (·.read) = reads ∧ Linked r steps last ∧ (∀ s ∈ steps, s.Sound) ∧ last.Inside ∧
      r.span.bytes.take r.offset.toNat ++ steps.flatMap Step.piece = r.span.bytes.take last.offset.toNat := by
  induction reads generalizing r with
  | nil => exact ⟨[], r, rfl, rfl, rfl, nofun, inside, List.append_nil _⟩
  | cons typed reads ih =>
      obtain ⟨result, r', first, sound, inside', piece⟩ := step_sound inside typed
      obtain ⟨steps, last, rest, read, linked, sounds, ends, pieces⟩ := ih inside'
      have span : r'.span = r.span := sound.span
      refine ⟨⟨typed, r, result, r'⟩ :: steps, last, ?_, congrArg (typed :: ·) read, ⟨rfl, linked⟩, ?_, ends, ?_⟩
      · rw [run, first]
        simp only [bind, Except.bind]
        rw [rest]
        rfl
      · exact List.forall_mem_cons.2 ⟨sound, sounds⟩
      · rw [List.flatMap_cons, ← List.append_assoc, piece, ← span, pieces]

/-- What a sequence of reads does on a span. -/
structure Safe (span : Span) (reads : List TypedRead) (steps : List Step) (last : SpanReader) : Prop where
  reads : steps.map (·.read) = reads
  linked : Linked (start span) steps last
  sound : ∀ s ∈ steps, s.Sound
  inside : last.offset.toNat ≤ span.bytes.length
  pieces : steps.flatMap Step.piece = span.bytes.take last.offset.toNat

theorem linked_span {steps : List Step} {last : SpanReader} (linked : Linked r steps last) (sound : ∀ s ∈ steps, s.Sound) :
    last.span = r.span := by
  induction steps generalizing r with
  | nil => rw [show last = r from linked]
  | cons s steps ih =>
      obtain ⟨rfl, linked⟩ := linked
      rw [ih linked fun s mem => sound s (List.mem_cons_of_mem _ mem), (sound s List.mem_cons_self).span]

/-- No sequence of reads gets out of the span, and what the reads that return consume is the beginning of the span. -/
theorem reads_safe (span : Span) (reads : List TypedRead) :
    ∃ steps last, run reads (start span) = .ok (steps, last) ∧ Safe span reads steps last := by
  obtain ⟨steps, last, ran, read, linked, sound, inside, pieces⟩ := @run_sound (start span) (Nat.zero_le _) reads
  refine ⟨steps, last, ran, read, linked, sound, ?_, ?_⟩
  · unfold Inside at inside
    rwa [linked_span linked sound] at inside
  · simpa [start] using pieces

end SpanReader

end Dfs
