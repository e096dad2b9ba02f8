import Dfs.Lib.BigEndian

/-!
# The binary serializer (`Serializer.hpp`)

`BinaryWriter` appends encoded values to a buffer, so a value is described by the bytes it
appends; `BinaryReader` walks a span with an offset and throws when a value does not fit.
Integers are big-endian, strings end in a NUL byte, booleans and enumerations are one byte,
and a time point is the signed count of its milliseconds.
-/

namespace Dfs

open Lib

/-- The standard exceptions the code throws. -/
inductive Exn where
  | outOfRange
  | runtimeError
  | filesystemError
  deriving DecidableEq

/-- `system_clock::time_point`: nanoseconds since the epoch. -/
structure TimePoint where
  nanoseconds : Int64
  deriving DecidableEq

namespace TimePoint

/-- `duration_cast<milliseconds>`: towards the epoch. -/
def milliseconds (t : TimePoint) : Int64 := t.nanoseconds / 1000000

def ofMilliseconds (ms : Int64) : TimePoint := ⟨ms * 1000000⟩

end TimePoint

structure BinaryReader where
  data : Bytes
  offset : Nat

namespace BinaryReader

def start (data : Bytes) : BinaryReader := ⟨data, 0⟩

/-- The bytes not yet read. -/
def tail (r : BinaryReader) : Bytes := r.data.drop r.offset

def advance (r : BinaryReader) (n : Nat) : BinaryReader := { r with offset := r.offset + n }

/-- The reader stands inside its span with `rest` still to read. -/
def Holds (r : BinaryReader) (rest : Bytes) : Prop := r.offset ≤ r.data.length ∧ r.tail = rest

theorem holds_start (data : Bytes) : (start data).Holds data := ⟨Nat.zero_le _, rfl⟩

theorem tail_advance (r : BinaryReader) (n : Nat) : (r.advance n).tail = r.tail.drop n := by
  simp [tail, advance]

def remaining (r : BinaryReader) : Nat := r.data.length - r.offset

def atEnd (r : BinaryReader) : Bool := r.offset = r.data.length

def assertAtEnd (r : BinaryReader) : Except Exn Unit :=
  if r.atEnd then .ok () else .error .runtimeError

def readBytes (r : BinaryReader) (n : Nat) : Except Exn (Bytes × BinaryReader) :=
  if r.offset > r.data.length ∨ n > r.data.length - r.offset then .error .outOfRange
  else .ok ((r.data.drop r.offset).take n, r.advance n)

def readRemaining (r : BinaryReader) : Except Exn (Bytes × BinaryReader) := r.readBytes r.remaining

/-- `read_integral` for an integer of `width` bytes. -/
def readIntegral (r : BinaryReader) (width : Nat) : Except Exn (Nat × BinaryReader) :=
  if r.offset > r.data.length ∨ width > r.data.length - r.offset then .error .outOfRange
  else .ok (ofBytes ((r.data.drop r.offset).take width), r.advance width)

def readString (r : BinaryReader) : Except Exn (Bytes × BinaryReader) :=
  let value := (r.data.drop r.offset).takeWhile (· ≠ 0)
  if value.length = (r.data.drop r.offset).length then .error .runtimeError
  else .ok (value, r.advance (value.length + 1))

end BinaryReader

/-- The values the serializer knows: the bytes `write` appends and what `read` does. -/
class BinarySerializable (α : Type) where
  write : α → Bytes
  read : BinaryReader → Except Exn (α × BinaryReader)

export BinarySerializable (write)

def BinaryReader.read (α : Type) [BinarySerializable α] (r : BinaryReader) :
    Except Exn (α × BinaryReader) :=
  BinarySerializable.read r

instance : BinarySerializable UInt8 where
  write v := toBytes 1 v.toNat
  read r := do
    let (v, r) ← r.readIntegral 1
    return (.ofNat v, r)

instance : BinarySerializable UInt16 where
  write v := toBytes 2 v.toNat
  read r := do
    let (v, r) ← r.readIntegral 2
    return (.ofNat v, r)

instance : BinarySerializable UInt32 where
  write v := toBytes 4 v.toNat
  read r := do
    let (v, r) ← r.readIntegral 4
    return (.ofNat v, r)

instance : BinarySerializable UInt64 where
  write v := toBytes 8 v.toNat
  read r := do
    let (v, r) ← r.readIntegral 8
    return (.ofNat v, r)

instance : BinarySerializable Int64 where
  write v := toBytes 8 v.toUInt64.toNat
  read r := do
    let (v, r) ← r.readIntegral 8
    return ((UInt64.ofNat v).toInt64, r)

/-- `std::string`. -/
instance : BinarySerializable Bytes where
  write v := v ++ [0]
  read r := r.readString

instance : BinarySerializable Bool where
  write v := write (if v then 1 else 0 : UInt8)
  read r := do
    let (v, r) ← r.read UInt8
    return (v = 1, r)

instance : BinarySerializable TimePoint where
  write v := write v.milliseconds
  read r := do
    let (ms, r) ← r.read Int64
    return (.ofMilliseconds ms, r)

/-- An enumeration over `std::uint8_t`; every byte is a value of it. -/
class WireEnum (α : Type) where
  toByte : α → UInt8
  ofByte : UInt8 → α
  ofByte_toByte : ∀ v, ofByte (toByte v) = v
  toByte_ofByte : ∀ b, toByte (ofByte b) = b

instance {α : Type} [WireEnum α] : BinarySerializable α where
  write v := write (WireEnum.toByte v)
  read r := do
    let (b, r) ← r.read UInt8
    return (WireEnum.ofByte b, r)

/-! ## Reading back what was written -/

namespace BinaryReader

variable {r : BinaryReader} {part rest : Bytes}

theorem Holds.length (h : r.Holds rest) : r.data.length - r.offset = rest.length := by
  have := congrArg List.length h.2
  simpa [tail] using this

theorem Holds.advance (h : r.Holds (part ++ rest)) : (r.advance part.length).Holds rest := by
  have len := h.length
  have inside := h.1
  rw [List.length_append] at len
  refine ⟨by simp only [BinaryReader.advance]; omega, ?_⟩
  rw [tail_advance, h.2, List.drop_left]

theorem readIntegral_toBytes {width n : Nat} (h : r.Holds (toBytes width n ++ rest)) :
    r.readIntegral width = .ok (n % 256 ^ width, r.advance width) ∧ (r.advance width).Holds rest := by
  have len := h.length
  have inside := h.1
  rw [List.length_append, length_toBytes] at len
  constructor
  · rw [readIntegral, if_neg (by omega)]
    have taken : (r.data.drop r.offset).take width = toBytes width n := by
      rw [show r.data.drop r.offset = r.tail from rfl, h.2]
      exact List.take_left' (length_toBytes width n)
    rw [taken, ofBytes_toBytes]
  · simpa using h.advance

theorem Holds.readRemaining (h : r.Holds rest) :
    r.readRemaining = .ok (rest, r.advance rest.length) := by
  have len := h.length
  have inside := h.1
  rw [BinaryReader.readRemaining, readBytes, if_neg (by simp only [remaining]; omega), remaining, len]
  rw [show r.data.drop r.offset = r.tail from rfl, h.2, List.take_length]

theorem Holds.atEnd (h : r.Holds []) : r.atEnd = true := by
  have len := h.length
  have inside := h.1
  simp only [List.length_nil] at len
  simp only [BinaryReader.atEnd, decide_eq_true_eq]
  omega

theorem Holds.assertAtEnd (h : r.Holds []) : r.assertAtEnd = .ok () := by
  rw [BinaryReader.assertAtEnd, if_pos h.atEnd]

end BinaryReader

/-- The values that survive the wire, and that they do. -/
class LawfulSerial (α : Type) [BinarySerializable α] where
  Clean : α → Prop
  read_write : ∀ (v : α) (r : BinaryReader) (rest : Bytes), Clean v → r.Holds (write v ++ rest) →
    ∃ r', r.read α = .ok (v, r') ∧ r'.Holds rest

/-- The five integer types differ only in their width and in the conversion `f`. -/
theorem BinaryReader.read_word {α : Type} {r : BinaryReader} {width n : Nat} {rest : Bytes}
    (f : Nat → α) {v : α} (back : f n = v) (small : n < 256 ^ width)
    (h : r.Holds (toBytes width n ++ rest)) :
    ∃ r', (do let (v, r) ← r.readIntegral width; return (f v, r)) = (.ok (v, r') : Except Exn _) ∧
      r'.Holds rest := by
  obtain ⟨read, tail⟩ := readIntegral_toBytes h
  refine ⟨_, ?_, tail⟩
  rw [read, Nat.mod_eq_of_lt small, ← back]
  rfl

instance : LawfulSerial UInt8 where
  Clean _ := True
  read_write v _ _ _ h := BinaryReader.read_word UInt8.ofNat UInt8.ofNat_toNat v.toNat_lt h

instance : LawfulSerial UInt16 where
  Clean _ := True
  read_write v _ _ _ h := BinaryReader.read_word UInt16.ofNat UInt16.ofNat_toNat v.toNat_lt h

instance : LawfulSerial UInt32 where
  Clean _ := True
  read_write v _ _ _ h := BinaryReader.read_word UInt32.ofNat UInt32.ofNat_toNat v.toNat_lt h

instance : LawfulSerial UInt64 where
  Clean _ := True
  read_write v _ _ _ h := BinaryReader.read_word UInt64.ofNat UInt64.ofNat_toNat v.toNat_lt h

instance : LawfulSerial Int64 where
  Clean _ := True
  read_write v _ _ _ h :=
    BinaryReader.read_word (fun n => (UInt64.ofNat n).toInt64) (by simp) v.toUInt64.toNat_lt h

/-- A time point comes back with its milliseconds only. -/
theorem BinaryReader.read_timePoint {r : BinaryReader} {t : TimePoint} {rest : Bytes}
    (h : r.Holds (write t ++ rest)) :
    ∃ r', r.read TimePoint = .ok (.ofMilliseconds t.milliseconds, r') ∧ r'.Holds rest := by
  obtain ⟨r', read, tail⟩ := LawfulSerial.read_write t.milliseconds r rest trivial h
  refine ⟨r', ?_, tail⟩
  simp only [BinaryReader.read, BinarySerializable.read] at read ⊢
  rw [read]
  rfl

/-- A string without a NUL byte. -/
def NulFree (s : Bytes) : Prop := 0 ∉ s

instance (s : Bytes) : Decidable (NulFree s) := inferInstanceAs (Decidable (¬ _))

instance : LawfulSerial Bytes where
  Clean := NulFree
  read_write v r rest clean h := by
    have same : r.data.drop r.offset = v ++ 0 :: rest := by
      rw [show r.data.drop r.offset = r.tail from rfl, h.2]
      simp [write]
    have value : (r.data.drop r.offset).takeWhile (· ≠ 0) = v := by
      rw [same, List.takeWhile_append_of_pos]
      · simp
      · intro b mem
        have : b ≠ 0 := fun e => clean (e ▸ mem)
        simpa using this
    refine ⟨r.advance (v.length + 1), ?_, ?_⟩
    · simp only [BinaryReader.read, BinarySerializable.read, BinaryReader.readString, value]
      rw [if_neg]
      rw [same]
      simp
    · simpa [write] using @BinaryReader.Holds.advance r (v ++ [0]) rest h

instance : LawfulSerial Bool where
  Clean _ := True
  read_write v r rest _ h := by
    obtain ⟨r', read, tail⟩ := LawfulSerial.read_write (if v then 1 else 0 : UInt8) r rest trivial h
    refine ⟨r', ?_, tail⟩
    simp only [BinaryReader.read, BinarySerializable.read] at read ⊢
    rw [read]
    cases v <;> rfl

instance {α : Type} [WireEnum α] : LawfulSerial α where
  Clean _ := True
  read_write v r rest _ h := by
    obtain ⟨r', read, tail⟩ := LawfulSerial.read_write (WireEnum.toByte v) r rest trivial h
    refine ⟨r', ?_, tail⟩
    simp only [BinaryReader.read, BinarySerializable.read] at read ⊢
    rw [read]
    simp [bind, Except.bind, pure, Except.pure, WireEnum.ofByte_toByte]

/-- Reading the first value of a body. -/
theorem BinaryReader.read_start {α : Type} [BinarySerializable α] [LawfulSerial α] (v : α) (rest : Bytes)
    (clean : LawfulSerial.Clean v) :
    ∃ r', (BinaryReader.start (write v ++ rest)).read α = .ok (v, r') ∧ r'.Holds rest :=
  LawfulSerial.read_write v _ rest clean (holds_start _)

end Dfs
