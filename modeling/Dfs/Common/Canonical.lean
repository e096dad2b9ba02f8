import Dfs.Common.RoundTrips

/-!
# Encoding what was decoded

A decoder that accepts a body has found the fields of its message in it and nothing else, so that
the encoder writes the same body again, up to the bytes of booleans: every byte but 1 is read as
false and written as 0. Two decoders accept more than that.
-/

namespace Dfs

open Lib

/-- A field as the encoder writes it. -/
inductive Piece where
  | word (width : Nat)
  | text
  | flag
  deriving DecidableEq

/-- `part` is such a field, and `part'` is it written again. -/
inductive Piece.Normal : Piece → Bytes → Bytes → Prop where
  | word (part : Bytes) : Normal (.word part.length) part part
  | text {text : Bytes} (clean : NulFree text) : Normal .text (text ++ [0]) (text ++ [0])
  | flag (byte : UInt8) : Normal .flag [byte] [if byte = 1 then 1 else 0]

/-- A word is written as it was. -/
theorem Piece.Normal.word_eq {width : Nat} {part part' : Bytes} (normal : (Piece.word width).Normal part part') :
    part' = part ∧ part.length = width := by
  generalize same : Piece.word width = piece at normal
  cases normal with
  | word part => exact ⟨rfl, (Piece.word.inj same).symm⟩
  | text clean => cases same
  | flag byte => cases same

/-- `bytes` consists of the fields, and of data behind them where `raw` says so, and `bytes'` is
it with the flags written as 0 or 1. -/
inductive Normalised (raw : Bool) : List Piece → Bytes → Bytes → Prop where
  | data {bytes : Bytes} (ends : raw = true ∨ bytes = []) : Normalised raw [] bytes bytes
  | field {piece : Piece} {pieces : List Piece} {part part' rest rest' : Bytes} (normal : piece.Normal part part')
      (behind : Normalised raw pieces rest rest') : Normalised raw (piece :: pieces) (part ++ rest) (part' ++ rest')

namespace Normalised

variable {raw : Bool} {pieces : List Piece} {bytes bytes' : Bytes}

theorem last {piece : Piece} {part part' : Bytes} (normal : piece.Normal part part') :
    Normalised raw [piece] part part' := by
  have whole : Normalised raw [piece] (part ++ []) (part' ++ []) := .field normal (.data (.inr rfl))
  rwa [List.append_nil, List.append_nil] at whole

theorem length (normalised : Normalised raw pieces bytes bytes') : bytes'.length = bytes.length := by
  induction normalised with
  | data ends => rfl
  | field normal behind ih =>
      rw [List.length_append, List.length_append, ih]
      cases normal <;> rfl

/-- Strings and flags take a byte at least. -/
theorem entries {n : Nat} (normalised : Normalised raw (List.replicate n [Piece.text, .flag]).flatten bytes bytes') :
    2 * n ≤ bytes.length := by
  induction n generalizing bytes bytes' with
  | zero => exact Nat.zero_le _
  | succ n ih =>
      rw [List.replicate_succ, List.flatten_cons] at normalised
      cases normalised with
      | field text behind =>
          cases text with
          | text clean =>
              cases behind with
              | field flag behind =>
                  cases flag with
                  | flag byte =>
                      have rest := ih behind
                      simp only [List.length_append, List.length_singleton]
                      omega

end Normalised

/-! ## What was read -/

/-- The values that are written as they were read, up to flags. -/
class Rewritten (α : Type) [BinarySerializable α] where
  piece : Piece
  normal : ∀ {r r' : BinaryReader} {bytes : Bytes} {v : α}, r.Holds bytes → r.read α = .ok (v, r') →
    ∃ part rest, bytes = part ++ rest ∧ piece.Normal part (write v) ∧ r'.Holds rest

namespace BinaryReader

variable {r r' : BinaryReader} {bytes : Bytes}

theorem readIntegral_some {width n : Nat} (h : r.Holds bytes) (read : r.readIntegral width = .ok (n, r')) :
    ∃ part rest, bytes = part ++ rest ∧ part.length = width ∧ n = ofBytes part ∧ r'.Holds rest := by
  have length := h.length
  have inside := h.1
  rw [readIntegral] at read
  split at read
  · cases read
  · cases read
    have within : width ≤ bytes.length := by omega
    refine ⟨bytes.take width, bytes.drop width, (List.take_append_drop width bytes).symm, ?_, ?_, h.drop within⟩
    · rw [List.length_take]
      omega
    · rw [show r.data.drop r.offset = r.tail from rfl, h.2]

theorem readString_some {text : Bytes} (h : r.Holds bytes) (read : r.readString = .ok (text, r')) :
    NulFree text ∧ ∃ rest, bytes = (text ++ [0]) ++ rest ∧ r'.Holds rest := by
  have same : r.data.drop r.offset = bytes := h.2
  rw [readString, same] at read
  split at read
  · cases read
  rename_i shorter
  cases read
  have split := List.takeWhile_append_dropWhile (p := fun b : UInt8 => decide (b ≠ 0)) (l := bytes)
  refine ⟨fun mem => by simpa using List.mem_takeWhile_imp mem, ?_⟩
  cases behind : bytes.dropWhile (· ≠ 0) with
  | nil =>
      rw [behind, List.append_nil] at split
      exact absurd (congrArg List.length split) shorter
  | cons b rest =>
      have zero : b = 0 := by
        have head := List.head?_dropWhile_not (fun b : UInt8 => decide (b ≠ 0)) bytes
        rw [behind] at head
        simpa using head
      have whole : bytes = (bytes.takeWhile (· ≠ 0) ++ [0]) ++ rest := by
        rw [behind, zero] at split
        rw [List.append_assoc]
        exact split.symm
      refine ⟨rest, whole, ?_⟩
      have behind' : r.Holds ((bytes.takeWhile (· ≠ 0) ++ [0]) ++ rest) := whole ▸ h
      simpa using behind'.advance

/-- The word types differ only in their width and in the conversion `f`. -/
theorem word_normal {α : Type} [BinarySerializable α] {width : Nat} (f : Nat → α) {v : α} (h : r.Holds bytes)
    (read : (do let (v, r) ← r.readIntegral width; return (f v, r) : Except Exn (α × BinaryReader)) = .ok (v, r'))
    (written : ∀ part : Bytes, part.length = width → write (f (ofBytes part)) = part) :
    ∃ part rest, bytes = part ++ rest ∧ (Piece.word width).Normal part (write v) ∧ r'.Holds rest := by
  cases word : r.readIntegral width with
  | error e =>
      rw [word] at read
      cases read
  | ok result =>
      rw [word] at read
      cases read
      obtain ⟨part, rest, whole, wide, value, holds⟩ := readIntegral_some h word
      refine ⟨part, rest, whole, ?_, holds⟩
      rw [value, written part wide, ← wide]
      exact .word part

end BinaryReader

theorem write_ofBytes {width n : Nat} {part : Bytes} (wide : part.length = width) (value : n = ofBytes part) :
    toBytes width n = part := by
  rw [← wide, value, toBytes_ofBytes]

instance : Rewritten UInt32 where
  piece := .word 4
  normal h read := BinaryReader.word_normal UInt32.ofNat h read fun part wide => by
    have small := ofBytes_lt part
    rw [wide] at small
    exact write_ofBytes wide (UInt32.toNat_ofNat_of_lt' small)

instance : Rewritten UInt64 where
  piece := .word 8
  normal h read := BinaryReader.word_normal UInt64.ofNat h read fun part wide => by
    have small := ofBytes_lt part
    rw [wide] at small
    exact write_ofBytes wide (UInt64.toNat_ofNat_of_lt' small)

instance : Rewritten Int64 where
  piece := .word 8
  normal h read := BinaryReader.word_normal (fun n => (UInt64.ofNat n).toInt64) h read fun part wide => by
    have small := ofBytes_lt part
    rw [wide] at small
    exact write_ofBytes wide (UInt64.toNat_ofNat_of_lt' small)

instance : Rewritten Bytes where
  piece := .text
  normal {_ _ _ text} h read := by
    obtain ⟨clean, rest, whole, holds⟩ := BinaryReader.readString_some h read
    exact ⟨text ++ [0], rest, whole, .text clean, holds⟩

theorem write_byte (b : UInt8) : write b = [b] := by
  change toBytes 1 b.toNat = [b]
  simp [toBytes]

theorem BinaryReader.read_byte {r r' : BinaryReader} {bytes : Bytes} {b : UInt8} (h : r.Holds bytes)
    (read : r.read UInt8 = .ok (b, r')) : ∃ rest, bytes = [b] ++ rest ∧ r'.Holds rest := by
  obtain ⟨part, rest, whole, normal, holds⟩ := BinaryReader.word_normal UInt8.ofNat h read fun part wide => by
    have small := ofBytes_lt part
    rw [wide] at small
    exact write_ofBytes wide (UInt8.toNat_ofNat_of_lt' small)
  obtain ⟨written, -⟩ := normal.word_eq
  rw [write_byte] at written
  exact ⟨rest, written ▸ whole, holds⟩

/-- A value that is made from a byte. -/
theorem BinaryReader.read_map {α : Type} {r r' : BinaryReader} {bytes : Bytes} (f : UInt8 → α) {v : α} (h : r.Holds bytes)
    (read : (do let (b, r) ← r.read UInt8; return (f b, r) : Except Exn (α × BinaryReader)) = .ok (v, r')) :
    ∃ b rest, bytes = [b] ++ rest ∧ v = f b ∧ r'.Holds rest := by
  cases byte : r.read UInt8 with
  | error e =>
      rw [byte] at read
      cases read
  | ok result =>
      rw [byte] at read
      cases read
      obtain ⟨rest, whole, holds⟩ := BinaryReader.read_byte h byte
      exact ⟨result.1, rest, whole, rfl, holds⟩

instance : Rewritten UInt8 where
  piece := .word 1
  normal {_ _ _ b} h read := by
    obtain ⟨rest, whole, holds⟩ := BinaryReader.read_byte h read
    refine ⟨[b], rest, whole, ?_, holds⟩
    rw [write_byte]
    exact .word [b]

instance : Rewritten Bool where
  piece := .flag
  normal h read := by
    obtain ⟨b, rest, whole, rfl, holds⟩ := BinaryReader.read_map (fun b => decide (b = 1)) h read
    refine ⟨[b], rest, whole, ?_, holds⟩
    have written : write (decide (b = 1)) = [if b = 1 then 1 else 0] := by
      refine (write_byte _).trans ?_
      by_cases one : b = 1 <;> simp [one]
    rw [written]
    exact .flag b

instance {α : Type} [WireEnum α] : Rewritten α where
  piece := .word 1
  normal h read := by
    obtain ⟨b, rest, whole, rfl, holds⟩ := BinaryReader.read_map WireEnum.ofByte h read
    refine ⟨[b], rest, whole, ?_, holds⟩
    have written : write (WireEnum.ofByte b : α) = [b] := by
      refine (write_byte _).trans ?_
      rw [WireEnum.toByte_ofByte]
    rw [written]
    exact .word [b]

/-! ## Decoders one field after another -/

section Chains

variable {α β : Type} {r : BinaryReader} {bytes : Bytes} {b : β}

/-- Reading a field and going on. -/
theorem BinaryReader.bind_some [BinarySerializable α] [Rewritten α] {k : α × BinaryReader → Except Exn β} (h : r.Holds bytes)
    (done : (r.read α >>= k) = .ok b) :
    ∃ v r' part rest, bytes = part ++ rest ∧ (Rewritten.piece α).Normal part (write v) ∧ r'.Holds rest ∧ k (v, r') = .ok b := by
  cases read : r.read α with
  | error e =>
      rw [read] at done
      cases done
  | ok result =>
      rw [read] at done
      obtain ⟨part, rest, whole, normal, holds⟩ := Rewritten.normal h read
      exact ⟨result.1, result.2, part, rest, whole, normal, holds, done⟩

theorem BinaryReader.end_some {b' : β} (h : r.Holds bytes) (done : (r.assertAtEnd >>= fun _ => (.ok b' : Except Exn β)) = .ok b) :
    bytes = [] ∧ b' = b := by
  rw [assertAtEnd_bind h] at done
  split at done
  · exact ⟨‹_›, Except.ok.inj done⟩
  · cases done

theorem BinaryReader.rest_some {k : Bytes × BinaryReader → Except Exn β} (h : r.Holds bytes)
    (done : (r.readRemaining >>= k) = .ok b) : ∃ r', k (bytes, r') = .ok b := by
  rw [h.readRemaining] at done
  exact ⟨_, done⟩

end Chains

theorem ClientProtocol.validate_some {β : Type} {m : ClientRpcMessage} {job : ClientJob} {kind : RpcKind}
    {k : Unit → Except Exn β} {b : β} (done : (validateRpcMessage job kind m >>= k) = .ok b) :
    m.rpcHeader.job = job ∧ m.rpcHeader.kind = kind ∧ k () = .ok b := by
  unfold validateRpcMessage at done
  split at done
  · cases done
  rename_i sort
  split at done
  · cases done
  rename_i named
  exact ⟨not_not.1 named, not_not.1 sort, done⟩

theorem StorageProtocol.validate_some {β : Type} {m : StorageRpcMessage} {job : StorageJob} {kind : RpcKind}
    {k : Unit → Except Exn β} {b : β} (done : (validateStorageMessage job kind m >>= k) = .ok b) :
    m.rpcHeader.job = job ∧ m.rpcHeader.kind = kind ∧ k () = .ok b := by
  unfold validateStorageMessage at done
  split at done
  · cases done
  rename_i named
  split at done
  · cases done
  rename_i sort
  exact ⟨not_not.1 named, not_not.1 sort, done⟩

/-- The clock counts the milliseconds in nanoseconds. -/
def InRange (ms : Int64) : Prop := -2 ^ 63 ≤ ms.toInt * 1000000 ∧ ms.toInt * 1000000 < 2 ^ 63

instance (ms : Int64) : Decidable (InRange ms) := inferInstanceAs (Decidable (_ ∧ _))

theorem InRange.milliseconds {ms : Int64} (range : InRange ms) : (TimePoint.ofMilliseconds ms).milliseconds = ms := by
  obtain ⟨lower, upper⟩ := range
  have million : (1000000 : Int64).toInt = 1000000 := by decide
  have product : (ms * 1000000).toInt = ms.toInt * 1000000 := by
    rw [Int64.toInt_mul, million]
    exact Int.bmod_eq_of_le (by omega) (by omega)
  have quotient : (ms * 1000000 / 1000000).toInt = ms.toInt := by
    rw [Int64.toInt_div, million, product, Int.mul_tdiv_cancel _ (by decide)]
    have small := ms.le_toInt
    have large := ms.toInt_lt
    exact Int.bmod_eq_of_le (by omega) (by omega)
  exact Int64.toInt.inj quotient

/-- What the decoder accepts of the message, the encoder writes again. -/
def Codec.Rewrites {Job α : Type} [WireEnum Job] [RpcTraits Job] (c : Codec Job α) (raw : Bool) (pieces : List Piece)
    (m : RpcMessage Job) : Prop :=
  ∀ v, c.decode m = .ok v → ∃ body, Normalised raw pieces m.body body ∧
    c.encode m.rpcHeader.requestId v = Rpc.makeFrame m.rpcHeader.requestId m.rpcHeader.job m.rpcHeader.kind body

/-- Moreover the body is as long as it was, and the clock can hold the times in it. -/
def Codec.Faithful {Job α : Type} [WireEnum Job] [RpcTraits Job] (c : Codec Job α) (raw : Bool) (pieces : List Piece)
    (times : List Int64) (m : RpcMessage Job) : Prop :=
  ∀ v, c.decode m = .ok v → (∃ body, body.length = m.body.length ∧ Normalised raw pieces m.body body ∧
    c.encode m.rpcHeader.requestId v = Rpc.makeFrame m.rpcHeader.requestId m.rpcHeader.job m.rpcHeader.kind body) ∧
    ∀ ms ∈ times, InRange ms

theorem Codec.Rewrites.faithful {Job α : Type} [WireEnum Job] [RpcTraits Job] {c : Codec Job α} {raw : Bool}
    {pieces : List Piece} {times : List Int64} {m : RpcMessage Job} (rewrites : c.Rewrites raw pieces m)
    (range : ∀ ms ∈ times, InRange ms) : c.Faithful raw pieces times m := by
  intro v decoded
  obtain ⟨body, normalised, written⟩ := rewrites v decoded
  exact ⟨⟨body, normalised.length, normalised, written⟩, range⟩

/-! ## The client protocol -/

namespace ClientKind

open ClientProtocol

/-- The messages whose body is one field. -/
theorem rewrites_one {α β : Type} [BinarySerializable β] [Rewritten β] {c : Codec ClientJob α} {job : ClientJob}
    {kind : RpcKind} (make : RequestContext → β → α) {m : ClientRpcMessage}
    (frame : ∀ context field requestId, c.encode requestId (make context field) = Rpc.makeFrame requestId job kind (write field))
    (decodes : c.decode m = (do
      validateRpcMessage job kind m
      let (field, reader) ← (BinaryReader.start m.body).read β
      reader.assertAtEnd
      return make (.of m) field)) :
    c.Rewrites false [Rewritten.piece β] m := by
  intro v decoded
  rw [decodes] at decoded
  obtain ⟨named, sort, decoded⟩ := validate_some decoded
  obtain ⟨field, r, part, rest, whole, normal, h, decoded⟩ := BinaryReader.bind_some (BinaryReader.holds_start _) decoded
  obtain ⟨rfl, rfl⟩ := BinaryReader.end_some h decoded
  rw [List.append_nil] at whole
  exact ⟨write field, whole ▸ .last normal, by rw [named, sort, frame]⟩

theorem rewrites_readFileResponse (m : ClientRpcMessage) :
    (codec readFileResponse).Rewrites false [.word 1, .word 8, .word 4] m := by
  intro v decoded
  obtain ⟨named, sort, decoded⟩ := validate_some decoded
  obtain ⟨status, r, part, rest, whole, first, h, decoded⟩ := BinaryReader.bind_some (BinaryReader.holds_start _) decoded
  obtain ⟨fileSize, r, part, rest, rfl, second, h, decoded⟩ := BinaryReader.bind_some h decoded
  obtain ⟨chunkCount, r, part, rest, rfl, third, h, decoded⟩ := BinaryReader.bind_some h decoded
  obtain ⟨rfl, rfl⟩ := BinaryReader.end_some h decoded
  rw [List.append_nil] at whole
  refine ⟨_, ?_, by rw [named, sort]; rfl⟩
  rw [whole]
  exact .field first (.field second (.last third))

theorem rewrites_readChunkResponse (m : ClientRpcMessage) : (codec readChunkResponse).Rewrites true [.word 4, .word 1] m := by
  intro v decoded
  obtain ⟨named, sort, decoded⟩ := validate_some decoded
  obtain ⟨chunkIndex, r, part, rest, whole, first, h, decoded⟩ := BinaryReader.bind_some (BinaryReader.holds_start _) decoded
  obtain ⟨status, r, part, data, rfl, second, h, decoded⟩ := BinaryReader.bind_some h decoded
  obtain ⟨r, decoded⟩ := BinaryReader.rest_some h decoded
  cases decoded
  refine ⟨_, ?_, by rw [named, sort]; rfl⟩
  rw [whole]
  exact .field first (.field second (.data (.inl rfl)))

theorem rewrites_writeFileRequest (m : ClientRpcMessage) :
    (codec writeFileRequest).Rewrites false [.word 8, .word 4, .text] m := by
  intro v decoded
  obtain ⟨named, sort, decoded⟩ := validate_some decoded
  obtain ⟨fileSize, r, part, rest, whole, first, h, decoded⟩ := BinaryReader.bind_some (BinaryReader.holds_start _) decoded
  obtain ⟨chunkCount, r, part, rest, rfl, second, h, decoded⟩ := BinaryReader.bind_some h decoded
  obtain ⟨path, r, part, rest, rfl, third, h, decoded⟩ := BinaryReader.bind_some h decoded
  obtain ⟨rfl, rfl⟩ := BinaryReader.end_some h decoded
  rw [List.append_nil] at whole
  refine ⟨_, ?_, by rw [named, sort]; rfl⟩
  rw [whole]
  exact .field first (.field second (.last third))

theorem rewrites_writeChunkRequest (m : ClientRpcMessage) : (codec writeChunkRequest).Rewrites true [.word 4] m := by
  intro v decoded
  obtain ⟨named, sort, decoded⟩ := validate_some decoded
  obtain ⟨chunkIndex, r, part, data, whole, first, h, decoded⟩ := BinaryReader.bind_some (BinaryReader.holds_start _) decoded
  obtain ⟨r, decoded⟩ := BinaryReader.rest_some h decoded
  cases decoded
  refine ⟨_, ?_, by rw [named, sort]; rfl⟩
  rw [whole]
  exact .field first (.data (.inl rfl))

theorem rewrites_writeChunkResponse (m : ClientRpcMessage) :
    (codec writeChunkResponse).Rewrites false [.word 4, .word 1] m := by
  intro v decoded
  obtain ⟨named, sort, decoded⟩ := validate_some decoded
  obtain ⟨chunkIndex, r, part, rest, whole, first, h, decoded⟩ := BinaryReader.bind_some (BinaryReader.holds_start _) decoded
  obtain ⟨status, r, part, rest, rfl, second, h, decoded⟩ := BinaryReader.bind_some h decoded
  obtain ⟨rfl, rfl⟩ := BinaryReader.end_some h decoded
  rw [List.append_nil] at whole
  refine ⟨_, ?_, by rw [named, sort]; rfl⟩
  rw [whole]
  exact .field first (.last second)

theorem rewrites_renameRequest (m : ClientRpcMessage) : (codec renameRequest).Rewrites false [.text, .text] m := by
  intro v decoded
  obtain ⟨named, sort, decoded⟩ := validate_some decoded
  obtain ⟨oldPath, r, part, rest, whole, first, h, decoded⟩ := BinaryReader.bind_some (BinaryReader.holds_start _) decoded
  obtain ⟨newPath, r, part, rest, rfl, second, h, decoded⟩ := BinaryReader.bind_some h decoded
  obtain ⟨rfl, rfl⟩ := BinaryReader.end_some h decoded
  rw [List.append_nil] at whole
  refine ⟨_, ?_, by rw [named, sort]; rfl⟩
  rw [whole]
  exact .field first (.last second)

/-! ### Listings -/

/-- The number of entries that a listing declares. -/
def declared (body : Bytes) : Nat := ofBytes ((body.drop 1).take 4)

/-- The loop reads as many entries as it is told to. -/
theorem readInfos_some {n : Nat} {r r' : BinaryReader} {bytes : Bytes} {infos : List FileInfo} (h : r.Holds bytes)
    (read : readInfos n r = .ok (infos, r')) :
    infos.length = n ∧ ∃ part rest, bytes = part ++ rest ∧ r'.Holds rest ∧
      Normalised false (List.replicate n [Piece.text, .flag]).flatten part
        (infos.flatMap fun info => write info.path ++ write info.isDirectory) := by
  induction n generalizing r bytes infos with
  | zero =>
      cases read
      exact ⟨rfl, [], bytes, rfl, h, .data (.inr rfl)⟩
  | succ n ih =>
      rw [readInfos] at read
      obtain ⟨path, r1, part1, rest1, rfl, first, h, read⟩ := BinaryReader.bind_some h read
      obtain ⟨isDirectory, r2, part2, rest2, rfl, second, h, read⟩ := BinaryReader.bind_some h read
      cases more : readInfos n r2 with
      | error e =>
          simp only [more, bind, Except.bind] at read
          cases read
      | ok result =>
          simp only [more, bind, Except.bind] at read
          cases read
          obtain ⟨length, part, rest, rfl, holds, normalised⟩ := ih h more
          refine ⟨congrArg (· + 1) length, part1 ++ (part2 ++ part), rest, by simp only [List.append_assoc], holds, ?_⟩
          rw [List.replicate_succ, List.flatten_cons, List.flatMap_cons, List.append_assoc]
          exact .field first (.field second normalised)

theorem declared_eq {status : ClientStatus} {size : UInt32} {rest : Bytes} :
    declared (write status ++ (write size ++ rest)) = size.toNat := by
  have width : (write size).length = 4 := length_toBytes 4 _
  rw [declared, List.drop_left' (write_enum_length status), List.take_left' width]
  exact (ofBytes_toBytes 4 size.toNat).trans (Nat.mod_eq_of_lt size.toNat_lt)

/-- What the decoder of a listing does once the size has been read. -/
theorem listResponse_some {m : ClientRpcMessage} {v : ListResponse} (decoded : decodeListResponse m = .ok v) :
    m.rpcHeader.job = .list ∧ m.rpcHeader.kind = .response ∧ ∃ (status : ClientStatus) (size : UInt32) (rest : Bytes)
      (infos : List FileInfo), m.body = write status ++ (write size ++ rest) ∧
      v = { status, infoVec := infos ++ List.replicate (size.toNat - if size.toNat < 2 ^ 31 then size.toNat else 0) ⟨[], false⟩,
            context := .of m } ∧
      infos.length = (if size.toNat < 2 ^ 31 then size.toNat else 0) ∧
      Normalised false (List.replicate (if size.toNat < 2 ^ 31 then size.toNat else 0) [Piece.text, .flag]).flatten rest
        (infos.flatMap fun info => write info.path ++ write info.isDirectory) := by
  obtain ⟨named, sort, decoded⟩ := validate_some decoded
  refine ⟨named, sort, ?_⟩
  obtain ⟨status, r, part, rest, whole, first, h, decoded⟩ := BinaryReader.bind_some (BinaryReader.holds_start _) decoded
  obtain ⟨size, r, part, rest, rfl, second, h, decoded⟩ := BinaryReader.bind_some h decoded
  rw [← first.word_eq.1, ← second.word_eq.1] at whole
  dsimp only at decoded
  cases read : readInfos (if size.toNat < 2 ^ 31 then size.toNat else 0) r with
  | error e =>
      simp only [read, bind, Except.bind] at decoded
      cases decoded
  | ok result =>
      obtain ⟨infos, r'⟩ := result
      obtain ⟨length, part, left, rfl, h, normalised⟩ := readInfos_some h read
      simp only [read, bind, Except.bind] at decoded
      obtain ⟨rfl, rfl⟩ := BinaryReader.end_some h decoded
      rw [List.append_nil] at whole
      exact ⟨status, size, part, infos, whole, rfl, length, normalised⟩

/-- A listing with fewer than 2³¹ entries. -/
theorem rewrites_listResponse {m : ClientRpcMessage} (small : declared m.body < 2 ^ 31) :
    (codec listResponse).Rewrites false (.word 1 :: .word 4 :: (List.replicate (declared m.body) [Piece.text, .flag]).flatten)
      m := by
  intro v decoded
  obtain ⟨named, sort, status, size, rest, infos, whole, rfl, length, normalised⟩ := listResponse_some decoded
  have count : declared m.body = size.toNat := by rw [whole, declared_eq]
  rw [count] at small ⊢
  rw [if_pos small] at length normalised
  refine ⟨write status ++ (write size ++ infos.flatMap fun info => write info.path ++ write info.isDirectory), ?_, ?_⟩
  · rw [whole]
    have word1 : (Piece.word 1).Normal (write status) (write status) := write_enum_length status ▸ .word (write status)
    have word4 : (Piece.word 4).Normal (write size) (write size) :=
      (length_toBytes 4 size.toNat : (write size).length = 4) ▸ .word (write size)
    exact .field word1 (.field word4 normalised)
  · rw [named, sort]
    simp only [codec, encodeListResponse, if_pos small, Nat.sub_self, List.replicate_zero, List.append_nil, length,
      UInt32.ofNat_toNat]

/-- A listing of as many entries as an `int` cannot count is taken for one without entries. -/
theorem listResponse_accepts {m : ClientRpcMessage} (named : m.rpcHeader.job = .list) (sort : m.rpcHeader.kind = .response)
    (short : m.body.length = 5) (large : 2 ^ 31 ≤ declared m.body) : ∃ v, decodeListResponse m = .ok v := by
  obtain ⟨status, rest, whole⟩ := exists_write_enum ClientStatus (show 1 ≤ m.body.length by omega)
  have wide : rest.length = 4 := by
    have length := congrArg List.length whole
    rw [List.length_append, write_enum_length] at length
    omega
  have small := ofBytes_lt rest
  rw [wide] at small
  have size : write (UInt32.ofNat (ofBytes rest)) = rest := write_ofBytes wide (UInt32.toNat_ofNat_of_lt' small)
  have body : m.body = write status ++ (write (UInt32.ofNat (ofBytes rest)) ++ []) := by
    rw [whole, size, List.append_nil]
  rw [body, declared_eq] at large
  have start := BinaryReader.holds_start m.body
  rw [body] at start
  refine ⟨{ status, infoVec := List.replicate (UInt32.ofNat (ofBytes rest)).toNat ⟨[], false⟩, context := .of m },
    (validate_bind named sort).trans ?_⟩
  rw [body]
  refine BinaryReader.read_bind trivial start fun r h => ?_
  refine BinaryReader.read_bind trivial h fun r h => ?_
  simp only [if_neg (Nat.not_lt.2 large), readInfos]
  exact (BinaryReader.assertAtEnd_bind h).trans (if_pos rfl)

/-! ### Times -/

/-- The two times at the end of a `STAT` response, as they are on the wire. -/
def wireTimes (body : Bytes) : Int64 × Int64 :=
  let word := fun bytes : Bytes => (UInt64.ofNat (ofBytes bytes)).toInt64
  (word ((body.drop (body.length - 16)).take 8), word (body.drop (body.length - 8)))

theorem wireTimes_eq {front : Bytes} {created modified : Int64} :
    wireTimes (front ++ (write created ++ write modified)) = (created, modified) := by
  have width : ∀ ms : Int64, (write ms).length = 8 := fun ms => length_toBytes 8 _
  have back : ∀ ms : Int64, (UInt64.ofNat (ofBytes (write ms))).toInt64 = ms := by
    intro ms
    have value : ofBytes (write ms) = ms.toUInt64.toNat :=
      (ofBytes_toBytes 8 ms.toUInt64.toNat).trans (Nat.mod_eq_of_lt ms.toUInt64.toNat_lt)
    rw [value]
    simp
  have length : (front ++ (write created ++ write modified)).length = front.length + 16 := by
    simp only [List.length_append, width]
  have first : (front ++ (write created ++ write modified)).drop front.length = write created ++ write modified := List.drop_left
  have second : (front ++ (write created ++ write modified)).drop (front.length + 8) = write modified := by
    rw [← List.drop_drop, first, List.drop_left' (width created)]
  rw [wireTimes, length, Nat.add_sub_cancel, show front.length + 16 - 8 = front.length + 8 from rfl, first, second,
    List.take_left' (width created)]
  exact Prod.ext (back created) (back modified)

theorem time_some {β : Type} {r : BinaryReader} {bytes : Bytes} {b : β} {k : TimePoint × BinaryReader → Except Exn β}
    (h : r.Holds bytes) (done : (r.read TimePoint >>= k) = .ok b) :
    ∃ (ms : Int64) (r' : BinaryReader) (rest : Bytes), bytes = write ms ++ rest ∧ r'.Holds rest ∧
      k (.ofMilliseconds ms, r') = .ok b := by
  cases read : r.read Int64 with
  | error e =>
      have failed : r.read TimePoint = .error e := by
        simp only [BinaryReader.read, BinarySerializable.read] at read ⊢
        rw [read]
        rfl
      rw [failed] at done
      cases done
  | ok result =>
      have made : r.read TimePoint = .ok (.ofMilliseconds result.1, result.2) := by
        simp only [BinaryReader.read, BinarySerializable.read] at read ⊢
        rw [read]
        rfl
      rw [made] at done
      obtain ⟨part, rest, whole, normal, holds⟩ := Rewritten.normal h read
      exact ⟨result.1, result.2, rest, normal.word_eq.1 ▸ whole, holds, done⟩

def statPieces : List Piece := [.word 1, .text, .flag, .text, .text, .text, .word 8, .word 8, .word 8]

/-- An accepted `STAT` response is its fields, and its times are those on the wire. -/
theorem statResponse_some {m : ClientRpcMessage} {v : StatResponse} (decoded : decodeStatResponse m = .ok v)
    (range : InRange (wireTimes m.body).1 ∧ InRange (wireTimes m.body).2) :
    ∃ body, Normalised false statPieces m.body body ∧ (codec statResponse).encode m.rpcHeader.requestId v =
      Rpc.makeFrame m.rpcHeader.requestId m.rpcHeader.job m.rpcHeader.kind body := by
  obtain ⟨named, sort, decoded⟩ := validate_some decoded
  obtain ⟨status, r, part1, rest, whole, n1, h, decoded⟩ := BinaryReader.bind_some (BinaryReader.holds_start _) decoded
  obtain ⟨path, r, part2, rest, rfl, n2, h, decoded⟩ := BinaryReader.bind_some h decoded
  obtain ⟨isDirectory, r, part3, rest, rfl, n3, h, decoded⟩ := BinaryReader.bind_some h decoded
  obtain ⟨node0, r, part4, rest, rfl, n4, h, decoded⟩ := BinaryReader.bind_some h decoded
  obtain ⟨node1, r, part5, rest, rfl, n5, h, decoded⟩ := BinaryReader.bind_some h decoded
  obtain ⟨objectId, r, part6, rest, rfl, n6, h, decoded⟩ := BinaryReader.bind_some h decoded
  obtain ⟨size, r, part7, rest, rfl, n7, h, decoded⟩ := BinaryReader.bind_some h decoded
  obtain ⟨created, r, rest, rfl, h, decoded⟩ := time_some h decoded
  obtain ⟨modified, r, rest, rfl, h, decoded⟩ := time_some h decoded
  obtain ⟨rfl, rfl⟩ := BinaryReader.end_some h decoded
  rw [List.append_nil] at whole
  have times : wireTimes m.body = (created, modified) := by
    rw [whole]
    simp only [← List.append_assoc]
    rw [List.append_assoc _ (write created)]
    exact wireTimes_eq
  rw [times] at range
  have word : ∀ ms : Int64, (Piece.word 8).Normal (write ms) (write ms) := fun ms =>
    (length_toBytes 8 ms.toUInt64.toNat : (write ms).length = 8) ▸ .word (write ms)
  have kept : ∀ {ms : Int64}, InRange ms → write (TimePoint.ofMilliseconds ms) = write ms := fun range =>
    congrArg write range.milliseconds
  refine ⟨_, ?_, by rw [named, sort]; rfl⟩
  rw [whole, kept range.1, kept range.2]
  exact .field n1 (.field n2 (.field n3 (.field n4 (.field n5 (.field n6 (.field n7 (.field (word created)
    (.last (word modified)))))))))

/-! ### All of them -/

/-- The fields of the body; how many entries a listing has is part of it. -/
def pieces : ClientKind → Bytes → List Piece
  | createFileRequest, _ | readFileRequest, _ | removeRequest, _ | listRequest, _ | makeDirRequest, _ | statRequest, _ => [.text]
  | createFileResponse, _ | writeFileResponse, _ | removeResponse, _ | makeDirResponse, _ | renameResponse, _ => [.word 1]
  | readFileResponse, _ => [.word 1, .word 8, .word 4]
  | readChunkRequest, _ => [.word 4]
  | readChunkResponse, _ => [.word 4, .word 1]
  | writeFileRequest, _ => [.word 8, .word 4, .text]
  | writeChunkRequest, _ => [.word 4]
  | writeChunkResponse, _ => [.word 4, .word 1]
  | listResponse, body => .word 1 :: .word 4 :: (List.replicate (declared body) [Piece.text, .flag]).flatten
  | renameRequest, _ => [.text, .text]
  | statResponse, _ => statPieces

/-- Data follows the fields. -/
def raw : ClientKind → Bool
  | readChunkResponse | writeChunkRequest => true
  | _ => false

/-- The milliseconds of the times in the body. -/
def times : ClientKind → Bytes → List Int64
  | statResponse, body => [(wireTimes body).1, (wireTimes body).2]
  | _, _ => []

def Faithful (kind : ClientKind) (m : ClientRpcMessage) : Prop :=
  kind.codec.Faithful kind.raw (kind.pieces m.body) (kind.times m.body) m

/-- The fields of a `STAT` response by what delimits them. -/
def statFields : List Field := [.word 1, .text, .word 1, .text, .text, .text, .word 8, .word 8, .word 8]

/-- The message is taken for something else: a listing of 2³¹ entries or more that has none, or a `STAT`
response with a time out of range. -/
def Deceives : ClientKind → ClientRpcMessage → Prop
  | listResponse, m => m.rpcHeader.job = .list ∧ m.rpcHeader.kind = .response ∧ m.body.length = 5 ∧ 2 ^ 31 ≤ declared m.body
  | statResponse, m => m.rpcHeader.job = .stat ∧ m.rpcHeader.kind = .response ∧ fits false statFields m.body = true ∧
      ¬ (InRange (wireTimes m.body).1 ∧ InRange (wireTimes m.body).2)
  | _, _ => False

/-- Every entry of a listing takes two bytes at least. -/
theorem listing_entries {n : Nat} {body body' : Bytes}
    (normalised : Normalised false (.word 1 :: .word 4 :: (List.replicate n [Piece.text, .flag]).flatten) body body') :
    5 + 2 * n ≤ body.length := by
  cases normalised with
  | field status behind =>
      cases behind with
      | field size behind =>
          have entries := behind.entries
          rw [List.length_append, List.length_append, status.word_eq.2, size.word_eq.2]
          omega

theorem listResponse_faithful_iff {m : ClientRpcMessage} : Faithful listResponse m ↔ ¬ Deceives listResponse m := by
  constructor
  · rintro faithful ⟨named, sort, short, large⟩
    obtain ⟨v, accepted⟩ := listResponse_accepts named sort short large
    obtain ⟨⟨body, -, normalised, -⟩, -⟩ := faithful v accepted
    have entries := listing_entries normalised
    omega
  · intro honest v decoded
    by_cases small : declared m.body < 2 ^ 31
    · exact (rewrites_listResponse small).faithful (fun _ mem => absurd mem List.not_mem_nil) v decoded
    · refine absurd ?_ honest
      obtain ⟨named, sort, status, size, rest, infos, whole, -, -, normalised⟩ := listResponse_some decoded
      refine ⟨named, sort, ?_, Nat.le_of_not_lt small⟩
      rw [whole, declared_eq] at small
      rw [if_neg small] at normalised
      cases normalised with
      | data ends =>
          have width : (write size).length = 4 := length_toBytes 4 _
          rw [whole, ends.resolve_left Bool.false_ne_true, List.append_nil, List.length_append, write_enum_length, width]

instance : Delimited Int64 := ⟨.word 8, fun _ _ h => BinaryReader.reads_word (fun n => (UInt64.ofNat n).toInt64) h⟩

instance : Delimited TimePoint :=
  ⟨.word 8, fun r bytes h => (Delimited.reads (α := Int64) r bytes h).map TimePoint.ofMilliseconds⟩

theorem decodeStatResponse_isOk {m : ClientRpcMessage} : (decodeStatResponse m).isOk =
    (decide (m.rpcHeader.kind = .response ∧ m.rpcHeader.job = .stat) && fits false statFields m.body) := by
  refine validate_isOk.trans (congrArg _ ?_)
  refine read_isOk (BinaryReader.holds_start _) fun status r rest h => ?_
  refine read_isOk h fun path r rest h => ?_
  refine read_isOk h fun isDirectory r rest h => ?_
  refine read_isOk h fun node0 r rest h => ?_
  refine read_isOk h fun node1 r rest h => ?_
  refine read_isOk h fun objectId r rest h => ?_
  refine read_isOk h fun size r rest h => ?_
  refine read_isOk h fun createdAt r rest h => ?_
  exact read_isOk h fun modifiedAt r rest h => atEnd_isOk h

theorem statResponse_faithful_iff {m : ClientRpcMessage} : Faithful statResponse m ↔ ¬ Deceives statResponse m := by
  constructor
  · rintro faithful ⟨named, sort, fit, outside⟩
    have accepted : (decodeStatResponse m).isOk = true := by
      rw [decodeStatResponse_isOk, fit, decide_eq_true ⟨sort, named⟩, Bool.true_and]
    cases decoded : decodeStatResponse m with
    | error e =>
        rw [decoded] at accepted
        cases accepted
    | ok v =>
        have range := (faithful v decoded).2
        exact outside ⟨range _ List.mem_cons_self, range _ (List.mem_cons_of_mem _ List.mem_cons_self)⟩
  · intro honest v decoded
    have accepted : (decodeStatResponse m).isOk = true := by
      rw [show decodeStatResponse m = .ok v from decoded]
      rfl
    rw [decodeStatResponse_isOk, Bool.and_eq_true, decide_eq_true_eq] at accepted
    obtain ⟨⟨sort, named⟩, fit⟩ := accepted
    have range : InRange (wireTimes m.body).1 ∧ InRange (wireTimes m.body).2 := by
      by_contra outside
      exact honest ⟨named, sort, fit, outside⟩
    obtain ⟨body, normalised, written⟩ := statResponse_some decoded range
    refine ⟨⟨body, normalised.length, normalised, written⟩, ?_⟩
    simp only [times, List.forall_mem_cons]
    exact ⟨range.1, range.2, fun _ mem => absurd mem List.not_mem_nil⟩

theorem Faithful.untimed {kind : ClientKind} {m : ClientRpcMessage} (none : kind.times m.body = [])
    (rewrites : kind.codec.Rewrites kind.raw (kind.pieces m.body) m) : kind.Faithful m :=
  rewrites.faithful fun _ mem => absurd (none ▸ mem) List.not_mem_nil

theorem faithful_iff (kind : ClientKind) (m : ClientRpcMessage) : kind.Faithful m ↔ ¬ kind.Deceives m := by
  have honest : ∀ {p : Prop}, p → (p ↔ ¬ False) := fun holds => iff_of_true holds not_false
  cases kind with
  | createFileRequest =>
      exact honest (.untimed rfl (rewrites_one (c := codec createFileRequest) (β := Bytes)
        (fun context path => ⟨path, context⟩) (fun _ _ _ => rfl) rfl))
  | createFileResponse =>
      exact honest (.untimed rfl (rewrites_one (c := codec createFileResponse) (β := ClientStatus)
        (fun context status => ⟨status, context⟩) (fun _ _ _ => rfl) rfl))
  | readFileRequest =>
      exact honest (.untimed rfl (rewrites_one (c := codec readFileRequest) (β := Bytes)
        (fun context path => ⟨path, context⟩) (fun _ _ _ => rfl) rfl))
  | readFileResponse => exact honest (.untimed rfl (rewrites_readFileResponse m))
  | readChunkRequest =>
      exact honest (.untimed rfl (rewrites_one (c := codec readChunkRequest) (β := UInt32)
        (fun context chunkIndex => ⟨chunkIndex, context⟩) (fun _ _ _ => rfl) rfl))
  | readChunkResponse => exact honest (.untimed rfl (rewrites_readChunkResponse m))
  | writeFileRequest => exact honest (.untimed rfl (rewrites_writeFileRequest m))
  | writeFileResponse =>
      exact honest (.untimed rfl (rewrites_one (c := codec writeFileResponse) (β := ClientStatus)
        (fun context status => ⟨status, context⟩) (fun _ _ _ => rfl) rfl))
  | writeChunkRequest => exact honest (.untimed rfl (rewrites_writeChunkRequest m))
  | writeChunkResponse => exact honest (.untimed rfl (rewrites_writeChunkResponse m))
  | removeRequest =>
      exact honest (.untimed rfl (rewrites_one (c := codec removeRequest) (β := Bytes)
        (fun context path => ⟨path, context⟩) (fun _ _ _ => rfl) rfl))
  | removeResponse =>
      exact honest (.untimed rfl (rewrites_one (c := codec removeResponse) (β := ClientStatus)
        (fun _ status => ⟨status⟩) (fun _ _ _ => rfl) rfl))
  | listRequest =>
      exact honest (.untimed rfl (rewrites_one (c := codec listRequest) (β := Bytes)
        (fun context path => ⟨path, context⟩) (fun _ _ _ => rfl) rfl))
  | listResponse => exact listResponse_faithful_iff
  | makeDirRequest =>
      exact honest (.untimed rfl (rewrites_one (c := codec makeDirRequest) (β := Bytes)
        (fun context path => ⟨path, context⟩) (fun _ _ _ => rfl) rfl))
  | makeDirResponse =>
      exact honest (.untimed rfl (rewrites_one (c := codec makeDirResponse) (β := ClientStatus)
        (fun context status => ⟨status, context⟩) (fun _ _ _ => rfl) rfl))
  | renameRequest => exact honest (.untimed rfl (rewrites_renameRequest m))
  | renameResponse =>
      exact honest (.untimed rfl (rewrites_one (c := codec renameResponse) (β := ClientStatus)
        (fun context status => ⟨status, context⟩) (fun _ _ _ => rfl) rfl))
  | statRequest =>
      exact honest (.untimed rfl (rewrites_one (c := codec statRequest) (β := Bytes)
        (fun context path => ⟨path, context⟩) (fun _ _ _ => rfl) rfl))
  | statResponse => exact statResponse_faithful_iff

end ClientKind

/-! ## The storage protocol -/

namespace StorageKind

open StorageProtocol

/-- The fields of the body. -/
def pieces : StorageKind → List Piece
  | putRequest => [.text, .word 4, .flag]
  | putResponse => [.word 4, .word 8, .word 1]
  | getRequest => [.text, .word 4, .word 4]
  | getResponse => [.word 4, .word 1]
  | deleteRequest => [.text]
  | deleteResponse => [.word 1]

/-- Data follows the fields. -/
def raw : StorageKind → Bool
  | putRequest | getResponse => true
  | _ => false

def Faithful (kind : StorageKind) (m : StorageRpcMessage) : Prop :=
  kind.codec.Faithful kind.raw kind.pieces [] m

/-- There is nothing more to these decoders than the fields. -/
theorem rewrites (kind : StorageKind) (m : StorageRpcMessage) : kind.codec.Rewrites kind.raw kind.pieces m := by
  intro v decoded
  cases kind with
  | putRequest =>
      obtain ⟨named, sort, decoded⟩ := validate_some decoded
      obtain ⟨objectId, r, part, rest, whole, first, h, decoded⟩ := BinaryReader.bind_some (BinaryReader.holds_start _) decoded
      obtain ⟨chunkIndex, r, part, rest, rfl, second, h, decoded⟩ := BinaryReader.bind_some h decoded
      obtain ⟨finalChunk, r, part, data, rfl, third, h, decoded⟩ := BinaryReader.bind_some h decoded
      obtain ⟨r, decoded⟩ := BinaryReader.rest_some h decoded
      cases decoded
      refine ⟨_, ?_, by rw [named, sort]; rfl⟩
      rw [whole]
      exact .field first (.field second (.field third (.data (.inl rfl))))
  | putResponse =>
      obtain ⟨named, sort, decoded⟩ := validate_some decoded
      obtain ⟨chunkIndex, r, part, rest, whole, first, h, decoded⟩ := BinaryReader.bind_some (BinaryReader.holds_start _) decoded
      obtain ⟨sizeAvailable, r, part, rest, rfl, second, h, decoded⟩ := BinaryReader.bind_some h decoded
      obtain ⟨status, r, part, rest, rfl, third, h, decoded⟩ := BinaryReader.bind_some h decoded
      obtain ⟨rfl, rfl⟩ := BinaryReader.end_some h decoded
      rw [List.append_nil] at whole
      refine ⟨_, ?_, by rw [named, sort]; rfl⟩
      rw [whole]
      exact .field first (.field second (.last third))
  | getRequest =>
      obtain ⟨named, sort, decoded⟩ := validate_some decoded
      obtain ⟨objectId, r, part, rest, whole, first, h, decoded⟩ := BinaryReader.bind_some (BinaryReader.holds_start _) decoded
      obtain ⟨chunkIndex, r, part, rest, rfl, second, h, decoded⟩ := BinaryReader.bind_some h decoded
      obtain ⟨byteCount, r, part, rest, rfl, third, h, decoded⟩ := BinaryReader.bind_some h decoded
      obtain ⟨rfl, rfl⟩ := BinaryReader.end_some h decoded
      rw [List.append_nil] at whole
      refine ⟨_, ?_, by rw [named, sort]; rfl⟩
      rw [whole]
      exact .field first (.field second (.last third))
  | getResponse =>
      obtain ⟨named, sort, decoded⟩ := validate_some decoded
      obtain ⟨chunkIndex, r, part, rest, whole, first, h, decoded⟩ := BinaryReader.bind_some (BinaryReader.holds_start _) decoded
      obtain ⟨status, r, part, data, rfl, second, h, decoded⟩ := BinaryReader.bind_some h decoded
      obtain ⟨r, decoded⟩ := BinaryReader.rest_some h decoded
      cases decoded
      refine ⟨_, ?_, by rw [named, sort]; rfl⟩
      rw [whole]
      exact .field first (.field second (.data (.inl rfl)))
  | deleteRequest =>
      obtain ⟨named, sort, decoded⟩ := validate_some decoded
      obtain ⟨objectId, r, part, rest, whole, first, h, decoded⟩ := BinaryReader.bind_some (BinaryReader.holds_start _) decoded
      obtain ⟨rfl, rfl⟩ := BinaryReader.end_some h decoded
      rw [List.append_nil] at whole
      refine ⟨_, ?_, by rw [named, sort]; rfl⟩
      rw [whole]
      exact .last first
  | deleteResponse =>
      obtain ⟨named, sort, decoded⟩ := validate_some decoded
      obtain ⟨status, r, part, rest, whole, first, h, decoded⟩ := BinaryReader.bind_some (BinaryReader.holds_start _) decoded
      obtain ⟨rfl, rfl⟩ := BinaryReader.end_some h decoded
      rw [List.append_nil] at whole
      refine ⟨_, ?_, by rw [named, sort]; rfl⟩
      rw [whole]
      exact .last first

theorem faithful (kind : StorageKind) (m : StorageRpcMessage) : kind.Faithful m :=
  (kind.rewrites m).faithful fun _ mem => absurd mem List.not_mem_nil

end StorageKind

/-- What a decoder of either protocol accepts is what the encoder writes, apart from a `LIST` response that
declares more entries than an `int` counts, and a `STAT` response with a time that the clock cannot hold. -/
theorem decoded_faithful (kind : ClientKind) (m : ClientRpcMessage) : (kind.Faithful m ↔ ¬ kind.Deceives m) ∧
    ∀ (kind : StorageKind) (m : StorageRpcMessage), kind.Faithful m :=
  ⟨ClientKind.faithful_iff kind m, StorageKind.faithful⟩

namespace Deceived

/-- Status `Success` and 2³¹ entries, but no entry. -/
def listing : ClientRpcMessage where
  sender := { id := [109], role := .metadata }
  messageHeader := { magic := headerMagic, length := 15, type := .clientRpc }
  rpcHeader := ⟨1, .list, .response⟩
  body := [0, 128, 0, 0, 0]

/-- A file without contents that was created 2⁶³ - 1 milliseconds after the epoch. -/
def aged : ClientRpcMessage where
  sender := { id := [109], role := .metadata }
  messageHeader := { magic := headerMagic, length := 41, type := .clientRpc }
  rpcHeader := ⟨2, .stat, .response⟩
  body := [0, 102, 0, 0, 0, 0, 0] ++ List.replicate 8 0 ++ [127, 255, 255, 255, 255, 255, 255, 255] ++ List.replicate 8 0

end Deceived

/-- Both are accepted, and are not what an encoder writes. -/
theorem accepts_deceived :
    (¬ ∀ m : ClientRpcMessage, m.body.length ≤ maxMessageSize → ClientKind.listResponse.Faithful m) ∧
      ¬ ∀ m : ClientRpcMessage, m.body.length ≤ maxMessageSize → ClientKind.statResponse.Faithful m := by
  constructor
  · intro all
    exact ClientKind.listResponse_faithful_iff.1 (all Deceived.listing (by decide)) ⟨rfl, rfl, rfl, by decide⟩
  · intro all
    exact ClientKind.statResponse_faithful_iff.1 (all Deceived.aged (by decide)) ⟨rfl, rfl, by decide, by decide⟩

end Dfs
