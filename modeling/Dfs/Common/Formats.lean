import Dfs.Common.StorageProtocol
import Mathlib.Data.List.TakeWhile

/-!
# What bodies a decoder takes

A decoder reads one field after another, so the bytes alone decide whether it returns or
throws: each field has to fit, and behind the last one there is nothing or raw data.
-/

namespace Dfs

open Lib

/-- A field by what delimits it: a fixed width, or the next NUL byte. -/
inductive Field where
  | word (width : Nat)
  | text
  deriving DecidableEq

/-- The bytes behind the field, where it fits. -/
def Field.skip : Field → Bytes → Option Bytes
  | word width, bytes => if width ≤ bytes.length then some (bytes.drop width) else none
  | text, bytes => if 0 ∈ bytes then some ((bytes.dropWhile (· ≠ 0)).tail) else none

/-- The fields fit one after another, and behind them is nothing or, where `raw` says so, anything. -/
def fits (raw : Bool) : List Field → Bytes → Bool
  | [], bytes => raw || bytes.isEmpty
  | field :: fields, bytes =>
      match field.skip bytes with
      | none => false
      | some rest => fits raw fields rest

/-- What a decoder returns, where its input is read as `field`. -/
structure ReadsAs {α : Type} (field : Field) (r : BinaryReader) (bytes : Bytes) (result : Except Exn (α × BinaryReader)) :
    Prop where
  short : field.skip bytes = none → ∃ e, result = .error e
  whole : ∀ rest, field.skip bytes = some rest → ∃ v r', result = .ok (v, r') ∧ r'.Holds rest

/-- The values whose extent on the wire shows from the bytes. -/
class Delimited (α : Type) [BinarySerializable α] where
  field : Field
  reads : ∀ (r : BinaryReader) (bytes : Bytes), r.Holds bytes → ReadsAs field r bytes (r.read α)

namespace BinaryReader

variable {r : BinaryReader} {bytes : Bytes}

theorem Holds.drop (h : r.Holds bytes) {n : Nat} (within : n ≤ bytes.length) : (r.advance n).Holds (bytes.drop n) := by
  obtain ⟨part, rest, rfl, rfl⟩ : ∃ part rest, bytes = part ++ rest ∧ n = part.length :=
    ⟨bytes.take n, bytes.drop n, (List.take_append_drop n bytes).symm, by rw [List.length_take]; omega⟩
  rw [List.drop_left]
  exact h.advance

theorem reads_word {α : Type} {width : Nat} (f : Nat → α) (h : r.Holds bytes) :
    ReadsAs (.word width) r bytes
      (do let (v, r) ← r.readIntegral width; return (f v, r) : Except Exn (α × BinaryReader)) := by
  have length := h.length
  have inside := h.1
  refine ⟨fun short => ?_, fun rest fit => ?_⟩
  · have tooShort : ¬ width ≤ bytes.length := by simpa [Field.skip] using short
    refine ⟨.outOfRange, ?_⟩
    rw [readIntegral, if_pos (by omega)]
    rfl
  · simp only [Field.skip, Option.ite_none_right_eq_some, Option.some.injEq] at fit
    obtain ⟨within, rfl⟩ := fit
    refine ⟨f (ofBytes ((r.data.drop r.offset).take width)), r.advance width, ?_, h.drop within⟩
    rw [readIntegral, if_neg (by omega)]
    rfl

end BinaryReader

/-- A value that is made from another one. -/
theorem ReadsAs.map {α β : Type} {field : Field} {r : BinaryReader} {bytes : Bytes}
    {result : Except Exn (α × BinaryReader)} (reads : ReadsAs field r bytes result) (f : α → β) :
    ReadsAs field r bytes (do let (v, r) ← result; return (f v, r) : Except Exn (β × BinaryReader)) := by
  refine ⟨fun short => ?_, fun rest fit => ?_⟩
  · obtain ⟨e, failed⟩ := reads.short short
    exact ⟨e, by rw [failed]; rfl⟩
  · obtain ⟨v, r', read, holds⟩ := reads.whole rest fit
    exact ⟨f v, r', by rw [read]; rfl, holds⟩

instance : Delimited UInt8 := ⟨.word 1, fun _ _ h => BinaryReader.reads_word UInt8.ofNat h⟩
instance : Delimited UInt32 := ⟨.word 4, fun _ _ h => BinaryReader.reads_word UInt32.ofNat h⟩
instance : Delimited UInt64 := ⟨.word 8, fun _ _ h => BinaryReader.reads_word UInt64.ofNat h⟩

instance : Delimited Bool := ⟨.word 1, fun r bytes h => (Delimited.reads (α := UInt8) r bytes h).map fun v => decide (v = 1)⟩

instance {α : Type} [WireEnum α] : Delimited α :=
  ⟨.word 1, fun r bytes h => (Delimited.reads (α := UInt8) r bytes h).map WireEnum.ofByte⟩

/-- A string reaches to the next NUL byte, and there is one exactly if it ends before the bytes do. -/
theorem takeWhile_short {bytes : Bytes} : (bytes.takeWhile (· ≠ 0)).length = bytes.length ↔ (0 : UInt8) ∉ bytes := by
  have split := List.takeWhile_append_dropWhile (p := fun b : UInt8 => decide (b ≠ 0)) (l := bytes)
  constructor
  · intro whole mem
    have nothing : bytes.dropWhile (· ≠ 0) = [] := by
      have lengths := congrArg List.length split
      rw [List.length_append, whole] at lengths
      exact List.eq_nil_of_length_eq_zero (by omega)
    exact absurd (List.dropWhile_eq_nil_iff.1 nothing 0 mem) (by decide)
  · intro none
    rw [List.takeWhile_eq_self_iff.2 fun b mem => by simpa using fun e : b = 0 => none (e ▸ mem)]

theorem reads_text {r : BinaryReader} {bytes : Bytes} (h : r.Holds bytes) : ReadsAs .text r bytes r.readString := by
  have same : r.data.drop r.offset = bytes := h.2
  refine ⟨fun short => ⟨.runtimeError, ?_⟩, fun rest fit => ?_⟩
  · have none : (0 : UInt8) ∉ bytes := by simpa [Field.skip] using short
    rw [BinaryReader.readString, same]
    exact if_pos (takeWhile_short.2 none)
  · simp only [Field.skip, Option.ite_none_right_eq_some, Option.some.injEq] at fit
    obtain ⟨some, rfl⟩ := fit
    have shorter := mt takeWhile_short.1 (not_not.2 some)
    have le := (bytes.takeWhile_prefix fun b => decide (b ≠ 0)).length_le
    refine ⟨bytes.takeWhile (· ≠ 0), r.advance ((bytes.takeWhile (· ≠ 0)).length + 1), ?_, ?_⟩
    · rw [BinaryReader.readString, same]
      exact if_neg shorter
    · have behind : bytes.drop (bytes.takeWhile (· ≠ 0)).length = bytes.dropWhile (· ≠ 0) := by
        have dropped : (bytes.takeWhile (· ≠ 0) ++ bytes.dropWhile (· ≠ 0)).drop (bytes.takeWhile (· ≠ 0)).length =
          bytes.dropWhile (· ≠ 0) := List.drop_left
        rwa [List.takeWhile_append_dropWhile] at dropped
      rw [← behind, List.tail_drop]
      exact h.drop (by omega)

instance : Delimited Bytes := ⟨.text, fun _ _ h => reads_text h⟩

section Decoders

variable {α β : Type} [BinarySerializable α] [Delimited α] {r : BinaryReader} {bytes : Bytes} {raw : Bool} {fields : List Field}

/-- Reading a field and going on. -/
theorem read_isOk {k : α × BinaryReader → Except Exn β} (h : r.Holds bytes)
    (next : ∀ v r' rest, r'.Holds rest → (k (v, r')).isOk = fits raw fields rest) :
    (r.read α >>= k).isOk = fits raw (Delimited.field α :: fields) bytes := by
  have reads := Delimited.reads (α := α) r bytes h
  rw [fits]
  cases skipped : (Delimited.field α).skip bytes with
  | none =>
      obtain ⟨e, failed⟩ := reads.short skipped
      rw [failed]
      rfl
  | some rest =>
      obtain ⟨v, r', read, holds⟩ := reads.whole rest skipped
      rw [read]
      exact next v r' rest holds

theorem atEnd_isOk {b : β} (h : r.Holds bytes) :
    (r.assertAtEnd >>= fun _ => (.ok b : Except Exn β)).isOk = fits false [] bytes := by
  have length := h.length
  have inside := h.1
  rw [BinaryReader.assertAtEnd, BinaryReader.atEnd, fits]
  cases bytes with
  | nil =>
      rw [if_pos (by simp only [List.length_nil] at length; simp; omega)]
      rfl
  | cons b rest =>
      rw [if_neg (by simp only [List.length_cons] at length; simp; omega)]
      rfl

theorem remaining_isOk {k : Bytes × BinaryReader → Except Exn β} (h : r.Holds bytes)
    (next : ∀ v r', (k (v, r')).isOk = true) : (r.readRemaining >>= k).isOk = fits true [] bytes := by
  rw [h.readRemaining]
  exact next _ _

end Decoders

/-! ## Messages as frames -/

theorem exists_write_word {bytes : Bytes} (long : 8 ≤ bytes.length) :
    ∃ (id : UInt64) (rest : Bytes), bytes = write id ++ rest := by
  refine ⟨UInt64.ofNat (ofBytes (bytes.take 8)), bytes.drop 8, ?_⟩
  have length : (bytes.take 8).length = 8 := by
    rw [List.length_take]
    omega
  have small := ofBytes_lt (bytes.take 8)
  rw [length] at small
  have back := toBytes_ofBytes (bytes.take 8)
  rw [length] at back
  have value : (UInt64.ofNat (ofBytes (bytes.take 8))).toNat = ofBytes (bytes.take 8) := UInt64.toNat_ofNat_of_lt' small
  have written : write (UInt64.ofNat (ofBytes (bytes.take 8))) = bytes.take 8 := by
    change toBytes 8 (UInt64.ofNat (ofBytes (bytes.take 8))).toNat = _
    rw [value, back]
  rw [written, List.take_append_drop]

theorem exists_write_enum (α : Type) [WireEnum α] {bytes : Bytes} (long : 1 ≤ bytes.length) :
    ∃ (v : α) (rest : Bytes), bytes = write v ++ rest := by
  cases bytes with
  | nil => cases long
  | cons b rest =>
      refine ⟨WireEnum.ofByte b, rest, ?_⟩
      have written : write (WireEnum.ofByte b : α) = [b] := by
        change toBytes 1 (WireEnum.toByte (WireEnum.ofByte b : α)).toNat = _
        rw [WireEnum.toByte_ofByte]
        simp [toBytes]
      rw [written]
      rfl

theorem write_word_length (id : UInt64) : (write id).length = 8 := length_toBytes 8 _

theorem write_enum_length {α : Type} [WireEnum α] (v : α) : (write v).length = 1 := length_toBytes 1 _

namespace Rpc

variable {Job : Type} [WireEnum Job] [RpcTraits Job] {m : Message}

/-- A message with the right header that can hold an RPC header is a frame of `makeFrame`. -/
theorem exists_makeFrame (matched : headerMatches Job m = true) (long : 10 ≤ m.buffer.length) :
    ∃ (requestId : UInt64) (job : Job) (kind : RpcKind) (body : Bytes),
      m = (makeFrame requestId job kind body).from m.sender := by
  simp only [headerMatches, Bool.and_eq_true, decide_eq_true_eq] at matched
  obtain ⟨⟨magic, type⟩, length⟩ := matched
  obtain ⟨sender, header, buffer⟩ := m
  dsimp only at magic length type long
  obtain ⟨requestId, rest, rfl⟩ := exists_write_word (Nat.le_trans (by decide) long)
  rw [List.length_append, write_word_length] at long
  obtain ⟨job, rest, rfl⟩ := exists_write_enum Job (show 1 ≤ rest.length by omega)
  rw [List.length_append, write_enum_length] at long
  obtain ⟨kind, body, rfl⟩ := exists_write_enum RpcKind (show 1 ≤ rest.length by omega)
  refine ⟨requestId, job, kind, body, ?_⟩
  obtain ⟨headerMagic', headerLength, headerType⟩ := header
  dsimp only at magic length type
  subst magic type
  have announced : headerLength = UInt32.ofNat (write requestId ++ (write job ++ (write kind ++ body))).length := by
    rw [← length, UInt32.ofNat_toNat]
  rw [announced]
  rfl

omit [RpcTraits Job] in
/-- In a shorter one there is no RPC header. -/
theorem readHeader_short (Job : Type) [WireEnum Job] {bytes : Bytes} (short : bytes.length < 10) :
    ∃ e, readHeader Job (.start bytes) = .error e := by
  have isOk : (readHeader Job (.start bytes)).isOk = fits true [.word 8, .word 1, .word 1] bytes := by
    refine read_isOk (BinaryReader.holds_start _) fun requestId r rest h => ?_
    refine read_isOk h fun job r rest h => ?_
    exact read_isOk h fun kind r rest h => rfl
  have bad : fits true [.word 8, .word 1, .word 1] bytes = false := by
    simp only [fits, Field.skip, Bool.true_or]
    grind
  rw [bad] at isOk
  cases result : readHeader Job (.start bytes) with
  | error e => exact ⟨e, rfl⟩
  | ok v =>
      rw [result] at isOk
      cases isOk

/-- A filter accepts frames only. -/
theorem exists_makeFrame_of_accepted [DecidableEq Job] {requestId : UInt64} {job : Job} {kind : RpcKind} {sender : NodeId}
    {p : BinaryReader → Except Exn Bool} (accepted : makeMessageIs requestId job kind sender p m = true) :
    headerMatches Job m = true ∧ ∃ body, m = (makeFrame requestId job kind body).from m.sender := by
  have seen := accepted
  simp only [makeMessageIs, Bool.and_eq_true] at seen
  obtain ⟨⟨-, matched⟩, header⟩ := seen
  have long : 10 ≤ m.buffer.length := by
    by_contra short
    obtain ⟨e, failed⟩ := readHeader_short Job (Nat.lt_of_not_le short)
    rw [failed] at header
    cases header
  obtain ⟨requestId', job', kind', body, frame⟩ := exists_makeFrame matched long
  rw [frame] at accepted
  obtain ⟨-, rfl, rfl, rfl, -⟩ := makeMessageIs_accepts accepted
  exact ⟨matched, body, frame⟩

/-- A message that can be read is a frame with the right header. -/
theorem exists_makeFrame_of_read {message : RpcMessage Job} (read : readMessage Job m = .ok message) :
    headerMatches Job m = true ∧ ∃ (requestId : UInt64) (job : Job) (kind : RpcKind) (body : Bytes),
      m = (makeFrame requestId job kind body).from m.sender ∧ (kind = .request ∨ kind = .response) := by
  have matched : headerMatches Job m = true := by
    by_contra bad
    have invalid : validateMessage Job m = .error .runtimeError := by
      unfold validateMessage
      split_ifs with magic type length
      · rfl
      · rfl
      · rfl
      · exact absurd (by simp [headerMatches, not_not.1 magic, not_not.1 type, not_not.1 length]) bad
    rw [readMessage, invalid] at read
    cases read
  have long : 10 ≤ m.buffer.length := by
    by_contra short
    obtain ⟨e, failed⟩ := readHeader_short Job (Nat.lt_of_not_le short)
    rw [readMessage, failed] at read
    cases valid : validateMessage Job m <;> rw [valid] at read <;> cases read
  obtain ⟨requestId, job, kind, body, frame⟩ := exists_makeFrame matched long
  refine ⟨matched, requestId, job, kind, body, frame, ?_⟩
  by_contra improper
  rw [not_or] at improper
  obtain ⟨r, header, holds⟩ := readHeader_frame requestId job kind body
  rw [frame, readMessage] at read
  cases valid : validateMessage Job ((makeFrame requestId job kind body).from m.sender) with
  | error e =>
      rw [valid] at read
      cases read
  | ok _ =>
      rw [valid] at read
      simp only [Frame.from, bind, Except.bind] at read
      rw [header] at read
      simp only [holds.readRemaining, validateRpcMessage, if_pos improper] at read
      cases read

/-- The filter for a kind of messages accepts the frames of that kind. -/
theorem messageIs_iff {kind : RpcKind} : messageIs Job kind m = true ↔
    headerMatches Job m = true ∧
      ∃ (requestId : UInt64) (job : Job) (body : Bytes), m = (makeFrame requestId job kind body).from m.sender := by
  have framed : ∀ (requestId : UInt64) (job : Job) (kind' : RpcKind) (body : Bytes),
      messageIs Job kind ((makeFrame requestId job kind' body).from m.sender) = true ↔
        headerMatches Job ((makeFrame requestId job kind' body).from m.sender) = true ∧ kind' = kind := by
    intro requestId job kind' body
    obtain ⟨r, read, -⟩ := readHeader_frame requestId job kind' body
    simp only [messageIs, Frame.from, bind, Except.bind, Bool.and_eq_true]
    rw [read]
    simp [caught, pure, Except.pure]
  constructor
  · intro accepted
    have seen := accepted
    simp only [messageIs, Bool.and_eq_true] at seen
    obtain ⟨matched, header⟩ := seen
    have long : 10 ≤ m.buffer.length := by
      by_contra short
      obtain ⟨e, failed⟩ := readHeader_short Job (Nat.lt_of_not_le short)
      rw [failed] at header
      cases header
    obtain ⟨requestId, job, kind', body, frame⟩ := exists_makeFrame matched long
    rw [frame] at accepted
    obtain ⟨-, rfl⟩ := (framed _ _ _ _).1 accepted
    exact ⟨matched, requestId, job, body, frame⟩
  · rintro ⟨matched, requestId, job, body, frame⟩
    rw [frame] at matched ⊢
    exact (framed _ _ _ _).2 ⟨matched, rfl⟩

end Rpc

/-! ## Requests of clients -/

namespace ClientProtocol

variable {m : ClientRpcMessage}

theorem validate_isOk {β : Type} {job : ClientJob} {kind : RpcKind} {k : Unit → Except Exn β} :
    (validateRpcMessage job kind m >>= k).isOk =
      (decide (m.rpcHeader.kind = kind ∧ m.rpcHeader.job = job) && (k ()).isOk) := by
  unfold validateRpcMessage
  split
  · rename_i bad
    simp only [bad, false_and, decide_false, Bool.false_and]
    rfl
  split
  · rename_i bad
    simp only [bad, and_false, decide_false, Bool.false_and]
    rfl
  · rename_i kind job
    simp only [Classical.not_not.1 kind, Classical.not_not.1 job, and_self, decide_true, Bool.true_and]
    rfl

/-- The requests that carry one path and nothing else. -/
theorem path_isOk {β : Type} {job : ClientJob} (make : Bytes → β) :
    (do validateRpcMessage job .request m
        let (path, reader) ← (BinaryReader.start m.body).read Bytes
        reader.assertAtEnd
        return make path : Except Exn β).isOk =
      (decide (m.rpcHeader.kind = .request ∧ m.rpcHeader.job = job) && fits false [.text] m.body) := by
  refine validate_isOk.trans (congrArg _ ?_)
  exact read_isOk (BinaryReader.holds_start _) fun path r rest h => atEnd_isOk h

theorem decodeCreateFileRequest_isOk : (decodeCreateFileRequest m).isOk =
    (decide (m.rpcHeader.kind = .request ∧ m.rpcHeader.job = .createFile) && fits false [.text] m.body) :=
  path_isOk fun path => ({ path, context := .of m } : CreateFileRequest)

theorem decodeReadFileRequest_isOk : (decodeReadFileRequest m).isOk =
    (decide (m.rpcHeader.kind = .request ∧ m.rpcHeader.job = .readFile) && fits false [.text] m.body) :=
  path_isOk fun path => ({ path, context := .of m } : ReadFileRequest)

theorem decodeReadChunkRequest_isOk : (decodeReadChunkRequest m).isOk =
    (decide (m.rpcHeader.kind = .request ∧ m.rpcHeader.job = .readChunk) && fits false [.word 4] m.body) := by
  refine validate_isOk.trans (congrArg _ ?_)
  exact read_isOk (BinaryReader.holds_start _) fun chunkIndex r rest h => atEnd_isOk h

theorem decodeWriteFileRequest_isOk : (decodeWriteFileRequest m).isOk =
    (decide (m.rpcHeader.kind = .request ∧ m.rpcHeader.job = .writeFile) &&
      fits false [.word 8, .word 4, .text] m.body) := by
  refine validate_isOk.trans (congrArg _ ?_)
  refine read_isOk (BinaryReader.holds_start _) fun fileSize r rest h => ?_
  refine read_isOk h fun chunkCount r rest h => ?_
  exact read_isOk h fun path r rest h => atEnd_isOk h

theorem decodeWriteChunkRequest_isOk : (decodeWriteChunkRequest m).isOk =
    (decide (m.rpcHeader.kind = .request ∧ m.rpcHeader.job = .writeChunk) && fits true [.word 4] m.body) := by
  refine validate_isOk.trans (congrArg _ ?_)
  exact read_isOk (BinaryReader.holds_start _) fun chunkIndex r rest h => remaining_isOk h fun _ _ => rfl

theorem decodeRemoveRequest_isOk : (decodeRemoveRequest m).isOk =
    (decide (m.rpcHeader.kind = .request ∧ m.rpcHeader.job = .remove) && fits false [.text] m.body) :=
  path_isOk fun path => ({ path, context := .of m } : RemoveRequest)

theorem decodeListRequest_isOk : (decodeListRequest m).isOk =
    (decide (m.rpcHeader.kind = .request ∧ m.rpcHeader.job = .list) && fits false [.text] m.body) :=
  path_isOk fun path => ({ path, context := .of m } : ListRequest)

theorem decodeMakeDirRequest_isOk : (decodeMakeDirRequest m).isOk =
    (decide (m.rpcHeader.kind = .request ∧ m.rpcHeader.job = .mkdir) && fits false [.text] m.body) :=
  path_isOk fun path => ({ path, context := .of m } : MakeDirRequest)

theorem decodeRenameRequest_isOk : (decodeRenameRequest m).isOk =
    (decide (m.rpcHeader.kind = .request ∧ m.rpcHeader.job = .rename) && fits false [.text, .text] m.body) := by
  refine validate_isOk.trans (congrArg _ ?_)
  refine read_isOk (BinaryReader.holds_start _) fun oldPath r rest h => ?_
  exact read_isOk h fun newPath r rest h => atEnd_isOk h

theorem decodeStatRequest_isOk : (decodeStatRequest m).isOk =
    (decide (m.rpcHeader.kind = .request ∧ m.rpcHeader.job = .stat) && fits false [.text] m.body) :=
  path_isOk fun path => ({ path, context := .of m } : StatRequest)

theorem decodeReadFileResponse_isOk : (decodeReadFileResponse m).isOk =
    (decide (m.rpcHeader.kind = .response ∧ m.rpcHeader.job = .readFile) &&
      fits false [.word 1, .word 8, .word 4] m.body) := by
  refine validate_isOk.trans (congrArg _ ?_)
  refine read_isOk (BinaryReader.holds_start _) fun status r rest h => ?_
  refine read_isOk h fun fileSize r rest h => ?_
  exact read_isOk h fun chunkCount r rest h => atEnd_isOk h

theorem decodeReadChunkResponse_isOk : (decodeReadChunkResponse m).isOk =
    (decide (m.rpcHeader.kind = .response ∧ m.rpcHeader.job = .readChunk) && fits true [.word 4, .word 1] m.body) := by
  refine validate_isOk.trans (congrArg _ ?_)
  refine read_isOk (BinaryReader.holds_start _) fun chunkIndex r rest h => ?_
  exact read_isOk h fun status r rest h => remaining_isOk h fun _ _ => rfl

variable {message : Message} {requestId : UInt64} {sender : NodeId} {p : BinaryReader → Except Exn Bool}

/-- A response to `ReadFile` that has passed the filter can be decoded if its length is right. -/
theorem receive_readFileResponse_isOk
    (accepted : Rpc.makeMessageIs requestId ClientJob.readFile .response sender p message = true) :
    (Rpc.readMessage ClientJob message >>= decodeReadFileResponse).isOk = decide (message.buffer.length = 23) := by
  obtain ⟨matched, body, frame⟩ := Rpc.exists_makeFrame_of_accepted accepted
  rw [frame] at matched ⊢
  rw [Rpc.readMessage_matched matched (Or.inr rfl)]
  simp only [bind, Except.bind]
  rw [decodeReadFileResponse_isOk, Frame.from, Rpc.makeFrame_length]
  simp only [and_self, decide_true, Bool.true_and, fits, Field.skip]
  grind

/-- The filter for a chunk looks at the index only, but there has to be a status behind it. -/
theorem receive_readChunkResponse_isOk
    (accepted : Rpc.makeMessageIs requestId ClientJob.readChunk .response sender p message = true) :
    (Rpc.readMessage ClientJob message >>= decodeReadChunkResponse).isOk = decide (15 ≤ message.buffer.length) := by
  obtain ⟨matched, body, frame⟩ := Rpc.exists_makeFrame_of_accepted accepted
  rw [frame] at matched ⊢
  rw [Rpc.readMessage_matched matched (Or.inr rfl)]
  simp only [bind, Except.bind]
  rw [decodeReadChunkResponse_isOk, Frame.from, Rpc.makeFrame_length]
  simp only [and_self, decide_true, Bool.true_and, fits, Field.skip]
  grind

end ClientProtocol

/-! ## Messages of the storage protocol -/

namespace StorageProtocol

variable {m : StorageRpcMessage}

theorem validate_isOk {β : Type} {job : StorageJob} {kind : RpcKind} {k : Unit → Except Exn β} :
    (validateStorageMessage job kind m >>= k).isOk =
      (decide (m.rpcHeader.job = job ∧ m.rpcHeader.kind = kind) && (k ()).isOk) := by
  unfold validateStorageMessage
  split
  · rename_i bad
    simp only [bad, false_and, decide_false, Bool.false_and]
    rfl
  split
  · rename_i bad
    simp only [bad, and_false, decide_false, Bool.false_and]
    rfl
  · rename_i job kind
    simp only [Classical.not_not.1 kind, Classical.not_not.1 job, and_self, decide_true, Bool.true_and]
    rfl

theorem decodePutRequest_isOk : (decodePutRequest m).isOk =
    (decide (m.rpcHeader.job = .put ∧ m.rpcHeader.kind = .request) &&
      fits true [.text, .word 4, .word 1] m.body) := by
  refine validate_isOk.trans (congrArg _ ?_)
  refine read_isOk (BinaryReader.holds_start _) fun objectId r rest h => ?_
  refine read_isOk h fun chunkIndex r rest h => ?_
  exact read_isOk h fun finalChunk r rest h => remaining_isOk h fun _ _ => rfl

theorem decodePutResponse_isOk : (decodePutResponse m).isOk =
    (decide (m.rpcHeader.job = .put ∧ m.rpcHeader.kind = .response) &&
      fits false [.word 4, .word 8, .word 1] m.body) := by
  refine validate_isOk.trans (congrArg _ ?_)
  refine read_isOk (BinaryReader.holds_start _) fun chunkIndex r rest h => ?_
  refine read_isOk h fun sizeAvailable r rest h => ?_
  exact read_isOk h fun status r rest h => atEnd_isOk h

/-- A reply to a `PUT` that has passed the filter can be decoded if its length is right. -/
theorem receive_putResponse_isOk {message : Message} {requestId : UInt64} {replica : NodeId} {chunkIndex : UInt32}
    (accepted : Rpc.makeMessageIs requestId StorageJob.put .response replica (Rpc.matchChunk chunkIndex) message = true) :
    (Rpc.readMessage StorageJob message >>= decodePutResponse).isOk = decide (message.buffer.length = 23) := by
  obtain ⟨matched, body, frame⟩ := Rpc.exists_makeFrame_of_accepted accepted
  rw [frame] at matched ⊢
  rw [Rpc.readMessage_matched matched (Or.inr rfl)]
  simp only [bind, Except.bind]
  rw [decodePutResponse_isOk, Frame.from, Rpc.makeFrame_length]
  simp only [and_self, decide_true, Bool.true_and, fits, Field.skip]
  grind

theorem decodeGetRequest_isOk : (decodeGetRequest m).isOk =
    (decide (m.rpcHeader.job = .get ∧ m.rpcHeader.kind = .request) &&
      fits false [.text, .word 4, .word 4] m.body) := by
  refine validate_isOk.trans (congrArg _ ?_)
  refine read_isOk (BinaryReader.holds_start _) fun objectId r rest h => ?_
  refine read_isOk h fun chunkIndex r rest h => ?_
  exact read_isOk h fun byteCount r rest h => atEnd_isOk h

theorem decodeDeleteRequest_isOk : (decodeDeleteRequest m).isOk =
    (decide (m.rpcHeader.job = .delete ∧ m.rpcHeader.kind = .request) && fits false [.text] m.body) := by
  refine validate_isOk.trans (congrArg _ ?_)
  exact read_isOk (BinaryReader.holds_start _) fun objectId r rest h => atEnd_isOk h

end StorageProtocol

end Dfs
