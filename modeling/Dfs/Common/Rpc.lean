import Dfs.Common.Message

/-!
# Remote calls (`Rpc.hpp`)

A remote call travels in the buffer of a frame: request id, job and kind, then the body the
protocol defines. Frames are recognised in a queue by `messageIs` and `makeMessageIs`, which
look at the same bytes as `readMessage` without taking the message apart.
-/

namespace Dfs

open Lib

inductive RpcKind where
  | response
  | request
  | other (b : UInt8) (h : 2 ≤ b.toNat)
  deriving DecidableEq

instance : WireEnum RpcKind where
  toByte
    | .response => 0
    | .request => 1
    | .other b _ => b
  ofByte b :=
    if h0 : b.toNat = 0 then .response
    else if h1 : b.toNat = 1 then .request
    else .other b (by omega)
  ofByte_toByte v := by
    cases v with
    | other b h =>
        simp only
        split_ifs <;> first | omega | rfl
    | _ => rfl
  toByte_ofByte b := by
    split_ifs <;> first | rfl | exact UInt8.toNat_inj.1 (Eq.symm ‹_›)

/-- The message type that carries the jobs of one protocol. -/
class RpcTraits (Job : Type) where
  messageType : MessageType

structure RpcHeader (Job : Type) where
  requestId : UInt64
  job : Job
  kind : RpcKind
  deriving DecidableEq

structure RpcMessage (Job : Type) where
  sender : NodeIdentity
  messageHeader : MessageHeader
  rpcHeader : RpcHeader Job
  body : Bytes

namespace Rpc

variable {Job : Type} [WireEnum Job] [RpcTraits Job]

def validateMessage (Job : Type) [RpcTraits Job] (message : Message) : Except Exn Unit :=
  if message.header.magic ≠ headerMagic then .error .runtimeError
  else if message.header.type ≠ RpcTraits.messageType Job then .error .runtimeError
  else if message.header.length.toNat ≠ message.buffer.length then .error .runtimeError
  else .ok ()

def validateRpcMessage (message : RpcMessage Job) : Except Exn Unit :=
  if message.rpcHeader.kind ≠ .request ∧ message.rpcHeader.kind ≠ .response then .error .runtimeError
  else .ok ()

def makeFrame (requestId : UInt64) (job : Job) (kind : RpcKind) (body : Bytes) : Frame :=
  let buffer := write requestId ++ (write job ++ (write kind ++ body))
  { header :=
      { magic := headerMagic, length := .ofNat buffer.length, type := RpcTraits.messageType Job }
    buffer := buffer }

def readHeader (Job : Type) [WireEnum Job] (reader : BinaryReader) :
    Except Exn (RpcHeader Job × BinaryReader) := do
  let (requestId, reader) ← reader.read UInt64
  let (job, reader) ← reader.read Job
  let (kind, reader) ← reader.read RpcKind
  return ({ requestId, job, kind }, reader)

def readMessage (Job : Type) [WireEnum Job] [RpcTraits Job] (message : Message) :
    Except Exn (RpcMessage Job) := do
  validateMessage Job message
  let (rpcHeader, reader) ← readHeader Job (.start message.buffer)
  let (body, _) ← reader.readRemaining
  let rpcMessage := { sender := message.sender, messageHeader := message.header, rpcHeader, body }
  validateRpcMessage rpcMessage
  return rpcMessage

/-- The header fields every filter looks at first. -/
def headerMatches (Job : Type) [RpcTraits Job] (message : Message) : Bool :=
  message.header.magic = headerMagic && message.header.type = RpcTraits.messageType Job &&
    message.header.length.toNat = message.buffer.length

/-- `false` where the code catches an exception. -/
def caught (r : Except Exn Bool) : Bool :=
  match r with
  | .ok b => b
  | .error _ => false

def messageIs (Job : Type) [WireEnum Job] [RpcTraits Job] (kind : RpcKind) (message : Message) : Bool :=
  headerMatches Job message && caught do
    let (rpcHeader, _) ← readHeader Job (.start message.buffer)
    return rpcHeader.kind = kind

/-- The default body predicate. -/
def matchAnyBody (_ : BinaryReader) : Except Exn Bool := .ok true

/-- The body predicate of the chunk requests: the body starts with this chunk index. -/
def matchChunk (chunkIndex : UInt32) (reader : BinaryReader) : Except Exn Bool := do
  let (actual, _) ← reader.read UInt32
  return actual = chunkIndex

variable [DecidableEq Job]

def makeMessageIs (requestId : UInt64) (job : Job) (kind : RpcKind) (sender : NodeId)
    (bodyPredicate : BinaryReader → Except Exn Bool) (message : Message) : Bool :=
  message.sender.id == sender && headerMatches Job message && caught do
    let (rpcHeader, reader) ← readHeader Job (.start message.buffer)
    if rpcHeader ≠ { requestId, job, kind } then return false
    bodyPredicate reader

/-! ## The frames `makeFrame` builds -/

variable {requestId requestId' : UInt64} {job job' : Job} {kind kind' : RpcKind} {body : Bytes}

omit [DecidableEq Job] in
theorem makeFrame_length :
    (makeFrame requestId job kind body).buffer.length = 10 + body.length := by
  simp [makeFrame, write]
  omega

omit [DecidableEq Job] in
theorem makeFrame_header (small : body.length < 2 ^ 31) (s : NodeIdentity) :
    headerMatches Job ((makeFrame requestId job kind body).from s) = true := by
  have len := @makeFrame_length Job _ _ requestId job kind body
  simp only [makeFrame] at len
  simp [headerMatches, Frame.from, makeFrame]
  simp [write]
  omega

omit [DecidableEq Job] [RpcTraits Job] in
theorem readHeader_write {r : BinaryReader} {rest : Bytes}
    (h : r.Holds (write requestId ++ (write job ++ (write kind ++ rest)))) :
    ∃ r', readHeader Job r = .ok ({ requestId, job, kind }, r') ∧ r'.Holds rest := by
  obtain ⟨r1, read1, h1⟩ := LawfulSerial.read_write requestId r _ trivial h
  obtain ⟨r2, read2, h2⟩ := LawfulSerial.read_write job r1 _ trivial h1
  obtain ⟨r3, read3, h3⟩ := LawfulSerial.read_write kind r2 _ trivial h2
  refine ⟨r3, ?_, h3⟩
  simp only [readHeader, read1, read2, read3, bind, Except.bind]
  rfl

omit [DecidableEq Job] in
theorem readHeader_frame (requestId : UInt64) (job : Job) (kind : RpcKind) (body : Bytes) :
    ∃ r, readHeader Job (.start (makeFrame requestId job kind body).buffer) = .ok ({ requestId, job, kind }, r) ∧
      r.Holds body :=
  readHeader_write (BinaryReader.holds_start _)

omit [DecidableEq Job] in
theorem readMessage_matched {s : NodeIdentity} (matched : headerMatches Job ((makeFrame requestId job kind body).from s) = true)
    (proper : kind = .request ∨ kind = .response) :
    readMessage Job ((makeFrame requestId job kind body).from s) =
      .ok { sender := s, messageHeader := (makeFrame requestId job kind body).header,
            rpcHeader := { requestId, job, kind }, body } := by
  simp only [headerMatches, Bool.and_eq_true, decide_eq_true_eq] at matched
  obtain ⟨⟨magic, type⟩, len⟩ := matched
  have valid : validateMessage Job ((makeFrame requestId job kind body).from s) = .ok () := by
    simp [validateMessage, magic, type, len]
  obtain ⟨r, read, h⟩ := readHeader_frame requestId job kind body
  have proper' : ¬ (kind ≠ .request ∧ kind ≠ .response) := by
    rintro ⟨a, b⟩
    exact proper.elim a b
  rw [readMessage, valid]
  simp only [Frame.from, bind, Except.bind]
  rw [read]
  simp only [h.readRemaining, validateRpcMessage, if_neg proper']
  rfl

omit [DecidableEq Job] in
theorem readMessage_makeFrame (small : body.length < 2 ^ 31) (s : NodeIdentity)
    (proper : kind = .request ∨ kind = .response) :
    readMessage Job ((makeFrame requestId job kind body).from s) =
      .ok { sender := s, messageHeader := (makeFrame requestId job kind body).header,
            rpcHeader := { requestId, job, kind }, body } :=
  readMessage_matched (makeFrame_header small s) proper

/-- Whatever the size of the body, a filter that accepts a frame has seen what was put into it. -/
theorem makeMessageIs_accepts {s : NodeIdentity} {sender : NodeId} {p : BinaryReader → Except Exn Bool}
    (h : makeMessageIs requestId' job' kind' sender p ((makeFrame requestId job kind body).from s) = true) :
    s.id = sender ∧ requestId = requestId' ∧ job = job' ∧ kind = kind' ∧ ∃ r, r.Holds body ∧ p r = .ok true := by
  obtain ⟨r, read, holds⟩ := readHeader_frame requestId job kind body
  simp only [makeMessageIs, Frame.from, bind, Except.bind, Bool.and_eq_true, beq_iff_eq] at h
  rw [read] at h
  obtain ⟨⟨sender, -⟩, seen⟩ := h
  simp only [RpcHeader.mk.injEq, ne_eq] at seen
  split at seen
  · cases seen
  · rename_i same
    obtain ⟨a, b, c⟩ := Classical.not_not.1 same
    refine ⟨sender, a, b, c, r, holds, ?_⟩
    cases accepted : p r with
    | error e => simp [accepted, caught] at seen
    | ok v => simpa [accepted, caught] using seen

omit [DecidableEq Job] in
/-- Whatever the size of the body, a message that can be read has what was put into its frame. -/
theorem readMessage_ok {s : NodeIdentity} {message : RpcMessage Job}
    (h : readMessage Job ((makeFrame requestId job kind body).from s) = .ok message) :
    message.rpcHeader = { requestId, job, kind } ∧ message.sender = s := by
  obtain ⟨r, read, holds⟩ := readHeader_frame requestId job kind body
  rw [readMessage] at h
  cases valid : validateMessage Job ((makeFrame requestId job kind body).from s) with
  | error e =>
      rw [valid] at h
      cases h
  | ok _ =>
      rw [valid] at h
      simp only [Frame.from, bind, Except.bind] at h
      rw [read] at h
      simp only [holds.readRemaining] at h
      split at h
      · cases h
      · cases h
        exact ⟨rfl, rfl⟩

/-- A filter recognises a frame by its sender, its three header fields and its body. -/
theorem makeMessageIs_makeFrame (small : body.length < 2 ^ 31) (s : NodeIdentity) (sender : NodeId)
    (p : BinaryReader → Except Exn Bool) :
    ∃ r : BinaryReader, r.Holds body ∧
      (makeMessageIs requestId' job' kind' sender p ((makeFrame requestId job kind body).from s) = true ↔
        s.id = sender ∧ requestId = requestId' ∧ job = job' ∧ kind = kind' ∧ p r = .ok true) := by
  obtain ⟨r, read, h⟩ := readHeader_frame requestId job kind body
  refine ⟨r, h, ?_⟩
  rw [makeMessageIs, makeFrame_header small s]
  simp only [Frame.from, bind, Except.bind]
  rw [read]
  simp only [Bool.and_true, Bool.and_eq_true, RpcHeader.mk.injEq, ne_eq]
  split
  · rename_i differs
    simp only [caught, pure, Except.pure, Bool.false_eq_true, and_false, false_iff]
    rintro ⟨-, a, b, c, -⟩
    exact differs ⟨a, b, c⟩
  · rename_i same
    obtain ⟨a, b, c⟩ := Classical.not_not.1 same
    rw [beq_iff_eq]
    cases p r with
    | error e => simp [caught]
    | ok v => simp [caught, a, b, c]

theorem makeMessageIs_any (small : body.length < 2 ^ 31) (s : NodeIdentity) (sender : NodeId) :
    makeMessageIs requestId' job' kind' sender matchAnyBody
        ((makeFrame requestId job kind body).from s) = true ↔
      s.id = sender ∧ requestId = requestId' ∧ job = job' ∧ kind = kind' := by
  obtain ⟨r, -, h⟩ := @makeMessageIs_makeFrame Job _ _ _ requestId requestId' job job' kind kind' body small s sender
    matchAnyBody
  rw [h]
  simp [matchAnyBody]

theorem makeMessageIs_chunk {chunkIndex chunkIndex' : UInt32} {rest : Bytes}
    (small : (write chunkIndex ++ rest).length < 2 ^ 31) (s : NodeIdentity) (sender : NodeId) :
    makeMessageIs requestId' job' kind' sender (matchChunk chunkIndex')
        ((makeFrame requestId job kind (write chunkIndex ++ rest)).from s) = true ↔
      s.id = sender ∧ requestId = requestId' ∧ job = job' ∧ kind = kind' ∧ chunkIndex = chunkIndex' := by
  obtain ⟨r, holds, h⟩ := @makeMessageIs_makeFrame Job _ _ _ requestId requestId' job job' kind kind' _ small s sender
    (matchChunk chunkIndex')
  obtain ⟨r', read, -⟩ := LawfulSerial.read_write chunkIndex r _ trivial holds
  rw [h]
  simp [matchChunk, read, bind, Except.bind, pure, Except.pure]

/-- A message of another type is no message of this protocol. -/
theorem makeMessageIs_type {p : BinaryReader → Except Exn Bool} {sender : NodeId} {message : Message}
    (h : makeMessageIs requestId job kind sender p message = true) :
    message.header.type = RpcTraits.messageType Job ∧ message.sender.id = sender := by
  simp only [makeMessageIs, headerMatches, Bool.and_eq_true, decide_eq_true_eq, beq_iff_eq] at h
  exact ⟨h.1.2.1.2, h.1.1⟩

end Rpc

end Dfs
