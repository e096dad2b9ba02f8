import Dfs.Client.Client
import Dfs.Common.Formats
import Dfs.System.Producers

/-!
# Filters and the parser

The filters of `receive_if` look at the bytes of a message on their own. They accept what `read_message` accepts, so that
nothing which is checked after the wait can fail.
-/

namespace Dfs

open Lib

theorem bind_ok_iff {α β : Type} {x : Except Exn α} {f : α → Except Exn β} {b : β} :
    (x >>= f) = .ok b ↔ ∃ a, x = .ok a ∧ f a = .ok b := by
  cases x with
  | error e => exact ⟨nofun, nofun⟩
  | ok a => exact ⟨fun h => ⟨a, rfl, h⟩, fun ⟨_, same, h⟩ => Except.ok.inj same ▸ h⟩

namespace BinaryReader

variable {α : Type} {r r' : BinaryReader} {rest : Bytes} {v : α}

theorem Holds.start (holds : r.Holds rest) : r.data.drop r.offset = (BinaryReader.start rest).data.drop (BinaryReader.start rest).offset :=
  holds.2

/-- An integer that has been read lies behind the reader. -/
theorem read_word_advance {width : Nat} {f : Nat → α}
    (read : (do let (v, r) ← r.readIntegral width; return (f v, r) : Except Exn (α × BinaryReader)) = .ok (v, r')) :
    r' = r.advance width := by
  rw [readIntegral] at read
  split at read
  · cases read
  · cases read
    rfl

theorem read_enum_advance [WireEnum α] (read : r.read α = .ok (v, r')) : r' = r.advance 1 := by
  obtain ⟨⟨b, r₁⟩, byte, done⟩ := bind_ok_iff.1 read
  cases done
  exact read_word_advance byte

/-- It does not matter what lies behind the reader. -/
theorem Holds.read_word {width : Nat} {f : Nat → α} (holds : r.Holds rest) :
    ((do let (v, r) ← r.readIntegral width; return (f v, r) : Except Exn (α × BinaryReader)).map (·.1)) =
      (do let (v, r) ← (BinaryReader.start rest).readIntegral width; return (f v, r) : Except Exn (α × BinaryReader)).map (·.1) := by
  have length := holds.length
  have inside := holds.1
  have size : (BinaryReader.start rest).data.length - (BinaryReader.start rest).offset = rest.length := rfl
  have first : ¬ (BinaryReader.start rest).offset > (BinaryReader.start rest).data.length := Nat.not_lt_zero _
  rw [readIntegral, readIntegral, length, size, holds.start]
  by_cases short : width > rest.length
  · rw [if_pos (.inr short), if_pos (.inr short)]
  · rw [if_neg (by omega), if_neg (not_or.2 ⟨first, short⟩)]
    rfl

end BinaryReader

namespace Rpc

variable {Job : Type} [WireEnum Job] [RpcTraits Job] {m : Message} {requestId : UInt64} {job : Job} {kind : RpcKind} {sender : NodeId}
  {p : BinaryReader → Except Exn Bool}

/-- The reader that a body predicate gets: behind request id, job and kind. -/
def bodyReader (m : Message) : BinaryReader := (BinaryReader.start m.buffer).advance 10

/-- The predicate looks at nothing but the bytes that are still to be read. -/
def Forward (p : BinaryReader → Except Exn Bool) : Prop := ∀ r rest, r.Holds rest → p r = p (.start rest)

theorem matchAnyBody_forward : Forward matchAnyBody := fun _ _ _ => rfl

theorem matchChunk_forward (chunkIndex : UInt32) : Forward (matchChunk chunkIndex) := by
  intro r rest holds
  have same : (r.read UInt32).map (·.1) = ((BinaryReader.start rest).read UInt32).map (·.1) := holds.read_word
  unfold matchChunk
  cases first : r.read UInt32 with
  | error e =>
      rw [first] at same
      cases second : (BinaryReader.start rest).read UInt32 with
      | error e' =>
          rw [second] at same
          cases same
          rfl
      | ok v =>
          rw [second] at same
          cases same
  | ok v =>
      rw [first] at same
      cases second : (BinaryReader.start rest).read UInt32 with
      | error e' =>
          rw [second] at same
          cases same
      | ok v' =>
          rw [second] at same
          have eq : v.1 = v'.1 := Except.ok.inj same
          simp only [bind, Except.bind, pure, Except.pure, eq]

/-! ## What the filters accept -/

omit [RpcTraits Job] in
theorem readHeader_advance {r r' : BinaryReader} {header : RpcHeader Job} (read : readHeader Job r = .ok (header, r')) :
    r' = r.advance 10 := by
  obtain ⟨⟨id, r₁⟩, first, read⟩ := bind_ok_iff.1 read
  obtain ⟨⟨job, r₂⟩, second, read⟩ := bind_ok_iff.1 read
  obtain ⟨⟨kind, r₃⟩, third, read⟩ := bind_ok_iff.1 read
  cases read
  rw [BinaryReader.read_enum_advance third, BinaryReader.read_enum_advance second, BinaryReader.read_word_advance first]
  rfl

/-- What there is to read of a message: a header of the protocol and the body behind it. -/
theorem readMessage_iff {message : RpcMessage Job} : readMessage Job m = .ok message ↔
    headerMatches Job m = true ∧ readHeader Job (.start m.buffer) = .ok (message.rpcHeader, bodyReader m) ∧
      (message.rpcHeader.kind = .request ∨ message.rpcHeader.kind = .response) ∧ (bodyReader m).Holds message.body ∧
      message.sender = m.sender ∧ message.messageHeader = m.header := by
  constructor
  · intro read
    obtain ⟨matched, requestId, job, kind, body, frame, proper⟩ := exists_makeFrame_of_read read
    obtain ⟨r, header, holds⟩ := readHeader_frame requestId job kind body
    rw [frame] at matched
    have whole := readMessage_matched matched proper
    rw [← frame, read] at whole
    cases whole
    have buffer : m.buffer = (makeFrame requestId job kind body).buffer := congrArg Message.buffer frame
    rw [← buffer] at header
    have place : r = bodyReader m := readHeader_advance header
    rw [place] at header holds
    exact ⟨frame ▸ matched, header, proper, holds, rfl, (congrArg Message.header frame).symm⟩
  · rintro ⟨matched, header, proper, holds, sender, messageHeader⟩
    have valid : validateMessage Job m = .ok () := by
      simp only [headerMatches, Bool.and_eq_true, decide_eq_true_eq] at matched
      obtain ⟨⟨magic, type⟩, length⟩ := matched
      simp [validateMessage, magic, type, length]
    have known : ¬ (message.rpcHeader.kind ≠ .request ∧ message.rpcHeader.kind ≠ .response) := fun bad =>
      proper.elim bad.1 bad.2
    obtain ⟨s, h, rpcHeader, body⟩ := message
    dsimp only at sender messageHeader known header holds
    subst sender messageHeader
    rw [readMessage, valid]
    simp only [bind, Except.bind]
    rw [header]
    simp only [holds.readRemaining, validateRpcMessage, if_neg known]
    rfl

theorem caught_iff {r : Except Exn Bool} : caught r = true ↔ r = .ok true := by
  cases r with
  | error e => exact ⟨nofun, nofun⟩
  | ok b => cases b <;> simp [caught]

/-- A filter for a kind of messages accepts those that can be read and are of this kind. -/
theorem messageIs_read (proper : kind = .request ∨ kind = .response) : messageIs Job kind m = true ↔
    ∃ message, readMessage Job m = .ok message ∧ message.rpcHeader.kind = kind := by
  constructor
  · intro accepted
    obtain ⟨matched, requestId, job, body, frame⟩ := messageIs_iff.1 accepted
    rw [frame] at matched ⊢
    exact ⟨_, readMessage_matched matched proper, rfl⟩
  · rintro ⟨message, read, rfl⟩
    obtain ⟨matched, header, -⟩ := readMessage_iff.1 read
    rw [messageIs, matched, Bool.true_and, caught_iff, header]
    simp [bind, Except.bind, pure, Except.pure]

/-- A filter for a response accepts those of the sender that can be read and have this header, and this body. -/
theorem makeMessageIs_read [DecidableEq Job] (proper : kind = .request ∨ kind = .response) :
    makeMessageIs requestId job kind sender p m = true ↔ m.sender.id = sender ∧
      ∃ message, readMessage Job m = .ok message ∧ message.rpcHeader = { requestId, job, kind } ∧ p (bodyReader m) = .ok true := by
  constructor
  · intro accepted
    have seen := accepted
    obtain ⟨matched, body, frame⟩ := exists_makeFrame_of_accepted accepted
    obtain ⟨message, read, named⟩ : ∃ message, readMessage Job m = .ok message ∧ message.rpcHeader = { requestId, job, kind } := by
      rw [frame] at matched ⊢
      exact ⟨_, readMessage_matched matched proper, rfl⟩
    obtain ⟨-, header, -⟩ := readMessage_iff.1 read
    rw [makeMessageIs, header, named] at seen
    simp only [Bool.and_eq_true, beq_iff_eq, caught_iff, bind, Except.bind, ne_eq, not_true_eq_false, if_false] at seen
    exact ⟨seen.1.1, message, read, named, seen.2⟩
  · rintro ⟨same, message, read, named, accepts⟩
    obtain ⟨matched, header, -⟩ := readMessage_iff.1 read
    rw [makeMessageIs, matched, header, named]
    simp only [Bool.and_true, Bool.and_eq_true, beq_iff_eq, caught_iff, bind, Except.bind, ne_eq, not_true_eq_false, if_false]
    exact ⟨same, accepts⟩

/-! ## Chunks -/

/-- A body that is accepted for a chunk starts with its index. -/
theorem matchChunk_some {i : UInt32} {body : Bytes} (accepts : matchChunk i (.start body) = .ok true) :
    ∃ r, (BinaryReader.start body).read UInt32 = .ok (i, r) := by
  obtain ⟨⟨actual, r⟩, read, same⟩ := bind_ok_iff.1 accepts
  have eq : actual = i := of_decide_eq_true (Except.ok.inj same)
  exact ⟨r, eq ▸ read⟩

end Rpc

namespace ClientProtocol

variable {m : ClientRpcMessage}

theorem decodeReadChunkResponse_index {response : ReadChunkResponse} (decoded : decodeReadChunkResponse m = .ok response) :
    ∃ r, (BinaryReader.start m.body).read UInt32 = .ok (response.chunkIndex, r) := by
  obtain ⟨-, -, decoded⟩ := bind_ok_iff.1 decoded
  obtain ⟨⟨chunkIndex, r⟩, read, decoded⟩ := bind_ok_iff.1 decoded
  obtain ⟨⟨status, r'⟩, -, decoded⟩ := bind_ok_iff.1 decoded
  obtain ⟨⟨data, r''⟩, -, decoded⟩ := bind_ok_iff.1 decoded
  cases decoded
  exact ⟨r, read⟩

theorem decodeWriteChunkResponse_index {response : WriteChunkResponse} (decoded : decodeWriteChunkResponse m = .ok response) :
    ∃ r, (BinaryReader.start m.body).read UInt32 = .ok (response.chunkIndex, r) := by
  obtain ⟨-, -, decoded⟩ := bind_ok_iff.1 decoded
  obtain ⟨⟨chunkIndex, r⟩, read, decoded⟩ := bind_ok_iff.1 decoded
  obtain ⟨⟨status, r'⟩, -, decoded⟩ := bind_ok_iff.1 decoded
  obtain ⟨-, -, decoded⟩ := bind_ok_iff.1 decoded
  cases decoded
  exact ⟨r, read⟩

end ClientProtocol

namespace StorageProtocol

variable {m : StorageRpcMessage}

theorem decodePutResponse_index {response : PutResponse} (decoded : decodePutResponse m = .ok response) :
    ∃ r, (BinaryReader.start m.body).read UInt32 = .ok (response.chunkIndex, r) := by
  obtain ⟨-, -, decoded⟩ := bind_ok_iff.1 decoded
  obtain ⟨⟨chunkIndex, r⟩, read, decoded⟩ := bind_ok_iff.1 decoded
  obtain ⟨⟨sizeAvailable, r'⟩, -, decoded⟩ := bind_ok_iff.1 decoded
  obtain ⟨⟨status, r''⟩, -, decoded⟩ := bind_ok_iff.1 decoded
  obtain ⟨-, -, decoded⟩ := bind_ok_iff.1 decoded
  cases decoded
  exact ⟨r, read⟩

theorem decodeGetResponse_index {response : GetResponse} (decoded : decodeGetResponse m = .ok response) :
    ∃ r, (BinaryReader.start m.body).read UInt32 = .ok (response.chunkIndex, r) := by
  obtain ⟨-, -, decoded⟩ := bind_ok_iff.1 decoded
  obtain ⟨⟨chunkIndex, r⟩, read, decoded⟩ := bind_ok_iff.1 decoded
  obtain ⟨⟨status, r'⟩, -, decoded⟩ := bind_ok_iff.1 decoded
  obtain ⟨⟨data, r''⟩, -, decoded⟩ := bind_ok_iff.1 decoded
  cases decoded
  exact ⟨r, read⟩

end StorageProtocol

/-! ## After the wait -/

open Rpc

/-- The filters of a protocol and its parser see the same in a message. -/
structure Agree (Job : Type) [WireEnum Job] [RpcTraits Job] [DecidableEq Job] (kind : RpcKind) (m : Message) : Prop where
  kinds : messageIs Job kind m = true ↔ ∃ message, readMessage Job m = .ok message ∧ message.rpcHeader.kind = kind
  headers : ∀ (requestId : UInt64) (job : Job) (sender : NodeId) (p : BinaryReader → Except Exn Bool),
    makeMessageIs requestId job kind sender p m = true ↔ m.sender.id = sender ∧
      ∃ message, readMessage Job m = .ok message ∧ message.rpcHeader = { requestId, job, kind } ∧ p (bodyReader m) = .ok true
  body : ∀ message, readMessage Job m = .ok message → (bodyReader m).Holds message.body

theorem agree {Job : Type} [WireEnum Job] [RpcTraits Job] [DecidableEq Job] {kind : RpcKind}
    (proper : kind = .request ∨ kind = .response) (m : Message) : Agree Job kind m where
  kinds := messageIs_read proper
  headers _ _ _ _ := makeMessageIs_read proper
  body _ read := (readMessage_iff.1 read).2.2.2.1

/-- The predicates that look forward only can be given a reader over the parsed body. -/
theorem Agree.forward {Job : Type} [WireEnum Job] [RpcTraits Job] [DecidableEq Job] {kind : RpcKind} {m : Message}
    {p : BinaryReader → Except Exn Bool} (agree : Agree Job kind m) (forward : Forward p) (requestId : UInt64) (job : Job)
    (sender : NodeId) : makeMessageIs requestId job kind sender p m = true ↔ m.sender.id = sender ∧
      ∃ message, readMessage Job m = .ok message ∧ message.rpcHeader = { requestId, job, kind } ∧ p (.start message.body) = .ok true := by
  refine (agree.headers requestId job sender p).trans (and_congr_right fun _ => exists_congr fun message => ?_)
  refine and_congr_right fun read => and_congr_right fun _ => ?_
  rw [forward _ _ (agree.body message read)]

theorem Client.call_returns {ν : Type} [Network ν] (c : Client ν) (requestId : UInt64) (job : ClientJob) (seconds : Nat)
    (body : BinaryReader → Except Exn Bool) (frame : Frame) :
    (c.call requestId job seconds body frame).1 = .ok (.error .timeout) ∨
      ∃ message, (c.call requestId job seconds body frame).1 = .ok (.ok message) ∧
        message.rpcHeader = { requestId, job, kind := .response } ∧
        ClientProtocol.validateRpcMessage job .response message = .ok () := by
  rcases received : Network.receiveIf seconds (makeMessageIs requestId job .response c.metadataNodeId body)
    (Network.send c.metadataNodeId frame c.network) with ⟨found, network⟩
  unfold call
  rw [received]
  cases found with
  | none => exact .inl rfl
  | some m =>
      have accepted := Network.receiveIf_accepts seconds _ _ m (congrArg Prod.fst received)
      obtain ⟨-, message, read, named, -⟩ := ((agree (.inr rfl) m).headers _ _ _ _).1 accepted
      refine .inr ⟨message, ?_, named, by simp [ClientProtocol.validateRpcMessage, named]⟩
      dsimp only
      rw [read]
      dsimp only
      rw [if_neg (not_not.2 named)]

/-- The producer thread of the metadata node reads only what it has let through. -/
theorem NodeJob.takes_read {m : Message} (taken : NodeJob.takes m = true) (type : m.header.type = .clientRpc) :
    ∃ message, readMessage ClientJob m = .ok message ∧
      ClientProtocol.validateRpcMessage message.rpcHeader.job .request message = .ok () := by
  rw [NodeJob.takes, Bool.or_eq_true, decide_eq_true_eq] at taken
  rcases taken with request | heartbeat
  · obtain ⟨message, read, kind⟩ := (agree (.inl rfl) m).kinds.1 request
    exact ⟨message, read, by simp [ClientProtocol.validateRpcMessage, kind]⟩
  · rw [type] at heartbeat
    cases heartbeat

/-- What is accepted for a chunk and decoded has the index of the chunk. -/
theorem chunk_index {Job : Type} [WireEnum Job] [RpcTraits Job] [DecidableEq Job] {m : Message} {requestId : UInt64} {job : Job}
    {sender : NodeId} {i index : UInt32} {message : RpcMessage Job} {r : BinaryReader}
    (accepted : makeMessageIs requestId job .response sender (matchChunk i) m = true) (read : readMessage Job m = .ok message)
    (decoded : (BinaryReader.start message.body).read UInt32 = .ok (index, r)) : index = i := by
  obtain ⟨-, message', read', -, accepts⟩ := ((agree (.inr rfl) m).forward (matchChunk_forward i) _ _ _).1 accepted
  cases read.symm.trans read'
  obtain ⟨r', first⟩ := matchChunk_some accepts
  cases decoded.symm.trans first
  rfl

/-- What the filters make of a message, and what is left to fail for the code behind them. -/
structure Filtered (m : Message) : Prop where
  agree : ∀ (Job : Type) [WireEnum Job] [RpcTraits Job] [DecidableEq Job] (kind : RpcKind),
    kind = .request ∨ kind = .response → Agree Job kind m
  forward : ∀ (Job : Type) [WireEnum Job] [RpcTraits Job] [DecidableEq Job] (requestId : UInt64) (job : Job) (kind : RpcKind)
    (sender : NodeId) (p : BinaryReader → Except Exn Bool), kind = .request ∨ kind = .response → Forward p →
      (makeMessageIs requestId job kind sender p m = true ↔ m.sender.id = sender ∧
        ∃ message, readMessage Job m = .ok message ∧ message.rpcHeader = { requestId, job, kind } ∧
          p (.start message.body) = .ok true)
  received : ∀ (Job ν : Type) [WireEnum Job] [RpcTraits Job] [DecidableEq Job] [Network ν] (n : ν) (seconds : Nat)
    (requestId : UInt64) (job : Job) (kind : RpcKind) (sender : NodeId) (p : BinaryReader → Except Exn Bool),
    kind = .request ∨ kind = .response →
      (Network.receiveIf seconds (messageIs Job kind) n).1 = some m ∨
        (Network.receiveIf seconds (makeMessageIs requestId job kind sender p) n).1 = some m →
      ∃ message, readMessage Job m = .ok message
  called : ∀ (ν : Type) [Network ν] (c : Client ν) (requestId : UInt64) (job : ClientJob) (seconds : Nat)
    (body : BinaryReader → Except Exn Bool) (frame : Frame),
    (c.call requestId job seconds body frame).1 = .ok (.error .timeout) ∨
      ∃ message, (c.call requestId job seconds body frame).1 = .ok (.ok message) ∧
        message.rpcHeader = { requestId, job, kind := .response } ∧
        ClientProtocol.validateRpcMessage job .response message = .ok ()
  stored : ∀ (requestId : UInt64) (job : StorageJob) (sender : NodeId) (p : BinaryReader → Except Exn Bool),
    makeMessageIs requestId job .response sender p m = true → ∃ message, readMessage StorageJob m = .ok message ∧
      StorageProtocol.validateStorageMessage job .response message = .ok ()
  produced : NodeJob.takes m = true → m.header.type = .clientRpc → ∃ message, readMessage ClientJob m = .ok message ∧
    ClientProtocol.validateRpcMessage message.rpcHeader.job .request message = .ok ()
  readChunk : ∀ (requestId : UInt64) (sender : NodeId) (i : UInt32) (message : ClientRpcMessage) (response : ReadChunkResponse),
    makeMessageIs requestId ClientJob.readChunk .response sender (matchChunk i) m = true → readMessage ClientJob m = .ok message →
      ClientProtocol.decodeReadChunkResponse message = .ok response → response.chunkIndex = i
  writeChunk : ∀ (requestId : UInt64) (sender : NodeId) (i : UInt32) (message : ClientRpcMessage) (response : WriteChunkResponse),
    makeMessageIs requestId ClientJob.writeChunk .response sender (matchChunk i) m = true → readMessage ClientJob m = .ok message →
      ClientProtocol.decodeWriteChunkResponse message = .ok response → response.chunkIndex = i
  put : ∀ (requestId : UInt64) (sender : NodeId) (i : UInt32) (message : StorageRpcMessage) (response : PutResponse),
    makeMessageIs requestId StorageJob.put .response sender (matchChunk i) m = true → readMessage StorageJob m = .ok message →
      StorageProtocol.decodePutResponse message = .ok response → response.chunkIndex = i
  get : ∀ (requestId : UInt64) (sender : NodeId) (i : UInt32) (message : StorageRpcMessage) (response : GetResponse),
    makeMessageIs requestId StorageJob.get .response sender (matchChunk i) m = true → readMessage StorageJob m = .ok message →
      StorageProtocol.decodeGetResponse message = .ok response → response.chunkIndex = i

theorem filters_agree (m : Message) : Filtered m where
  agree _ _ _ _ _ proper := Dfs.agree proper m
  forward _ _ _ _ requestId job _ sender _ proper forward := (Dfs.agree proper m).forward forward requestId job sender
  received _ _ _ _ _ _ n seconds requestId job kind sender p proper found := by
    rcases found with found | found
    · obtain ⟨message, read, -⟩ := (Dfs.agree proper m).kinds.1 (Network.receiveIf_accepts _ _ _ _ found)
      exact ⟨message, read⟩
    · obtain ⟨-, message, read, -⟩ := ((Dfs.agree proper m).headers _ _ _ _).1 (Network.receiveIf_accepts _ _ _ _ found)
      exact ⟨message, read⟩
  called _ _ c requestId job seconds body frame := c.call_returns requestId job seconds body frame
  stored requestId job sender p accepted := by
    obtain ⟨-, message, read, named, -⟩ := ((Dfs.agree (.inr rfl) m).headers _ _ _ _).1 accepted
    exact ⟨message, read, by simp [StorageProtocol.validateStorageMessage, named]⟩
  produced taken type := NodeJob.takes_read taken type
  readChunk _ _ _ _ _ accepted read decoded := by
    obtain ⟨r, index⟩ := ClientProtocol.decodeReadChunkResponse_index decoded
    exact chunk_index accepted read index
  writeChunk _ _ _ _ _ accepted read decoded := by
    obtain ⟨r, index⟩ := ClientProtocol.decodeWriteChunkResponse_index decoded
    exact chunk_index accepted read index
  put _ _ _ _ _ accepted read decoded := by
    obtain ⟨r, index⟩ := StorageProtocol.decodePutResponse_index decoded
    exact chunk_index accepted read index
  get _ _ _ _ _ accepted read decoded := by
    obtain ⟨r, index⟩ := StorageProtocol.decodeGetResponse_index decoded
    exact chunk_index accepted read index

end Dfs
