import Dfs.Client.Service
import Dfs.Common.Canonical

/-!
# What an operation leaves behind

The metadata node closes a session with its last chunk and with every error it answers. An
operation that gives up for another reason sends nothing more, and its session waits for the chunk
that would have come next.
-/

namespace Dfs

open Lib

/-! ## What an answer says -/

section Said

variable {m : ClientRpcMessage} {event : ClientEvent} {status : ClientStatus} {frame : Frame} {sender : NodeIdentity}

theorem readMessage_body {requestId : UInt64} {job : ClientJob} {kind : RpcKind} {body : Bytes}
    (proper : kind = .request ∨ kind = .response)
    (read : Rpc.readMessage ClientJob ((Rpc.makeFrame requestId job kind body).from sender) = .ok m) : m.body = body := by
  rw [Rpc.readMessage_matched (Rpc.exists_makeFrame_of_read read).1 proper] at read
  cases read
  rfl

/-- Reading a field that has been written. -/
theorem BinaryReader.read_some {α β : Type} [BinarySerializable α] [LawfulSerial α] {r : BinaryReader} {v : α} {rest : Bytes}
    {k : α × BinaryReader → Except Exn β} {b : β} (clean : LawfulSerial.Clean v) (h : r.Holds (write v ++ rest))
    (done : (r.read α >>= k) = .ok b) : ∃ r', r'.Holds rest ∧ k (v, r') = .ok b := by
  obtain ⟨r', read, holds⟩ := LawfulSerial.read_write v r rest clean h
  rw [read] at done
  exact ⟨r', holds, done⟩

theorem holds_body {bytes : Bytes} (body : m.body = bytes) : (BinaryReader.start m.body).Holds bytes := by
  rw [body]
  exact BinaryReader.holds_start _

theorem said_body (responds : Responds event status frame) (read : Rpc.readMessage ClientJob (frame.from sender) = .ok m) :
    ∃ rest, m.body = (event.chunkIndex.map write).getD [] ++ (write status ++ rest) := by
  obtain ⟨rest, rfl⟩ := responds
  exact ⟨rest, readMessage_body (.inr rfl) read⟩

theorem writeFileResponse_said {response : WriteFileResponse} (responds : Responds event status frame)
    (whole : event.chunkIndex = none) (read : Rpc.readMessage ClientJob (frame.from sender) = .ok m)
    (decoded : ClientProtocol.decodeWriteFileResponse m = .ok response) : response.status = status := by
  obtain ⟨rest, body⟩ := said_body responds read
  rw [whole] at body
  have holds : (BinaryReader.start m.body).Holds (write status ++ rest) := holds_body body
  obtain ⟨-, -, done⟩ := ClientProtocol.validate_some decoded
  obtain ⟨r, holds, done⟩ := BinaryReader.read_some trivial holds done
  obtain ⟨-, rfl⟩ := BinaryReader.end_some holds done
  rfl

theorem writeChunkResponse_said {response : WriteChunkResponse} {k : UInt32} (responds : Responds event status frame)
    (chunk : event.chunkIndex = some k) (read : Rpc.readMessage ClientJob (frame.from sender) = .ok m)
    (decoded : ClientProtocol.decodeWriteChunkResponse m = .ok response) : response.status = status := by
  obtain ⟨rest, body⟩ := said_body responds read
  rw [chunk] at body
  have holds : (BinaryReader.start m.body).Holds (write k ++ (write status ++ rest)) := holds_body body
  obtain ⟨-, -, done⟩ := ClientProtocol.validate_some decoded
  obtain ⟨r, holds, done⟩ := BinaryReader.read_some trivial holds done
  obtain ⟨r', holds, done⟩ := BinaryReader.read_some trivial holds done
  obtain ⟨-, rfl⟩ := BinaryReader.end_some holds done
  rfl

theorem readChunkResponse_said {response : ReadChunkResponse} {k : UInt32} (responds : Responds event status frame)
    (chunk : event.chunkIndex = some k) (read : Rpc.readMessage ClientJob (frame.from sender) = .ok m)
    (decoded : ClientProtocol.decodeReadChunkResponse m = .ok response) : response.status = status := by
  obtain ⟨rest, body⟩ := said_body responds read
  rw [chunk] at body
  have holds : (BinaryReader.start m.body).Holds (write k ++ (write status ++ rest)) := holds_body body
  obtain ⟨-, -, done⟩ := ClientProtocol.validate_some decoded
  obtain ⟨r, holds, done⟩ := BinaryReader.read_some trivial holds done
  obtain ⟨r', holds, done⟩ := BinaryReader.read_some trivial holds done
  obtain ⟨r'', done⟩ := BinaryReader.rest_some holds done
  cases done
  rfl

theorem readFileResponse_said {id : UInt64} {sent response : ReadFileResponse}
    (read : Rpc.readMessage ClientJob ((ClientProtocol.encodeReadFileResponse id sent).from sender) = .ok m)
    (decoded : ClientProtocol.decodeReadFileResponse m = .ok response) :
    response.status = sent.status ∧ response.chunkCount = sent.chunkCount := by
  have holds := holds_body (readMessage_body (.inr rfl) read)
  rw [← List.append_nil (write sent.chunkCount)] at holds
  obtain ⟨-, -, done⟩ := ClientProtocol.validate_some decoded
  obtain ⟨r, holds, done⟩ := BinaryReader.read_some trivial holds done
  obtain ⟨r, holds, done⟩ := BinaryReader.read_some trivial holds done
  obtain ⟨r, holds, done⟩ := BinaryReader.read_some trivial holds done
  obtain ⟨-, rfl⟩ := BinaryReader.end_some holds done
  exact ⟨rfl, rfl⟩

/-- The chunk count is read from a request whatever its path is. -/
theorem writeFileRequest_said {id : UInt64} {sent req : WriteFileRequest}
    (decoded : ClientEvent.of ((ClientProtocol.encodeWriteFileRequest id sent).from sender) = .ok (.writeFile req)) :
    req.chunkCount = sent.chunkCount := by
  rw [ClientEvent.of] at decoded
  cases read : Rpc.readMessage ClientJob ((ClientProtocol.encodeWriteFileRequest id sent).from sender) with
  | error e =>
      rw [read] at decoded
      cases decoded
  | ok m =>
      simp only [read, bind, Except.bind] at decoded
      split at decoded
      all_goals try split at decoded
      all_goals cases decoded
      rename_i body
      have holds := holds_body (readMessage_body (.inl rfl) read)
      obtain ⟨-, -, done⟩ := ClientProtocol.validate_some body
      obtain ⟨r, holds, done⟩ := BinaryReader.read_some trivial holds done
      obtain ⟨r, holds, done⟩ := BinaryReader.read_some trivial holds done
      dsimp only at done
      cases path : r.read Bytes with
      | error e =>
          rw [path] at done
          cases done
      | ok rest =>
          rw [path] at done
          simp only [bind, Except.bind] at done
          split at done
          · cases done
          · cases done
            rfl

end Said

/-! ## The requests of `write_file` and `read_file` -/

namespace Question

open MetadataWorker MetadataState

variable {client node : NodeId} {id : UInt64} {chunkIndex count : UInt32}

def writeFile (node : NodeId) (id : UInt64) (fileSize : UInt64) (count : UInt32) (path : Bytes) : Question where
  key := ⟨id, .writeFile, none⟩
  request := ClientProtocol.encodeWriteFileRequest id { fileSize, chunkCount := count, path, context := Client.noContext }
  node
  body := Rpc.matchAnyBody
  before := (none, none)
  after frame v := ∃ event status, event.chunkIndex = none ∧ Responds event status frame ∧ v = (progress status 0 count, none)

def writeChunk (node : NodeId) (id : UInt64) (chunkIndex : UInt32) (data : Bytes) (count : UInt32) : Question where
  key := ⟨id, .writeChunk, some chunkIndex⟩
  request := ClientProtocol.encodeWriteChunkRequest id { chunkIndex, data, context := Client.noContext }
  node
  body := Rpc.matchChunk chunkIndex
  before := (some (chunkIndex, count), none)
  after frame v := ∃ event status, event.chunkIndex = some chunkIndex ∧ Responds event status frame ∧
    v = (progress status (chunkIndex + 1) count, none)

def readFile (node : NodeId) (id : UInt64) (path : Bytes) : Question where
  key := ⟨id, .readFile, none⟩
  request := ClientProtocol.encodeReadFileRequest id { path, context := Client.noContext }
  node
  body := Rpc.matchAnyBody
  before := (none, none)
  after frame v := ∃ id response, frame = ClientProtocol.encodeReadFileResponse id response ∧
    v = (none, progress response.status 0 response.chunkCount)

def readChunk (node : NodeId) (id : UInt64) (chunkIndex count : UInt32) : Question where
  key := ⟨id, .readChunk, some chunkIndex⟩
  request := ClientProtocol.encodeReadChunkRequest id { chunkIndex, context := Client.noContext }
  node
  body := Rpc.matchChunk chunkIndex
  before := (none, some (chunkIndex, count))
  after frame v := ∃ event status, event.chunkIndex = some chunkIndex ∧ Responds event status frame ∧
    v = (none, progress status (chunkIndex + 1) count)

theorem writeFile_proper {fileSize : UInt64} {path : Bytes} : (writeFile node id fileSize count path).Proper client where
  made := ⟨rfl, _, rfl⟩
  chunk := nofun
  concludes event decoded env s s' before handled := by
    have read := NodeJob.of_event decoded
    have key : event.key = ⟨id, .writeFile, none⟩ := RequestKey.In.read ⟨rfl, _, rfl⟩ read
    obtain ⟨status, frame, s₁, computed, responds, rfl⟩ := handle_handled handled
    refine ⟨status, frame, s₁, computed, responds, rfl, event, status, congrArg RequestKey.chunkIndex key, responds, ?_⟩
    obtain ⟨free, unread⟩ := Prod.mk.inj before
    cases computed with
    | writeFile req _ _ run =>
        have counted : req.chunkCount = count := writeFileRequest_said read
        obtain ⟨-, reads, -⟩ := writeFile_step run
        have own : s₁.worker.writing req.context = progress status 0 req.chunkCount :=
          writeFile_progress (s := s.entered env) free run
        rw [counted] at own
        exact Prod.ext own ((reading_same reads).trans unread)
    | _ => cases congrArg RequestKey.job key

theorem writeChunk_proper {data : Bytes} : (writeChunk node id chunkIndex data count).Proper client where
  made := ⟨rfl, data, rfl⟩
  chunk i same := by rw [← Option.some.inj same]; rfl
  concludes event decoded env s s' before handled := by
    have key : event.key = ⟨id, .writeChunk, some chunkIndex⟩ :=
      RequestKey.In.read ⟨rfl, data, rfl⟩ (NodeJob.of_event decoded)
    obtain ⟨status, frame, s₁, computed, responds, rfl⟩ := handle_handled handled
    refine ⟨status, frame, s₁, computed, responds, rfl, event, status, congrArg RequestKey.chunkIndex key, responds, ?_⟩
    obtain ⟨begun, unread⟩ := Prod.mk.inj before
    cases computed with
    | writeChunk req _ _ run =>
        obtain ⟨reads, -⟩ := writeChunk_step run
        have own : s₁.worker.writing req.context = progress status (chunkIndex + 1) count :=
          writeChunk_progress (s := s.entered env) begun run
        exact Prod.ext own ((reading_same reads).trans unread)
    | _ => cases congrArg RequestKey.job key

theorem readFile_proper {path : Bytes} : (readFile node id path).Proper client where
  made := ⟨rfl, _, rfl⟩
  chunk := nofun
  concludes event decoded env s s' before handled := by
    have key : event.key = ⟨id, .readFile, none⟩ := RequestKey.In.read ⟨rfl, _, rfl⟩ (NodeJob.of_event decoded)
    obtain ⟨unwritten, free⟩ := Prod.mk.inj before
    cases event with
    | readFile req =>
        rcases run : (s.entered env).readFile req with ⟨answer, s₁⟩
        obtain ⟨-, -, writes, -⟩ := readFile_step run
        have own : s₁.worker.reading req.context = progress answer.1 0 answer.2.2 :=
          readFile_progress (s := s.entered env) free run
        rw [entered] at run
        simp only [handle, handleReadFile, run, Prod.mk.injEq, true_and] at handled
        subst handled
        let response : ReadFileResponse :=
          { status := answer.1, fileSize := answer.2.1, chunkCount := answer.2.2, context := req.context }
        exact ⟨answer.1, ClientProtocol.encodeReadFileResponse req.context.requestId response, s₁, .readFile req answer s₁ run,
          ⟨write response.fileSize ++ write response.chunkCount, rfl⟩, rfl, req.context.requestId, response, rfl,
          Prod.ext ((writing_same writes).trans unwritten) own⟩
    | _ => cases congrArg RequestKey.job key

theorem readChunk_proper : (readChunk node id chunkIndex count).Proper client where
  made := ⟨rfl, [], by simp [readChunk, ClientProtocol.encodeReadChunkRequest]⟩
  chunk i same := by rw [← Option.some.inj same]; rfl
  concludes event decoded env s s' before handled := by
    have key : event.key = ⟨id, .readChunk, some chunkIndex⟩ :=
      RequestKey.In.read ⟨rfl, [], by simp [readChunk, ClientProtocol.encodeReadChunkRequest]⟩ (NodeJob.of_event decoded)
    obtain ⟨status, frame, s₁, computed, responds, rfl⟩ := handle_handled handled
    refine ⟨status, frame, s₁, computed, responds, rfl, event, status, congrArg RequestKey.chunkIndex key, responds, ?_⟩
    obtain ⟨unwritten, begun⟩ := Prod.mk.inj before
    cases computed with
    | readChunk req answer _ run =>
        obtain ⟨-, writes⟩ := readChunk_step run
        have own : s₁.worker.reading req.context = progress answer.1 (chunkIndex + 1) count :=
          readChunk_progress (s := s.entered env) begun run
        exact Prod.ext ((writing_same writes).trans unwritten) own
    | _ => cases congrArg RequestKey.job key

end Question

/-! ## The two operations -/

/-- An operation that moves a file. -/
inductive Transfer where
  | writeFile (file : LocalFile) (path : Bytes)
  | readFile (fromPath toPath : Bytes) (outcomes : List Outcome)

def Transfer.perform (c : Client Service) : Transfer → Returned Unit × Client Service
  | writeFile file path => c.writeFile file path
  | readFile fromPath toPath outcomes => { c with disk := c.disk.withOutcomes outcomes }.readFile fromPath toPath

/-- The operation has succeeded, or it returns an error that the metadata node has told it. -/
def Concluded (r : Returned Unit) : Prop :=
  r = .ok (.ok ()) ∨ r = .ok (.error .serverError) ∨ r = .ok (.error .alreadyExists)

namespace Service

open MetadataWorker

variable {s : Service} {client : NodeId} {id : UInt64} {used : List RequestKey} {q : Question} {v : Sessions}
  {P : Sessions → Prop}

/-- Once every request of the id has been handled, the sessions satisfy `P`. -/
def Leaves (id : UInt64) (P : Sessions → Prop) (s : Service) : Prop :=
  ∀ acts, (s.acts acts).ended = false → (s.acts acts).waiting id = [] → P ((s.acts acts).sessions id)

theorem Unless.leaves {Q : Service → Prop} (holds : s.Unless Q) (step : ∀ s a, Q s → (s.act a).Unless Q)
    (imp : ∀ s, Q s → s.waiting id = [] → P (s.sessions id)) : s.Leaves id P := by
  intro acts running handled
  rcases holds.acts step acts with ended | last
  · rw [running] at ended
    cases ended
  · exact imp _ last handled

theorem Idle.leaves (idle : s.Unless (Idle client id used v)) (holds : P v) : s.Leaves id P :=
  idle.leaves (fun _ a idle => idle.act a) fun _ last _ => last.sessions ▸ holds

theorem Asking.leaves (proper : q.Proper client) (asking : s.Unless (Asking client q used))
    (holds : ∀ frame v, q.after frame v → P v) : s.Leaves q.key.requestId P := by
  refine Unless.leaves asking (fun _ a asking => asking.act proper a) fun s last handled => ?_
  cases last with
  | waiting _ one _ _ =>
      rw [one] at handled
      cases handled
  | answered _ _ frame after _ _ => exact holds frame _ after

/-- What an operation leaves that returns `r` and has sent so many requests. -/
structure Left (r : Returned Unit) (requests : Nat) (v : Sessions) : Prop where
  closed : Concluded r → v = (none, none)
  one : v.1 = none ∨ v.2 = none
  behind : ∀ next count, v.1 = some (next, count) ∨ v.2 = some (next, count) → next < count ∧ next.toNat + 1 = requests

theorem left_nothing {r : Returned Unit} {requests : Nat} : Left r requests (none, none) :=
  ⟨fun _ => rfl, .inl rfl, fun next count some => by simp at some⟩

theorem left_behind {r : Returned Unit} {status : ClientStatus} (next count : UInt32) (gave : ¬ Concluded r)
    (below : next.toNat ≤ count.toNat)
    (only : v = (progress status next count, none) ∨ v = (none, progress status next count)) : Left r (next.toNat + 1) v := by
  refine ⟨fun concluded => absurd concluded gave, only.elim (fun same => .inr (by rw [same])) (fun same => .inl (by rw [same])),
    fun next' count' some => ?_⟩
  have this : progress status next count = .some (next', count') := by
    rcases only with rfl | rfl <;> simpa using some
  obtain ⟨rfl, rfl, part⟩ := progress_some this
  exact ⟨UInt32.lt_iff_toNat_lt.2 (Nat.lt_of_le_of_ne below fun same => part (UInt32.toNat_inj.1 same)), rfl⟩

/-- The client has given up after the request before chunk `next`. -/
theorem Asking.left {r : Returned Unit} (next : UInt32) (proper : q.Proper client) (asking : s.Unless (Asking client q used))
    (gave : ¬ Concluded r) (after : ∀ frame v, q.after frame v → ∃ status count, next.toNat ≤ UInt32.toNat count ∧
      (v = (progress status next count, none) ∨ v = (none, progress status next count))) :
    s.Leaves q.key.requestId (Left r (next.toNat + 1)) :=
  Asking.leaves proper asking fun frame v told =>
    have ⟨_, count, below, only⟩ := after frame v told
    left_behind next count gave below only

end Service

namespace Client

open Service MetadataWorker

variable {c c' : Client Service} {used : List RequestKey} {client : NodeId} {id : UInt64} {r : Returned Unit}
  {next count : UInt32}

theorem concluded_error {status : ClientStatus} : Concluded (.ok (.error (statusToError status))) := by
  cases status <;> simp [Concluded, statusToError]

theorem succ_toNat {next count : UInt32} (below : next.toNat < count.toNat) : (next + 1).toNat = next.toNat + 1 := by
  have small := count.toNat_lt
  rw [UInt32.toNat_add, UInt32.toNat_one, Nat.mod_eq_of_lt (by omega)]

theorem writeChunks_leaves (left : Nat) {file : Input}
    (idle : c.network.Unless (Idle client id used (progress .success next count, none)))
    (total : next.toNat + left = count.toNat) (before : Before .writeChunk next used)
    (done : c.writeChunks id left next file = (r, c')) :
    ∃ new, c'.network.sent = c.network.sent ++ new ∧ c'.network.Leaves id (Left r (next.toNat + 1 + new.length)) := by
  induction left generalizing c next file used with
  | zero =>
      cases done
      have same : next = count := UInt32.toNat_inj.1 total
      have none : progress .success next count = none := if_neg fun both => both.2 same
      rw [none] at idle
      exact ⟨[], (List.append_nil _).symm, Idle.leaves idle left_nothing⟩
  | succ left ih =>
      have below : next.toNat < count.toNat := by omega
      have part : next ≠ count := fun same => by rw [same] at below; exact Nat.lt_irrefl _ below
      rw [writeChunks] at done
      generalize file.read = input at done
      obtain ⟨data, file⟩ := input
      dsimp only at done
      split at done
      · cases done
        exact ⟨[], (List.append_nil _).symm,
          Idle.leaves idle (left_behind next count (by simp [Concluded]) (Nat.le_of_lt below) (.inl rfl))⟩
      rw [progress, if_pos ⟨rfl, part⟩] at idle
      rcases called : c.call id .writeChunk timeout (Rpc.matchChunk next)
        (ClientProtocol.encodeWriteChunkRequest id { chunkIndex := next, data, context := noContext }) with ⟨answer, c₁⟩
      rw [called] at done
      obtain ⟨-, sent, asking, gaveUp, answered⟩ :=
        call_asked (q := .writeChunk c.metadataNodeId id next data count) Question.writeChunk_proper before.new rfl idle called
      have abandoned : ∀ {r}, ¬ Concluded r → c₁.network.Leaves id (Left r (next.toNat + 1 + 1)) := fun gave => by
        have least : (next + 1).toNat ≤ count.toNat := by rw [succ_toNat below]; exact below
        rw [← succ_toNat below]
        refine Asking.left (next + 1) Question.writeChunk_proper asking gave ?_
        rintro frame v ⟨event, status, -, -, rfl⟩
        exact ⟨status, count, least, .inl rfl⟩
      rcases answer with e | e | rpcMessage
      · cases done
        exact ⟨_, sent, abandoned (by simp [Concluded])⟩
      · cases done
        refine ⟨_, sent, abandoned ?_⟩
        rcases gaveUp e rfl with rfl | rfl <;> simp [Concluded]
      have told := answered rpcMessage rfl
      dsimp only at done
      split at done
      · cases done
        exact ⟨_, sent, abandoned (by simp [Concluded])⟩
      rename_i response decoded
      split at done
      · cases done
        exact ⟨_, sent, abandoned (by simp [Concluded])⟩
      have now : c₁.network.Unless
          (Idle client id (⟨id, .writeChunk, some next⟩ :: used) (progress response.status (next + 1) count, none)) := by
        refine told.imp_right ?_
        rintro ⟨frame, sender, v, read, ⟨event, status, chunk, responds, rfl⟩, idle⟩
        rw [writeChunkResponse_said responds chunk read decoded]
        exact idle
      split at done
      · rename_i bad
        cases done
        rw [progress_failed bad] at now
        exact ⟨_, sent, Idle.leaves now left_nothing⟩
      · rename_i success
        rw [Classical.not_not.1 success] at now
        obtain ⟨new, sent', leaves⟩ := ih now (by rw [succ_toNat below]; omega)
          (before.next (by have := count.toNat_lt; omega)) done
        refine ⟨_ :: new, by rw [sent', sent, List.append_assoc]; rfl, ?_⟩
        rwa [succ_toNat below, Nat.add_assoc (next.toNat + 1), Nat.add_comm 1] at leaves

/-- The disk is no concern of the metadata node. -/
theorem finishRead_network {toPath : Bytes} {temporary : FilePath} (done : c.finishRead toPath temporary = (r, c')) :
    c'.network = c.network := by
  rw [finishRead] at done
  dsimp only at done
  split at done
  · cases done
    rfl
  · split at done
    · cases done
      rfl
    · cases done
      rfl

theorem readChunks_leaves (left : Nat) {fileSize : UInt64} {toPath : Bytes} {temporary : FilePath}
    (idle : c.network.Unless (Idle client id used (none, progress .success next count)))
    (total : next.toNat + left = count.toNat) (before : Before .readChunk next used)
    (done : c.readChunks id fileSize toPath temporary left next = (r, c')) :
    ∃ new, c'.network.sent = c.network.sent ++ new ∧ c'.network.Leaves id (Left r (next.toNat + 1 + new.length)) := by
  induction left generalizing c next used with
  | zero =>
      rw [readChunks] at done
      have same : next = count := UInt32.toNat_inj.1 total
      have none : progress .success next count = none := if_neg fun both => both.2 same
      rw [none] at idle
      rw [finishRead_network done]
      exact ⟨[], (List.append_nil _).symm, Idle.leaves idle left_nothing⟩
  | succ left ih =>
      have below : next.toNat < count.toNat := by omega
      have part : next ≠ count := fun same => by rw [same] at below; exact Nat.lt_irrefl _ below
      rw [readChunks] at done
      rw [progress, if_pos ⟨rfl, part⟩] at idle
      rcases called : c.call id .readChunk readChunkTimeout (Rpc.matchChunk next)
        (ClientProtocol.encodeReadChunkRequest id { chunkIndex := next, context := noContext }) with ⟨answer, c₁⟩
      rw [called] at done
      obtain ⟨-, sent, asking, gaveUp, answered⟩ :=
        call_asked (q := .readChunk c.metadataNodeId id next count) Question.readChunk_proper before.new rfl idle called
      have abandoned : ∀ {r}, ¬ Concluded r → c₁.network.Leaves id (Left r (next.toNat + 1 + 1)) := fun gave => by
        have least : (next + 1).toNat ≤ count.toNat := by rw [succ_toNat below]; exact below
        rw [← succ_toNat below]
        refine Asking.left (next + 1) Question.readChunk_proper asking gave ?_
        rintro frame v ⟨event, status, -, -, rfl⟩
        exact ⟨status, count, least, .inr rfl⟩
      rcases answer with e | e | rpcMessage
      · cases done
        exact ⟨_, sent, abandoned (by simp [Concluded])⟩
      · cases done
        refine ⟨_, sent, abandoned ?_⟩
        rcases gaveUp e rfl with rfl | rfl <;> simp [Concluded]
      have told := answered rpcMessage rfl
      dsimp only at done
      split at done
      · cases done
        exact ⟨_, sent, abandoned (by simp [Concluded])⟩
      rename_i response decoded
      have now : c₁.network.Unless
          (Idle client id (⟨id, .readChunk, some next⟩ :: used) (none, progress response.status (next + 1) count)) := by
        refine told.imp_right ?_
        rintro ⟨frame, sender, v, read, ⟨event, status, chunk, responds, rfl⟩, idle⟩
        rw [readChunkResponse_said responds chunk read decoded]
        exact idle
      split at done
      · rename_i bad
        cases done
        rw [progress_failed bad] at now
        exact ⟨_, sent, Idle.leaves now left_nothing⟩
      rename_i success
      rw [Classical.not_not.1 success] at now
      split at done
      · cases done
        exact ⟨_, sent, abandoned (by simp [Concluded])⟩
      split at done
      · cases done
        exact ⟨_, sent, abandoned (by simp [Concluded])⟩
      · rename_i disk written
        have now' : ({ c₁ with disk } : Client Service).network.Unless _ := now
        obtain ⟨new, sent', leaves⟩ := ih now' (by rw [succ_toNat below]; omega)
          (before.next (by have := count.toNat_lt; omega)) done
        refine ⟨_ :: new, by rw [sent', sent, List.append_assoc]; rfl, ?_⟩
        rwa [succ_toNat below, Nat.add_assoc (next.toNat + 1), Nat.add_comm 1] at leaves

theorem writeFile_leaves {file : LocalFile} {path : Bytes} (unused : c.network.Unused (c.currentId + 1))
    (done : c.writeFile file path = (r, c')) :
    ∃ new, c'.network.sent = c.network.sent ++ new ∧ c'.network.Leaves (c.currentId + 1) (Left r new.length) := by
  have idle : c.network.Unless (Idle c.network.client (c.currentId + 1) [] (none, none)) := .inr unused.idle
  have nothing : ∀ {r}, c.network.Leaves (c.currentId + 1) (Left r 0) := Idle.leaves idle left_nothing
  rw [writeFile] at done
  dsimp only at done
  split at done
  · cases done
    exact ⟨[], (List.append_nil _).symm, nothing⟩
  split at done
  · cases done
    exact ⟨[], (List.append_nil _).symm, nothing⟩
  rename_i fileSize sized
  split at done
  · cases done
    exact ⟨[], (List.append_nil _).symm, nothing⟩
  generalize (chunksOf fileSize).toUInt32 = count at done
  rcases called : { c with currentId := c.currentId + 1 }.call (c.currentId + 1) .writeFile timeout Rpc.matchAnyBody
    (ClientProtocol.encodeWriteFileRequest (c.currentId + 1) { fileSize, chunkCount := count, path, context := noContext })
    with ⟨answer, c₁⟩
  rw [called] at done
  obtain ⟨-, sent, asking, gaveUp, answered⟩ :=
    call_asked (c := { c with currentId := c.currentId + 1 })
      (q := .writeFile c.metadataNodeId (c.currentId + 1) fileSize count path) Question.writeFile_proper
      List.not_mem_nil rfl idle called
  have abandoned : ∀ {r}, ¬ Concluded r → c₁.network.Leaves (c.currentId + 1) (Left r 1) := fun gave => by
    refine Asking.left 0 Question.writeFile_proper asking gave ?_
    rintro frame v ⟨event, status, -, -, rfl⟩
    exact ⟨status, count, Nat.zero_le _, .inl rfl⟩
  rcases answer with e | e | rpcMessage
  · cases done
    exact ⟨_, sent, abandoned (by simp [Concluded])⟩
  · cases done
    refine ⟨_, sent, abandoned ?_⟩
    rcases gaveUp e rfl with rfl | rfl <;> simp [Concluded]
  have told := answered rpcMessage rfl
  dsimp only at done
  split at done
  · cases done
    exact ⟨_, sent, abandoned (by simp [Concluded])⟩
  rename_i response decoded
  have now : c₁.network.Unless (Idle c.network.client (c.currentId + 1) [⟨c.currentId + 1, .writeFile, none⟩]
      (progress response.status 0 count, none)) := by
    refine told.imp_right ?_
    rintro ⟨frame, sender, v, read, ⟨event, status, chunk, responds, rfl⟩, idle⟩
    rw [writeFileResponse_said responds chunk read decoded]
    exact idle
  split at done
  · rename_i bad
    cases done
    rw [progress_failed bad] at now
    exact ⟨_, sent, Idle.leaves now left_nothing⟩
  · rename_i success
    rw [Classical.not_not.1 success] at now
    obtain ⟨new, sent', leaves⟩ := writeChunks_leaves _ now (by simp) (before_first _ (by decide)) done
    refine ⟨_ :: new, by rw [sent', sent, List.append_assoc]; rfl, ?_⟩
    rwa [UInt32.toNat_zero, Nat.zero_add, Nat.add_comm] at leaves

theorem readFile_leaves {fromPath toPath : Bytes} (unused : c.network.Unused (c.currentId + 1))
    (done : c.readFile fromPath toPath = (r, c')) :
    ∃ new, c'.network.sent = c.network.sent ++ new ∧ c'.network.Leaves (c.currentId + 1) (Left r new.length) := by
  have idle : c.network.Unless (Idle c.network.client (c.currentId + 1) [] (none, none)) := .inr unused.idle
  rw [readFile] at done
  rcases called : { c with currentId := c.currentId + 1 }.call (c.currentId + 1) .readFile timeout Rpc.matchAnyBody
    (ClientProtocol.encodeReadFileRequest (c.currentId + 1) { path := fromPath, context := noContext }) with ⟨answer, c₁⟩
  dsimp only at done
  rw [called] at done
  obtain ⟨-, sent, asking, gaveUp, answered⟩ :=
    call_asked (c := { c with currentId := c.currentId + 1 }) (q := .readFile c.metadataNodeId (c.currentId + 1) fromPath)
      Question.readFile_proper List.not_mem_nil rfl idle called
  have abandoned : ∀ {r}, ¬ Concluded r → c₁.network.Leaves (c.currentId + 1) (Left r 1) := fun gave => by
    refine Asking.left 0 Question.readFile_proper asking gave ?_
    rintro frame v ⟨id, response, -, rfl⟩
    exact ⟨response.status, response.chunkCount, Nat.zero_le _, .inr rfl⟩
  rcases answer with e | e | rpcMessage
  · cases done
    exact ⟨_, sent, abandoned (by simp [Concluded])⟩
  · cases done
    refine ⟨_, sent, abandoned ?_⟩
    rcases gaveUp e rfl with rfl | rfl <;> simp [Concluded]
  have told := answered rpcMessage rfl
  dsimp only at done
  split at done
  · cases done
    exact ⟨_, sent, abandoned (by simp [Concluded])⟩
  rename_i response decoded
  have now : c₁.network.Unless (Idle c.network.client (c.currentId + 1) [⟨c.currentId + 1, .readFile, none⟩]
      (none, progress response.status 0 response.chunkCount)) := by
    refine told.imp_right ?_
    rintro ⟨frame, sender, v, read, ⟨id, said, rfl, rfl⟩, idle⟩
    obtain ⟨status, count⟩ := readFileResponse_said read decoded
    rw [status, count]
    exact idle
  split at done
  · rename_i bad
    cases done
    rw [progress_failed bad] at now
    exact ⟨_, sent, Idle.leaves now left_nothing⟩
  rename_i success
  rw [Classical.not_not.1 success] at now
  split at done
  · cases done
    exact ⟨_, sent, abandoned (by simp [Concluded])⟩
  split at done
  · cases done
    exact ⟨_, sent, abandoned (by simp [Concluded])⟩
  split at done
  · cases done
    exact ⟨_, sent, abandoned (by simp [Concluded])⟩
  · rename_i disk opened
    have now' : ({ c₁ with disk } : Client Service).network.Unless _ := now
    obtain ⟨new, sent', leaves⟩ := readChunks_leaves _ now' (by simp) (before_first _ (by decide)) done
    refine ⟨_ :: new, by rw [sent', sent, List.append_assoc]; rfl, ?_⟩
    rwa [UInt32.toNat_zero, Nat.zero_add, Nat.add_comm] at leaves

/-- Of an operation whose request id is new, the metadata node keeps no session after a success or an error that it has
told the client. After anything else it keeps at most one, which waits for the chunk behind the last one that was
requested. -/
theorem transfer_leaves (t : Transfer) (c : Client Service) (unused : c.network.Unused (c.currentId + 1)) :
    ∃ new, (t.perform c).2.network.sent = c.network.sent ++ new ∧
      (t.perform c).2.network.Leaves (c.currentId + 1) (Left (t.perform c).1 new.length) := by
  cases t with
  | writeFile file path => exact writeFile_leaves unused rfl
  | readFile fromPath toPath outcomes =>
      exact readFile_leaves (c := { c with disk := c.disk.withOutcomes outcomes }) unused rfl

/-- Client `"c"` is about to send its first request. While it waits, both storage nodes show up and the request is
handled. -/
def alone : Client Service where
  network :=
    { system := System.start, client := [99]
      script := [[.other (.heartbeat ⟨0⟩ ⟨[97], .storage⟩), .other (.heartbeat ⟨0⟩ ⟨[98], .storage⟩),
        .handle 0 { first := 7 } [], .arrive 0]] }
  disk := { tree := .empty, outcomes := [], trail := [], outside := fun _ => none }
  metadataNodeId := [109]
  currentId := 0

/-- Write a file of one byte that is empty when it is read. -/
def emptied : Transfer := .writeFile { opens := true, size := .ok 1, reads := [] } [112]

theorem alone_unused : alone.network.Unused 1 where
  waiting := rfl
  sessions := by decide +kernel
  around := by
    rintro frame (queued | under)
    · cases queued
    · cases under

theorem transfer_leaves_emptied : ∃ new, (emptied.perform alone).2.network.sent = alone.network.sent ++ new ∧
    (emptied.perform alone).2.network.Leaves 1 (Left (emptied.perform alone).1 new.length) :=
  transfer_leaves emptied alone alone_unused

theorem emptied_idle : (emptied.perform alone).2.network.Idle [99] 1 [] (some (0, 1), none) where
  client := by decide +kernel
  waiting := by
    have none : (emptied.perform alone).2.network.requests.length = 0 := by decide +kernel
    rw [Service.waiting, List.length_eq_zero_iff.1 none, List.filter_nil]
  sessions := by decide +kernel
  answers := by
    have queue : (emptied.perform alone).2.network.messageQueue.length = 0 := by decide +kernel
    have answers : (emptied.perform alone).2.network.system.network.answers.length = 0 := by decide +kernel
    rintro frame (queued | under)
    · rw [List.length_eq_zero_iff.1 queue] at queued
      cases queued
    · rw [List.length_eq_zero_iff.1 answers] at under
      cases under

/-- `write_file` returns an error, its request has been handled, and the session stays whatever comes. While it is there,
the path can be neither read nor removed. -/
theorem session_stays : alone.network.Unused 1 ∧ (emptied.perform alone).1 = .ok (.error .readError) ∧
    (∀ acts, ((emptied.perform alone).2.network.acts acts).ended = false →
      ((emptied.perform alone).2.network.acts acts).waiting 1 = [] ∧
      ((emptied.perform alone).2.network.acts acts).sessions 1 = (some (0, 1), none)) ∧
    (∀ req : ReadFileRequest, req.path = [112] →
      (MetadataState.readFile req (emptied.perform alone).2.network.system).1.1 = .serverError) ∧
    ∀ req : RemoveRequest, req.path = [112] →
      (MetadataState.remove req (emptied.perform alone).2.network.system).1 = .serverError := by
  have writing : (emptied.perform alone).2.network.system.worker.beingWritten [112] = true := by decide +kernel
  refine ⟨alone_unused, by decide +kernel, fun acts running => ?_, fun req path => ?_, fun req path => ?_⟩
  · rcases Unless.acts (.inr emptied_idle) (fun _ a idle => idle.act a) acts with ended | idle
    · rw [running] at ended
      cases ended
    · exact ⟨idle.waiting, idle.sessions⟩
  · rw [MetadataState.readFile, path, writing]
    rfl
  · rw [MetadataState.remove, path, writing]
    rfl

end Client

end Dfs
