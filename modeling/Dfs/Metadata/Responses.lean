import Dfs.Common.Formats
import Dfs.Metadata.Answers
import Dfs.Metadata.MetadataNode
import Dfs.Metadata.Recovery

/-!
# One response to each request

For any network and any state: a handler returns and sends its client one frame, the response,
unless a reply to a `PUT` has the wrong length, a directory cannot be listed to its end, or the
client is itself a storage node that the handler asks.
-/

namespace Dfs

open Lib

/-- A network that remembers what was sent. -/
structure Recorded (ν : Type) where
  network : ν
  sent : List (NodeId × Frame)

namespace Recorded

variable {ν : Type} [Network ν]

instance : Network (Recorded ν) where
  send node frame n := { network := Network.send node frame n.network, sent := n.sent ++ [(node, frame)] }
  receiveIf timeout p n :=
    let (message, network) := Network.receiveIf timeout p n.network
    (message, { n with network })
  receiveIf_accepts timeout p n m := Network.receiveIf_accepts timeout p n.network m

/-- The frames sent to one node. -/
def sentTo (n : Recorded ν) (node : NodeId) : List Frame := (n.sent.filter fun e => e.1 = node).map (·.2)

theorem sentTo_send (n : Recorded ν) (node node' : NodeId) (frame : Frame) :
    (Network.send node frame n).sentTo node' = n.sentTo node' ++ if node = node' then [frame] else [] := by
  simp only [sentTo, Network.send, List.filter_append, List.map_append]
  split <;> simp_all

theorem sentTo_receiveIf (n : Recorded ν) (timeout : Nat) (p : Message → Bool) (node : NodeId) :
    (Network.receiveIf timeout p n).2.sentTo node = n.sentTo node := rfl

end Recorded

/-- The length of a reply to a `PUT`. -/
def putReplyLength : Nat := 23

namespace MetadataStore

/-- The directory at `path` can be opened, but one of its entries cannot be read. -/
def IterationFails (s : MetadataStore) (outcomes : List Outcome) (path : Bytes) : Prop :=
  ∃ entries, s.disk.directoryAt (PosixPath.relativeComponents path) = some entries ∧
    (∀ i < 3, (outcomes.getD i {}).error = none) ∧ ∃ i < entries.length, (outcomes.getD (3 + i) {}).error ≠ none

variable {s : MetadataStore} {d d' : Disk} {path : Bytes} {entries : List (Name × Bool)}

theorem settle_eq (d : Disk) :
    d.settle = (match d.outcome.error with | some e => .error e | none => .ok (), d.drawn) := by
  unfold Disk.settle Disk.query
  split <;> simp_all

theorem settle_ok (none : d.outcome.error = none) : d.settle = (.ok (), d.drawn) := by
  rw [settle_eq, none]

theorem settle_error {e : Errc} (failed : d.outcome.error = some e) : d.settle = (.error e, d.drawn) := by
  rw [settle_eq, failed]

theorem drawn_outcome (d : Disk) (i : Nat) : d.drawn.outcomes.getD i {} = d.outcomes.getD (i + 1) {} := by
  rw [Disk.drawn]
  cases d.outcomes <;> rfl

theorem outcome_eq (d : Disk) : d.outcome = d.outcomes.getD 0 {} := by
  rw [Disk.outcome]
  cases d.outcomes <;> rfl

/-- Whether the file call that draws the outcome `i` fails. -/
def Fails (outcomes : List Outcome) (i : Nat) : Prop := (outcomes.getD i {}).error ≠ none

instance (outcomes : List Outcome) (i : Nat) : Decidable (Fails outcomes i) := inferInstanceAs (Decidable (_ ≠ _))

theorem fails_drawn {i : Nat} : Fails d.drawn.outcomes i ↔ Fails d.outcomes (i + 1) := by
  rw [Fails, drawn_outcome, Fails]

theorem outcome_fine (fine : ¬ Fails d.outcomes 0) : d.outcome.error = none := by
  rw [outcome_eq]
  exact not_not.1 fine

theorem outcome_fails (bad : Fails d.outcomes 0) : ∃ e, d.outcome.error = some e := by
  rw [outcome_eq]
  exact Option.ne_none_iff_exists'.1 bad

/-- The loop over a directory throws at the first entry that cannot be read. -/
theorem iterate_result (d : Disk) (entries : List (Name × Bool)) : (iterate entries d).1 =
    if ∃ i < entries.length, Fails d.outcomes i then .error .filesystemError
    else .ok (entries.map fun entry => ⟨entry.1, entry.2⟩) := by
  induction entries generalizing d with
  | nil => simp [iterate]
  | cons entry rest ih =>
      obtain ⟨name, isDirectory⟩ := entry
      rw [iterate]
      cases first : d.outcome.error with
      | some e =>
          rw [settle_error first]
          refine (if_pos ⟨0, by simp, ?_⟩).symm
          rw [Fails, ← outcome_eq, first]
          simp
      | none =>
          rw [settle_ok first]
          have shifted : (∃ i < (List.length rest) + 1, Fails d.outcomes i) ↔
              ∃ i < rest.length, Fails d.drawn.outcomes i := by
            simp only [Fails, drawn_outcome]
            constructor
            · rintro ⟨i, below, bad⟩
              cases i with
              | zero => exact absurd first (by rw [outcome_eq]; exact bad)
              | succ i => exact ⟨i, Nat.lt_of_succ_lt_succ below, bad⟩
            · rintro ⟨i, below, bad⟩
              exact ⟨i + 1, Nat.succ_lt_succ below, bad⟩
          have behind := ih d.drawn
          simp only [List.length_cons, shifted]
          rcases iterated : iterate rest d.drawn with ⟨r, d₁⟩
          rw [iterated] at behind
          dsimp only at behind ⊢
          by_cases bad : ∃ i < rest.length, Fails d.drawn.outcomes i
          · rw [if_pos bad] at behind ⊢
            rw [behind]
          · rw [if_neg bad] at behind ⊢
            rw [behind]
            rfl

/-- What `list` returns where `found` is what is at its path. -/
def listed (outcomes : List Outcome) (found : Option (List (Name × Bool))) :
    Except Exn (Except MetadataStoreError (List FileInfo)) :=
  if Fails outcomes 0 ∨ Fails outcomes 1 then .ok (.error .invalidPath)
  else
    match found with
    | none => .ok (.error .invalidPath)
    | some entries =>
        if Fails outcomes 2 then .ok (.ok [])
        else if ∃ i < entries.length, Fails outcomes (3 + i) then .error .filesystemError
        else .ok (.ok (entries.map fun entry => ⟨entry.1, entry.2⟩))

theorem list_listed :
    (list path s).1 = listed s.disk.outcomes (s.disk.directoryAt (PosixPath.relativeComponents path)) := by
  have zero := outcome_eq s.disk
  have one : s.disk.drawn.outcome = s.disk.outcomes.getD 1 {} := by rw [outcome_eq, drawn_outcome]
  have two : s.disk.drawn.drawn.outcome = s.disk.outcomes.getD 2 {} := by rw [outcome_eq, drawn_outcome, drawn_outcome]
  have looked : s.disk.drawn.drawn.directoryAt (PosixPath.relativeComponents path) =
    s.disk.directoryAt (PosixPath.relativeComponents path) := rfl
  have three : ∀ i, Fails s.disk.drawn.drawn.drawn.outcomes i ↔ Fails s.disk.outcomes (3 + i) := fun i => by
    simp only [Fails, drawn_outcome, Nat.add_comm 3 i]
  unfold list listed
  cases first : s.disk.outcome.error with
  | some e =>
      rw [settle_error first, if_pos (.inl (by rw [Fails, ← zero, first]; nofun))]
  | none =>
      have fine₀ : ¬ Fails s.disk.outcomes 0 := not_not.2 (zero ▸ first)
      rw [settle_ok first]
      dsimp only
      cases second : s.disk.drawn.outcome.error with
      | some e =>
          rw [settle_error second, if_pos (.inr (by rw [Fails, ← one, second]; nofun))]
      | none =>
          have fine₁ : ¬ Fails s.disk.outcomes 1 := not_not.2 (one ▸ second)
          rw [settle_ok second, if_neg (not_or.2 ⟨fine₀, fine₁⟩)]
          dsimp only
          rw [looked]
          cases found : s.disk.directoryAt (PosixPath.relativeComponents path) with
          | none => rfl
          | some entries =>
              dsimp only
              cases third : s.disk.drawn.drawn.outcome.error with
              | some e =>
                  rw [settle_error third, if_pos (by rw [Fails, ← two, third]; nofun)]
              | none =>
                  have fine₂ : ¬ Fails s.disk.outcomes 2 := not_not.2 (two ▸ third)
                  rw [settle_ok third, if_neg fine₂]
                  have read := iterate_result s.disk.drawn.drawn.drawn entries
                  simp only [three] at read
                  rcases iterated : iterate entries s.disk.drawn.drawn.drawn with ⟨r, d₁⟩
                  rw [iterated] at read
                  dsimp only at read ⊢
                  rw [iterated]
                  by_cases bad : ∃ i < entries.length, Fails s.disk.outcomes (3 + i)
                  · rw [if_pos bad] at read ⊢
                    rw [read]
                  · rw [if_neg bad] at read ⊢
                    rw [read]

theorem list_error : (∃ e, (list path s).1 = .error e) ↔ s.IterationFails s.disk.outcomes path := by
  have fine : (∀ i < 3, (s.disk.outcomes.getD i {}).error = none) ↔
      ¬ (Fails s.disk.outcomes 0 ∨ Fails s.disk.outcomes 1) ∧ ¬ Fails s.disk.outcomes 2 := by
    simp only [Fails, not_or, not_not]
    refine ⟨fun all => ⟨⟨all 0 (by decide), all 1 (by decide)⟩, all 2 (by decide)⟩, fun each i below => ?_⟩
    match i, below with
    | 0, _ => exact each.1.1
    | 1, _ => exact each.1.2
    | 2, _ => exact each.2
  rw [list_listed, IterationFails, fine]
  unfold listed
  split
  · rename_i early
    simp [early]
  rename_i begun
  cases s.disk.directoryAt (PosixPath.relativeComponents path) with
  | none => simp
  | some entries =>
      dsimp only
      split
      · rename_i closed
        simp [closed]
      rename_i opened
      split <;> rename_i read
      · exact iff_of_true ⟨_, rfl⟩ ⟨entries, rfl, ⟨begun, opened⟩, read⟩
      · refine iff_of_false (by simp) ?_
        rintro ⟨entries', same, -, bad⟩
        cases same
        exact read bad

/-- The directory at `path` has these entries and all of them are read. -/
def Lists (s : MetadataStore) (path : Bytes) (entries : List (Name × Bool)) : Prop :=
  s.disk.directoryAt (PosixPath.relativeComponents path) = some entries ∧
    ∀ i < 3 + entries.length, ¬ Fails s.disk.outcomes i

/-- A directory is found at `path`; one that cannot be opened counts as empty. -/
def FindsDirectory (s : MetadataStore) (path : Bytes) : Prop :=
  ∃ entries, s.disk.directoryAt (PosixPath.relativeComponents path) = some entries ∧
    ¬ Fails s.disk.outcomes 0 ∧ ¬ Fails s.disk.outcomes 1 ∧
      (Fails s.disk.outcomes 2 ∨ ∀ i < entries.length, ¬ Fails s.disk.outcomes (3 + i))

theorem list_lists (lists : s.Lists path entries) :
    (list path s).1 = .ok (.ok (entries.map fun entry => ⟨entry.1, entry.2⟩)) := by
  obtain ⟨found, fine⟩ := lists
  rw [list_listed, found, listed, if_neg (by simp [fine 0 (by omega), fine 1 (by omega)])]
  rw [if_neg (fine 2 (by omega)), if_neg]
  rintro ⟨i, below, bad⟩
  exact fine (3 + i) (by omega) bad

/-- A listing is complete, or it is that of a directory that cannot be opened. -/
theorem list_infos {infos : List FileInfo} (read : (list path s).1 = .ok (.ok infos)) :
    s.FindsDirectory path ∧
      ∃ entries, infos = entries.map (fun entry => ⟨entry.1, entry.2⟩) ∧ (entries = [] ∨ s.Lists path entries) := by
  rw [list_listed] at read
  unfold listed at read
  split at read
  · cases read
  rename_i begun
  split at read
  · cases read
  rename_i entries found
  split at read
  · rename_i closed
    cases read
    exact ⟨⟨entries, found, (not_or.1 begun).1, (not_or.1 begun).2, .inl closed⟩, [], rfl, .inl rfl⟩
  rename_i opened
  split at read
  · cases read
  rename_i all
  cases read
  have each : ∀ i < entries.length, ¬ Fails s.disk.outcomes (3 + i) := fun i below bad => all ⟨i, below, bad⟩
  refine ⟨⟨entries, found, (not_or.1 begun).1, (not_or.1 begun).2, .inr each⟩, entries, rfl, .inr ⟨found, fun i below => ?_⟩⟩
  match i, below with
  | 0, _ => exact (not_or.1 begun).1
  | 1, _ => exact (not_or.1 begun).2
  | 2, _ => exact opened
  | i + 3, below => exact Nat.add_comm 3 i ▸ each i (by omega)

theorem list_finds (finds : s.FindsDirectory path) : ∃ infos, (list path s).1 = .ok (.ok infos) := by
  obtain ⟨entries, found, fine₀, fine₁, rest⟩ := finds
  rw [list_listed, found, listed, if_neg (not_or.2 ⟨fine₀, fine₁⟩)]
  by_cases closed : Fails s.disk.outcomes 2
  · exact ⟨[], if_pos closed⟩
  · rw [if_neg closed, if_neg]
    · exact ⟨_, rfl⟩
    · rintro ⟨i, below, bad⟩
      exact rest.elim closed (fun each => each i below bad)

end MetadataStore

/-- The checks a `ReadChunk` has to pass before replicas are asked. -/
def PendingRead.Due (read : PendingRead) (req : ReadChunkRequest) : Prop :=
  req.chunkIndex = read.nextChunk ∧ req.chunkIndex < read.chunkCount

/-- What is left of the checks of a `Remove` when the replicas of `m` are asked to delete it. -/
structure MetadataWorker.Deletes (w : MetadataWorker) (req : RemoveRequest) (m : FileMetadata) : Prop where
  quiet : w.beingWritten req.path = false
  found : w.store.getMetadata req.path = .ok m
  whole : halfBound m.replicaLocations = false
  apart : doubled m.replicaLocations = false
  named : m.objId ≠ []
  bound : m.replicaLocations.1 ≠ []
  available : w.isAvailable m.replicaLocations.1 = true ∧ w.isAvailable m.replicaLocations.2 = true

namespace MetadataState

open MetadataWorker

variable {ν : Type} [Network ν]

/-- The filter for the reply of `replica` to the `PUT` of `req`. -/
def isPutReply (req : WriteChunkRequest) (replica : NodeId) : Message → Bool :=
  Rpc.makeMessageIs req.context.requestId StorageJob.put .response replica (Rpc.matchChunk req.chunkIndex)

/-- The filter for the reply of `replica` to the `GET` with number `id`. -/
def isGetReply (id : UInt64) (req : ReadChunkRequest) (replica : NodeId) : Message → Bool :=
  Rpc.makeMessageIs id StorageJob.get .response replica (Rpc.matchChunk req.chunkIndex)

/-- Both replies to the `PUT` of a chunk, where they come, have the length of such a reply. -/
def PutRepliesFit (req : WriteChunkRequest) (write : PendingWrite) (n : ν) : Prop :=
  let frame := StorageProtocol.encodePutRequest req.context.requestId (putOf req write)
  let asked := Network.send write.replicas.2 frame (Network.send write.replicas.1 frame n)
  let first := Network.receiveIf storageRequestTimeout (isPutReply req write.replicas.1) asked
  let second := Network.receiveIf storageRequestTimeout (isPutReply req write.replicas.2) first.2
  (∀ message, first.1 = some message → message.buffer.length = putReplyLength) ∧
    ∀ message, second.1 = some message → message.buffer.length = putReplyLength

/-- What waiting for the reply to a `GET` gives, and the network behind it. -/
def getReply (req : ReadChunkRequest) (objectId : Bytes) (expected : UInt32) (replica : NodeId) (s : MetadataState ν) :
    Option Message × ν :=
  let id := s.worker.currentStorageRequestId + 1
  let get : GetRequest := { objectId, chunkIndex := req.chunkIndex, byteCount := expected, context := req.context }
  Network.receiveIf storageRequestTimeout (isGetReply id req replica)
    (Network.send replica (StorageProtocol.encodeGetRequest id get) s.network)

/-- The first replica sends the chunk, so that the second one is not asked. -/
def FirstServes (req : ReadChunkRequest) (read : PendingRead) (s : MetadataState ν) : Prop :=
  let expected := (expectedSize read.fileSize req.chunkIndex).toUInt32
  s.worker.isAvailable read.replicas.1 = true ∧
    ((s.getReply req read.objectId expected read.replicas.1).1.bind (chunkIn req.chunkIndex expected)).isSome = true

/-- The handler does not send its client a storage request. -/
def Unasked (s : MetadataState ν) : ClientEvent → Prop
  | .writeChunk req => ∀ write, s.worker.findWrite req.context = some write → write.Due req →
      write.replicas.1 ≠ req.context.sender.id ∧ write.replicas.2 ≠ req.context.sender.id
  | .readChunk req => ∀ read, s.worker.findRead req.context = some read → read.Due req →
      (s.worker.isAvailable read.replicas.1 = true → read.replicas.1 ≠ req.context.sender.id) ∧
        (s.worker.isAvailable read.replicas.2 = true → ¬ s.FirstServes req read →
          read.replicas.2 ≠ req.context.sender.id)
  | .remove req => ∀ m, s.worker.Deletes req m →
      m.replicaLocations.1 ≠ req.context.sender.id ∧ m.replicaLocations.2 ≠ req.context.sender.id
  | _ => True

/-- Nothing that the handler does not expect makes it throw. -/
def Expected (s : MetadataState ν) : ClientEvent → Prop
  | .writeChunk req => ∀ write, s.worker.findWrite req.context = some write → write.Due req →
      PutRepliesFit req write s.network
  | .list req => ¬ s.worker.store.IterationFails s.worker.store.disk.outcomes req.path
  | .stat req => s.worker.store.getMetadata req.path = .error .notFound →
      ¬ s.worker.store.IterationFails s.worker.store.disk.outcomes req.path
  | _ => True

/-- No session of the kind that a chunk request is for is left to it. -/
def Closed (s : MetadataState ν) : ClientEvent → Prop
  | .writeChunk req => s.worker.findWrite req.context = none
  | .readChunk req => s.worker.findRead req.context = none
  | _ => True

/-- The handler returns, its client gets one frame, which responds to the request, and an error
closes the session of a chunk. -/
def AnsweredOnce (env : Env) (s : MetadataState (Recorded ν)) (event : ClientEvent) : Prop :=
  ∃ s' status frame, s.handle env event = (.ok (), s') ∧
    s'.network.sentTo event.context.sender.id = s.network.sentTo event.context.sender.id ++ [frame] ∧
    Responds event status frame ∧ (status ≠ .success → s'.Closed event)

variable {s s' : MetadataState ν} {env : Env}

/-! ## When a handler returns -/

theorem awaitPut_returns {req : WriteChunkRequest} {replica : NodeId} :
    (∃ e, (s.awaitPut req replica).1 = .error e) ↔
      ∃ message, (Network.receiveIf storageRequestTimeout (isPutReply req replica) s.network).1 = some message ∧
        message.buffer.length ≠ putReplyLength := by
  have accepts := Network.receiveIf_accepts storageRequestTimeout (isPutReply req replica) s.network
  unfold awaitPut receiveIf
  rcases received : Network.receiveIf storageRequestTimeout (isPutReply req replica) s.network with ⟨r, n⟩
  rw [received] at accepts
  rw [isPutReply] at received
  rw [received]
  cases r with
  | none => simp
  | some message =>
      have decodes := StorageProtocol.receive_putResponse_isOk (accepts message rfl)
      dsimp only
      cases decoded : Rpc.readMessage StorageJob message >>= StorageProtocol.decodePutResponse with
      | error e =>
          rw [decoded] at decodes
          exact iff_of_true ⟨e, rfl⟩ ⟨message, rfl, of_decide_eq_false decodes.symm⟩
      | ok response =>
          rw [decoded] at decodes
          refine iff_of_false (by simp) ?_
          rintro ⟨message', same, bad⟩
          cases same
          exact bad (of_decide_eq_true decodes.symm)

theorem awaitPut_behind {req : WriteChunkRequest} {replica : NodeId} :
    (s.awaitPut req replica).2.network =
      (Network.receiveIf storageRequestTimeout (isPutReply req replica) s.network).2 := by
  unfold awaitPut receiveIf
  rcases received : Network.receiveIf storageRequestTimeout (isPutReply req replica) s.network with ⟨r, n⟩
  rw [isPutReply] at received
  rw [received]
  cases r with
  | none => rfl
  | some message =>
      dsimp only
      split <;> rfl

theorem awaitPuts_returns (s : MetadataState ν) (req : WriteChunkRequest) (replicas : NodeId × NodeId) :
    (∃ e, (s.awaitPuts req replicas).1 = .error e) ↔
      (∃ e, (s.awaitPut req replicas.1).1 = .error e) ∨
        ∃ e, ((s.awaitPut req replicas.1).2.awaitPut req replicas.2).1 = .error e := by
  unfold awaitPuts
  rcases s.awaitPut req replicas.1 with ⟨first, s₁⟩
  cases first with
  | error e => simp
  | ok a =>
      dsimp only
      rcases s₁.awaitPut req replicas.2 with ⟨second, s₂⟩
      cases second <;> simp

omit [Network ν] in
theorem due_of_checks {req : WriteChunkRequest} {write : PendingWrite}
    (turn : ¬ (req.chunkIndex ≠ write.nextChunk ∨ req.chunkIndex ≥ write.chunkCount))
    (sized : ¬ req.data.length ≠ (expectedSize write.fileSize req.chunkIndex).toNat) : write.Due req := by
  simp only [not_or, ne_eq, not_not] at turn sized
  exact ⟨turn.1, UInt32.not_le.1 turn.2, sized⟩

/-- Where a chunk is not due nothing is sent. -/
theorem writeChunk_early (env : Env) {req : WriteChunkRequest}
    (early : ∀ write, s.worker.findWrite req.context = some write → ¬ write.Due req) :
    ∃ worker, s.writeChunk env req = (.ok .inputError, { s with worker }) := by
  unfold writeChunk
  split
  · exact ⟨s.worker, rfl⟩
  rename_i write found
  split
  · exact ⟨_, rfl⟩
  rename_i turn
  split
  · exact ⟨_, rfl⟩
  · rename_i sized
    exact absurd (due_of_checks turn sized) (early write found)

/-- The state in which the replies for a chunk are awaited. -/
def putsSent (req : WriteChunkRequest) (write : PendingWrite) (s : MetadataState ν) : MetadataState ν :=
  let frame := StorageProtocol.encodePutRequest req.context.requestId (putOf req write)
  (s.send write.replicas.1 frame).send write.replicas.2 frame

/-- Where it is due only the replies matter. -/
theorem writeChunk_due {req : WriteChunkRequest} {write : PendingWrite} (found : s.worker.findWrite req.context = some write)
    (due : write.Due req) :
    s.writeChunk env req =
      match (s.putsSent req write).awaitPuts req write.replicas with
      | (.error e, s) => (.error e, s)
      | (.ok false, s) => (.ok .serverError, { s with worker := s.worker.discardWrite req.context })
      | (.ok true, s) => (.ok (s.acceptChunk env req write).1, (s.acceptChunk env req write).2) := by
  unfold writeChunk
  rw [found]
  dsimp only
  rw [if_neg (by simp only [not_or, ne_eq, not_not]; exact ⟨due.1, UInt32.not_le.2 due.2.1⟩), if_neg (not_not.2 due.2.2)]
  rfl

theorem writeChunk_returns (s : MetadataState ν) (env : Env) (req : WriteChunkRequest) :
    (∃ e, (s.writeChunk env req).1 = .error e) ↔ ¬ s.Expected (.writeChunk req) := by
  by_cases early : ∀ write, s.worker.findWrite req.context = some write → ¬ write.Due req
  · obtain ⟨worker, refused⟩ := writeChunk_early env early
    rw [refused]
    exact iff_of_false (by simp) (not_not.2 fun write found due => absurd due (early write found))
  · simp only [not_forall, not_not, exists_prop] at early
    obtain ⟨write, found, due⟩ := early
    have fit : s.Expected (.writeChunk req) ↔ PutRepliesFit req write s.network := by
      refine ⟨fun all => all write found due, fun one write' found' _ => ?_⟩
      cases found.symm.trans found'
      exact one
    have waits := awaitPuts_returns (s.putsSent req write) req write.replicas
    rw [awaitPut_returns, awaitPut_returns, awaitPut_behind] at waits
    have unfit : ¬ PutRepliesFit req write s.network ↔
        ∃ e, ((s.putsSent req write).awaitPuts req write.replicas).1 = .error e := by
      rw [waits, PutRepliesFit, not_and_or]
      simp only [not_forall, exists_prop]
      rfl
    rw [fit, unfit, writeChunk_due found due]
    split <;> rename_i waited <;> simp [waited]

theorem handle_returns {event : ClientEvent} :
    (∃ s', s.handle env event = (.ok (), s')) ↔ (s.entered env).Expected event := by
  have returns : ∀ r : Except Exn Unit × MetadataState ν, (∃ s', r = (.ok (), s')) ↔ ¬ ∃ e, r.1 = .error e := by
    rintro ⟨r, s₁⟩
    cases r <;> simp
  have lists : ∀ path, (¬ ∃ e, (MetadataStore.list path (s.entered env).worker.store).1 = .error e) ↔
      ¬ (s.entered env).worker.store.IterationFails (s.entered env).worker.store.disk.outcomes path :=
    fun path => MetadataStore.list_error.not
  rw [returns]
  cases event with
  | writeChunk req =>
      have throws := (writeChunk_returns (s.entered env) env req).not
      rw [not_not] at throws
      rw [← throws, entered, handle, handleWriteChunk]
      split <;> rename_i written <;> simp [written]
  | list req =>
      rw [Expected, ← lists, entered, handle, handleList, onStore]
      rcases MetadataStore.list req.path (s.worker.withOutcomes env.outcomes).store with ⟨listed, store⟩
      rcases listed with e | (e | infos) <;> simp
  | stat req =>
      rw [Expected, ← lists, entered, handle, handleStat, onStore]
      dsimp only
      split <;> rename_i looked
      · simp [looked]
      · rcases MetadataStore.list req.path (s.worker.withOutcomes env.outcomes).store with ⟨listed, store⟩
        rcases listed with e | (e | infos) <;> simp [looked]
      · rename_i other
        simp only [reduceCtorEq, exists_false, not_false_eq_true, true_iff]
        exact fun missing => absurd missing (by rw [looked]; simpa using other)
  | _ => simp [handle, Expected]

/-! ## What the client gets meanwhile -/

section Sent

variable {t t' : MetadataState (Recorded ν)} {client : NodeId}

/-- On the way from `t` to `t'` exactly the frames `extra` are sent to `client`. -/
def Gets (client : NodeId) (t t' : MetadataState (Recorded ν)) (extra : List Frame) : Prop :=
  t'.network.sentTo client = t.network.sentTo client ++ extra

omit [Network ν] in
theorem Gets.nothing (client : NodeId) (same : t'.network = t.network) : Gets client t t' [] := by
  rw [Gets, same, List.append_nil]

theorem sent_gets (client : NodeId) (t : MetadataState (Recorded ν)) (node : NodeId) (frame : Frame) :
    Gets client t (t.send node frame) (if node = client then [frame] else []) :=
  Recorded.sentTo_send t.network node client frame

omit [Network ν] in
theorem Gets.trans {t'' : MetadataState (Recorded ν)} {extra extra' : List Frame} (h : Gets client t t' extra)
    (h' : Gets client t' t'' extra') : Gets client t t'' (extra ++ extra') := by
  rw [Gets, h', h, List.append_assoc]

theorem awaitPut_gets (t : MetadataState (Recorded ν)) (client : NodeId) (req : WriteChunkRequest) (replica : NodeId) :
    Gets client t (t.awaitPut req replica).2 [] := by
  rw [Gets, awaitPut_behind, Recorded.sentTo_receiveIf, List.append_nil]

theorem awaitPuts_gets (t : MetadataState (Recorded ν)) (client : NodeId) (req : WriteChunkRequest)
    (replicas : NodeId × NodeId) :
    Gets client t (t.awaitPuts req replicas).2 [] := by
  have first := awaitPut_gets t client req replicas.1
  rw [awaitPuts]
  rcases asked : t.awaitPut req replicas.1 with ⟨r₁, t₁⟩
  rw [asked] at first
  cases r₁ with
  | error e => exact first
  | ok a =>
      have second := awaitPut_gets t₁ client req replicas.2
      dsimp only
      rcases asked₁ : t₁.awaitPut req replicas.2 with ⟨r₂, t₂⟩
      rw [asked₁] at second
      cases r₂ <;> exact first.trans second

/-- Two frames of which each goes to the client or not. -/
theorem pair_eq_nil {node node' : NodeId} (frame frame' : Frame) :
    (if node = client then [frame] else []) ++ (if node' = client then [frame'] else []) = [] ↔
      node ≠ client ∧ node' ≠ client := by
  split <;> split <;> simp_all

theorem writeChunk_gets {req : WriteChunkRequest} {status : ClientStatus}
    (written : t.writeChunk env req = (.ok status, t')) :
    ∃ extra, Gets req.context.sender.id t t' extra ∧ (extra = [] ↔ t.Unasked (.writeChunk req)) := by
  by_cases early : ∀ write, t.worker.findWrite req.context = some write → ¬ write.Due req
  · obtain ⟨worker, refused⟩ := writeChunk_early env early
    cases refused.symm.trans written
    exact ⟨[], .nothing _ rfl, iff_of_true rfl fun write found due => absurd due (early write found)⟩
  · simp only [not_forall, not_not, exists_prop] at early
    obtain ⟨write, found, due⟩ := early
    have sent := (sent_gets req.context.sender.id t write.replicas.1
      (StorageProtocol.encodePutRequest req.context.requestId (putOf req write))).trans (sent_gets _ _ write.replicas.2
      (StorageProtocol.encodePutRequest req.context.requestId (putOf req write)))
    have waited := sent.trans (awaitPuts_gets _ _ req write.replicas)
    rw [List.append_nil] at waited
    have unasked : t.Unasked (.writeChunk req) ↔
        write.replicas.1 ≠ req.context.sender.id ∧ write.replicas.2 ≠ req.context.sender.id := by
      refine ⟨fun all => all write found due, fun one write' found' _ => ?_⟩
      cases found.symm.trans found'
      exact one
    have same : t'.network = ((t.putsSent req write).awaitPuts req write.replicas).2.network := by
      rw [writeChunk_due found due] at written
      split at written <;> rename_i puts <;> rw [puts] <;> cases written
      · rfl
      · exact acceptChunk_network rfl
    exact ⟨_, (congrArg (Recorded.sentTo · req.context.sender.id) same).trans waited, (pair_eq_nil _ _).trans unasked.symm⟩

theorem awaitDelete_gets (client : NodeId) (t : MetadataState (Recorded ν)) (id : UInt64) (replica : NodeId) :
    Gets client t (t.awaitDelete id replica).2 [] := by
  unfold awaitDelete receiveIf
  rcases received : Network.receiveIf storageRequestTimeout (Rpc.makeMessageIs id StorageJob.delete .response replica
    Rpc.matchAnyBody) t.network with ⟨r, n⟩
  have same : n.sentTo client = t.network.sentTo client := by
    rw [← Recorded.sentTo_receiveIf t.network storageRequestTimeout, received]
  cases r with
  | none => simpa [Gets] using same
  | some message =>
      dsimp only
      split <;> simpa [Gets] using same

/-! ### Replicas asked in turn -/

section Fetch

variable {req : ReadChunkRequest} {objectId : Bytes} {expected : UInt32} {replica : NodeId} {rest : List NodeId}

theorem fetchChunk_unavailable {s : MetadataState ν} (unavailable : s.worker.isAvailable replica = false) :
    s.fetchChunk req objectId expected (replica :: rest) = s.fetchChunk req objectId expected rest := by
  rw [fetchChunk, if_pos unavailable]

/-- The state behind that. -/
def afterGet (req : ReadChunkRequest) (objectId : Bytes) (expected : UInt32) (replica : NodeId) (s : MetadataState ν) :
    MetadataState ν :=
  { worker := { s.worker with currentStorageRequestId := s.worker.currentStorageRequestId + 1 }
    network := (s.getReply req objectId expected replica).2 }

theorem fetchChunk_available {s : MetadataState ν} (available : s.worker.isAvailable replica = true) :
    s.fetchChunk req objectId expected (replica :: rest) =
      match (s.getReply req objectId expected replica).1.bind (chunkIn req.chunkIndex expected) with
      | none => (s.afterGet req objectId expected replica).fetchChunk req objectId expected rest
      | some data => (some data, s.afterGet req objectId expected replica) := by
  rw [fetchChunk, if_neg (by simp [available])]
  dsimp only [receiveIf, send]
  rw [afterGet]
  rcases received : s.getReply req objectId expected replica with ⟨r, n⟩
  dsimp only [getReply, isGetReply] at received
  rw [received]
  cases r with
  | none => rfl
  | some message => rfl

theorem afterGet_gets (client : NodeId) (t : MetadataState (Recorded ν)) (req : ReadChunkRequest) (objectId : Bytes)
    (expected : UInt32) (replica : NodeId) : Gets client t (t.afterGet req objectId expected replica)
    (if replica = client then [StorageProtocol.encodeGetRequest (t.worker.currentStorageRequestId + 1)
      { objectId, chunkIndex := req.chunkIndex, byteCount := expected, context := req.context }] else []) := by
  rw [Gets, afterGet, getReply, Recorded.sentTo_receiveIf, Recorded.sentTo_send]

/-- The last replica is asked where it is available. -/
theorem fetchChunk_last (client : NodeId) (t : MetadataState (Recorded ν)) (req : ReadChunkRequest) (objectId : Bytes)
    (expected : UInt32) (replica : NodeId) : ∃ extra, Gets client t (t.fetchChunk req objectId expected [replica]).2 extra ∧
    (extra = [] ↔ (t.worker.isAvailable replica = true → replica ≠ client)) := by
  cases available : t.worker.isAvailable replica with
  | false =>
      rw [fetchChunk_unavailable available]
      exact ⟨[], .nothing _ rfl, iff_of_true rfl (by simp)⟩
  | true =>
      have gets := afterGet_gets client t req objectId expected replica
      rw [fetchChunk_available available]
      cases (t.getReply req objectId expected replica).1.bind (chunkIn req.chunkIndex expected) with
      | none => exact ⟨_, gets, by simp⟩
      | some data => exact ⟨_, gets, by simp⟩

theorem fetchChunk_gets (client : NodeId) (t : MetadataState (Recorded ν)) (req : ReadChunkRequest) (objectId : Bytes)
    (expected : UInt32) (first second : NodeId) :
    ∃ extra, Gets client t (t.fetchChunk req objectId expected [first, second]).2 extra ∧
      (extra = [] ↔ (t.worker.isAvailable first = true → first ≠ client) ∧
        (t.worker.isAvailable second = true →
          ¬ (t.worker.isAvailable first = true ∧
            ((t.getReply req objectId expected first).1.bind (chunkIn req.chunkIndex expected)).isSome = true) →
          second ≠ client)) := by
  cases available : t.worker.isAvailable first with
  | false =>
      rw [fetchChunk_unavailable available]
      simpa using fetchChunk_last client t req objectId expected second
  | true =>
      have gets := afterGet_gets client t req objectId expected first
      rw [fetchChunk_available available]
      cases (t.getReply req objectId expected first).1.bind (chunkIn req.chunkIndex expected) with
      | some data => exact ⟨_, gets, by simp⟩
      | none =>
          obtain ⟨extra, gets', none⟩ := fetchChunk_last client (t.afterGet req objectId expected first) req objectId
            expected second
          refine ⟨_, gets.trans gets', ?_⟩
          rw [List.append_eq_nil_iff, none]
          simp [MetadataWorker.isAvailable, afterGet]

end Fetch

theorem readChunk_gets {req : ReadChunkRequest} {answer : ClientStatus × Bytes} (read : t.readChunk req = (answer, t')) :
    ∃ extra, Gets req.context.sender.id t t' extra ∧ (extra = [] ↔ t.Unasked (.readChunk req)) := by
  unfold readChunk at read
  split at read
  · rename_i none
    cases read
    refine ⟨[], .nothing _ rfl, iff_of_true rfl fun session found => ?_⟩
    rw [none] at found
    cases found
  rename_i session found
  split at read
  · rename_i early
    cases read
    refine ⟨[], .nothing _ rfl, iff_of_true rfl fun session' found' due => ?_⟩
    cases found.symm.trans found'
    rcases early with wrong | beyond
    · exact absurd due.1 wrong
    · exact absurd due.2 (UInt32.not_lt.2 beyond)
  rename_i turn
  have due : session.Due req := by
    simp only [not_or, ne_eq, not_not] at turn
    exact ⟨turn.1, UInt32.not_le.1 turn.2⟩
  obtain ⟨extra, gets, none⟩ := fetchChunk_gets req.context.sender.id t req session.objectId
    (expectedSize session.fileSize req.chunkIndex).toUInt32 session.replicas.1 session.replicas.2
  refine ⟨extra, ?_, none.trans ⟨fun one session' found' _ => ?_, fun all => all session found due⟩⟩
  · dsimp only at read
    split at read <;> rename_i fetched <;> rw [fetched] at gets <;> cases read <;> exact gets
  · cases found.symm.trans found'
    exact one

theorem removeObject_gets (client : NodeId) {req : RemoveRequest} {m : FileMetadata} {status : ClientStatus}
    (removed : t.removeObject req m = (status, t')) :
    ∃ extra, Gets client t t' extra ∧
      (extra = [] ↔ m.replicaLocations.1 ≠ client ∧ m.replicaLocations.2 ≠ client) := by
  let s₁ : MetadataState (Recorded ν) :=
    { t with worker := { t.worker with currentStorageRequestId := t.worker.currentStorageRequestId + 1 } }
  let frame := StorageProtocol.encodeDeleteRequest s₁.worker.currentStorageRequestId { objectId := m.objId, context := req.context }
  have numbered : Gets client t s₁ [] := .nothing client rfl
  have sent := (numbered.trans (sent_gets client s₁ m.replicaLocations.1 frame)).trans
    (sent_gets client _ m.replicaLocations.2 frame)
  have waited := (sent.trans (awaitDelete_gets client _ s₁.worker.currentStorageRequestId m.replicaLocations.1)).trans
    (awaitDelete_gets client _ s₁.worker.currentStorageRequestId m.replicaLocations.2)
  rw [List.nil_append, List.append_nil, List.append_nil] at waited
  refine ⟨_, ?_, pair_eq_nil frame frame⟩
  unfold removeObject at removed
  dsimp only at removed
  split at removed <;> cases removed <;> exact waited

theorem remove_gets {req : RemoveRequest} {status : ClientStatus} (removed : t.remove req = (status, t')) :
    ∃ extra, Gets req.context.sender.id t t' extra ∧ (extra = [] ↔ t.Unasked (.remove req)) := by
  have alone : (∀ m, ¬ t.worker.Deletes req m) → t'.network = t.network →
      ∃ extra, Gets req.context.sender.id t t' extra ∧ (extra = [] ↔ t.Unasked (.remove req)) := fun none same =>
    ⟨[], .nothing _ same, iff_of_true rfl fun m deletes => absurd deletes (none m)⟩
  unfold remove at removed
  split at removed
  · rename_i busy
    cases removed
    exact alone (fun m deletes => by rw [deletes.quiet] at busy; cases busy) rfl
  rename_i quiet
  split at removed
  · rename_i missing
    cases removed
    exact alone (fun m deletes => by rw [deletes.found] at missing; cases missing) rfl
  · rename_i failed
    cases removed
    exact alone (fun m deletes => by rw [deletes.found] at failed; cases failed) rfl
  rename_i m found
  have only : ∀ {m'}, t.worker.Deletes req m' → m' = m := fun deletes => by
    cases found.symm.trans deletes.found
    rfl
  dsimp only at removed
  split at removed
  · rename_i bad
    cases removed
    refine alone (fun m' deletes => ?_) rfl
    cases only deletes
    rcases bad with half | double | unnamed
    · exact absurd half (by simp [deletes.whole])
    · exact absurd double (by simp [deletes.apart])
    · exact absurd unnamed deletes.named
  rename_i fine
  split at removed
  · rename_i unbound
    cases removed
    refine alone (fun m' deletes => ?_) rfl
    cases only deletes
    exact absurd unbound deletes.bound
  rename_i bound
  split at removed
  · rename_i available
    obtain ⟨extra, gets, none⟩ := removeObject_gets req.context.sender.id removed
    refine ⟨extra, gets, none.trans ⟨fun one m' deletes => ?_, fun all => all m ?_⟩⟩
    · cases only deletes
      exact one
    · simp only [not_or, Bool.not_eq_true, Bool.and_eq_true] at fine quiet available
      exact ⟨quiet, found, fine.1, fine.2.1, fine.2.2, bound, available⟩
  · rename_i unavailable
    cases removed
    refine alone (fun m' deletes => ?_) rfl
    cases only deletes
    exact absurd deletes.available (by simpa using unavailable)

theorem handled_gets {event : ClientEvent} {status : ClientStatus} (handled : Handled env t event status t') :
    ∃ extra, Gets event.context.sender.id t t' extra ∧ (extra = [] ↔ t.Unasked event) := by
  cases handled with
  | createFile req r s₁ run =>
      cases run
      exact ⟨[], .nothing _ rfl, iff_of_true rfl trivial⟩
  | writeFile req status s₁ run => exact ⟨[], .nothing _ (writeFile_step run).1, iff_of_true rfl trivial⟩
  | writeChunk req status s₁ run => exact writeChunk_gets run
  | readFile req answer s₁ run => exact ⟨[], .nothing _ (readFile_step run).1, iff_of_true rfl trivial⟩
  | readChunk req answer s₁ run => exact readChunk_gets run
  | remove req status s₁ run => exact remove_gets run
  | list req r status s₁ run => exact ⟨[], .nothing _ (onStore_network run), iff_of_true rfl trivial⟩
  | makeDir req r s₁ run =>
      cases run
      exact ⟨[], .nothing _ rfl, iff_of_true rfl trivial⟩
  | rename req r s₁ run =>
      cases run
      exact ⟨[], .nothing _ rfl, iff_of_true rfl trivial⟩
  | stat req status s₁ run =>
      rcases run with rfl | ⟨r, run⟩
      · exact ⟨[], .nothing _ rfl, iff_of_true rfl trivial⟩
      · exact ⟨[], .nothing _ (onStore_network run), iff_of_true rfl trivial⟩

/-- An error closes the session of its chunk. -/
theorem writeChunk_closed {s : MetadataState ν} {req : WriteChunkRequest} {status : ClientStatus}
    (written : s.writeChunk env req = (.ok status, s')) (bad : status ≠ .success) :
    s'.worker.findWrite req.context = none := by
  have gone : s'.worker.pendingWrites = (s.worker.discardWrite req.context).pendingWrites →
      s'.worker.findWrite req.context = none := fun same => by
    rw [findWrite, same, discardWrite, Nested.find_discard, if_pos ⟨rfl, rfl⟩]
  cases (writeChunk_step written).2 with
  | unknown none same => rw [findWrite, same.pendingWrites]; exact none
  | rejected write found bad data writes => exact gone writes
  | failed write found due data writes => exact gone writes
  | more write found due part data writes => exact absurd rfl bad
  | finished _ write found due last data writes => exact gone writes

theorem readChunk_closed {s : MetadataState ν} {req : ReadChunkRequest} {answer : ClientStatus × Bytes}
    (read : s.readChunk req = (answer, s')) (bad : answer.1 ≠ .success) : s'.worker.findRead req.context = none := by
  have gone : ∀ w : MetadataWorker, (w.discardRead req.context).findRead req.context = none := fun w => by
    rw [findRead, discardRead, Nested.find_discard, if_pos ⟨rfl, rfl⟩]
  unfold readChunk at read
  split at read
  · rename_i none
    cases read
    exact none
  split at read
  · cases read
    exact gone _
  dsimp only at read
  split at read
  · cases read
    exact gone _
  · cases read
    exact absurd rfl bad

theorem handled_closed {s : MetadataState ν} {event : ClientEvent} {status : ClientStatus}
    (handled : Handled env s event status s') (bad : status ≠ .success) (frame : Frame) :
    (s'.send event.context.sender.id frame).Closed event := by
  cases handled with
  | writeChunk req status s₁ run =>
      have closed := writeChunk_closed run bad
      exact closed
  | readChunk req answer s₁ run =>
      have closed := readChunk_closed run bad
      exact closed
  | _ => exact trivial

/-- One response comes exactly where the handler asks its client nothing and gets what it expects. -/
theorem answered_once_iff {event : ClientEvent} :
    AnsweredOnce env t event ↔ (t.entered env).Expected event ∧ (t.entered env).Unasked event := by
  rw [← handle_returns]
  constructor
  · rintro ⟨s', status, frame, handled, sent, -, -⟩
    refine ⟨⟨s', handled⟩, ?_⟩
    obtain ⟨status', frame', s₁, result, -, rfl⟩ := handle_handled handled
    obtain ⟨extra, gets, none⟩ := handled_gets result
    refine none.1 ?_
    have all := gets.trans (sent_gets event.context.sender.id s₁ event.context.sender.id frame')
    rw [Gets, sent, if_pos rfl] at all
    have lengths := congrArg List.length (List.append_cancel_left all)
    simpa using lengths
  · rintro ⟨⟨s', handled⟩, unasked⟩
    obtain ⟨status, frame, s₁, result, responds, rfl⟩ := handle_handled handled
    obtain ⟨extra, gets, none⟩ := handled_gets result
    have all := gets.trans (sent_gets event.context.sender.id s₁ event.context.sender.id frame)
    rw [none.2 unasked, if_pos rfl] at all
    exact ⟨_, status, frame, handled, all, responds, fun bad => handled_closed result bad frame⟩

end Sent

end MetadataState

/-! ## A short reply -/

/-- A network whose nodes send what they like: the messages that will have arrived. -/
structure Inbox where
  messages : List Message

instance : Network Inbox where
  send _ _ n := n
  receiveIf _ p n := ((popIf p n.messages).1, { n with messages := (popIf p n.messages).2 })
  receiveIf_accepts _ p n _ found := List.find?_some (p := p) (l := n.messages) found

namespace MetadataState

/-- The storage nodes `"a"` and `"b"` are there. -/
def twoNodes : MetadataWorker :=
  MetadataWorker.handleHeartbeat ⟨0⟩ ⟨[98], .storage⟩ (MetadataWorker.handleHeartbeat ⟨0⟩ ⟨[97], .storage⟩
    { store := .onTree .empty, storageNodes := ∅, pendingReads := ∅, pendingWrites := ∅, currentStorageRequestId := 0 })

/-- Client `"c"` writes one byte to `"p"` under its request 1. -/
def oneByte : WriteFileRequest := { path := [112], fileSize := 1, chunkCount := 1, context := ⟨1, ⟨[99], .client⟩⟩ }

def theByte : WriteChunkRequest := { chunkIndex := 0, data := [120], context := ⟨1, ⟨[99], .client⟩⟩ }

/-- A reply of `"a"` that ends behind its chunk index: the filter looks no further. -/
def shortReply : Message := (Rpc.makeFrame 1 StorageJob.put .response (write (0 : UInt32))).from ⟨[97], .storage⟩

/-- The session is open when the short reply arrives. -/
def beforeShortReply : MetadataState (Recorded Inbox) :=
  (({ worker := twoNodes, network := { network := ⟨[shortReply]⟩, sent := [] } } :
    MetadataState (Recorded Inbox)).handle { first := 7 } (.writeFile oneByte)).2

/-- The exception that the short reply causes leaves the handler, and the client gets nothing. -/
theorem unanswered_shortReply : ¬ AnsweredOnce {} beforeShortReply (.writeChunk theByte) := by
  rintro ⟨s', status, frame, handled, -⟩
  have returned : (beforeShortReply.handle {} (.writeChunk theByte)).1.isOk = true := by rw [handled]; rfl
  exact absurd returned (by decide +kernel)

end MetadataState

end Dfs
