import Dfs.Client.Calls
import Dfs.System.Interleaved

/-!
# A writer among other clients

Where `write_file` reports success both replicas have the file, whatever else has been going on: other clients write, rename
and remove other files, requests and answers are late or lost, and storage nodes fail or start again.
-/

namespace Dfs

open Lib

namespace MetadataWorker

open MetadataStore
open Dfs.System (sessionKey)

variable {w : MetadataWorker} {k : FilePath} {x : Bytes} {n : Nat} {replicas : NodeId × NodeId} {env : Env}
  {event : ClientEvent} {context : RequestContext}

/-- The request opens no session for `k` and does not move what is there. -/
def Passes (k : FilePath) : ClientEvent → Prop
  | .writeFile req => key req.path ≠ k
  | .rename req => ¬ key req.oldPath <+: k
  | _ => True

/-- The request has nothing to do with the file at `k`. -/
structure Bypasses (w : MetadataWorker) (k : FilePath) (env : Env) (event : ClientEvent) : Prop where
  spares : ∀ m, w.store.data.lookup k = some m → w.Leaves k m.objId env event
  passes : Passes k event

instance (k : FilePath) (event : ClientEvent) : Decidable (Passes k event) :=
  match event with
  | .writeFile _ | .rename _ => inferInstanceAs (Decidable (¬ _))
  | .readFile _ | .readChunk _ | .createFile _ | .writeChunk _ | .remove _ | .list _ | .makeDir _ | .stat _ => .isTrue trivial

instance (w : MetadataWorker) (k : FilePath) (env : Env) (event : ClientEvent) : Decidable (w.Bypasses k env event) :=
  decidable_of_iff (((w.store.data.lookup k).all fun m => decide (w.Leaves k m.objId env event)) = true ∧ Passes k event) (by
    simp only [Option.all_eq_true, decide_eq_true_eq]
    exact ⟨fun h => ⟨h.1, h.2⟩, fun h => ⟨h.spares, h.passes⟩⟩)

theorem Bypasses.leaves (bypasses : w.Bypasses k env event) (custody : w.Custody k x n replicas) : w.Leaves k x env event := by
  obtain ⟨m, found, object, -⟩ := custody.record
  exact object ▸ bypasses.spares m found

theorem Bypasses.yields (bypasses : w.Bypasses k env event) (custody : w.Custody k x n replicas)
    (foreign : ∀ req, event = .writeFile req → sessionKey req.context ≠ sessionKey context) :
    w.Yields context k x env event := by
  have leaves := bypasses.leaves custody
  cases event with
  | writeFile req => exact ⟨leaves, bypasses.passes, foreign req rfl⟩
  | _ => exact leaves

theorem Bypasses.carried (bypasses : w.Bypasses k env event) : w.carried k event = k := by
  cases event with
  | rename req =>
      rw [MetadataWorker.carried]
      split
      · exact FileTree.relocate_outside bypasses.passes
      · rfl
  | _ => rfl

end MetadataWorker

namespace System

open Cluster MetadataState MetadataStore MetadataWorker

variable {s s' : System} {k : FilePath} {x b : Bytes} {replicas : NodeId × NodeId} {e : SystemEvent} {client : NodeId}
  {id : UInt64} {context : RequestContext} {session : PendingWrite} {reqs : List WriteChunkRequest} {path : Bytes}
  {fileSize : UInt64} {count : UInt32} {chunks : List Bytes}

/-! ## Between two steps -/

/-- What is kept by all steps of nodes that make up nothing. -/
structure Sane (s : System) : Prop where
  reached : s.Reached
  sessions : s.worker.SessionsSound
  collected : s.Collected

structure Tame (s : System) (e : SystemEvent) : Prop where
  heard : e.From NodeClean
  honest : Honest e
  counted : s.Counted e

theorem Sane.next (sane : s.Sane) (tame : s.Tame e) (h : s.next e = .ok s') : s'.Sane where
  reached := nextNode_reached (e := .step e) sane.reached tame.heard h
  sessions := nextNode_sessions (e := .step e) sane.sessions
    (fun node there => (sane.reached.removable.sturdy.known node there).1) h
  collected := next_collected sane.collected tame.honest tame.counted h

theorem Advancing.sane (advancing : s.Advancing context session reqs) : s.Sane :=
  ⟨advancing.reached, advancing.sessions, advancing.collected⟩

/-- Nobody but the client with the file at `k` has to do with it. -/
structure Considerate (k : FilePath) (s : System) (e : SystemEvent) : Prop extends s.Tame e where
  bypasses : ∀ event env script, e = .request event env script → (s.worker.withOutcomes env.outcomes).Bypasses k env event

instance (s : System) (e : SystemEvent) : Decidable (s.Tame e) :=
  decidable_of_iff (e.From NodeClean ∧ Honest e ∧ s.Counted e)
    ⟨fun h => ⟨h.1, h.2.1, h.2.2⟩, fun h => ⟨h.heard, h.honest, h.counted⟩⟩

instance (k : FilePath) (s : System) (e : SystemEvent) : Decidable (s.Considerate k e) :=
  match e with
  | .request event env script => decidable_of_iff (s.Tame (.request event env script) ∧
      (s.worker.withOutcomes env.outcomes).Bypasses k env event)
        ⟨fun h => ⟨h.1, fun _ _ _ same => by cases same; exact h.2⟩, fun h => ⟨h.toTame, h.bypasses _ _ _ rfl⟩⟩
  | .storage acts => decidable_of_iff (s.Tame (.storage acts)) ⟨fun h => ⟨h, nofun⟩, fun h => h.toTame⟩
  | .heartbeat now sender => decidable_of_iff (s.Tame (.heartbeat now sender)) ⟨fun h => ⟨h, nofun⟩, fun h => h.toTame⟩
  | .checkTimeouts now => decidable_of_iff (s.Tame (.checkTimeouts now)) ⟨fun h => ⟨h, nofun⟩, fun h => h.toTame⟩

theorem Reached.answering (reached : s.Reached) (answers : List (NodeId × Frame)) : (s.answering answers).Reached where
  removable :=
    { sturdy := { reached.removable.sturdy with }
      ordinary := ⟨reached.removable.ordinary.peers, reached.removable.ordinary.queue⟩
      generated := reached.removable.generated }
  paired := reached.paired

theorem Sane.answering (sane : s.Sane) (answers : List (NodeId × Frame)) : (s.answering answers).Sane where
  reached := sane.reached.answering answers
  sessions := sane.sessions
  collected := ⟨⟨sane.collected.traced.inbox, sane.collected.traced.outbox, sane.collected.traced.queue⟩,
    sane.collected.script, sane.collected.below⟩

theorem Advancing.answering (advancing : s.Advancing context session reqs) (answers : List (NodeId × Frame)) :
    (s.answering answers).Advancing context session reqs :=
  { advancing with
    reached := (advancing.sane.answering answers).reached
    collected := (advancing.sane.answering answers).collected
    grown := advancing.grown }

theorem InPlace.answering (inPlace : s.InPlace k x b replicas) (answers : List (NodeId × Frame)) :
    (s.answering answers).InPlace k x b replicas :=
  ⟨inPlace.generated, inPlace.custody, fun some => (inPlace.kept some).of_peers rfl rfl⟩

/-- The step of somebody else brings no chunk of the client's and opens no session for it. -/
theorem foreign_request {event : ClientEvent} {env : Env} {script : List (List Act)}
    (foreign : SystemEvent.Foreign context.sender.id context.requestId (.request event env script)) :
    partOf context event = none ∧ ∀ req, event = .writeFile req → sessionKey req.context ≠ sessionKey context := by
  have apart : sessionKey event.context ≠ sessionKey context := fun same =>
    foreign.elim (absurd (sessionKey_inj same).1) (absurd (sessionKey_inj same).2)
  refine ⟨?_, ?_⟩
  · cases event with
    | writeChunk req => exact if_neg apart
    | _ => rfl
  · rintro req rfl
    exact apart

/-- Nobody but the client opens a session for it. -/
theorem unopened_enduring (context : RequestContext) :
    Enduring context.sender.id context.requestId Tame fun s => s.Sane ∧ s.worker.findWrite context = none where
  step := by
    rintro s s' e ⟨sane, free⟩ tame foreign h
    refine ⟨sane.next tame h, ?_⟩
    cases e with
    | request event env script =>
        obtain ⟨other, unopened⟩ := foreign_request foreign
        have step : TableStep env (s.worker.withOutcomes env.outcomes) s'.worker event :=
          handle_step (s := s.scripted script) (next_request h)
        exact (step.spares_session other unopened).trans free
    | _ =>
        cases h
        exact free
  answers := fun answers holds => ⟨holds.1.answering answers, holds.2⟩

/-- The chunks have come for the session of the client, or they were the whole file and that is what is stored. -/
inductive Brought (context : RequestContext) (path : Bytes) (fileSize : UInt64) (count : UInt32) (chunks : List Bytes)
    (s : System) : Prop where
  | going (session : PendingWrite) (reqs : List WriteChunkRequest) (there : session.path = path)
      (size : session.fileSize = fileSize) (number : session.chunkCount = count) (data : reqs.map (·.data) = chunks)
      (advancing : s.Advancing context session reqs)
  | whole (all : chunks.length = count.toNat) (size : chunks.flatten.length = fileSize.toNat) (sane : s.Sane) (x : Bytes)
      (replicas : NodeId × NodeId) (inPlace : s.InPlace (key path) x chunks.flatten replicas)

theorem Brought.sane (brought : Brought context path fileSize count chunks s) : s.Sane := by
  cases brought with
  | going session reqs there size number data advancing => exact advancing.sane
  | whole all size sane x replicas inPlace => exact sane

theorem InPlace.considerate (inPlace : s.InPlace k x b replicas) (sane : s.Sane) (considerate : s.Considerate k e)
    (h : s.next e = .ok s') : s'.InPlace k x b replicas := by
  have alone : s.LeavesAlone x (.step e) := by
    cases e with
    | request event env script =>
        intro k' m found same
        obtain rfl : k' = k := inPlace.custody.owns.records k' m found same
        exact (considerate.bypasses event env script rfl).leaves (inPlace.custody.of_same rfl rfl)
    | _ => trivial
  have after := nextNode_inPlace (e := .step e) inPlace sane.reached.removable.sturdy sane.reached.removable.generated alone h
  have still : s.carriedBy k (.step e) = k := by
    cases e with
    | request event env script => exact (considerate.bypasses event env script rfl).carried
    | _ => rfl
  rwa [still] at after

theorem brought_enduring (context : RequestContext) : Enduring context.sender.id context.requestId (Considerate (key path))
    (Brought context path fileSize count chunks) where
  step := by
    intro s s' e brought considerate foreign h
    cases brought with
    | going session reqs there size number data advancing =>
        subst there
        refine .going session reqs rfl size number data (advancing.beside considerate.heard considerate.honest
          considerate.counted (fun event env script same => ?_) h)
        subst same
        obtain ⟨other, unopened⟩ := foreign_request foreign
        obtain ⟨n, custody⟩ := advancing.custody
        exact ⟨other, (considerate.bypasses event env script rfl).yields (custody.of_same rfl rfl) unopened⟩
    | whole all size sane x replicas inPlace =>
        exact .whole all size (sane.next considerate.toTame h) x replicas (inPlace.considerate sane considerate h)
  answers := by
    intro s answers brought
    cases brought with
    | going session reqs there size number data advancing =>
        exact .going session reqs there size number data (advancing.answering answers)
    | whole all size sane x replicas inPlace =>
        exact .whole all size (sane.answering answers) x replicas (inPlace.answering answers)

/-! ## The two requests -/

variable {env : Env} {script : List (List Act)} {s₁ : System}

/-- A `WriteFile` that is answered `Success` opens a session or empties the file. -/
theorem writeFile_brought {req : WriteFileRequest} (sane : s.Sane) (free : s.worker.findWrite req.context = none)
    (unclaimed : ∀ m, s.worker.target env req.path m → s.Unclaimed (key req.path) m)
    (sized : chunksOf req.fileSize = req.chunkCount.toUInt64) (sane' : s'.Sane)
    (run : (s.prepared env script).writeFile env req = (.success, s₁))
    (h : s.next (.request (.writeFile req) env script) = .ok s') :
    Brought req.context req.path req.fileSize req.chunkCount [] s' := by
  obtain ⟨status, s₂, run', same⟩ := next_writeFile h
  cases run.symm.trans run'
  have worker : s'.worker = s₁.worker := by
    rw [same]
    rfl
  have begins : ∀ x replicas, s₁.worker.findWrite req.context = some (sessionOf req x replicas) →
      Brought req.context req.path req.fileSize req.chunkCount [] s' := fun x replicas found => by
    rw [← worker] at found
    obtain ⟨-, advancing⟩ := Advancing.opened free unclaimed sane'.reached sane'.sessions sane'.collected found h
    exact .going _ [] rfl rfl rfl rfl advancing
  have step : WriteFileStep env req (s.prepared env script).worker s₁.worker .success := (writeFile_step run).2.2
  cases step with
  | refused _ bad data writes => exact absurd rfl bad
  | opened m target count sized bound data unbusy writes =>
      exact begins m.objId m.replicaLocations (by rw [findWrite_putWrite writes, if_pos ⟨rfl, rfl⟩])
  | bound _ m m' target count sized unbound selected objId size data writes =>
      rcases writes with ⟨bad, -⟩ | ⟨-, -, writes⟩
      · exact absurd rfl bad
      · exact begins m.objId m'.replicaLocations (by rw [findWrite_putWrite writes, if_pos ⟨rfl, rfl⟩])
  | emptied m m' target none objId nodes size data writes =>
      replace target : s.worker.target env req.path m := target
      have empty : req.fileSize.toNat = 0 := by
        have number := chunkCount_toNat sized
        rw [none, UInt32.toNat_zero, chunkSize] at number
        omega
      have generated : Generated m.objId := by
        obtain ⟨-, found | ⟨-, rfl⟩⟩ := target
        · exact sane.reached.removable.generated _ _ (.record _ m found)
        · exact ⟨env.first, env.second, rfl⟩
      have unclaimed := unclaimed m target
      refine .whole (by rw [none]; rfl) (by rw [empty]; rfl) sane' m.objId m'.replicaLocations
        ⟨generated, ⟨⟨m', ?_, objId, by rw [size]; rfl, fun _ => rfl⟩, fun some => absurd rfl some, fun k' m₁ found same => ?_,
          fun c write found same => ?_⟩, fun some => absurd rfl some⟩
      · rw [worker, data, Assoc.lookup_insert_ite, if_pos rfl]
      · rw [worker, data, Assoc.lookup_insert_ite] at found
        split at found
        · assumption
        · exact unclaimed.records k' m₁ found same
      · rw [worker, findWrite, writes] at found
        exact absurd same (unclaimed.writes c write found)

/-- A `WriteChunk` that is answered `Success` takes the session one chunk further. -/
theorem writeChunk_brought {req : WriteChunkRequest} (brought : Brought req.context path fileSize count chunks s)
    (below : chunks.length < count.toNat)
    (clear : ∀ write, s.worker.findWrite req.context = some write →
      s.network.Clear write.replicas.1 req.context.requestId req.chunkIndex ∧
        s.network.Clear write.replicas.2 req.context.requestId req.chunkIndex)
    (honest : ∀ acts ∈ script, ∀ a ∈ acts, a.Honest) (sane' : s'.Sane)
    (run : (s.prepared env script).writeChunk env req = (.ok .success, s₁))
    (h : s.next (.request (.writeChunk req) env script) = .ok s') :
    Brought req.context path fileSize count (chunks ++ [req.data]) s' := by
  cases brought with
  | whole all size sane x replicas inPlace => exact absurd all below.ne
  | going session reqs there size number data advancing =>
      subst there size number data
      obtain ⟨clear, clear'⟩ := clear _ advancing.found
      by_cases final : req.chunkIndex + 1 = session.chunkCount
      · obtain ⟨conforms, index, -⟩ := advancing.took rfl clear clear' honest run
        obtain ⟨all, length⟩ := advancing.whole conforms index final
        have inPlace := advancing.last rfl clear clear' honest final run h
        rw [contents, List.map_append] at length inPlace
        exact .whole (by simpa using all) length sane' _ _ inPlace
      · have more := advancing.more rfl clear clear' honest final run sane'.reached sane'.sessions sane'.collected h
        exact .going session _ rfl rfl rfl (by rw [List.map_append]; rfl) more

/-- A `WriteFile` works with an object that nobody else is writing. -/
def Opens (s : System) : SystemEvent → Prop
  | .request (.writeFile req) env _ => ∀ m, s.worker.target env req.path m → s.Unclaimed (key req.path) m
  | _ => True

/-- No chunk with the same id and index is still on its way to a replica. -/
def Appends (s : System) : SystemEvent → Prop
  | .request (.writeChunk req) _ _ => ∀ write, s.worker.findWrite req.context = some write →
      s.network.Clear write.replicas.1 req.context.requestId req.chunkIndex ∧
        s.network.Clear write.replicas.2 req.context.requestId req.chunkIndex
  | _ => True

instance (s : System) (e : SystemEvent) : Decidable (s.Appends e) :=
  match e with
  | .request (.writeChunk req) _ _ => decidable_of_iff (((s.worker.findWrite req.context).all fun write =>
      decide (s.network.Clear write.replicas.1 req.context.requestId req.chunkIndex ∧
        s.network.Clear write.replicas.2 req.context.requestId req.chunkIndex)) = true) (by
          simp only [Appends, Option.all_eq_true, decide_eq_true_eq])
  | .request (.createFile _) _ _ | .request (.writeFile _) _ _ | .request (.readFile _) _ _ | .request (.readChunk _) _ _
  | .request (.remove _) _ _ | .request (.list _) _ _ | .request (.makeDir _) _ _ | .request (.rename _) _ _
  | .request (.stat _) _ _ | .storage _ | .heartbeat _ _ | .checkTimeouts _ => .isTrue trivial

end System

namespace Inquiry

open Dfs.System MetadataState

variable {client node : NodeId} {id fileSize : UInt64} {count : UInt32} {path data : Bytes} {chunks : List Bytes}

/-- The first request of `write_file`. Until it is handled other clients may do to the file what they like. -/
def writeFile (client node : NodeId) (id fileSize : UInt64) (count : UInt32) (path : Bytes) : Inquiry where
  key := ⟨id, .writeFile, none⟩
  request := ClientProtocol.encodeWriteFileRequest id { fileSize, chunkCount := count, path, context := Client.noContext }
  node
  body := Rpc.matchAnyBody
  before s := s.Sane ∧ s.worker.findWrite ⟨id, ⟨client, .client⟩⟩ = none
  after := Brought ⟨id, ⟨client, .client⟩⟩ path fileSize count []
  grants frame := ∃ sender m response, Rpc.readMessage ClientJob (Frame.from frame sender) = .ok m ∧
    ClientProtocol.decodeWriteFileResponse m = .ok response ∧ response.status = .success
  own s e := s.Tame e ∧ s.Opens e
  prior := Tame
  later := Considerate (MetadataStore.key path)

/-- The request for the chunk behind the others. -/
def writeChunk (client node : NodeId) (id fileSize : UInt64) (count : UInt32) (path : Bytes) (chunks : List Bytes)
    (data : Bytes) : Inquiry where
  key := ⟨id, .writeChunk, some (UInt32.ofNat chunks.length)⟩
  request := ClientProtocol.encodeWriteChunkRequest id
    { chunkIndex := UInt32.ofNat chunks.length, data, context := Client.noContext }
  node
  body := Rpc.matchChunk (UInt32.ofNat chunks.length)
  before := Brought ⟨id, ⟨client, .client⟩⟩ path fileSize count chunks
  after := Brought ⟨id, ⟨client, .client⟩⟩ path fileSize count (chunks ++ [data])
  grants frame := ∃ sender m response, Rpc.readMessage ClientJob (Frame.from frame sender) = .ok m ∧
    ClientProtocol.decodeWriteChunkResponse m = .ok response ∧ response.status = .success
  own s e := s.Tame e ∧ s.Appends e
  prior := Considerate (MetadataStore.key path)
  later := Considerate (MetadataStore.key path)

theorem writeFile_proper (sized : chunksOf fileSize = count.toUInt64)
    (read : ClientEvent.of ((writeFile client node id fileSize count path).request.from ⟨client, .client⟩) =
      .ok (.writeFile { fileSize, chunkCount := count, path, context := ⟨id, ⟨client, .client⟩⟩ })) :
    (writeFile client node id fileSize count path).Proper client where
  made := ⟨rfl, _, rfl⟩
  chunk := fun _ same => nomatch same
  before := unopened_enduring ⟨id, ⟨client, .client⟩⟩
  after := brought_enduring ⟨id, ⟨client, .client⟩⟩
  handled := by
    rintro s s' s₁ event env script status frame decoded ⟨sane, free⟩ ⟨tame, opens⟩ h handled responds ⟨sender, m, response, got,
      said, success⟩
    cases (NodeJob.of_event decoded).symm.trans read
    cases handled with
    | writeFile _ _ _ run =>
        have granted : status = .success := (writeFileResponse_said responds rfl got said).symm.trans success
        subst granted
        exact writeFile_brought sane free opens sized (sane.next tame h) run h

theorem writeChunk_proper (short : data.length ≤ chunkSize) (below : chunks.length < count.toNat) :
    (writeChunk client node id fileSize count path chunks data).Proper client where
  made := ⟨rfl, _, rfl⟩
  chunk := fun _ same => by cases same; rfl
  before := brought_enduring ⟨id, ⟨client, .client⟩⟩
  after := brought_enduring ⟨id, ⟨client, .client⟩⟩
  handled := by
    rintro s s' s₁ event env script status frame decoded brought ⟨tame, appends⟩ h handled responds ⟨sender, m, response, got,
      said, success⟩
    cases (NodeJob.of_event decoded).symm.trans (ClientEvent.of_writeChunk short)
    cases handled with
    | writeChunk _ _ _ run =>
        have granted : status = .success := (writeChunkResponse_said responds rfl got said).symm.trans success
        subst granted
        replace brought : Brought ⟨id, ⟨client, .client⟩⟩ path fileSize count chunks s := brought
        refine writeChunk_brought ?_ below appends tame.honest (brought.sane.next tame h) run h
        exact brought

section Decidable

variable (s : System) (e : SystemEvent)

instance : Decidable ((writeFile client node id fileSize count path).prior s e) := inferInstanceAs (Decidable (s.Tame e))

instance : Decidable ((writeFile client node id fileSize count path).later s e) :=
  inferInstanceAs (Decidable (s.Considerate _ e))

instance : Decidable ((writeChunk client node id fileSize count path chunks data).own s e) :=
  inferInstanceAs (Decidable (s.Tame e ∧ s.Appends e))

instance : Decidable ((writeChunk client node id fileSize count path chunks data).prior s e) :=
  inferInstanceAs (Decidable (s.Considerate _ e))

instance : Decidable ((writeChunk client node id fileSize count path chunks data).later s e) :=
  inferInstanceAs (Decidable (s.Considerate _ e))

end Decidable

end Inquiry

/-! ## The whole call -/

/-- What so many reads get. -/
def Input.chunks : Nat → Input → List Bytes
  | 0, _ => []
  | left + 1, file => file.read.1 :: Input.chunks left file.read.2

/-- What `write_file` reads of the file. -/
def LocalFile.bytes (file : LocalFile) : Bytes :=
  match file.size with
  | .error _ => []
  | .ok fileSize => (Input.chunks (chunksOf fileSize).toUInt32.toNat { reads := file.reads, failed := false }).flatten

theorem Input.read_length (file : Input) : file.read.1.length ≤ chunkSize := by
  unfold Input.read
  split
  · exact Nat.zero_le _
  · exact List.length_take_le _ _

/-- Every step suits the calls for the chunks that are left; `chunks` are behind the client. -/
inductive Service.AccommodatesChunks (client metadata : NodeId) (id fileSize : UInt64) (count : UInt32) (path : Bytes) :
    Nat → Input → List Bytes → Service → Prop where
  | done (file : Input) (chunks : List Bytes) (n : Service) :
      AccommodatesChunks client metadata id fileSize count path 0 file chunks n
  | chunk {left : Nat} {file : Input} {chunks : List Bytes} {n : Service}
      (here : n.Accommodates (.writeChunk client metadata id fileSize count path chunks file.read.1))
      (behind : AccommodatesChunks client metadata id fileSize count path left file.read.2 (chunks ++ [file.read.1])
        (Client.writeReply metadata id (UInt32.ofNat chunks.length) file.read.1 n).2) :
      AccommodatesChunks client metadata id fileSize count path (left + 1) file chunks n

namespace Client

open Service Dfs.System

variable {c : Client Service} {client : NodeId} {id fileSize : UInt64} {count : UInt32} {path : Bytes} {chunks : List Bytes}
  {used : List RequestKey}

/-- One turn of the loop. -/
theorem writeChunks_goes {ν : Type} [Network ν] {c : Client ν} {left : Nat} {next : UInt32} {file : Input}
    (success : (c.writeChunks id (left + 1) next file).1 = .ok (.ok ())) :
    ∃ message rpcMessage response, (writeReply c.metadataNodeId id next file.read.1 c.network).1 = some message ∧
      Rpc.readMessage ClientJob message = .ok rpcMessage ∧ ClientProtocol.decodeWriteChunkResponse rpcMessage = .ok response ∧
      response.status = .success ∧ c.writeChunks id (left + 1) next file =
        { c with network := (writeReply c.metadataNodeId id next file.read.1 c.network).2 }.writeChunks id left (next + 1)
          file.read.2 := by
  rw [writeChunks] at success ⊢
  dsimp only at success ⊢
  split at success
  · cases success
  rename_i some
  rw [if_neg some]
  cases reply : (writeReply c.metadataNodeId id next file.read.1 c.network).1 with
  | none =>
      rw [call_timeout reply] at success
      cases success
  | some message =>
      obtain ⟨-, rpcMessage, read, called⟩ := call_received reply
      rw [called] at success ⊢
      dsimp only at success ⊢
      cases decoded : ClientProtocol.decodeWriteChunkResponse rpcMessage with
      | error e =>
          rw [decoded] at success
          cases success
      | ok response =>
          rw [decoded] at success
          dsimp only at success ⊢
          split at success
          · cases success
          rename_i index
          split at success
          · cases success
          rename_i granted
          rw [if_neg index, if_neg granted]
          exact ⟨message, rpcMessage, response, rfl, read, decoded, not_not.1 granted, rfl⟩

theorem writeChunks_brought (left : Nat) {next : UInt32} {file : Input}
    (resting : c.network.Resting client id used (Brought ⟨id, ⟨client, .client⟩⟩ path fileSize count chunks))
    (before : Before .writeChunk next used) (number : next = UInt32.ofNat chunks.length)
    (total : chunks.length + left = count.toNat)
    (accommodates : c.network.AccommodatesChunks client c.metadataNodeId id fileSize count path left file chunks)
    (success : (c.writeChunks id left next file).1 = .ok (.ok ())) :
    Brought ⟨id, ⟨client, .client⟩⟩ path fileSize count (chunks ++ Input.chunks left file)
      (c.writeChunks id left next file).2.network.system := by
  induction left generalizing c next file chunks used with
  | zero =>
      rw [Input.chunks, List.append_nil]
      exact resting.holds
  | succ left ih =>
      subst number
      obtain ⟨⟩ | ⟨here, behind⟩ := accommodates
      obtain ⟨message, rpcMessage, response, reply, read, decoded, granted, goes⟩ := writeChunks_goes success
      rw [goes] at success ⊢
      have below : chunks.length < count.toNat := by omega
      have small : (UInt32.ofNat chunks.length).toNat = chunks.length := by
        rw [UInt32.toNat_ofNat', Nat.mod_eq_of_lt (below.trans count.toNat_lt)]
      have proper : (Inquiry.writeChunk client c.metadataNodeId id fileSize count path chunks file.read.1).Proper client :=
        Inquiry.writeChunk_proper file.read_length below
      obtain ⟨frame, sender, rfl, -, after⟩ := resting.receives c.metadataNodeId timeout proper
        before.new here reply
      have rested := after ⟨sender, rpcMessage, response, read, decoded, granted⟩
      have later : (UInt32.ofNat chunks.length) + 1 = UInt32.ofNat (chunks ++ [file.read.1]).length := by
        rw [List.length_append, List.length_singleton, UInt32.ofNat_add]
        rfl
      have more : (chunks ++ [file.read.1]).length + left = count.toNat := by
        rw [List.length_append, List.length_singleton]
        omega
      have room : (UInt32.ofNat chunks.length).toNat + 1 < 2 ^ 32 := by
        have := count.toNat_lt
        omega
      rw [Input.chunks, List.append_cons]
      exact ih (c := { c with network := (writeReply c.metadataNodeId id _ file.read.1 c.network).2 }) rested (before.next room)
        later more behind success

/-- What a successful `write_file` has been answered before the first chunk. -/
theorem writeFile_goes {ν : Type} [Network ν] {c : Client ν} {file : LocalFile}
    (success : (c.writeFile file path).1 = .ok (.ok ())) :
    ∃ fileSize message rpcMessage response, file.size = .ok fileSize ∧
      chunksOf fileSize = (chunksOf fileSize).toUInt32.toUInt64 ∧
      (writeFileReply c.metadataNodeId (c.currentId + 1) fileSize (chunksOf fileSize).toUInt32 path c.network).1 = some message ∧
      Rpc.readMessage ClientJob message = .ok rpcMessage ∧ ClientProtocol.decodeWriteFileResponse rpcMessage = .ok response ∧
      response.status = .success ∧ c.writeFile file path =
        { c with
          currentId := c.currentId + 1
          network := (writeFileReply c.metadataNodeId (c.currentId + 1) fileSize (chunksOf fileSize).toUInt32 path
            c.network).2 }.writeChunks (c.currentId + 1) (chunksOf fileSize).toUInt32.toNat 0
              { reads := file.reads, failed := false } := by
  rw [writeFile] at success ⊢
  by_cases closed : file.opens = false
  · rw [if_pos closed] at success
    cases success
  rw [if_neg closed] at success ⊢
  cases size : file.size with
  | error e =>
      rw [size] at success
      cases success
  | ok fileSize =>
      rw [size] at success
      dsimp only at success ⊢
      by_cases many : (chunksOf fileSize).toNat > 0xffffffff
      · rw [if_pos many] at success
        cases success
      rw [if_neg many] at success ⊢
      have sized : chunksOf fileSize = (chunksOf fileSize).toUInt32.toUInt64 := by
        refine UInt64.toNat_inj.1 ?_
        rw [UInt32.toNat_toUInt64, UInt64.toNat_toUInt32, Nat.mod_eq_of_lt (by omega)]
      cases reply : (writeFileReply c.metadataNodeId (c.currentId + 1) fileSize (chunksOf fileSize).toUInt32 path
          c.network).1 with
      | none =>
          rw [@call_timeout _ _ { c with currentId := c.currentId + 1 } _ _ _ _ _ reply] at success
          cases success
      | some message =>
          obtain ⟨-, rpcMessage, read, called⟩ := @call_received _ _ { c with currentId := c.currentId + 1 } _ _ _ _ _ _ reply
          rw [called] at success ⊢
          dsimp only at success ⊢
          cases decoded : ClientProtocol.decodeWriteFileResponse rpcMessage with
          | error e =>
              rw [decoded] at success
              cases success
          | ok response =>
              rw [decoded] at success
              dsimp only at success ⊢
              by_cases granted : response.status = .success
              · rw [if_neg (not_not.2 granted)]
                exact ⟨fileSize, message, rpcMessage, response, rfl, sized, reply, read, decoded, granted, rfl⟩
              · rw [if_pos granted] at success
                cases success

theorem chunks_length (left : Nat) (file : Input) : (Input.chunks left file).length = left := by
  induction left generalizing file with
  | zero => rfl
  | succ left ih => rw [Input.chunks, List.length_cons, ih]

/-- Nobody else has to do with the file from when the metadata node handles the `WriteFile`, nodes make up nothing, and no
chunk meets an old one with its id and index. -/
structure Unhampered (file : LocalFile) (path : Bytes) (c : Client Service) : Prop where
  opening : ∀ fileSize, file.size = .ok fileSize → c.network.Accommodates
    (.writeFile c.network.client c.metadataNodeId (c.currentId + 1) fileSize (chunksOf fileSize).toUInt32 path)
  chunks : ∀ fileSize, file.size = .ok fileSize →
    Service.AccommodatesChunks c.network.client c.metadataNodeId (c.currentId + 1) fileSize (chunksOf fileSize).toUInt32 path
      (chunksOf fileSize).toUInt32.toNat { reads := file.reads, failed := false } []
      (writeFileReply c.metadataNodeId (c.currentId + 1) fileSize (chunksOf fileSize).toUInt32 path c.network).2

variable {s₀ : System} {earlier : List NodeEvent} {file : LocalFile}

theorem writeFile_sane (sane : c.network.system.Sane) (unused : c.network.Unused (c.currentId + 1)) (clean : NulFree path)
    (fits : ((Operation.writeFile file path).request (c.currentId + 1)).Fits) (unhampered : Unhampered file path c)
    (success : (c.writeFile file path).1 = .ok (.ok ())) :
    file.size = .ok (UInt64.ofNat file.bytes.length) ∧ (c.writeFile file path).2.network.system.Sane ∧ ∃ x replicas,
      (c.writeFile file path).2.network.system.InPlace (MetadataStore.key path) x file.bytes replicas := by
  obtain ⟨fileSize, message, rpcMessage, response, size, sized, reply, read, decoded, granted, goes⟩ := writeFile_goes success
  rw [goes] at success ⊢
  have event : ClientEvent.of (((Operation.writeFile file path).request (c.currentId + 1)).from ⟨c.network.client, .client⟩) =
      .ok ((Operation.writeFile file path).event (c.network.context (c.currentId + 1))) :=
    Operation.received _ _ (by simpa [Operation.texts] using clean) (Frame.fits_iff.1 fits)
  simp only [Operation.request, Operation.event, size, Except.toOption, Option.getD_some] at event
  have proper : (Inquiry.writeFile c.network.client c.metadataNodeId (c.currentId + 1) fileSize (chunksOf fileSize).toUInt32
      path).Proper c.network.client := Inquiry.writeFile_proper sized event
  have free : c.network.system.worker.findWrite (c.network.context (c.currentId + 1)) = none := by
    have none : (c.network.system.worker.findWrite (c.network.context (c.currentId + 1))).map
        (fun write => (write.nextChunk, write.chunkCount)) = none := congrArg Prod.fst unused.sessions
    exact Option.map_eq_none_iff.1 none
  have resting : c.network.Resting c.network.client (c.currentId + 1) [] (Inquiry.writeFile c.network.client c.metadataNodeId
      (c.currentId + 1) fileSize (chunksOf fileSize).toUInt32 path).before :=
    ⟨rfl, unused.waiting, fun frame there => .inl (unused.around frame there), sane, free⟩
  obtain ⟨frame, sender, rfl, -, after⟩ := resting.receives c.metadataNodeId timeout proper
    List.not_mem_nil (unhampered.opening fileSize size) reply
  have first : Before .writeChunk 0 [⟨c.currentId + 1, .writeFile, none⟩] := before_first _ (by decide)
  have brought := writeChunks_brought _ (after ⟨sender, rpcMessage, response, read, decoded, granted⟩) first
    rfl (Nat.zero_add _) (unhampered.chunks fileSize size) success
  rw [List.nil_append] at brought
  cases brought with
  | going session reqs there same number data advancing =>
      have below := advancing.below.2
      rw [number, ← chunks_length (chunksOf fileSize).toUInt32.toNat { reads := file.reads, failed := false }, ← data,
        List.length_map] at below
      exact absurd below (Nat.lt_irrefl _)
  | whole all length sane' x replicas inPlace =>
      have bytes : file.bytes =
          (Input.chunks (chunksOf fileSize).toUInt32.toNat { reads := file.reads, failed := false }).flatten := by
        rw [LocalFile.bytes, size]
      rw [bytes, length, UInt64.ofNat_toNat]
      exact ⟨size, sane', x, replicas, inPlace⟩

/-- A request to write works with a path that is free. -/
def opensVacant (s : System) : SystemEvent → Bool
  | .request (.writeFile req) env _ => s.vacant env req.path
  | _ => true

theorem opens_of_vacant {s : System} {e : SystemEvent} (h : opensVacant s e = true) : s.Opens e := by
  cases e with
  | request event env script =>
      cases event with
      | writeFile req => exact fun m target => unclaimed_of_vacant h target
      | _ => trivial
  | _ => trivial

/-- Both storage nodes are there. -/
def joint : System := (start.runNode (joined.map .step)).toOption.getD start

/-- Client `"c"` is about to write `"p"`. While it waits, `"d"` writes `"q"`, node `"a"` does not get the chunk of `"d"` and
starts again, and node `"b"` has both chunks to take. -/
def busy : Client Service where
  network :=
    { system := joint, client := [99]
      script := [[.handle 0 { first := 7 } [],
          .other (.request (.writeFile { path := [113], fileSize := 1, chunkCount := 1, context := ⟨2, ⟨[100], .client⟩⟩ })
            { first := 8 } []), .arrive 0],
        [.other (.request (.writeChunk { chunkIndex := 0, data := [6], context := ⟨2, ⟨[100], .client⟩⟩ }) {}
            [[.loseRequest [97] 0]]),
          .other (.storage [.restart [97]]), .handle 0 {} belated, .arrive 2]] }
  disk := { tree := .empty, outcomes := [], trail := [], outside := fun _ => none }
  metadataNodeId := [109]
  currentId := 0

def oneByte : LocalFile := { opens := true, size := .ok 1, reads := [[5]] }

theorem busy_before : start.runNode (joined.map .step) = .ok busy.network.system ∧ busy.network.system.Collected := by
  obtain ⟨s, before, still⟩ := exists_ok (r := start.runNode (joined.map .step)) (f := fun s => s.still) (by decide +kernel)
  have same : busy.network.system = s := by
    rw [busy, joint, before]
    rfl
  rw [same]
  exact ⟨before, collected_of_still still⟩

theorem unused_of_empty {n : Service} {id : UInt64} (requests : n.requests = []) (messages : n.messageQueue = [])
    (answers : (n.system.network.answers.all fun a => decide (a.1 ≠ n.client)) = true)
    (sessions : n.sessions id = (none, none)) : n.Unused id := by
  refine ⟨by rw [Service.waiting, requests]; rfl, sessions, fun frame there => ?_⟩
  rcases there with queued | under
  · rw [messages] at queued
    cases queued
  · exact absurd rfl (of_decide_eq_true (List.all_eq_true.1 answers _ under))

theorem busy_unused : busy.network.Unused (busy.currentId + 1) :=
  unused_of_empty rfl rfl (by decide +kernel) (by decide +kernel)

theorem busy_unhampered : Unhampered oneByte [112] busy := by
  refine ⟨fun fileSize size => ?_, fun fileSize size => ?_⟩
  · cases size
    have opening : busy.network.Accommodates { Inquiry.writeFile [99] [109] 1 1 (chunksOf 1).toUInt32 [112] with
        own := fun s e => s.Tame e ∧ opensVacant s e = true } := by decide +kernel
    exact opening.of_own fun _ _ holds => ⟨holds.1, opens_of_vacant holds.2⟩
  · cases size
    have one : (chunksOf 1).toUInt32.toNat = 1 := by decide +kernel
    rw [one]
    exact .chunk (by decide +kernel) (.done _ _ _)

variable {d : Client Service} {s : System} {events : List NodeEvent} {x fromPath toPath : Bytes}

/-- `"p"` is renamed to `"r"`, the metadata node starts again, and then it hears of node `"b"` alone. -/
def aftermath : List NodeEvent :=
  [.step (.request (.rename { oldPath := [112], newPath := [114], context := ⟨3, ⟨[100], .client⟩⟩ }) {} []), .restart [],
    .step (.heartbeat ⟨5⟩ ⟨[98], .storage⟩)]

def resumed : System := ((busy.writeFile oneByte [112]).2.network.system.runNode aftermath).toOption.getD joint

/-- Client `"e"` is about to read `"r"`, and `"d"` removes `"q"` meanwhile. -/
def newcomer : Client Service where
  network :=
    { system := resumed, client := [101]
      script := [[.handle 0 {} [], .arrive 3],
        [.other (.request (.remove { path := [113], context := ⟨4, ⟨[100], .client⟩⟩ }) {} []),
          .handle 0 {} [[.serve [98] [], .deliver [98]]], .arrive 4]] }
  disk := { tree := .empty, outcomes := [], trail := [], outside := fun _ => none }
  metadataNodeId := [109]
  currentId := 0

end Client

end Dfs
