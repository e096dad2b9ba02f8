import Dfs.Metadata.Responses
import Dfs.Metadata.Sessions

/-!
# The chunks that a write session accepts

A session of `n` chunks takes the chunks of its file in order, each with its own length, and
nothing else: the first request that deviates closes it. The record is written with the
last chunk, and only that can still fail when the storage nodes answer `Success`.
-/

namespace Dfs

open Lib

/-- Request number `i` carries chunk `i`, and all of it. -/
structure InOrder (size : UInt64) (count : UInt32) (i : Nat) (req : WriteChunkRequest) : Prop where
  index : req.chunkIndex.toNat = i
  below : i < count.toNat
  length : req.data.length = min chunkSize (size.toNat - i * chunkSize)

/-- The requests carry the chunks of a file from the first one on. -/
def Conforms (size : UInt64) (count : UInt32) (reqs : List WriteChunkRequest) : Prop :=
  ∀ i (h : i < reqs.length), InOrder size count i reqs[i]

section Conforms

variable {size : UInt64} {count : UInt32} {reqs : List WriteChunkRequest} {req : WriteChunkRequest}

theorem conforms_nil : Conforms size count [] := fun i h => absurd h (by simp)

theorem conforms_append : Conforms size count (reqs ++ [req]) ↔ Conforms size count reqs ∧ InOrder size count reqs.length req := by
  constructor
  · intro all
    constructor
    · intro i h
      have here := all i (by rw [List.length_append]; omega)
      rwa [List.getElem_append_left h] at here
    · have here := all reqs.length (by simp)
      simpa using here
  · rintro ⟨all, last⟩ i h
    by_cases early : i < reqs.length
    · rw [List.getElem_append_left early]
      exact all i early
    · have here : i = reqs.length := by
        rw [List.length_append, List.length_singleton] at h
        omega
      subst here
      simpa using last

theorem Conforms.length_le (conforms : Conforms size count reqs) : reqs.length ≤ count.toNat := by
  rcases List.eq_nil_or_concat reqs with rfl | ⟨front, last, rfl⟩
  · simp
  · have below := (conforms (front.concat last).length.pred (by simp)).below
    simp only [List.length_concat, Nat.pred_succ] at below ⊢
    omega

/-- What the first chunks of a file hold. -/
theorem Conforms.sum (conforms : Conforms size count reqs) :
    (reqs.map fun req => req.data.length).sum = min size.toNat (reqs.length * chunkSize) := by
  induction reqs using List.reverseRecOn with
  | nil => simp
  | append_singleton front last ih =>
      obtain ⟨conforms', order⟩ := conforms_append.1 conforms
      rw [List.map_append, List.sum_append, ih conforms', List.map_singleton, List.sum_singleton, order.length,
        List.length_append, List.length_singleton]
      simp only [chunkSize]
      omega

/-- All chunks together are the file. -/
theorem Conforms.whole (conforms : Conforms size count reqs) (sized : chunksOf size = count.toUInt64)
    (all : reqs.length = count.toNat) : (reqs.map fun req => req.data.length).sum = size.toNat := by
  rw [conforms.sum, all, chunkCount_toNat sized]
  simp only [chunkSize]
  omega

end Conforms

/-- The session after `i` chunks. -/
def PendingWrite.after (write : PendingWrite) (i : Nat) : PendingWrite := { write with nextChunk := UInt32.ofNat i }

/-- A chunk is due exactly where it is the next one in order. -/
theorem PendingWrite.due_after {write : PendingWrite} {i : Nat} {req : WriteChunkRequest}
    (sized : chunksOf write.fileSize = write.chunkCount.toUInt64) (below : i < write.chunkCount.toNat) :
    (write.after i).Due req ↔ InOrder write.fileSize write.chunkCount i req := by
  have small : (UInt32.ofNat i).toNat = i := by
    rw [UInt32.toNat_ofNat', Nat.mod_eq_of_lt (Nat.lt_trans below write.chunkCount.toNat_lt)]
  constructor
  · rintro ⟨turn, inside, fits⟩
    change req.chunkIndex = UInt32.ofNat i at turn
    have index : req.chunkIndex.toNat = i := by rw [turn, small]
    refine ⟨index, below, ?_⟩
    rw [← index, ← (chunkExact_of_below sized inside).expected]
    exact fits
  · rintro ⟨index, -, fits⟩
    have inside : req.chunkIndex < write.chunkCount := by rwa [UInt32.lt_iff_toNat_lt, index]
    refine ⟨UInt32.toNat_inj.1 (index.trans small.symm), inside, ?_⟩
    change _ = (expectedSize write.fileSize req.chunkIndex).toNat
    rw [(chunkExact_of_below sized inside).expected, index]
    exact fits

namespace MetadataState

open MetadataWorker

variable {ν : Type} [Network ν] {t t' : MetadataState (Recorded ν)} {env : Env} {req : WriteChunkRequest} {write : PendingWrite}

/-- Both replicas answer the `PUT` of a due chunk with `Success`. -/
def PutsSucceed (env : Env) (req : WriteChunkRequest) (t : MetadataState (Recorded ν)) : Prop :=
  ∀ write, t.worker.findWrite req.context = some write → write.Due req →
    (((t.entered env).putsSent req write).awaitPuts req write.replicas).1 = .ok true

/-- One request with its answer. -/
def nextChunk (t : MetadataState (Recorded ν)) (step : Env × WriteChunkRequest) : MetadataState (Recorded ν) :=
  (t.handle step.1 (.writeChunk step.2)).2

def chunkRun (t : MetadataState (Recorded ν)) (steps : List (Env × WriteChunkRequest)) : MetadataState (Recorded ν) :=
  steps.foldl nextChunk t

/-- The storage nodes answer every `PUT` of the run with `Success`. -/
def AllPutsSucceed : MetadataState (Recorded ν) → List (Env × WriteChunkRequest) → Prop
  | _, [] => True
  | t, step :: steps => t.PutsSucceed step.1 step.2 ∧ (t.nextChunk step).AllPutsSucceed steps

theorem allPutsSucceed_append {steps : List (Env × WriteChunkRequest)} {step : Env × WriteChunkRequest} :
    t.AllPutsSucceed (steps ++ [step]) ↔ t.AllPutsSucceed steps ∧ (t.chunkRun steps).PutsSucceed step.1 step.2 := by
  induction steps generalizing t with
  | nil => simp [AllPutsSucceed, chunkRun]
  | cons first rest ih =>
      rw [List.cons_append, AllPutsSucceed, ih, AllPutsSucceed, and_assoc]
      rfl

/-! ## One request -/

/-- The answer to a chunk. -/
def chunkStatus (env : Env) (req : WriteChunkRequest) (t : MetadataState (Recorded ν)) : Except Exn ClientStatus :=
  ((t.entered env).writeChunk env req).1

/-- The response to the client. -/
def chunkResponse (req : WriteChunkRequest) (status : ClientStatus) : NodeId × Frame :=
  (req.context.sender.id,
    ClientProtocol.encodeWriteChunkResponse req.context.requestId { chunkIndex := req.chunkIndex, status, context := req.context })

/-- The two `PUT`s for a chunk. -/
def chunkPuts (req : WriteChunkRequest) (write : PendingWrite) : List (NodeId × Frame) :=
  let frame := StorageProtocol.encodePutRequest req.context.requestId (putOf req write)
  [(write.replicas.1, frame), (write.replicas.2, frame)]

/-- A request that is not due is refused, and there is no session afterwards. -/
structure Refused (req : WriteChunkRequest) (t t' : MetadataState (Recorded ν)) (status : Except Exn ClientStatus) : Prop where
  status : status = .ok .inputError
  closed : t'.worker.findWrite req.context = none
  data : t'.worker.store.data = t.worker.store.data
  tree : t'.worker.store.disk.tree = t.worker.store.disk.tree
  sent : t'.network.sent = t.network.sent ++ [chunkResponse req .inputError]

theorem nextChunk_refused (early : ∀ write, t.worker.findWrite req.context = some write → ¬ write.Due req) :
    Refused req t (t.nextChunk (env, req)) (t.chunkStatus env req) := by
  have result : ∃ w, (t.entered env).writeChunk env req = (.ok .inputError, { t with worker := w }) ∧
      w.store = (t.entered env).worker.store ∧ w.findWrite req.context = none := by
    have gone : ∀ w : MetadataWorker, (w.discardWrite req.context).findWrite req.context = none := fun w => by
      rw [findWrite, discardWrite, Nested.find_discard, if_pos ⟨rfl, rfl⟩]
    unfold writeChunk
    split
    · rename_i missing
      exact ⟨_, rfl, rfl, missing⟩
    rename_i write found
    split
    · exact ⟨_, rfl, rfl, gone _⟩
    rename_i turn
    split
    · exact ⟨_, rfl, rfl, gone _⟩
    · rename_i sized
      exact absurd (due_of_checks turn sized) (early write found)
  obtain ⟨w, refused, store, closed⟩ := result
  have next : t.nextChunk (env, req) = { t with worker := w }.send req.context.sender.id (chunkResponse req .inputError).2 := by
    change (MetadataState.handleWriteChunk env req (t.entered env)).2 = _
    rw [handleWriteChunk, refused]
    rfl
  have data := congrArg MetadataStore.data store
  have tree := congrArg (fun s : MetadataStore => s.disk.tree) store
  rw [chunkStatus, refused, next]
  exact ⟨rfl, closed, data, tree, rfl⟩

/-- A due chunk reaches both replicas; what follows is up to `acceptChunk`. -/
theorem nextChunk_due (found : t.worker.findWrite req.context = some write) (due : write.Due req)
    (succeed : t.PutsSucceed env req) :
    ∃ u : MetadataState (Recorded ν), SameTables (t.entered env).worker u.worker ∧
      u.network.sent = t.network.sent ++ chunkPuts req write ∧
      t.chunkStatus env req = .ok (u.acceptChunk env req write).1 ∧
      t.nextChunk (env, req) = (u.acceptChunk env req write).2.send req.context.sender.id
        (chunkResponse req (u.acceptChunk env req write).1).2 := by
  have answers := succeed write found due
  have silent : ∀ (v : MetadataState (Recorded ν)) (replica : NodeId), (v.awaitPut req replica).2.network.sent = v.network.sent :=
    fun v replica => by rw [awaitPut_behind]; rfl
  rcases waited : ((t.entered env).putsSent req write).awaitPuts req write.replicas with ⟨r, u⟩
  rw [waited] at answers
  have there : (t.entered env).worker.findWrite req.context = some write := found
  have written := @writeChunk_due _ _ _ env _ _ there due
  rw [waited] at written
  dsimp only at answers
  rw [answers] at written
  have quiet : u.network.sent = ((t.entered env).putsSent req write).network.sent := by
    unfold awaitPuts at waited
    have first := silent ((t.entered env).putsSent req write) write.replicas.1
    split at waited
    · rename_i asked
      cases waited
      rwa [asked] at first
    · rename_i v asked
      rw [asked] at first
      have second := silent v write.replicas.2
      split at waited <;> rename_i asked' <;> cases waited <;> rw [asked'] at second <;> exact second.trans first
  have same := awaitPuts_same waited
  refine ⟨u, same, ?_, ?_, ?_⟩
  · rw [quiet]
    exact List.append_assoc _ _ _
  · rw [chunkStatus, written]
  · change (MetadataState.handleWriteChunk env req (t.entered env)).2 = _
    rw [handleWriteChunk, written]
    rfl

/-! ## A whole session -/

/-- The record that the last chunk writes. -/
def recordOf (session : PendingWrite) : FileMetadata :=
  { path := session.path, size := session.fileSize, objId := session.objectId, replicaLocations := session.replicas }

/-- The update of the record with the last chunk. -/
def recorded (session : PendingWrite) (env : Env) (t : MetadataState (Recorded ν)) :
    Except MetadataStoreError Unit × MetadataStore :=
  (t.entered env).worker.store.updateMetadata env.now session.path (recordOf session)

/-- Chunk `i` is sent to both replicas. It is answered `Success`, except that the answer to the
last one is that of the update of the record. -/
structure Taken (session : PendingWrite) (i : Nat) (env : Env) (req : WriteChunkRequest) (t t' : MetadataState (Recorded ν))
    (status : ClientStatus) : Prop where
  sent : t'.network.sent = t.network.sent ++ chunkPuts req session ++ [chunkResponse req status]
  final : (putOf req session).finalChunk = decide (i + 1 = session.chunkCount.toNat)
  more : i + 1 < session.chunkCount.toNat → status = .success ∧ t'.worker.store.data = t.worker.store.data ∧
    t'.worker.findWrite req.context = some (session.after (i + 1))
  last : i + 1 = session.chunkCount.toNat → status = getClientStatus (recorded session env t).1 ∧
    t'.worker.store = (recorded session env t).2 ∧ t'.worker.findWrite req.context = none

theorem nextChunk_taken {session : PendingWrite} {i : Nat} (sized : chunksOf session.fileSize = session.chunkCount.toUInt64)
    (found : t.worker.findWrite req.context = some (session.after i))
    (order : InOrder session.fileSize session.chunkCount i req) (succeed : t.PutsSucceed env req) :
    ∃ status, t.chunkStatus env req = .ok status ∧ Taken session i env req t (t.nextChunk (env, req)) status := by
  have below := order.below
  have small : (UInt32.ofNat i).toNat = i := by
    rw [UInt32.toNat_ofNat', Nat.mod_eq_of_lt (Nat.lt_trans below session.chunkCount.toNat_lt)]
  have index : req.chunkIndex = UInt32.ofNat i := UInt32.toNat_inj.1 (order.index.trans small.symm)
  have next : (UInt32.ofNat i + 1).toNat = i + 1 := by
    have inside : UInt32.ofNat i < session.chunkCount := by rwa [UInt32.lt_iff_toNat_lt, small]
    rw [(chunkExact_of_below sized inside).next, small]
  have end_ : UInt32.ofNat i + 1 = session.chunkCount ↔ i + 1 = session.chunkCount.toNat := by
    rw [← UInt32.toNat_inj, next]
  obtain ⟨u, same, sent, answered, moved⟩ := nextChunk_due found ((PendingWrite.due_after sized below).2 order) succeed
  refine ⟨_, answered, ?_, ?_, fun part => ?_, fun last => ?_⟩
  · have network : (u.acceptChunk env req (session.after i)).2.network = u.network := acceptChunk_network rfl
    rw [moved]
    change (u.acceptChunk env req (session.after i)).2.network.sent ++ [_] = _
    rw [network, sent]
    rfl
  · rw [putOf, index]
    exact decide_eq_decide.2 end_
  · have accepted : u.acceptChunk env req (session.after i) =
        (.success, { u with worker := u.worker.putWrite req.context (session.after (i + 1)) }) := by
      rw [acceptChunk]
      dsimp only
      rw [if_pos]
      · have counted : UInt32.ofNat i + 1 = UInt32.ofNat (i + 1) := by
          rw [← UInt32.toNat_inj, next, UInt32.toNat_ofNat', Nat.mod_eq_of_lt (Nat.lt_trans part session.chunkCount.toNat_lt)]
        rw [PendingWrite.after, PendingWrite.after, counted]
      · intro reached
        exact absurd (end_.1 reached) (by omega)
    rw [moved, accepted]
    refine ⟨rfl, ?_, ?_⟩
    · have data := congrArg MetadataStore.data same.store
      exact data
    · show (u.worker.putWrite req.context (session.after (i + 1))).findWrite req.context = _
      rw [findWrite, putWrite, Nested.find_put, if_pos ⟨rfl, rfl⟩]
  · have accepted : u.acceptChunk env req (session.after i) =
        (getClientStatus (recorded session env t).1,
          { u with worker := { u.worker with store := (recorded session env t).2 }.discardWrite req.context }) := by
      rw [acceptChunk]
      dsimp only
      rw [if_neg (show ¬ ((session.after i).nextChunk + 1 ≠ (session.after i).chunkCount) from not_not.2 (end_.2 last)),
        onStore, same.store]
      rfl
    rw [moved, accepted]
    refine ⟨rfl, rfl, ?_⟩
    show ({ u.worker with store := (recorded session env t).2 }.discardWrite req.context).findWrite req.context = none
    rw [findWrite, discardWrite, Nested.find_discard, if_pos ⟨rfl, rfl⟩]

/-- Where the session stands after some requests. -/
structure Stands (context : RequestContext) (session : PendingWrite) (reqs : List WriteChunkRequest)
    (t : MetadataState (Recorded ν)) : Prop where
  opened : Conforms session.fileSize session.chunkCount reqs → reqs.length < session.chunkCount.toNat →
    t.worker.findWrite context = some (session.after reqs.length)
  closed : ¬ (Conforms session.fileSize session.chunkCount reqs ∧ reqs.length < session.chunkCount.toNat) →
    t.worker.findWrite context = none

/-- What becomes of a request that comes behind the requests `before`. -/
structure ChunkLaw (session : PendingWrite) (before : List WriteChunkRequest) (env : Env) (req : WriteChunkRequest)
    (t : MetadataState (Recorded ν)) : Prop where
  accepted : Conforms session.fileSize session.chunkCount (before ++ [req]) →
    ∃ status, t.chunkStatus env req = .ok status ∧ Taken session before.length env req t (t.nextChunk (env, req)) status
  refused : ¬ Conforms session.fileSize session.chunkCount (before ++ [req]) →
    Refused req t (t.nextChunk (env, req)) (t.chunkStatus env req)

omit [Network ν] in
/-- Either the path has the record of the session, or the data are as before. -/
theorem Taken.record {session : PendingWrite} {i : Nat} {status : ClientStatus} (taken : Taken session i env req t t' status)
    (last : i + 1 = session.chunkCount.toNat) :
    (status = .success ∧ ∃ m, (recordOf session).SameObject m ∧
        t'.worker.store.data = t.worker.store.data.insert (MetadataStore.key session.path) m) ∨
      (status ≠ .success ∧ t'.worker.store.data = t.worker.store.data) := by
  obtain ⟨answer, store, -⟩ := taken.last last
  rcases updated : recorded session env t with ⟨r, s'⟩
  have law := MetadataStore.updateMetadata_data updated
  rw [updated] at answer store
  rw [store]
  cases r with
  | ok =>
      obtain ⟨-, m, same, data⟩ := law.2 rfl
      exact .inl ⟨answer, m, same, data⟩
  | error e =>
      refine .inr ⟨?_, law.1 e rfl⟩
      rw [answer]
      exact getClientStatus_error e

theorem Stands.chunk {session : PendingWrite} {before : List WriteChunkRequest}
    (sized : chunksOf session.fileSize = session.chunkCount.toUInt64) (stands : Stands req.context session before t)
    (succeed : t.PutsSucceed env req) :
    ChunkLaw session before env req t ∧ Stands req.context session (before ++ [req]) (t.nextChunk (env, req)) := by
  by_cases conforms : Conforms session.fileSize session.chunkCount (before ++ [req])
  · obtain ⟨front, order⟩ := conforms_append.1 conforms
    obtain ⟨status, answered, taken⟩ := nextChunk_taken sized (stands.opened front order.below) order succeed
    refine ⟨⟨fun _ => ⟨status, answered, taken⟩, fun deviates => absurd conforms deviates⟩, fun _ part => ?_, fun done => ?_⟩
    · rw [List.length_append, List.length_singleton] at part ⊢
      exact (taken.more part).2.2
    · have limit := conforms.length_le
      have all : before.length + 1 = session.chunkCount.toNat := by
        have reached := Nat.not_lt.1 fun part => done ⟨conforms, part⟩
        rw [List.length_append, List.length_singleton] at reached limit
        omega
      exact (taken.last all).2.2
  · have early : ∀ write, t.worker.findWrite req.context = some write → ¬ write.Due req := by
      intro write found due
      by_cases open_ : Conforms session.fileSize session.chunkCount before ∧ before.length < session.chunkCount.toNat
      · cases (stands.opened open_.1 open_.2).symm.trans found
        exact conforms (conforms_append.2 ⟨open_.1, (PendingWrite.due_after sized open_.2).1 due⟩)
      · cases (stands.closed open_).symm.trans found
    have refused : Refused req t (t.nextChunk (env, req)) (t.chunkStatus env req) := nextChunk_refused early
    exact ⟨⟨fun conforms' => absurd conforms' conforms, fun _ => refused⟩, fun conforms' => absurd conforms' conforms,
      fun _ => refused.closed⟩

theorem Stands.run {context : RequestContext} {session : PendingWrite} {steps : List (Env × WriteChunkRequest)}
    (sized : chunksOf session.fileSize = session.chunkCount.toUInt64) (stands : Stands context session [] t)
    (own : ∀ step ∈ steps, step.2.context = context) (succeed : t.AllPutsSucceed steps) :
    Stands context session (steps.map (·.2)) (t.chunkRun steps) := by
  induction steps using List.reverseRecOn with
  | nil => exact stands
  | append_singleton front last ih =>
      obtain ⟨succeed', here⟩ := allPutsSucceed_append.1 succeed
      have before := ih (fun step mem => own step (List.mem_append_left _ mem)) succeed'
      have context_eq : last.2.context = context := own last (by simp)
      subst context_eq
      rw [List.map_append, chunkRun, List.foldl_append]
      exact (before.chunk sized here).2

/-- The session that a successful `WriteFile` opens. -/
theorem writeFile_opens {req : WriteFileRequest} (opened : ((t.entered env).writeFile env req).1 = .success)
    (chunks : req.chunkCount ≠ 0) :
    chunksOf req.fileSize = req.chunkCount.toUInt64 ∧ ∃ objectId replicas,
      (t.handle env (.writeFile req)).2.worker.findWrite req.context = some (sessionOf req objectId replicas) := by
  rcases written : (t.entered env).writeFile env req with ⟨status, t₁⟩
  rw [written] at opened
  dsimp only at opened
  subst opened
  have next : (t.handle env (.writeFile req)).2.worker = t₁.worker := by
    change (MetadataState.handleWriteFile env req (t.entered env)).worker = _
    rw [handleWriteFile, written]
    rfl
  have found : ∀ objectId replicas, t₁.worker.pendingWrites =
      ((t.entered env).worker.putWrite req.context (sessionOf req objectId replicas)).pendingWrites →
      (t.handle env (.writeFile req)).2.worker.findWrite req.context = some (sessionOf req objectId replicas) := by
    intro objectId replicas writes
    rw [next, findWrite, writes, putWrite, Nested.find_put, if_pos ⟨rfl, rfl⟩]
  cases (writeFile_step written).2.2 with
  | refused _ bad data writes => exact absurd rfl bad
  | emptied m m' target none objId replicas size data writes => exact absurd none chunks
  | opened m target count sized bound data free writes => exact ⟨sized, _, _, found _ _ writes⟩
  | bound _ m m' target count sized unbound selected objId size data writes =>
      rcases writes with ⟨bad, -⟩ | ⟨-, -, writes⟩
      · exact absurd rfl bad
      · exact ⟨sized, _, _, found _ _ writes⟩

/-- What becomes of every request of a session that `WriteFile` opens. When all its chunks are
taken, they are the file, and the record is that of the session or as it was. -/
theorem session_partitions {t : MetadataState (Recorded ν)} {env : Env} {req : WriteFileRequest}
    (opened : ((t.entered env).writeFile env req).1 = .success) (chunks : req.chunkCount ≠ 0)
    (before : List (Env × WriteChunkRequest)) (env' : Env) (chunk : WriteChunkRequest)
    (own : ∀ step ∈ before ++ [(env', chunk)], step.2.context = req.context)
    (succeed : (t.handle env (.writeFile req)).2.AllPutsSucceed (before ++ [(env', chunk)])) :
    ∃ objectId replicas, let session := sessionOf req objectId replicas
      let here := (t.handle env (.writeFile req)).2.chunkRun before
      (t.handle env (.writeFile req)).2.worker.findWrite req.context = some session ∧
      ChunkLaw session (before.map (·.2)) env' chunk here ∧
      (Conforms req.fileSize req.chunkCount (before.map (·.2) ++ [chunk]) → before.length + 1 = req.chunkCount.toNat →
        ((before.map (·.2) ++ [chunk]).map fun chunk => chunk.data.length).sum = req.fileSize.toNat ∧
        ((here.chunkStatus env' chunk = .ok .success ∧ ∃ m, (recordOf session).SameObject m ∧
            (here.nextChunk (env', chunk)).worker.store.data =
              here.worker.store.data.insert (MetadataStore.key req.path) m) ∨
          ((∃ status, here.chunkStatus env' chunk = .ok status ∧ status ≠ .success) ∧
            (here.nextChunk (env', chunk)).worker.store.data = here.worker.store.data))) := by
  obtain ⟨sized, objectId, replicas, found⟩ := writeFile_opens opened chunks
  have positive : 0 < req.chunkCount.toNat := Nat.pos_of_ne_zero fun none => chunks (UInt32.toNat_inj.1 none)
  have first : Stands req.context (sessionOf req objectId replicas) [] (t.handle env (.writeFile req)).2 :=
    ⟨fun _ _ => found, fun shut => absurd ⟨conforms_nil, positive⟩ shut⟩
  obtain ⟨succeed', here⟩ := allPutsSucceed_append.1 succeed
  have stands := first.run sized (fun step mem => own step (List.mem_append_left _ mem)) succeed'
  have context : chunk.context = req.context := own (env', chunk) (by simp)
  rw [← context] at stands
  obtain ⟨law, -⟩ := stands.chunk sized here
  refine ⟨objectId, replicas, found, law, fun conforms all => ?_⟩
  constructor
  · refine conforms.whole sized ?_
    rw [List.length_append, List.length_map, List.length_singleton]
    exact all
  · obtain ⟨status, answered, taken⟩ := law.accepted conforms
    have last : (before.map (·.2)).length + 1 = req.chunkCount.toNat := by rwa [List.length_map]
    rcases taken.record last with ⟨success, record⟩ | ⟨failed, data⟩
    · exact .inl ⟨success ▸ answered, record⟩
    · exact .inr ⟨⟨status, answered, failed⟩, data⟩

/-- The answers of both nodes to `PUT`. -/
def bothAnswer (node : NodeId) : Message :=
  (StorageProtocol.encodePutResponse 1 { chunkIndex := 0, sizeAvailable := 9, status := .success }).from ⟨node, .storage⟩

/-- Both nodes will answer `PUT` with `Success`. -/
def beforeReplies : MetadataState (Recorded Inbox) :=
  { worker := twoNodes, network := { network := ⟨[bothAnswer [97], bothAnswer [98]]⟩, sent := [] } }

/-- The session for the one byte is open, and both nodes will take it. -/
def beforeTheByte : MetadataState (Recorded Inbox) := (beforeReplies.handle { first := 7 } (.writeFile oneByte)).2

/-- The first call for the file of the record fails. -/
def ioError : Env := { outcomes := [{ error := some .ioError }] }

theorem beforeReplies_opens : ((beforeReplies.entered { first := 7 }).writeFile { first := 7 } oneByte).1 = .success := by
  decide +kernel

theorem beforeTheByte_puts {env : Env} (known : env = {} ∨ env = ioError) : beforeTheByte.PutsSucceed env theByte := by
  intro write found due
  have session : beforeTheByte.worker.findWrite theByte.context =
      some (MetadataWorker.sessionOf oneByte (Env.objectId { first := 7 }) ([97], [98])) := by decide +kernel
  cases session.symm.trans found
  rcases known with rfl | rfl
  · decide +kernel
  · decide +kernel

/-- The byte is all of the file and both nodes have it, but its record cannot be written. -/
theorem theByte_unrecorded :
    ((beforeReplies.entered { first := 7 }).writeFile { first := 7 } oneByte).1 = .success ∧
      beforeTheByte.AllPutsSucceed [(ioError, theByte)] ∧ Conforms oneByte.fileSize oneByte.chunkCount [theByte] ∧
      beforeTheByte.chunkStatus ioError theByte = .ok .serverError := by
  refine ⟨beforeReplies_opens, ⟨beforeTheByte_puts (.inr rfl), trivial⟩, ?_, by decide +kernel⟩
  refine conforms_append.2 ⟨conforms_nil, ?_⟩
  constructor
  · rfl
  · decide
  · decide

theorem session_partitions_oneByte :
    ∃ objectId replicas, let session := MetadataWorker.sessionOf oneByte objectId replicas
      beforeTheByte.worker.findWrite oneByte.context = some session ∧ ChunkLaw session [] {} theByte beforeTheByte := by
  obtain ⟨objectId, replicas, found, law, -⟩ := session_partitions beforeReplies_opens (by decide) [] {} theByte
    (by decide) ⟨beforeTheByte_puts (.inl rfl), trivial⟩
  exact ⟨objectId, replicas, found, law⟩

end MetadataState

end Dfs
