import Dfs.Metadata.Partition
import Dfs.Storage.Isolation
import Dfs.System.Snapshots

/-!
# Uploads that are acknowledged

A chunk is answered `Success` only after both replicas have acknowledged it, and a node acknowledges a chunk only on top
of all the chunks before it. So, whatever fails on the way, a file whose last chunk is answered `Success` is on both of
its replicas.
-/

namespace Dfs

open Lib

/-! ## One storage node -/

/-- The job leaves the object and the upload to it alone. -/
def Avoids (x : Bytes) (event : StorageEvent) : Prop := ∀ w, StorageWorker.Untouched x w (StorageWorker.handle event w).2

/-- Where the node counts `n` chunks of the upload to `x` it has their bytes `p`. -/
def Grown (x : Bytes) (n : UInt32) (p : Bytes) (w : StorageWorker) : Prop :=
  n ≠ 0 → w.nextChunks.lookup x = some n → w.pending x = some p

/-- What the node has when it has put a chunk behind the bytes `p`. -/
def Made (put : PutRequest) (p : Bytes) (w : StorageWorker) : Prop :=
  if put.finalChunk then w.committed put.objectId = some (p ++ put.data)
  else Grown put.objectId (put.chunkIndex + 1) (p ++ put.data) w

/-- What only depends on the object `x` and outlives the process. -/
structure Persistent (x : Bytes) (W : StorageWorker → Prop) : Prop where
  untouched : ∀ w w', StorageWorker.Untouched x w w' → W w → W w'
  restart : ∀ w, W w → W w.restart

theorem Persistent.outcomes {x : Bytes} {W : StorageWorker → Prop} {w : StorageWorker} (persistent : Persistent x W)
    (holds : W w) (outcomes : List Outcome) : W { w with disk := w.disk.withOutcomes outcomes } :=
  persistent.untouched w _ ⟨rfl, rfl, rfl⟩ holds

section Worker

variable {x p : Bytes} {n : UInt32} {event : StorageEvent} {put : PutRequest} {w w' : StorageWorker} {status : StorageStatus}

theorem Avoids.spares (avoids : Avoids x event) : Spares x event := fun w => (avoids w).1

theorem Generated.apart {a b : Bytes} (first : Generated a) (second : Generated b) : StorageWorker.Apart a b := by
  have suffixed : ∀ {c : Bytes}, PosixPath.dot ∈ c ++ StorageWorker.tmpSuffix := fun {c} =>
    List.mem_append_right c List.mem_cons_self
  exact ⟨fun same => first.plain (same ▸ suffixed), fun same => second.plain (same ▸ suffixed)⟩

theorem avoids_other (generated : Generated x) (generated' : Generated event.objectId) (other : event.objectId ≠ x) :
    Avoids x event := fun w =>
  (generated'.apart generated).isolated other w event w.disk.outcomes rfl

theorem avoids_get (x : Bytes) (get : GetRequest) : Avoids x (.get get) := by
  intro w
  rcases got : w.handleGet get with ⟨response, w'⟩
  obtain ⟨next, tree, -⟩ := StorageWorker.handleGet_step got
  simp only [StorageWorker.handle, got, StorageWorker.Untouched, StorageWorker.committed, StorageWorker.pending, next, tree,
    and_self]

theorem grown_persistent : Persistent x (Grown x n p) where
  untouched _ _ same grown some counted := by
    obtain ⟨-, pending, next⟩ := same
    rw [pending]
    exact grown some (next ▸ counted)
  restart _ _ _ counted := by simp [StorageWorker.restart] at counted

theorem committed_persistent : Persistent x fun w => w.committed x = some p where
  untouched _ _ same whole := same.1.trans whole
  restart _ whole := whole

theorem made_persistent : Persistent put.objectId (Made put p) := by
  unfold Made
  split
  · exact committed_persistent
  · exact grown_persistent

/-- A `PUT` that succeeds has put its chunk behind the ones before. -/
theorem put_made (step : StorageWorker.PutStep w put w' .success) (first : put.chunkIndex = 0 → p = [])
    (grown : Grown put.objectId put.chunkIndex p w) : Made put p w' := by
  have base : (put.chunkIndex = 0 ∨ w.nextChunks.lookup put.objectId = some put.chunkIndex) → w.base put = p := by
    intro due
    rw [StorageWorker.base]
    split
    · rename_i zero
      exact (first zero).symm
    · rename_i later
      rw [grown later (due.resolve_left later), Option.getD_some]
  cases step with
  | failed _ bad => exact absurd rfl bad
  | more part due next grown' kept =>
      rw [Made, part, if_neg Bool.false_ne_true, ← base due]
      exact fun _ _ => grown'
  | commit last due next moved whole =>
      rw [Made, last, if_pos rfl, ← base due]
      exact whole

end Worker

namespace Cluster

variable {c c' base : Cluster} {asker : NodeIdentity} {node : NodeId} {x p : Bytes} {W : StorageWorker → Prop} {frame : Frame}
  {tag : Nat} {put : PutRequest}

/-! ## A node that nobody asks for the object -/

/-- `W` holds of the node's worker, and no request that waits for it is about `x`. -/
structure Untroubled (asker : NodeIdentity) (x : Bytes) (W : StorageWorker → Prop) (peer : Peer) (_ : List (Nat × Message)) :
    Prop where
  worker : W peer.worker
  inbox : ∀ e ∈ peer.inbox, ∀ event, StorageEvent.of (e.2.from asker) = .ok event → Avoids x event

/-- A storage node that gets the frame leaves the object and the upload to it alone. -/
def Avoiding (asker : NodeIdentity) (x : Bytes) (frame : Frame) : Prop :=
  ∀ event, StorageEvent.of (frame.from asker) = .ok event → Avoids x event

theorem untroubled_lasting (persistent : Persistent x W) : Lasting asker node (Untroubled asker x W) where
  serve outcomes peer q untroubled := by
    rw [Cluster.serve]
    split
    · exact untroubled
    rename_i tag frame inbox waiting
    have rest : ∀ e ∈ inbox, Avoiding asker x e.2 := fun e mem => untroubled.inbox e (waiting ▸ List.mem_cons_of_mem _ mem)
    split
    · exact ⟨persistent.restart _ untroubled.worker, rest⟩
    · rename_i event read
      exact ⟨persistent.untouched _ _ (untroubled.inbox (tag, frame) (waiting ▸ List.mem_cons_self) event read _)
        (persistent.outcomes untroubled.worker outcomes), rest⟩
  forge frame peer q untroubled := by
    rw [Cluster.forge]
    split
    · exact untroubled
    · rename_i tag request inbox waiting
      exact ⟨untroubled.worker, fun e mem => untroubled.inbox e (waiting ▸ List.mem_cons_of_mem _ mem)⟩
  restart peer q untroubled := ⟨persistent.restart _ untroubled.worker, untroubled.inbox⟩
  deliver peer tag frame rest q untroubled _ := ⟨untroubled.worker, untroubled.inbox⟩
  loseRequest index peer q untroubled :=
    ⟨untroubled.worker, fun e mem => untroubled.inbox e (List.mem_of_mem_eraseIdx mem)⟩
  loseReply index peer q untroubled := ⟨untroubled.worker, untroubled.inbox⟩

theorem untroubled_send {n : NodeId} (avoiding : Avoiding asker x frame) (h : c.At node (Untroubled asker x W)) :
    (c.send n frame).At node (Untroubled asker x W) := by
  by_cases here : n = node
  · subst here
    refine at_send_self h fun peer q untroubled => ⟨untroubled.worker, fun e mem => ?_⟩
    rcases List.mem_append.1 mem with old | new
    · exact untroubled.inbox e old
    · rw [List.mem_singleton.1 new]
      exact avoiding
  · exact at_send h here

theorem untroubled_take {f : Message → Bool} (h : c.At node (Untroubled asker x W)) :
    (c.take f).2.At node (Untroubled asker x W) := by
  obtain ⟨peer, found, untroubled⟩ := h
  refine ⟨peer, ?_, untroubled.worker, untroubled.inbox⟩
  unfold take
  split <;> exact found

theorem untroubled_await (persistent : Persistent x W) (h : c.At node (Untroubled c.self x W)) :
    c.await.At node (Untroubled c.self x W) :=
  (untroubled_lasting persistent).acts (c := { c with script := c.script.tail }) rfl _ h

theorem untroubled_used (persistent : Persistent x W) (used : Network.Used (Avoiding c.self x) c c')
    (h : c.At node (Untroubled c.self x W)) : c'.self = c.self ∧ c'.At node (Untroubled c.self x W) := by
  refine used.keeps (P := fun n => n.self = c.self ∧ n.At node (Untroubled c.self x W))
    (fun n other frame holds avoiding => ?_) (fun n timeout f holds => ?_) ⟨rfl, h⟩
  · exact ⟨send_self.trans holds.1, untroubled_send avoiding holds.2⟩
  · obtain ⟨self, there⟩ := holds
    rw [← self] at there ⊢
    exact ⟨take_self.trans (await_self n), untroubled_take (untroubled_await persistent there)⟩

/-! ## A chunk on its way to a node -/

/-- The reply says that the chunk has been stored only if it has. -/
def Acknowledges (put : PutRequest) (p : Bytes) (w : StorageWorker) (reply : Frame) : Prop :=
  ∃ id response, reply = StorageProtocol.encodePutResponse id response ∧ (response.status = .success → Made put p w)

/-- How far the `PUT` with the number has come, which is the only request about its object. -/
structure Putting (asker : NodeIdentity) (node : NodeId) (put : PutRequest) (p : Bytes) (tag : Nat) (frame : Frame) (peer : Peer)
    (q : List (Nat × Message)) : Prop where
  single : Single tag frame peer q
  others : ∀ e ∈ peer.inbox, e.1 ≠ tag → Avoiding asker put.objectId e.2
  waiting : (∃ e ∈ peer.inbox, e.1 = tag) → Grown put.objectId put.chunkIndex p peer.worker
  outbox : ∀ e ∈ peer.outbox, e.1 = tag → Acknowledges put p peer.worker e.2
  queue : ∀ e ∈ q, e.1 = tag → ∃ reply, e.2 = reply.from ⟨node, .storage⟩ ∧ Acknowledges put p peer.worker reply

theorem Acknowledges.untouched {w w' : StorageWorker} (h : Acknowledges put p w frame) (same : Made put p w → Made put p w') :
    Acknowledges put p w' frame := by
  obtain ⟨id, response, rfl, made⟩ := h
  exact ⟨id, response, rfl, fun success => same (made success)⟩

/-- Something that has nothing to do with the chunk has happened to the worker. -/
theorem Putting.other {peer : Peer} {q : List (Nat × Message)} {w : StorageWorker} {inbox outbox : List (Nat × Frame)}
    (putting : Putting asker node put p tag frame peer q)
    (grown : Grown put.objectId put.chunkIndex p peer.worker → Grown put.objectId put.chunkIndex p w)
    (made : Made put p peer.worker → Made put p w) (single : Single tag frame { worker := w, inbox, outbox } q)
    (fewer : inbox ⊆ peer.inbox) (replies : ∀ e ∈ outbox, e.1 = tag → e ∈ peer.outbox) :
    Putting asker node put p tag frame { worker := w, inbox, outbox } q where
  single := single
  others e mem := putting.others e (fewer mem)
  waiting := fun ⟨e, mem, same⟩ => grown (putting.waiting ⟨e, fewer mem, same⟩)
  outbox e mem same := (putting.outbox e (replies e mem same) same).untouched made
  queue e mem same := by
    obtain ⟨reply, from_, acknowledges⟩ := putting.queue e mem same
    exact ⟨reply, from_, acknowledges.untouched made⟩

theorem Single.alone {peer : Peer} {q : List (Nat × Message)} {f : Frame} {inbox : List (Nat × Frame)}
    (single : Single tag frame peer q) (first : peer.inbox = (tag, f) :: inbox) :
    (∀ e ∈ inbox, e.1 ≠ tag) ∧ (∀ e ∈ peer.outbox, e.1 ≠ tag) ∧ ∀ e ∈ q, e.1 ≠ tag := by
  have once := single.once
  rw [first, List.countP_cons_of_pos (by simp)] at once
  have none : ∀ {α : Type} {l : List (Nat × α)}, l.countP (fun e => decide (e.1 = tag)) = 0 → ∀ e ∈ l, e.1 ≠ tag := by
    intro α l zero e mem same
    exact List.countP_eq_zero.1 zero e mem (decide_eq_true same)
  exact ⟨none (by omega), none (by omega), none (by omega)⟩

theorem putting_truthful (read : StorageEvent.of (frame.from asker) = .ok (.put put)) (first : put.chunkIndex = 0 → p = []) :
    Truthful asker node (Putting asker node put p tag frame) where
  serve outcomes peer q putting := by
    have lasting : Lasting asker node (Single tag frame) := single_lasting
    have single := lasting.serve outcomes peer q putting.single
    rw [Cluster.serve] at single ⊢
    split at single
    · exact putting
    rename_i n f inbox waiting
    have rest : inbox ⊆ peer.inbox := by
      rw [waiting]
      exact List.subset_cons_self _ _
    by_cases here : n = tag
    · subst here
      cases putting.single.request (n, f) (waiting ▸ List.mem_cons_self) rfl
      obtain ⟨inbox', outbox, queue⟩ := putting.single.alone waiting
      have grown := putting.waiting ⟨_, waiting ▸ List.mem_cons_self, rfl⟩
      simp only [read] at single ⊢
      let w : StorageWorker := { peer.worker with disk := peer.worker.disk.withOutcomes outcomes }
      rcases handled : w.handlePut put with ⟨response, w'⟩
      obtain ⟨-, step, -⟩ := StorageWorker.handlePut_step handled
      have answer : StorageWorker.handle (.put put) w =
          (StorageProtocol.encodePutResponse put.context.requestId response, w') := by rw [StorageWorker.handle, handled]
      change Single n f { worker := (StorageWorker.handle (.put put) w).2, inbox,
                          outbox := peer.outbox ++ [(n, (StorageWorker.handle (.put put) w).1)] } q at single
      change Putting asker node put p n f { worker := (StorageWorker.handle (.put put) w).2, inbox,
                                            outbox := peer.outbox ++ [(n, (StorageWorker.handle (.put put) w).1)] } q
      rw [answer] at single ⊢
      refine ⟨single, fun e mem => putting.others e (rest mem),
        fun there => there.elim fun e both => absurd both.2 (inbox' e both.1), fun e mem same => ?_, fun e mem same => absurd same (queue e mem)⟩
      rcases List.mem_append.1 mem with old | new
      · exact absurd same (outbox e old)
      · rw [List.mem_singleton.1 new]
        refine ⟨_, response, rfl, fun success => ?_⟩
        rw [success] at step
        exact put_made step first (grown_persistent.outcomes grown outcomes)
    · split at single
      · exact putting.other (grown_persistent.restart _) (made_persistent.restart _) single rest fun e mem _ => mem
      · rename_i event other
        have same := putting.others (n, f) (waiting ▸ List.mem_cons_self) here event other
          { peer.worker with disk := peer.worker.disk.withOutcomes outcomes }
        refine putting.other (fun grown => grown_persistent.untouched _ _ same (grown_persistent.outcomes grown outcomes))
          (fun made => made_persistent.untouched _ _ same (made_persistent.outcomes made outcomes)) single rest
          fun e mem tagged => ?_
        rcases List.mem_append.1 mem with old | new
        · exact old
        · rw [List.mem_singleton.1 new] at tagged
          exact absurd tagged here
  restart peer q putting :=
    putting.other (grown_persistent.restart _) (made_persistent.restart _) ⟨putting.single.once, putting.single.request⟩
      (fun _ mem => mem) fun e mem _ => mem
  deliver peer n f rest q putting outbox := by
    have lasting : Lasting asker node (Single tag frame) := single_lasting
    refine ⟨lasting.deliver peer n f rest q putting.single outbox, putting.others, putting.waiting, fun e mem =>
      putting.outbox e (outbox ▸ List.mem_cons_of_mem _ mem), fun e mem same => ?_⟩
    rcases List.mem_append.1 mem with old | new
    · exact putting.queue e old same
    · rw [List.mem_singleton.1 new] at same ⊢
      exact ⟨f, rfl, putting.outbox (n, f) (outbox ▸ List.mem_cons_self) same⟩
  loseRequest index peer q putting := by
    have lasting : Lasting asker node (Single tag frame) := single_lasting
    exact putting.other id id (lasting.loseRequest index peer q putting.single) (fun _ mem => List.mem_of_mem_eraseIdx mem)
      fun e mem _ => mem
  loseReply index peer q putting := by
    have lasting : Lasting asker node (Single tag frame) := single_lasting
    exact putting.other id id (lasting.loseReply index peer q putting.single) (fun _ mem => mem)
      fun e mem _ => List.mem_of_mem_eraseIdx mem

/-- A `PUT` gets a number of its own. -/
theorem putting_sent (traced : c.Traced)
    (untroubled : c.At node (Untroubled c.self put.objectId (Grown put.objectId put.chunkIndex p))) :
    (c.send node frame).At node (Putting c.self node put p c.sent.length frame) := by
  have old : ∀ tag ∈ c.inFlight node, tag ≠ c.sent.length := fun tag mem same => by
    obtain ⟨e, asked⟩ := traced.asked mem
    rw [same, List.getElem?_eq_none (Nat.le_refl _)] at asked
    cases asked
  obtain ⟨peer, found, untroubled⟩ := untroubled
  have boxes : ∀ e, e ∈ peer.inbox ∨ e ∈ peer.outbox → e.1 ≠ c.sent.length := fun e mem =>
    old e.1 (mem_inFlight.2 (.inl ⟨peer, found, e.2, mem⟩))
  have queue : ∀ e ∈ c.held node, e.1 ≠ c.sent.length := fun e mem => by
    obtain ⟨queued, sender⟩ := List.mem_filter.1 mem
    exact old e.1 (mem_inFlight.2 (.inr ⟨e.2, queued, of_decide_eq_true sender⟩))
  have here : c.At node fun peer' q => peer' = peer ∧ q = c.held node := ⟨peer, found, rfl, rfl⟩
  refine at_send_self here fun peer' q same => ?_
  obtain ⟨rfl, rfl⟩ := same
  refine ⟨⟨?_, fun e mem same => ?_⟩, fun e mem other => ?_, fun _ => untroubled.worker, fun e mem same =>
    absurd same (boxes e (.inr mem)), fun e mem same => absurd same (queue e mem)⟩
  · have none : ∀ {α : Type} {l : List (Nat × α)}, (∀ e ∈ l, e.1 ≠ c.sent.length) →
        l.countP (fun e => decide (e.1 = c.sent.length)) = 0 := fun other =>
      List.countP_eq_zero.2 fun e mem same => other e mem (of_decide_eq_true same)
    rw [List.countP_append, none fun e mem => boxes e (.inl mem), none fun e mem => boxes e (.inr mem), none queue]
    simp
  · rcases List.mem_append.1 mem with mem | mem
    · exact absurd same (boxes e (.inl mem))
    · rw [List.mem_singleton.1 mem]
  · rcases List.mem_append.1 mem with mem | mem
    · exact untroubled.inbox e mem
    · rw [List.mem_singleton.1 mem] at other
      exact absurd rfl other

/-- Once a message with the number has come it is all that is under way with it. -/
theorem Single.received {peer : Peer} {q : List (Nat × Message)} {e : Nat × Message} (single : Single tag frame peer q)
    (mem : e ∈ q) (same : e.1 = tag) : ∀ e ∈ peer.inbox, e.1 ≠ tag := by
  have once := single.once
  have there : 0 < q.countP fun e => decide (e.1 = tag) := List.countP_pos_iff.2 ⟨e, mem, decide_eq_true same⟩
  intro e' mem' same'
  have waits : 0 < peer.inbox.countP fun e => decide (e.1 = tag) := List.countP_pos_iff.2 ⟨e', mem', decide_eq_true same'⟩
  omega

/-- What a handler takes for the reply to its `PUT` belongs to a request of its own. -/
theorem Since.recentPut {requestId : UInt64} {chunkIndex : UInt32} {m : Message} (since : Since base c)
    (clear : base.Clear node requestId chunkIndex) (queued : (tag, m) ∈ c.queue)
    (accepted : Rpc.makeMessageIs requestId StorageJob.put .response node (Rpc.matchChunk chunkIndex) m = true) :
    m.sender.id = node ∧ base.sent.length ≤ tag ∧ ∃ request, c.sent[tag]? = some (node, request) := by
  have sender : m.sender.id = node := (Rpc.makeMessageIs_type accepted).2
  obtain ⟨request, reply, asked, -⟩ := since.traced.queue _ queued
  refine ⟨sender, ?_, request, sender ▸ asked⟩
  by_contra old
  obtain ⟨request, reply, asked, answers, same⟩ := since.asked (Nat.lt_of_not_le old) queued
  rw [same] at accepted
  obtain ⟨put, read, sameId, sameChunk⟩ := answers_put answers accepted
  rcases since.flight node tag (mem_inFlight.2 (.inr ⟨m, queued, sender⟩)) with flight | recent
  · exact clear tag flight request put (sender ▸ asked) read sameId sameChunk
  · exact old recent

end Cluster

namespace System

open Cluster MetadataState MetadataStore MetadataWorker

variable {s s' : System} {base : Cluster} {req : WriteChunkRequest} {replica : NodeId} {frame : Frame} {tag : Nat}
  {put : PutRequest} {p : Bytes} {env : Env}

/-! ## Waiting for two acknowledgements -/

theorem awaitPut_stored (h : s.awaitPut req replica = (.ok true, s')) :
    s'.network = (s.network.await.take (isPutReply req replica)).2 ∧
      ∃ m response, (s.network.await.take (isPutReply req replica)).1 = some m ∧
        (Rpc.readMessage StorageJob m >>= StorageProtocol.decodePutResponse) = .ok response ∧ response.status = .success := by
  have network : (s.awaitPut req replica).2.network = (s.network.await.take (isPutReply req replica)).2 := awaitPut_behind
  rw [h] at network
  refine ⟨network, ?_⟩
  unfold awaitPut at h
  split at h
  · cases h
  rename_i message s₁ received
  split at h
  · cases h
  rename_i response read
  obtain ⟨stored, -⟩ := Prod.mk.inj h
  exact ⟨message, response, congrArg Prod.fst received, read, of_decide_eq_true (Except.ok.inj stored)⟩

/-- A chunk that is reported as stored has been stored by the node, which had all the chunks before it. -/
theorem awaitPut_made (since : Since base s.network) (clear : base.Clear replica req.context.requestId req.chunkIndex)
    (own : ∀ n f, base.sent.length ≤ n → s.network.sent[n]? = some (replica, f) → n = tag)
    (read : StorageEvent.of (frame.from s.network.self) = .ok (.put put)) (first : put.chunkIndex = 0 → p = [])
    (putting : s.network.At replica (Putting s.network.self replica put p tag frame))
    (h : s.awaitPut req replica = (.ok true, s')) :
    s'.network.At replica (Untroubled s.network.self put.objectId (Made put p)) := by
  obtain ⟨network, m, response, got, decoded, success⟩ := awaitPut_stored h
  obtain ⟨n, queued, accepted⟩ := take_found got
  obtain ⟨sender, recent, request, asked⟩ := since.await.recentPut clear queued accepted
  have sent : s.network.await.sent = s.network.sent := acts_sent _ _
  obtain rfl := own n request recent (sent ▸ asked)
  obtain ⟨peer, found, putting⟩ : s.network.await.At replica (Putting s.network.self replica put p n frame) :=
    (putting_truthful read first).acts (c := { s.network with script := s.network.script.tail }) rfl (honest_head since.script)
      putting
  have mem : (n, m) ∈ s.network.await.held replica := List.mem_filter.2 ⟨queued, decide_eq_true sender⟩
  obtain ⟨reply, same, id, response', rfl, made⟩ := putting.queue _ mem rfl
  dsimp only at same
  rw [same, StorageKind.receive_putResponse] at decoded
  cases decoded
  rw [network]
  exact untroubled_take ⟨peer, found, made success, fun e waits =>
    putting.others e waits (putting.single.received mem rfl e waits)⟩

/-- The reply of one replica says nothing about the other one. -/
theorem awaitPut_beside {node : NodeId} {r : Except Exn Bool} (since : Since base s.network) (ne : replica ≠ node)
    (read : StorageEvent.of (frame.from s.network.self) = .ok (.put put)) (first : put.chunkIndex = 0 → p = [])
    (putting : s.network.At node (Putting s.network.self node put p tag frame)) (h : s.awaitPut req replica = (r, s')) :
    s'.network.At node (Putting s.network.self node put p tag frame) := by
  have network : (s.awaitPut req replica).2.network = (s.network.await.take (isPutReply req replica)).2 := awaitPut_behind
  rw [h] at network
  have waited : s.network.await.At node (Putting s.network.self node put p tag frame) :=
    (putting_truthful read first).acts (c := { s.network with script := s.network.script.tail }) rfl (honest_head since.script)
      putting
  rw [network]
  exact at_take_other waited (fun m accepted => (Rpc.makeMessageIs_type accepted).2) ne

/-- Both replicas of a chunk that is reported as stored have it. -/
theorem awaitPuts_made {replicas : NodeId × NodeId} {first second : Nat} (since : Since base s.network)
    (clear : base.Clear replicas.1 req.context.requestId req.chunkIndex)
    (clear' : base.Clear replicas.2 req.context.requestId req.chunkIndex) (apart : replicas.1 ≠ replicas.2)
    (own : ∀ n f, base.sent.length ≤ n → s.network.sent[n]? = some (replicas.1, f) → n = first)
    (own' : ∀ n f, base.sent.length ≤ n → s.network.sent[n]? = some (replicas.2, f) → n = second)
    (read : StorageEvent.of (frame.from s.network.self) = .ok (.put put)) (empty : put.chunkIndex = 0 → p = [])
    (putting : s.network.At replicas.1 (Putting s.network.self replicas.1 put p first frame))
    (putting' : s.network.At replicas.2 (Putting s.network.self replicas.2 put p second frame))
    (h : s.awaitPuts req replicas = (.ok true, s')) :
    s'.network.self = s.network.self ∧ s'.network.At replicas.1 (Untroubled s.network.self put.objectId (Made put p)) ∧
      s'.network.At replicas.2 (Untroubled s.network.self put.objectId (Made put p)) := by
  unfold awaitPuts at h
  split at h
  · cases h
  rename_i stored s₁ waited
  split at h
  · cases h
  rename_i stored' s₂ waited'
  obtain ⟨both, rfl⟩ := Prod.mk.inj h
  simp only [Except.ok.injEq, Bool.and_eq_true] at both
  obtain ⟨rfl, rfl⟩ := both
  obtain ⟨network, -⟩ := awaitPut_stored waited
  obtain ⟨network', -⟩ := awaitPut_stored waited'
  have self : s₁.network.self = s.network.self := by rw [network, take_self, await_self]
  have since₁ : Since base s₁.network := by
    rw [network]
    exact since.receivePut storageRequestTimeout clear
  have sent : s₁.network.sent = s.network.sent := by
    rw [network]
    exact s.network.receiveIf_sent storageRequestTimeout _
  have made := awaitPut_made since clear own read empty putting waited
  have behind := awaitPut_beside since apart read empty putting' waited
  rw [← self] at read made behind ⊢
  refine ⟨by rw [network', take_self, await_self], ?_, awaitPut_made since₁ clear' (sent ▸ own') read empty behind waited'⟩
  rw [network']
  exact untroubled_take (untroubled_await made_persistent made)

/-- A chunk that is answered `Success` is on both replicas, behind all the chunks before it. -/
theorem writeChunk_made {write : PendingWrite} (collected : s.Collected) (found : s.worker.findWrite req.context = some write)
    (due : write.Due req) (generated : Generated write.objectId) (apart : write.replicas.1 ≠ write.replicas.2)
    (clear : s.network.Clear write.replicas.1 req.context.requestId req.chunkIndex)
    (clear' : s.network.Clear write.replicas.2 req.context.requestId req.chunkIndex) (empty : req.chunkIndex = 0 → p = [])
    (grown : s.network.At write.replicas.1 (Untroubled s.network.self write.objectId (Grown write.objectId req.chunkIndex p)))
    (grown' : s.network.At write.replicas.2 (Untroubled s.network.self write.objectId (Grown write.objectId req.chunkIndex p)))
    {status : ClientStatus} (h : s.writeChunk env req = (.ok status, s')) (success : status = .success) :
    s'.network.self = s.network.self ∧
      s'.network.At write.replicas.1
        (Untroubled s.network.self write.objectId (Made (MetadataState.putFor s.network.self req write) p)) ∧
      s'.network.At write.replicas.2
        (Untroubled s.network.self write.objectId (Made (MetadataState.putFor s.network.self req write) p)) := by
  have read : StorageEvent.of ((StorageProtocol.encodePutRequest req.context.requestId (putOf req write)).from s.network.self) =
      .ok (.put (MetadataState.putFor s.network.self req write)) := MetadataState.putFor_read generated due
  let frame := StorageProtocol.encodePutRequest req.context.requestId (putOf req write)
  let c₁ : Cluster := s.network.send write.replicas.1 frame
  let c₂ : Cluster := c₁.send write.replicas.2 frame
  have since₁ : Since s.network c₁ := collected.since.send
  have since₂ : Since s.network c₂ := since₁.send
  have self₁ : c₁.self = s.network.self := send_self
  have self₂ : c₂.self = s.network.self := send_self.trans self₁
  have sent₁ : c₁.sent = s.network.sent ++ [(write.replicas.1, frame)] := s.network.send_sent _ _
  have sent₂ : c₂.sent = s.network.sent ++ [(write.replicas.1, frame), (write.replicas.2, frame)] := by
    rw [show c₂.sent = c₁.sent ++ [(write.replicas.2, frame)] from c₁.send_sent _ _, sent₁, List.append_assoc]
    rfl
  -- each of the two frames has its own number and goes to one replica
  have numbers : ∀ n e, s.network.sent.length ≤ n → c₂.sent[n]? = some e →
      n = s.network.sent.length ∧ e.1 = write.replicas.1 ∨ n = c₁.sent.length ∧ e.1 = write.replicas.2 := by
    intro n e recent asked
    rw [sent₂, List.getElem?_append_right recent] at asked
    rw [sent₁, List.length_append, List.length_singleton]
    rcases behind : n - s.network.sent.length with _ | _ | more
    · rw [behind] at asked
      cases asked
      exact .inl ⟨by omega, rfl⟩
    · rw [behind] at asked
      cases asked
      exact .inr ⟨by omega, rfl⟩
    · rw [behind] at asked
      cases asked
  have putting : c₂.At write.replicas.1
      (Putting s.network.self write.replicas.1 (MetadataState.putFor s.network.self req write) p s.network.sent.length frame) :=
    at_send (putting_sent collected.traced grown) apart.symm
  have putting' : c₂.At write.replicas.2
      (Putting s.network.self write.replicas.2 (MetadataState.putFor s.network.self req write) p c₁.sent.length frame) := by
    have there : c₁.At write.replicas.2 (Untroubled s.network.self write.objectId (Grown write.objectId req.chunkIndex p)) :=
      at_send grown' apart
    rw [← self₁] at there ⊢
    exact putting_sent since₁.traced there
  obtain ⟨index, below, length⟩ := due
  unfold MetadataState.writeChunk at h
  rw [found] at h
  dsimp only at h
  rw [if_neg (not_or.2 ⟨not_not.2 index, UInt32.not_le.2 below⟩), if_neg (not_not.2 length)] at h
  split at h
  · cases h
  · cases h
    cases success
  rename_i s₁ waited
  rcases accepted : s₁.acceptChunk env req write with ⟨status', s₂⟩
  have network := acceptChunk_network accepted
  rw [accepted] at h
  cases h
  rw [network]
  rw [← self₂] at read putting putting' ⊢
  refine awaitPuts_made (s := (s.send write.replicas.1 frame).send write.replicas.2 frame) since₂ clear clear' apart
    (fun n f recent asked => ?_) (fun n f recent asked => ?_) read empty putting putting' waited
  · exact ((numbers n _ recent asked).resolve_right fun there => apart there.2).1
  · exact ((numbers n _ recent asked).resolve_left fun there => apart there.2.symm).1

end System

end Dfs
