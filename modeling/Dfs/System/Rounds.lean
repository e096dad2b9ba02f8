import Dfs.System.Exchange

/-!
# Requests that are answered in time

If no call of the storage nodes fails and no frame is lost, a `PUT` that two idle replicas are
waiting for is answered with `Success` by both, and then nothing is under way.
-/

namespace Dfs

open Lib

namespace StorageWorker

/-- What the file calls of a `PUT` will do is no part of what the worker holds. -/
theorem PutStep.of_outcomes {w w' : StorageWorker} {put : PutRequest} {status : StorageStatus} {outcomes : List Outcome}
    (step : PutStep { w with disk := w.disk.withOutcomes outcomes } put w' status) : PutStep w put w' status := by
  cases step with
  | failed _ bad kept => exact .failed _ bad kept
  | more part due next grown kept => exact .more part due next grown kept
  | commit last due next moved whole => exact .commit last due next moved whole

theorem PutStep.due {w w' : StorageWorker} {put : PutRequest} (step : PutStep w put w' .success) :
    put.chunkIndex = 0 ∨ w.nextChunks.lookup put.objectId = some put.chunkIndex := by
  cases step with
  | failed _ bad _ => exact absurd rfl bad
  | more part due next grown kept => exact due
  | commit last due next moved whole => exact due

end StorageWorker

/-- No file call fails, there is room for a chunk, and no frame is lost. -/
def healthy : Conditions where
  calls outcomes := ∀ o ∈ outcomes, o.error = none ∧ chunkSize ≤ o.available.toNat
  lossy := False

instance (outcomes : List Outcome) : Decidable (healthy.calls outcomes) :=
  inferInstanceAs (Decidable (∀ o ∈ outcomes, _ ∧ _))

instance (a : Act) : Decidable (a.Under healthy) :=
  match a with
  | .serve _ outcomes => inferInstanceAs (Decidable (healthy.calls outcomes))
  | .deliver _ => inferInstanceAs (Decidable True)
  | .loseRequest _ _ | .loseReply _ _ | .restart _ | .forge _ _ => inferInstanceAs (Decidable False)

/-- How far a request has come. -/
inductive Stage where
  | asked
  | answered
  | arrived
  deriving DecidableEq

namespace Stage

/-- The node handles the request, and after that its reply arrives. -/
def advance (node : NodeId) : Stage → Act → Stage
  | .asked, .serve n _ => if n = node then .answered else .asked
  | .answered, .deliver n => if n = node then .arrived else .answered
  | stage, _ => stage

def after (node : NodeId) (stage : Stage) (acts : List Act) : Stage := acts.foldl (advance node) stage

theorem after_append (node : NodeId) (stage : Stage) (acts acts' : List Act) :
    stage.after node (acts ++ acts') = (stage.after node acts).after node acts' :=
  List.foldl_append

end Stage

/-- While the handler of a chunk waits, first for one replica and then for the other, their
replies arrive. -/
def RepliesInTime (replicas : NodeId × NodeId) (script : List (List Act)) : Prop :=
  Stage.asked.after replicas.1 (script.headD []) = .arrived ∧
    Stage.asked.after replicas.2 (script.headD [] ++ script.tail.headD []) = .arrived

instance (replicas : NodeId × NodeId) (script : List (List Act)) : Decidable (RepliesInTime replicas script) :=
  inferInstanceAs (Decidable (_ ∧ _))

namespace Cluster

variable {c c' : Cluster} {node : NodeId} {P Q : Peer → List (Nat × Message) → Prop} {conditions : Conditions}

/-! ## One request on its way -/

/-- The one request to a node, none of whose frames has been lost or taken. -/
def Way (asker : NodeIdentity) (conditions : Conditions) (node : NodeId) (w : StorageWorker) (event : StorageEvent) :
    Stage → Peer → List (Nat × Message) → Prop
  | .asked, peer, q => ∃ tag frame, StorageEvent.of (frame.from asker) = .ok event ∧
      peer = { worker := w, inbox := [(tag, frame)], outbox := [] } ∧ q = []
  | .answered, peer, q => ∃ tag reply w', Handled conditions w event reply w' ∧
      peer = { worker := w', inbox := [], outbox := [(tag, reply)] } ∧ q = []
  | .arrived, peer, q => ∃ tag reply w', Handled conditions w event reply w' ∧
      peer = { worker := w', inbox := [], outbox := [] } ∧ q = [(tag, reply.from ⟨node, .storage⟩)]

variable {asker : NodeIdentity} {w : StorageWorker} {event : StorageEvent} {stage : Stage}

theorem at_modify_self {f : Peer → Peer} (h : c.At node P) (step : ∀ peer q, P peer q → Q (f peer) q) :
    (c.modify node f).At node Q := by
  obtain ⟨peer, found, holds⟩ := h
  unfold modify
  rw [found]
  exact ⟨f peer, by rw [Assoc.lookup_insert_ite, if_pos rfl], step peer _ holds⟩

theorem at_serve (outcomes : List Outcome) (calls : conditions.calls outcomes)
    (h : c.At node (Way c.self conditions node w event stage)) :
    (c.act (.serve node outcomes)).At node
      (Way c.self conditions node w event (stage.advance node (.serve node outcomes))) := by
  refine at_modify_self h fun peer q way => ?_
  cases stage with
  | asked =>
      obtain ⟨tag, frame, read, rfl, rfl⟩ := way
      simp only [Stage.advance, if_true, Cluster.serve, read]
      exact ⟨tag, _, _, ⟨outcomes, calls, rfl⟩, rfl, rfl⟩
  | answered =>
      obtain ⟨tag, reply, w', handled, rfl, rfl⟩ := way
      exact ⟨tag, reply, w', handled, rfl, rfl⟩
  | arrived =>
      obtain ⟨tag, reply, w', handled, rfl, rfl⟩ := way
      exact ⟨tag, reply, w', handled, rfl, rfl⟩

theorem at_delivered (h : c.At node (Way c.self conditions node w event stage)) :
    (c.act (.deliver node)).At node (Way c.self conditions node w event (stage.advance node (.deliver node))) := by
  cases stage with
  | asked =>
      refine at_deliver h fun peer tag frame rest q way outbox => ?_
      obtain ⟨tag, frame, read, rfl, rfl⟩ := way
      cases outbox
  | arrived =>
      refine at_deliver h fun peer tag frame rest q way outbox => ?_
      obtain ⟨tag, reply, w', handled, rfl, rfl⟩ := way
      cases outbox
  | answered =>
      obtain ⟨peer, found, tag, reply, w', handled, rfl, held⟩ := h
      refine ⟨{ worker := w', inbox := [], outbox := [] }, ?_, ?_⟩
      · simp [Cluster.act, deliver, found]
      · simp only [Stage.advance, if_true]
        refine ⟨tag, reply, w', handled, rfl, ?_⟩
        simp only [Cluster.act, deliver, found]
        simp only [Cluster.held, List.filter_append] at held ⊢
        rw [held]
        simp [Frame.from]

/-- The node an act is about. -/
def actor : Act → NodeId
  | .serve node _ | .deliver node | .loseRequest node _ | .loseReply node _ | .restart node | .forge node _ => node

theorem at_act_other {a : Act} (other : actor a ≠ node) (h : c.At node P) : (c.act a).At node P := by
  cases a with
  | deliver n =>
      obtain ⟨peer, found, holds⟩ := h
      have apart : ¬ n = node := other
      simp only [Cluster.act, deliver]
      split
      · exact ⟨peer, found, holds⟩
      split
      · exact ⟨peer, found, holds⟩
      · refine ⟨peer, by rw [Assoc.lookup_insert_ite, if_neg (Ne.symm apart), found], ?_⟩
        simpa [Cluster.held, Frame.from, apart] using holds
  | _ => exact at_modify h fun here => absurd here other

theorem advance_other {a : Act} (other : actor a ≠ node) : stage.advance node a = stage := by
  cases a with
  | serve n outcomes =>
      have apart : ¬ n = node := other
      cases stage <;> simp [Stage.advance, apart]
  | deliver n =>
      have apart : ¬ n = node := other
      cases stage <;> simp [Stage.advance, apart]
  | _ => cases stage <;> rfl

theorem at_act_way {a : Act} (under : a.Under healthy) (h : c.At node (Way c.self healthy node w event stage)) :
    (c.act a).At node (Way c.self healthy node w event (stage.advance node a)) := by
  by_cases own : actor a = node
  · subst own
    cases a with
    | serve n outcomes => exact at_serve outcomes under h
    | deliver n => exact at_delivered h
    | _ => exact absurd under id
  · rw [advance_other own]
    exact at_act_other own h

theorem at_acts_way {l : List Act} (under : ∀ a ∈ l, a.Under healthy)
    (h : c.At node (Way c.self healthy node w event stage)) :
    (c.acts l).At node (Way c.self healthy node w event (stage.after node l)) := by
  induction l generalizing c stage with
  | nil => exact h
  | cons a l ih =>
      have first := at_act_way (under a List.mem_cons_self) h
      rw [← act_self c a] at first ⊢
      exact ih (fun a' mem => under a' (List.mem_cons_of_mem _ mem)) first

theorem Fair.now (fair : c.Fair conditions) : ∀ a ∈ c.script.headD [], a.Under conditions := fun a mem => by
  cases script : c.script with
  | nil => simp [script] at mem
  | cons acts rest => exact fair acts (by simp [script]) a (by simpa [script] using mem)

theorem at_await_way (fair : c.Fair healthy) (h : c.At node (Way c.self healthy node w event stage)) :
    c.await.At node (Way c.self healthy node w event (stage.after node (c.script.headD []))) :=
  at_acts_way (c := { c with script := c.script.tail }) fair.now h

theorem await_script (c : Cluster) : c.await.script = c.script.tail := acts_script _ _

theorem at_sent {frame : Frame} (h : c.At node (Idle w)) (read : StorageEvent.of (frame.from c.self) = .ok event) :
    (c.send node frame).At node (Way c.self conditions node w event .asked) := by
  refine at_send_self h fun peer q idle => ?_
  obtain ⟨rfl, rfl⟩ := idle
  exact ⟨_, frame, read, rfl, rfl⟩

/-- The reply that has arrived is what a filter that accepts it takes. -/
theorem at_take_way {p : Message → Bool} (h : c.At node (Way asker conditions node w event .arrived))
    (from_ : ∀ m, p m = true → m.sender.id = node)
    (accepts : ∀ reply w', Handled conditions w event reply w' → p (reply.from ⟨node, .storage⟩) = true) :
    ∃ reply w', Handled conditions w event reply w' ∧ (c.take p).1 = some (reply.from ⟨node, .storage⟩) ∧
      (c.take p).2.At node (Idle w') := by
  have taken := at_take (Q := fun m peer q => ∃ reply w', Handled conditions w event reply w' ∧
    m = some (reply.from ⟨node, .storage⟩) ∧ Idle w' peer q) h from_ fun peer q way => by
      obtain ⟨tag, reply, w', handled, rfl, rfl⟩ := way
      have accepted := accepts reply w' handled
      exact ⟨reply, w', handled, by simp [accepted], rfl, by simp [accepted]⟩
  obtain ⟨peer, found, reply, w', handled, some, idle⟩ := taken
  exact ⟨reply, w', handled, some, peer, found, idle⟩

/-! ## Messages come from known nodes only -/

/-- The nodes are those of `base`, and so are the senders of the messages in the queue. -/
structure Within (base c : Cluster) : Prop where
  nodes : ∀ node, (c.peers.lookup node).isSome = (base.peers.lookup node).isSome
  queue : ∀ e ∈ c.queue, (base.peers.lookup e.2.sender.id).isSome

variable {base : Cluster}

theorem Within.refl (empty : c.queue = []) : Within c c := ⟨fun _ => rfl, by simp [empty]⟩

/-- A changed peer is still there. -/
theorem Within.insert {peer peer' : Peer} {queue : List (Nat × Message)} (within : Within base c)
    (found : c.peers.lookup node = some peer)
    (known : ∀ e ∈ queue, e ∈ c.queue ∨ e.2.sender.id = node) :
    Within base { c with peers := c.peers.insert node peer', queue } where
  nodes n := by
    rw [← within.nodes n, Assoc.lookup_insert_ite]
    split
    · rename_i here
      rw [here, found]
      rfl
    · rfl
  queue e mem := by
    rcases known e mem with mem | rfl
    · exact within.queue e mem
    · rw [← within.nodes, found]
      rfl

theorem Within.modify {f : Peer → Peer} (within : Within base c) : Within base (c.modify node f) := by
  unfold Cluster.modify
  split
  · exact within
  · rename_i found
    exact within.insert found fun e mem => Or.inl mem

theorem Within.act (within : Within base c) (a : Act) : Within base (c.act a) := by
  cases a with
  | deliver node =>
      simp only [Cluster.act, deliver]
      split
      · exact within
      · rename_i found
        split
        · exact within
        · refine within.insert found fun e mem => ?_
          rcases List.mem_append.1 mem with mem | mem
          · exact Or.inl mem
          · rw [List.mem_singleton.1 mem]
            exact Or.inr rfl
  | _ => exact within.modify

theorem Within.acts (within : Within base c) (l : List Act) : Within base (c.acts l) := by
  induction l generalizing c with
  | nil => exact within
  | cons a l ih => exact ih (within.act a)

theorem Within.await (within : Within base c) : Within base c.await :=
  Within.acts (c := { c with script := c.script.tail }) ⟨within.nodes, within.queue⟩ _

theorem Within.take {p : Message → Bool} (within : Within base c) : Within base (c.take p).2 := by
  unfold Cluster.take popIf
  split
  · exact within
  · rename_i popped
    cases (Prod.mk.inj popped).2
    exact ⟨within.nodes, fun e mem => within.queue e (List.mem_of_mem_eraseP mem)⟩

theorem Within.send {frame : Frame} (within : Within base c) : Within base (c.send node frame) := by
  unfold Cluster.send
  split
  · exact ⟨within.nodes, within.queue⟩
  · rename_i peer found
    have inserted := @Within.insert _ _ _ _ { peer with inbox := peer.inbox ++ [(c.sent.length, frame)] } _ within found
      fun e mem => Or.inl mem
    exact ⟨inserted.nodes, inserted.queue⟩

end Cluster

namespace System

/-- Nothing is under way. -/
def Calm (s : System) : Prop :=
  s.network.queue = [] ∧ ∀ node peer, s.network.peers.lookup node = some peer → peer.inbox = [] ∧ peer.outbox = []

/-- The node is one of the storage nodes. -/
def Joined (s : System) (node : NodeId) : Prop := ∃ peer, s.network.peers.lookup node = some peer

variable {s s' : System} {node : NodeId}

theorem Calm.idle (calm : s.Calm) (joined : s.Joined node) : ∃ w, s.network.At node (Cluster.Idle w) := by
  obtain ⟨peer, found⟩ := joined
  obtain ⟨inbox, outbox⟩ := calm.2 node peer found
  refine ⟨peer.worker, peer, found, ?_, by simp [Cluster.held, calm.1]⟩
  cases peer
  simp_all

/-- Nothing is under way where every node is idle. -/
theorem calm_of_idle {base : Cluster} (within : Cluster.Within base s.network)
    (idle : ∀ node, (base.peers.lookup node).isSome → ∃ w, s.network.At node (Cluster.Idle w)) : s.Calm := by
  constructor
  · cases queue : s.network.queue with
    | nil => rfl
    | cons e rest =>
        obtain ⟨w, peer, -, -, held⟩ := idle _ (within.queue e (queue ▸ List.mem_cons_self))
        simp [Cluster.held, queue] at held
  · intro node peer found
    obtain ⟨w, peer', found', rfl, -⟩ := idle node (by rw [← within.nodes, found]; rfl)
    cases found.symm.trans found'
    exact ⟨rfl, rfl⟩

end System

namespace MetadataState

open Cluster

variable {s s' : System} {w w' w₁ w₂ : StorageWorker} {put : PutRequest} {req : WriteChunkRequest} {replica node : NodeId}
  {stage : Stage} {conditions : Conditions}

/-! ## A `PUT` that is done -/

theorem PutDone.step (done : PutDone conditions w put w') : StorageWorker.PutStep w put w' .success := by
  obtain ⟨outcomes, response, -, handled, status⟩ := done
  obtain ⟨-, step, -⟩ := StorageWorker.handlePut_step handled
  rw [status] at step
  exact step.of_outcomes

/-- The `PUT` of a chunk as its replicas read it. -/
def putFor (asker : NodeIdentity) (req : WriteChunkRequest) (write : PendingWrite) : PutRequest :=
  { putOf req write with context := ⟨req.context.requestId, asker⟩ }

theorem putFor_read {asker : NodeIdentity} {req : WriteChunkRequest} {write : PendingWrite}
    (generated : Generated write.objectId) (due : write.Due req) :
    StorageEvent.of ((StorageProtocol.encodePutRequest req.context.requestId (putOf req write)).from asker) =
      .ok (.put (putFor asker req write)) := by
  refine of_putRequest generated.nulFree ?_
  have id := generated.length
  have data := due.2.2
  have le := expectedSize_le write.fileSize req.chunkIndex
  simp only [putOf, chunkSize] at le ⊢
  omega

/-- What a replica has after a chunk, if it had the chunks before it. -/
theorem PutDone.grown {chunks : List Bytes} (done : PutDone conditions w put w') (first : put.chunkIndex = 0 → chunks = [])
    (later : put.chunkIndex ≠ 0 → w.nextChunks.lookup put.objectId = some put.chunkIndex →
      w.pending put.objectId = some chunks.flatten) :
    (put.finalChunk = false → w'.pending put.objectId = some (chunks ++ [put.data]).flatten) ∧
      (put.finalChunk = true → w'.committed put.objectId = some (chunks ++ [put.data]).flatten) := by
  have base : put.chunkIndex = 0 ∨ w.nextChunks.lookup put.objectId = some put.chunkIndex →
      w.base put = chunks.flatten := fun due => by
    by_cases zero : put.chunkIndex = 0
    · rw [StorageWorker.base, if_pos zero, first zero]
      rfl
    · rw [StorageWorker.base, if_neg zero, later zero (due.resolve_left zero), Option.getD_some]
  rw [List.flatten_append, List.flatten_singleton]
  cases done.step with
  | failed _ bad _ => exact absurd rfl bad
  | more part due next grown kept => exact ⟨fun _ => by rw [grown, base due], fun last => by simp [part] at last⟩
  | commit last due next moved whole => exact ⟨fun part => by simp [last] at part, fun _ => by rw [whole, base due]⟩

/-! ## Chunks that are taken -/

/-- A chunk that a worker will take. -/
structure Expects (w : StorageWorker) (put : PutRequest) : Prop where
  generated : Generated put.objectId
  small : put.data.length ≤ chunkSize
  flat : w.Flat
  due : put.chunkIndex = 0 ∨ w.nextChunks.lookup put.objectId = some put.chunkIndex

/-- What a healthy worker makes of a chunk it expects. -/
theorem Expects.handled {reply : Frame} (expects : Expects w put) (handled : Cluster.Handled healthy w (.put put) reply w') :
    w'.Flat ∧ PutDone healthy w put w' ∧ ∃ response, response.status = .success ∧ response.chunkIndex = put.chunkIndex ∧
      reply = StorageProtocol.encodePutResponse put.context.requestId response := by
  obtain ⟨outcomes, calls, handled⟩ := handled
  rcases put' : StorageWorker.handlePut { w with disk := w.disk.withOutcomes outcomes } put with ⟨response, w₁⟩
  simp only [StorageWorker.handle, put', Prod.mk.injEq] at handled
  obtain ⟨rfl, rfl⟩ := handled
  have flat : StorageWorker.Flat { w with disk := w.disk.withOutcomes outcomes } := expects.flat
  have success := StorageWorker.handlePut_healthy expects.generated flat calls (show chunkSize < 2 ^ 64 by decide)
    expects.small expects.due
  rw [put'] at success
  exact ⟨StorageWorker.handlePut_flat flat put', ⟨outcomes, response, calls, put', success⟩, response, success,
    (StorageWorker.handlePut_step put').2.2, rfl⟩

/-- The wait for a reply that arrives. -/
theorem awaitPut_inTime (fair : s.network.Fair healthy)
    (way : s.network.At replica (Way s.network.self healthy replica w (.put put) stage))
    (inTime : stage.after replica (s.network.script.headD []) = .arrived) (expects : Expects w put)
    (index : put.chunkIndex = req.chunkIndex) (id : put.context.requestId = req.context.requestId) :
    ∃ w' s', s.awaitPut req replica = (.ok true, s') ∧ PutDone healthy w put w' ∧ w'.Flat ∧
      s'.network.At replica (Idle w') := by
  let p : Message → Bool :=
    Rpc.makeMessageIs req.context.requestId StorageJob.put .response replica (Rpc.matchChunk req.chunkIndex)
  have arrived := at_await_way fair way
  rw [inTime] at arrived
  obtain ⟨reply, w', handled, taken, idle⟩ := at_take_way (p := p) arrived
    (fun m accepted => (Rpc.makeMessageIs_type accepted).2) fun reply w' handled => by
      obtain ⟨-, -, response, -, same, rfl⟩ := expects.handled handled
      exact (Rpc.makeMessageIs_chunk (by simp [write]) _ _).2 ⟨rfl, id, rfl, rfl, same.trans index⟩
  obtain ⟨flat, done, response, success, -, rfl⟩ := expects.handled handled
  rcases received : s.receiveIf p with ⟨m, s₁⟩
  obtain ⟨message, network⟩ := receiveIf_network s p
  rw [received] at message network
  rw [taken] at message
  cases (show m = _ from message)
  unfold awaitPut
  rw [received]
  dsimp only
  rw [StorageKind.receive_putResponse]
  dsimp only
  rw [success]
  refine ⟨w', _, rfl, done, flat, ?_⟩
  rw [show s₁.network = _ from network]
  exact idle

theorem awaitPut_within {base : Cluster} {r : Except Exn Bool} (within : Within base s.network)
    (h : s.awaitPut req replica = (r, s')) : Within base s'.network := by
  obtain ⟨p, -, network, -⟩ := awaitPut_network h
  rw [network]
  exact within.await.take

/-- Both replicas have stored a chunk, and nothing else has happened. -/
structure Stored (replicas : NodeId × NodeId) (put : PutRequest) (w₁ w₂ : StorageWorker) (s s' : System) : Prop where
  first : ∃ w', PutDone healthy w₁ put w' ∧ w'.Flat ∧ s'.network.At replicas.1 (Idle w')
  second : ∃ w', PutDone healthy w₂ put w' ∧ w'.Flat ∧ s'.network.At replicas.2 (Idle w')
  others : ∀ node w, replicas.1 ≠ node → replicas.2 ≠ node → s.network.At node (Idle w) → s'.network.At node (Idle w)
  within : ∀ base, Within base s.network → Within base s'.network
  self : s'.network.self = s.network.self

/-- The wait for both replies. -/
theorem awaitPuts_inTime {replicas : NodeId × NodeId} (apart : replicas.1 ≠ replicas.2) (fair : s.network.Fair healthy)
    (inTime : RepliesInTime replicas s.network.script)
    (way₁ : s.network.At replicas.1 (Way s.network.self healthy replicas.1 w₁ (.put put) .asked))
    (way₂ : s.network.At replicas.2 (Way s.network.self healthy replicas.2 w₂ (.put put) .asked))
    (expects₁ : Expects w₁ put) (expects₂ : Expects w₂ put) (index : put.chunkIndex = req.chunkIndex)
    (id : put.context.requestId = req.context.requestId) :
    ∃ s', s.awaitPuts req replicas = (.ok true, s') ∧ Stored replicas put w₁ w₂ s s' := by
  obtain ⟨w₁', s₁, waited₁, done₁, flat₁, idle₁⟩ := awaitPut_inTime fair way₁ inTime.1 expects₁ index id
  obtain ⟨fair₁, self₁⟩ := awaitPut_fair fair waited₁
  obtain ⟨p, sender, network, -⟩ := awaitPut_network waited₁
  have script₁ : s₁.network.script = s.network.script.tail := by
    rw [network, take_script, await_script]
  -- the second request has come on its way during the first wait
  have way : s₁.network.At replicas.2 (Way s₁.network.self healthy replicas.2 w₂ (.put put)
      (Stage.asked.after replicas.2 (s.network.script.headD []))) := by
    rw [self₁, network]
    exact at_take_other (at_await_way fair way₂) sender apart
  have arrives := inTime.2
  rw [Stage.after_append, ← script₁] at arrives
  obtain ⟨w₂', s₂, waited₂, done₂, flat₂, idle₂⟩ := awaitPut_inTime fair₁ way arrives expects₂ index id
  obtain ⟨-, self₂⟩ := awaitPut_fair fair₁ waited₂
  refine ⟨s₂, ?_, ⟨w₁', done₁, flat₁, ?_⟩, ⟨w₂', done₂, flat₂, idle₂⟩, fun node w ne₁ ne₂ idle => ?_, fun base within => ?_,
    self₂.trans self₁⟩
  · rw [awaitPuts, waited₁]
    dsimp only
    rw [waited₂]
    rfl
  · exact awaitPut_other idle_stable fair₁ apart.symm idle₁ waited₂
  · exact awaitPut_other idle_stable fair₁ ne₂ (awaitPut_other idle_stable fair ne₁ idle waited₁) waited₂
  · exact awaitPut_within (awaitPut_within within waited₁) waited₂

/-- A chunk that is due and that both replicas expect is stored by both. -/
theorem writeChunk_inTime (env : Env) {write : PendingWrite} (found : s.worker.findWrite req.context = some write)
    (due : write.Due req) (apart : write.replicas.1 ≠ write.replicas.2) (fair : s.network.Fair healthy)
    (inTime : RepliesInTime write.replicas s.network.script) (first : s.network.At write.replicas.1 (Idle w₁))
    (second : s.network.At write.replicas.2 (Idle w₂))
    (read : StorageEvent.of ((StorageProtocol.encodePutRequest req.context.requestId (putOf req write)).from
      s.network.self) = .ok (.put put)) (expects₁ : Expects w₁ put) (expects₂ : Expects w₂ put)
    (index : put.chunkIndex = req.chunkIndex) (id : put.context.requestId = req.context.requestId) :
    ∃ s₁, Stored write.replicas put w₁ w₂ s s₁ ∧ MetadataWorker.SameTables s.worker s₁.worker ∧
      s.writeChunk env req = (.ok (s₁.acceptChunk env req write).1, (s₁.acceptChunk env req write).2) := by
  set frame := StorageProtocol.encodePutRequest req.context.requestId (putOf req write) with encoded
  set s₀ := (s.send write.replicas.1 frame).send write.replicas.2 frame with sent
  have self₁ : (s.send write.replicas.1 frame).network.self = s.network.self := send_self
  have self₀ : s₀.network.self = s.network.self := send_self.trans self₁
  have script₀ : s₀.network.script = s.network.script := by
    change (Cluster.send _ _ (Cluster.send _ _ _)).script = _
    rw [send_script, send_script]
  have asked₁ : s₀.network.At write.replicas.1 (Way s₀.network.self healthy write.replicas.1 w₁ (.put put) .asked) := by
    rw [self₀]
    exact at_send (at_sent first read) apart.symm
  have asked₂ : s₀.network.At write.replicas.2 (Way s₀.network.self healthy write.replicas.2 w₂ (.put put) .asked) := by
    rw [self₀, ← self₁]
    exact at_sent (at_send second apart) (by rw [self₁]; exact read)
  obtain ⟨s₁, waited, stored⟩ := awaitPuts_inTime apart (fair.send.send : s₀.network.Fair healthy)
    (by rw [script₀]; exact inTime) asked₁ asked₂ expects₁ expects₂ index id
  refine ⟨s₁, ⟨stored.first, stored.second, fun node w ne₁ ne₂ idle => ?_, fun base within => ?_,
    stored.self.trans self₀⟩, ?_, ?_⟩
  · exact stored.others node w ne₁ ne₂ (at_send (at_send idle ne₁) ne₂)
  · exact stored.within base within.send.send
  · have same := awaitPuts_same waited
    exact ⟨same.store, same.pendingReads, same.pendingWrites⟩
  · unfold writeChunk
    rw [found]
    dsimp only
    rw [if_neg (by rintro (bad | bad); exacts [bad due.1, UInt32.not_le.2 due.2.1 bad]),
      if_neg fun bad => bad due.2.2, ← encoded, ← sent, waited]

/-- After such a chunk nothing is under way. -/
theorem Stored.calm {replicas : NodeId × NodeId} (stored : Stored replicas put w₁ w₂ s s') (calm : s.Calm) : s'.Calm := by
  refine System.calm_of_idle (stored.within _ (.refl calm.1)) fun node joined => ?_
  obtain ⟨w, idle⟩ := calm.idle (Option.isSome_iff_exists.1 joined)
  by_cases one : replicas.1 = node
  · obtain ⟨w', -, -, idle'⟩ := stored.first
    exact ⟨w', one ▸ idle'⟩
  by_cases two : replicas.2 = node
  · obtain ⟨w', -, -, idle'⟩ := stored.second
    exact ⟨w', two ▸ idle'⟩
  · exact ⟨w, stored.others node w one two idle⟩

end MetadataState

namespace System

open Cluster MetadataState

variable {s s' : System} {node : NodeId} {env : Env} {script : List (List Act)} {req : WriteChunkRequest} {write : PendingWrite}
  {w₁ w₂ : StorageWorker} {context : RequestContext} {encode : UInt64 → Frame}
  {P : Peer → List (Nat × Message) → Prop}

/-! ## One chunk of a session -/

theorem at_respond (client : ¬ s.Joined context.sender.id) (h : s.network.At node P) :
    (s.respond context encode).network.At node P := by
  refine at_send h ?_
  rintro rfl
  obtain ⟨peer, found, -⟩ := h
  exact client ⟨peer, found⟩

theorem respond_network (encode : UInt64 → Frame) (client : ¬ s.Joined context.sender.id) :
    (s.respond context encode).network.peers = s.network.peers ∧ (s.respond context encode).network.queue = s.network.queue ∧
      (s.respond context encode).network.self = s.network.self := by
  have absent : s.network.peers.lookup context.sender.id = none :=
    Option.eq_none_iff_forall_ne_some.2 fun peer found => client ⟨peer, found⟩
  have sent : (s.respond context encode).network = s.network.send context.sender.id (encode context.requestId) := rfl
  rw [sent, Cluster.send, absent]
  exact ⟨rfl, rfl, rfl⟩

/-- A chunk has been handled: both replicas have stored it, and nothing is under way. -/
structure ChunkStored (s : System) (env : Env) (script : List (List Act)) (req : WriteChunkRequest) (write : PendingWrite)
    (w₁ w₂ : StorageWorker) (s' : System) : Prop where
  stepped : s.next (.request (.writeChunk req) env script) = .ok s'
  calm : s'.Calm
  self : s'.network.self = s.network.self
  joined : ∀ node, s'.Joined node ↔ s.Joined node
  first : ∃ w', PutDone healthy w₁ (putFor s.network.self req write) w' ∧ w'.Flat ∧ s'.network.At write.replicas.1 (Idle w')
  second : ∃ w', PutDone healthy w₂ (putFor s.network.self req write) w' ∧ w'.Flat ∧ s'.network.At write.replicas.2 (Idle w')
  others : ∀ node w, write.replicas.1 ≠ node → write.replicas.2 ≠ node → s.network.At node (Idle w) →
    s'.network.At node (Idle w)
  accepted : ∃ s₁ : System, MetadataWorker.SameTables (s.prepared env script).worker s₁.worker ∧
    s'.worker = (s₁.acceptChunk env req write).2.worker ∧ s'.network.peers = s₁.network.peers ∧
      (s.prepared env script).writeChunk env req = (.ok (s₁.acceptChunk env req write).1, (s₁.acceptChunk env req write).2)

/-- What it takes for a chunk to be stored. -/
structure Storable (s : System) (script : List (List Act)) (req : WriteChunkRequest) (write : PendingWrite)
    (w₁ w₂ : StorageWorker) : Prop where
  calm : s.Calm
  client : ¬ s.Joined req.context.sender.id
  found : s.worker.findWrite req.context = some write
  due : write.Due req
  apart : write.replicas.1 ≠ write.replicas.2
  under : ∀ acts ∈ script, ∀ a ∈ acts, a.Under healthy
  inTime : RepliesInTime write.replicas script
  first : s.network.At write.replicas.1 (Idle w₁)
  second : s.network.At write.replicas.2 (Idle w₂)
  expects₁ : Expects w₁ (putFor s.network.self req write)
  expects₂ : Expects w₂ (putFor s.network.self req write)

theorem Storable.stored (storable : Storable s script req write w₁ w₂) (env : Env) :
    ∃ s', ChunkStored s env script req write w₁ w₂ s' := by
  obtain ⟨s₁, stored, same, written⟩ := writeChunk_inTime (s := s.prepared env script) env storable.found
    storable.due storable.apart storable.under storable.inTime storable.first storable.second
    (putFor_read storable.expects₁.generated storable.due) storable.expects₁ storable.expects₂ rfl rfl
  obtain ⟨status, s₂, accepted⟩ : ∃ (status : ClientStatus) (s₂ : System), s₁.acceptChunk env req write = (status, s₂) :=
    ⟨_, _, rfl⟩
  have network := acceptChunk_network accepted
  have within : Within s.network s₁.network := stored.within s.network ⟨fun _ => rfl, (Within.refl storable.calm.1).queue⟩
  have joined : ∀ node, s₂.Joined node ↔ s.Joined node := fun node => by
    rw [Joined, Joined, network, ← Option.isSome_iff_exists, ← Option.isSome_iff_exists, within.nodes]
  have client : ¬ s₂.Joined req.context.sender.id := fun there => storable.client ((joined _).1 there)
  have calm : s₂.Calm := by
    have calm₁ : s₁.Calm := stored.calm storable.calm
    rwa [Calm, ← network] at calm₁
  rw [accepted] at written
  set encode := fun id => ClientProtocol.encodeWriteChunkResponse id
    { chunkIndex := req.chunkIndex, status, context := req.context } with encoded
  obtain ⟨peers, queue, self⟩ := respond_network encode client
  refine ⟨s₂.respond req.context encode, ?_, ?_, ?_, ?_, ?_, ?_, ?_, s₁, same, ?_, ?_, ?_⟩
  · have handled : MetadataState.handle env (.writeChunk req) (s.scripted script) =
        handleWriteChunk env req (s.prepared env script) := rfl
    simp only [next, handled, handleWriteChunk, written]
    rfl
  · rw [Calm, queue, peers]
    exact calm
  · rw [self, network]
    exact stored.self
  · intro node
    rw [Joined, peers]
    exact joined node
  · obtain ⟨w', done, flat, idle⟩ := stored.first
    rw [← network] at idle
    exact ⟨w', done, flat, at_respond client idle⟩
  · obtain ⟨w', done, flat, idle⟩ := stored.second
    rw [← network] at idle
    exact ⟨w', done, flat, at_respond client idle⟩
  · intro node w ne₁ ne₂ idle
    have idle' := stored.others node w ne₁ ne₂ idle
    rw [← network] at idle'
    exact at_respond client idle'
  · rw [accepted]
    rfl
  · rw [peers, network]
  · rw [accepted, written]

/-- After a chunk that is not the last one the session waits for the next. -/
theorem ChunkStored.part (stored : ChunkStored s env script req write w₁ w₂ s')
    (part : write.nextChunk + 1 ≠ write.chunkCount) :
    s'.worker.store = (s.prepared env script).worker.store ∧ s'.worker.pendingReads = s.worker.pendingReads ∧
      ∀ c : RequestContext, s'.worker.findWrite c =
        if c.sender.id = req.context.sender.id ∧ c.requestId = req.context.requestId then
          some { write with nextChunk := write.nextChunk + 1 }
        else s.worker.findWrite c := by
  obtain ⟨s₁, same, worker, -, -⟩ := stored.accepted
  have accepted : s₁.acceptChunk env req write =
      (.success, { s₁ with worker := s₁.worker.putWrite req.context { write with nextChunk := write.nextChunk + 1 } }) := by
    unfold acceptChunk
    rw [if_pos part]
  rw [worker, accepted]
  refine ⟨same.store, same.pendingReads, fun c => ?_⟩
  rw [MetadataWorker.findWrite, MetadataWorker.putWrite, Nested.find_put, same.pendingWrites]
  rfl

end System

end Dfs
