import Dfs.Metadata.FrameSizes
import Dfs.Metadata.Responses
import Dfs.System.Upload

/-!
# A file on its way back

While a handler waits for a replica nodes may die and frames may be lost, late or made up. The reply
that has the number of the `GET` is the node's own, and its data are those of the object as long as
nothing that waits for the node replaces it.
-/

namespace Dfs

open Lib

/-- What goes on between two requests. -/
def SystemEvent.Background : SystemEvent → Prop
  | .request _ _ _ => False
  | _ => True

/-- The job leaves the committed bytes of `x` alone. -/
def Spares (x : Bytes) (event : StorageEvent) : Prop := ∀ w, (StorageWorker.handle event w).2.committed x = w.committed x

namespace Cluster

variable {c : Cluster} {asker : NodeIdentity} {node : NodeId} {P Q : Peer → List (Nat × Message) → Prop} {x b : Bytes}
  {peer : Peer} {q : List (Nat × Message)} {tag : Nat} {frame reply : Frame} {event : StorageEvent}

/-! ## What nothing undoes -/

/-- What holds of a node whatever happens on the side of storage nodes that make up no frames. -/
structure Truthful (asker : NodeIdentity) (node : NodeId) (P : Peer → List (Nat × Message) → Prop) : Prop where
  serve : ∀ outcomes peer q, P peer q → P (Cluster.serve asker outcomes peer) q
  restart : ∀ peer q, P peer q → P { peer with worker := peer.worker.restart } q
  deliver : ∀ peer tag frame rest q, P peer q → peer.outbox = (tag, frame) :: rest →
    P { peer with outbox := rest } (q ++ [(tag, frame.from ⟨node, .storage⟩)])
  loseRequest : ∀ index peer q, P peer q → P { peer with inbox := peer.inbox.eraseIdx index } q
  loseReply : ∀ index peer q, P peer q → P { peer with outbox := peer.outbox.eraseIdx index } q

/-- What holds of it also where they make up frames. -/
structure Lasting (asker : NodeIdentity) (node : NodeId) (P : Peer → List (Nat × Message) → Prop) : Prop extends
    Truthful asker node P where
  forge : ∀ frame peer q, P peer q → P (Cluster.forge frame peer) q

theorem Truthful.act (truthful : Truthful asker node P) (self : c.self = asker) {a : Act} (honest : a.Honest) (h : c.At node P) :
    (c.act a).At node P := by
  subst self
  cases a with
  | serve n outcomes => exact at_modify h fun _ peer q => truthful.serve outcomes peer q
  | deliver n => exact at_deliver h truthful.deliver
  | loseRequest n index => exact at_modify h fun _ peer q => truthful.loseRequest index peer q
  | loseReply n index => exact at_modify h fun _ peer q => truthful.loseReply index peer q
  | restart n => exact at_modify h fun _ peer q => truthful.restart peer q
  | forge n frame => exact honest.elim

theorem Truthful.acts (truthful : Truthful asker node P) (self : c.self = asker) {l : List Act} (honest : ∀ a ∈ l, a.Honest)
    (h : c.At node P) : (c.acts l).At node P := by
  induction l generalizing c with
  | nil => exact h
  | cons a l ih =>
      exact ih ((act_self c a).trans self) (fun a mem => honest a (List.mem_cons_of_mem _ mem))
        (truthful.act self (honest a List.mem_cons_self) h)

theorem Lasting.act (lasting : Lasting asker node P) (self : c.self = asker) (a : Act) (h : c.At node P) : (c.act a).At node P := by
  by_cases honest : a.Honest
  · exact lasting.toTruthful.act self honest h
  subst self
  cases a with
  | forge n frame => exact at_modify h fun _ peer q => lasting.forge frame peer q
  | _ => exact absurd trivial honest

theorem Lasting.acts (lasting : Lasting asker node P) (self : c.self = asker) (l : List Act) (h : c.At node P) :
    (c.acts l).At node P := by
  induction l generalizing c with
  | nil => exact h
  | cons a l ih => exact ih ((act_self c a).trans self) (lasting.act self a h)

theorem acts_append (c : Cluster) (l l' : List Act) : c.acts (l ++ l') = (c.acts l).acts l' := List.foldl_append

/-! ## The object -/

/-- The node has committed `b`, and no request that waits for it changes that. -/
structure Offers (asker : NodeIdentity) (x b : Bytes) (peer : Peer) (q : List (Nat × Message)) : Prop where
  worker : peer.worker.committed x = some b
  inbox : ∀ e ∈ peer.inbox, ∀ event, StorageEvent.of (e.2.from asker) = .ok event → Spares x event

theorem offers_lasting : Lasting asker node (Offers asker x b) where
  serve outcomes peer q offers := by
    rw [Cluster.serve]
    split
    · exact offers
    rename_i tag frame inbox waiting
    have rest : ∀ e ∈ inbox, ∀ event, StorageEvent.of (e.2.from asker) = .ok event → Spares x event := fun e mem =>
      offers.inbox e (waiting ▸ List.mem_cons_of_mem _ mem)
    split
    · exact ⟨offers.worker, rest⟩
    · rename_i event read
      exact ⟨(offers.inbox (tag, frame) (waiting ▸ List.mem_cons_self) event read _).trans offers.worker, rest⟩
  forge frame peer q offers := by
    rw [Cluster.forge]
    split
    · exact offers
    · rename_i tag request inbox waiting
      exact ⟨offers.worker, fun e mem => offers.inbox e (waiting ▸ List.mem_cons_of_mem _ mem)⟩
  restart peer q offers := ⟨offers.worker, offers.inbox⟩
  deliver peer tag frame rest q offers _ := ⟨offers.worker, offers.inbox⟩
  loseRequest index peer q offers := ⟨offers.worker, fun e mem => offers.inbox e (List.mem_of_mem_eraseIdx mem)⟩
  loseReply index peer q offers := ⟨offers.worker, offers.inbox⟩

theorem offers_send {n : NodeId} (spares : ∀ event, StorageEvent.of (frame.from asker) = .ok event → Spares x event)
    (h : c.At node (Offers asker x b)) : (c.send n frame).At node (Offers asker x b) := by
  by_cases here : n = node
  · subst here
    refine at_send_self h fun peer q offers => ⟨offers.worker, fun e mem event read => ?_⟩
    rcases List.mem_append.1 mem with old | new
    · exact offers.inbox e old event read
    · rw [List.mem_singleton.1 new] at read
      exact spares event read
  · exact at_send h here

theorem offers_take {p : Message → Bool} (h : c.At node (Offers asker x b)) : (c.take p).2.At node (Offers asker x b) := by
  obtain ⟨peer, found, offers⟩ := h
  refine ⟨peer, ?_, offers.worker, offers.inbox⟩
  unfold take
  split <;> exact found

/-! ## One request and its reply -/

/-- At most one frame under way has the number, and if it is a request it is `frame`. -/
structure Single (tag : Nat) (frame : Frame) (peer : Peer) (q : List (Nat × Message)) : Prop where
  once : peer.inbox.countP (·.1 = tag) + peer.outbox.countP (·.1 = tag) + q.countP (·.1 = tag) ≤ 1
  request : ∀ e ∈ peer.inbox, e.1 = tag → e.2 = frame

/-- Whatever is under way with the number is the reply. -/
structure Replied (node : NodeId) (tag : Nat) (reply : Frame) (peer : Peer) (q : List (Nat × Message)) : Prop where
  inbox : ∀ e ∈ peer.inbox, e.1 ≠ tag
  outbox : ∀ e ∈ peer.outbox, e.1 = tag → e.2 = reply
  queue : ∀ e ∈ q, e.1 = tag → e.2 = reply.from ⟨node, .storage⟩

/-- A request leaves, and with it at most its reply comes. -/
theorem Single.answered {n : Nat} {f : Frame} {inbox outbox : List (Nat × Frame)} {w : StorageWorker} (single : Single tag frame peer q)
    (waiting : peer.inbox = (n, f) :: inbox) (replies : outbox = peer.outbox ∨ ∃ reply, outbox = peer.outbox ++ [(n, reply)]) :
    Single tag frame { worker := w, inbox, outbox } q := by
  obtain ⟨once, request⟩ := single
  rw [waiting, List.countP_cons] at once
  refine ⟨?_, fun e mem => request e (waiting ▸ List.mem_cons_of_mem _ mem)⟩
  rcases replies with rfl | ⟨reply, rfl⟩
  · dsimp only
    omega
  · rw [List.countP_append, List.countP_singleton]
    dsimp only at once ⊢
    omega

theorem single_lasting : Lasting asker node (Single tag frame) where
  serve outcomes peer q single := by
    rw [Cluster.serve]
    split
    · exact single
    rename_i n f inbox waiting
    split
    · exact single.answered waiting (.inl rfl)
    · exact single.answered waiting (.inr ⟨_, rfl⟩)
  forge f peer q single := by
    rw [Cluster.forge]
    split
    · exact single
    · rename_i n request inbox waiting
      exact single.answered waiting (.inr ⟨_, rfl⟩)
  restart peer q single := ⟨single.once, single.request⟩
  deliver peer n f rest q single outbox := by
    obtain ⟨once, request⟩ := single
    rw [outbox, List.countP_cons] at once
    refine ⟨?_, request⟩
    rw [List.countP_append, List.countP_singleton]
    dsimp only at once ⊢
    omega
  loseRequest index peer q single := by
    have fewer := (List.eraseIdx_sublist peer.inbox index).countP_le (p := fun e : Nat × Frame => decide (e.1 = tag))
    have once := single.once
    exact ⟨by dsimp only; omega, fun e mem => single.request e (List.mem_of_mem_eraseIdx mem)⟩
  loseReply index peer q single := by
    have fewer := (List.eraseIdx_sublist peer.outbox index).countP_le (p := fun e : Nat × Frame => decide (e.1 = tag))
    have once := single.once
    exact ⟨by dsimp only; omega, single.request⟩

theorem replied_lasting : Lasting asker node (Replied node tag reply) where
  serve outcomes peer q replied := by
    rw [Cluster.serve]
    split
    · exact replied
    rename_i n f inbox waiting
    have other : n ≠ tag := replied.inbox (n, f) (waiting ▸ List.mem_cons_self)
    have rest : ∀ e ∈ inbox, e.1 ≠ tag := fun e mem => replied.inbox e (waiting ▸ List.mem_cons_of_mem _ mem)
    split
    · exact ⟨rest, replied.outbox, replied.queue⟩
    · refine ⟨rest, fun e mem same => ?_, replied.queue⟩
      rcases List.mem_append.1 mem with old | new
      · exact replied.outbox e old same
      · rw [List.mem_singleton.1 new] at same
        exact absurd same other
  forge f peer q replied := by
    rw [Cluster.forge]
    split
    · exact replied
    rename_i n request inbox waiting
    have other : n ≠ tag := replied.inbox (n, request) (waiting ▸ List.mem_cons_self)
    refine ⟨fun e mem => replied.inbox e (waiting ▸ List.mem_cons_of_mem _ mem), fun e mem same => ?_, replied.queue⟩
    rcases List.mem_append.1 mem with old | new
    · exact replied.outbox e old same
    · rw [List.mem_singleton.1 new] at same
      exact absurd same other
  restart peer q replied := ⟨replied.inbox, replied.outbox, replied.queue⟩
  deliver peer n f rest q replied outbox := by
    refine ⟨replied.inbox, fun e mem => replied.outbox e (outbox ▸ List.mem_cons_of_mem _ mem), fun e mem same => ?_⟩
    rcases List.mem_append.1 mem with old | new
    · exact replied.queue e old same
    · rw [List.mem_singleton.1 new] at same ⊢
      exact congrArg (Frame.from · ⟨node, .storage⟩) (replied.outbox (n, f) (outbox ▸ List.mem_cons_self) same)
  loseRequest index peer q replied := ⟨fun e mem => replied.inbox e (List.mem_of_mem_eraseIdx mem), replied.outbox, replied.queue⟩
  loseReply index peer q replied := ⟨replied.inbox, fun e mem => replied.outbox e (List.mem_of_mem_eraseIdx mem), replied.queue⟩

/-- The next request of the node has the number. -/
def Next (c : Cluster) (node : NodeId) (tag : Nat) : Prop :=
  ∃ peer, c.peers.lookup node = some peer ∧ peer.inbox.head?.map (·.1) = some tag

/-- The node handles the request: from then on its reply is all that has the number. -/
theorem at_replied (self : c.self = asker) (outcomes : List Outcome) (single : c.At node (Single tag frame))
    (offers : c.At node (Offers asker x b)) (first : c.Next node tag) (read : StorageEvent.of (frame.from asker) = .ok event) :
    ∃ w : StorageWorker, w.committed x = some b ∧
      (c.act (.serve node outcomes)).At node
        (Replied node tag (StorageWorker.handle event { w with disk := w.disk.withOutcomes outcomes }).1) := by
  subst self
  obtain ⟨peer, found, once, request⟩ := single
  obtain ⟨peer', found', offers⟩ := offers
  cases found.symm.trans found'
  obtain ⟨peer', found', head⟩ := first
  cases found.symm.trans found'
  refine ⟨peer.worker, offers.worker, ?_⟩
  have here : c.At node fun peer' q => peer' = peer ∧ q = c.held node := ⟨peer, found, rfl, rfl⟩
  refine at_modify_self here fun peer' q same => ?_
  obtain ⟨rfl, rfl⟩ := same
  cases waiting : peer'.inbox with
  | nil => simp [waiting] at head
  | cons e inbox =>
      obtain ⟨n, f⟩ := e
      rw [waiting] at head once
      obtain rfl : n = tag := Option.some.inj head
      cases request (n, f) (waiting ▸ List.mem_cons_self) rfl
      rw [List.countP_cons, if_pos (by simp)] at once
      have none : ∀ {α : Type} {l : List (Nat × α)}, l.countP (fun e => decide (e.1 = n)) = 0 → ∀ e ∈ l, e.1 ≠ n :=
        fun zero e mem same => by simpa [same] using List.countP_eq_zero.1 zero e mem
      have inbox := none (l := inbox) (by omega)
      have outbox := none (l := peer'.outbox) (by omega)
      have queue := none (l := c.held node) (by omega)
      simp only [Cluster.serve, waiting, read]
      refine ⟨inbox, fun e mem same => ?_, fun e mem same => absurd same (queue e mem)⟩
      rcases List.mem_append.1 mem with old | new
      · exact absurd same (outbox e old)
      · rw [List.mem_singleton.1 new]

end Cluster

/-! ## The replies to `GET` -/

section Get

variable {x b : Bytes} {w : StorageWorker}

theorem spares_get (x : Bytes) (get : GetRequest) : Spares x (.get get) := by
  intro w
  obtain ⟨-, tree, -⟩ := StorageWorker.handleGet_step (w := w) (show w.handleGet get = _ from rfl)
  exact congrArg (fun t : FileTree => t.content (StorageWorker.finalPath x)) tree

theorem chunkIn_reply {response : GetResponse} (short : response.data.length ≤ chunkSize) (chunkIndex expected : UInt32) (id : UInt64)
    (sender : NodeIdentity) :
    MetadataState.chunkIn chunkIndex expected ((StorageProtocol.encodeGetResponse id response).from sender) =
      if response.status ≠ .success ∨ response.chunkIndex ≠ chunkIndex ∨ response.data.length ≠ expected.toNat then none
      else some response.data := by
  have small : (write response.chunkIndex ++ (write response.status ++ response.data)).length < 2 ^ 31 := by
    rw [chunkSize] at short
    simp [write]
    omega
  obtain ⟨message, read, -, -, decoded⟩ := (StorageKind.finds_getResponse response).receive small id sender
  change Rpc.readMessage StorageJob ((StorageProtocol.encodeGetResponse id response).from sender) = _ at read
  change StorageProtocol.decodeGetResponse message = .ok response at decoded
  rw [MetadataState.chunkIn, read]
  simp only [bind, Except.bind, decoded]

/-- A node that has committed `b` and whose calls succeed answers with the chunk. -/
theorem handled_chunk (get : GetRequest) (outcomes : List Outcome) (fine : ∀ o ∈ outcomes, o.error = none)
    (generated : Generated get.objectId) (holds : w.committed get.objectId = some b) (inside : get.chunkIndex.toNat * chunkSize ≤ b.length)
    (bounded : get.byteCount.toNat ≤ chunkSize)
    (length : (StorageWorker.slice b get.chunkIndex get.byteCount).length = get.byteCount.toNat) (sender : NodeIdentity) :
    MetadataState.chunkIn get.chunkIndex get.byteCount
        ((StorageWorker.handle (.get get) { w with disk := w.disk.withOutcomes outcomes }).1.from sender) =
      some (StorageWorker.slice b get.chunkIndex get.byteCount) := by
  set w₀ : StorageWorker := { w with disk := w.disk.withOutcomes outcomes }
  have found : w₀.committed get.objectId = some b := holds
  have success := @StorageWorker.handleGet_healthy w₀ 0 get b generated (fun o mem => ⟨fine o mem, Nat.zero_le _⟩)
    (by decide) found inside bounded
  have short := w₀.handleGet_length get
  rcases got : w₀.handleGet get with ⟨response, w'⟩
  rw [got] at success short
  obtain ⟨-, -, index, data⟩ := StorageWorker.handleGet_step got
  obtain ⟨file, there, same⟩ := data success
  cases found.symm.trans there
  have reply : (w₀.handle (.get get)).1 = StorageProtocol.encodeGetResponse get.context.requestId response := by
    rw [StorageWorker.handle]
    simp only [got]
  dsimp only at success
  rw [reply, chunkIn_reply short, if_neg (by simp [success, index, same, length]), same]

end Get

namespace System

open Cluster MetadataState

variable {s s' : System} {node replica : NodeId} {req : ReadChunkRequest} {x b : Bytes} {expected : UInt32}

/-- The `GET` for a chunk as it is sent to a replica. -/
def getFrame (req : ReadChunkRequest) (x : Bytes) (expected : UInt32) (s : System) : Frame :=
  StorageProtocol.encodeGetRequest (s.worker.currentStorageRequestId + 1)
    { objectId := x, chunkIndex := req.chunkIndex, byteCount := expected, context := req.context }

/-- The handler has sent it and waits. -/
def waiting (req : ReadChunkRequest) (x : Bytes) (expected : UInt32) (replica : NodeId) (s : System) : Cluster :=
  { s.network.send replica (s.getFrame req x expected) with script := s.network.script.tail }

/-- The replica is available, handles the `GET` without a failing call while the handler waits, and its reply is
the first that the handler takes for one. -/
structure Gives (req : ReadChunkRequest) (x : Bytes) (expected : UInt32) (replica : NodeId) (s : System) : Prop where
  available : s.worker.isAvailable replica = true
  serves : ∃ before outcomes rest, s.network.script.headD [] = before ++ .serve replica outcomes :: rest ∧
    (∀ o ∈ outcomes, o.error = none) ∧ ((s.waiting req x expected replica).acts before).Next replica s.network.sent.length
  first : (((s.waiting req x expected replica).acts (s.network.script.headD [])).queue.find? fun e =>
    isGetReply (s.worker.currentStorageRequestId + 1) req replica e.2).map (·.1) = some s.network.sent.length

theorem getReply_eq : s.getReply req x expected replica =
    ((s.waiting req x expected replica).acts (s.network.script.headD [])).take
      (isGetReply (s.worker.currentStorageRequestId + 1) req replica) := by
  have script : (s.network.send replica (s.getFrame req x expected)).script = s.network.script := send_script
  change Cluster.take _ (Cluster.await _) = _
  rw [Cluster.await]
  change Cluster.take _ (Cluster.acts { s.network.send replica (s.getFrame req x expected) with
    script := (s.network.send replica (s.getFrame req x expected)).script.tail }
      ((s.network.send replica (s.getFrame req x expected)).script.headD [])) = _
  rw [script]
  rfl

theorem single_sent {c : Cluster} {frame : Frame} (ordinary : c.Ordinary) (there : ∃ peer, c.peers.lookup node = some peer) :
    (c.send node frame).At node (Single c.sent.length frame) := by
  obtain ⟨peer, found⟩ := there
  have here : c.At node fun peer' q => peer' = peer ∧ q = c.held node := ⟨peer, found, rfl, rfl⟩
  refine at_send_self here fun peer' q same => ?_
  obtain ⟨rfl, rfl⟩ := same
  obtain ⟨-, inbox, outbox⟩ := ordinary.peers node peer' found
  have none : ∀ {α : Type} {l : List (Nat × α)}, (∀ e ∈ l, e.1 < c.sent.length) →
      l.countP (fun e => decide (e.1 = c.sent.length)) = 0 :=
    fun below => List.countP_eq_zero.2 fun e mem => by simpa using (below e mem).ne
  have queue : ∀ e ∈ c.held node, e.1 < c.sent.length := fun e mem => ordinary.queue e (List.mem_of_mem_filter mem)
  refine ⟨?_, fun e mem same => ?_⟩
  · rw [List.countP_append, none inbox, none outbox, none queue]
    simp
  · rcases List.mem_append.1 mem with old | new
    · exact absurd same (inbox e old).ne
    · rw [List.mem_singleton.1 new]

/-- What `GET` asks the replica for. -/
theorem getFrame_read (generated : Generated x) (req : ReadChunkRequest) (expected : UInt32) (s : System) :
    StorageEvent.of ((s.getFrame req x expected).from s.network.self) = .ok (.get
      { objectId := x, chunkIndex := req.chunkIndex, byteCount := expected,
        context := ⟨s.worker.currentStorageRequestId + 1, s.network.self⟩ }) :=
  of_getRequest generated.nulFree (generated.length.trans_lt (by decide))

theorem Gives.answer (gives : s.Gives req x expected replica) (ordinary : s.network.Ordinary) (generated : Generated x)
    (offers : s.network.At replica (Offers s.network.self x b)) (inside : req.chunkIndex.toNat * chunkSize ≤ b.length)
    (bounded : expected.toNat ≤ chunkSize) (length : (StorageWorker.slice b req.chunkIndex expected).length = expected.toNat) :
    (s.getReply req x expected replica).1.bind (chunkIn req.chunkIndex expected) =
      some (StorageWorker.slice b req.chunkIndex expected) := by
  obtain ⟨before, outcomes, rest, script, fine, next⟩ := gives.serves
  obtain ⟨peer, found, -⟩ := id offers
  have read := getFrame_read generated req expected s
  have self : (s.waiting req x expected replica).self = s.network.self := send_self
  have single : (s.waiting req x expected replica).At replica (Single s.network.sent.length (s.getFrame req x expected)) :=
    single_sent ordinary ⟨peer, found⟩
  have offered : (s.waiting req x expected replica).At replica (Offers s.network.self x b) :=
    offers_send (fun event same => by cases read.symm.trans same; exact spares_get x _) offers
  -- the request is handled after `before`, and its reply is under way during `rest`
  have self' : ((s.waiting req x expected replica).acts before).self = s.network.self := (acts_self _ _).trans self
  obtain ⟨w, holds, replied⟩ := at_replied self' outcomes (single_lasting.acts self before single)
    (offers_lasting.acts self before offered) next read
  obtain ⟨peer', -, -, -, queue⟩ := replied_lasting.acts ((act_self _ _).trans self') rest replied
  obtain ⟨⟨tag, m⟩, taken, rfl⟩ := Option.map_eq_some_iff.1 gives.first
  rw [getReply_eq, take, popIf, taken]
  rw [script, acts_append] at taken
  have accepted : isGetReply (s.worker.currentStorageRequestId + 1) req replica m = true :=
    List.find?_some (p := fun e : Nat × Message => isGetReply (s.worker.currentStorageRequestId + 1) req replica e.2) taken
  rw [isGetReply] at accepted
  obtain ⟨-, sender⟩ := Rpc.makeMessageIs_type accepted
  have same := queue (_, m) (List.mem_filter.2 ⟨List.mem_of_find?_eq_some taken, decide_eq_true sender⟩) rfl
  dsimp only at same ⊢
  rw [same]
  exact handled_chunk { objectId := x, chunkIndex := req.chunkIndex, byteCount := expected, context := ⟨_, s.network.self⟩ } outcomes
    fine generated holds inside bounded length _

/-! ## Replicas asked in turn -/

/-- Records, sessions and objects are what they were, and no answer has come. -/
structure Unchanged (s s' : System) : Prop where
  tables : MetadataWorker.SameTables s.worker s'.worker
  self : s'.network.self = s.network.self
  strangers : ∀ node, ¬ s.Joined node → ¬ s'.Joined node
  answers : s'.network.answers = s.network.answers
  ordinary : s.network.Ordinary → s'.network.Ordinary
  offers : ∀ node x b, s.network.At node (Offers s.network.self x b) → s'.network.At node (Offers s.network.self x b)

theorem Unchanged.trans {s'' : System} (first : s.Unchanged s') (second : s'.Unchanged s'') : s.Unchanged s'' where
  tables := first.tables.trans second.tables
  self := second.self.trans first.self
  strangers node away := second.strangers node (first.strangers node away)
  answers := second.answers.trans first.answers
  ordinary h := second.ordinary (first.ordinary h)
  offers node x b h := first.self ▸ second.offers node x b (first.self.symm ▸ first.offers node x b h)

theorem not_joined : ¬ s.Joined node ↔ s.network.peers.lookup node = none := by
  rw [Joined, Option.eq_none_iff_forall_ne_some, not_exists]

theorem acts_strangers {c : Cluster} (l : List Act) (unknown : c.peers.lookup node = none) : (c.acts l).peers.lookup node = none := by
  induction l generalizing c with
  | nil => exact unknown
  | cons a l ih => exact ih (act_stranger unknown a).1

theorem afterGet_unchanged (generated : Generated x) (joined : s.Joined replica) (req : ReadChunkRequest) (expected : UInt32) :
    s.Unchanged (s.afterGet req x expected replica) := by
  have network : (s.afterGet req x expected replica).network =
      (((s.waiting req x expected replica).acts (s.network.script.headD [])).take
        (isGetReply (s.worker.currentStorageRequestId + 1) req replica)).2 := congrArg Prod.snd getReply_eq
  have self : (s.waiting req x expected replica).self = s.network.self := send_self
  obtain ⟨peer, found⟩ := joined
  refine ⟨⟨rfl, rfl, rfl⟩, ?_, fun node away => ?_, ?_, fun ordinary => ?_, fun node x' b' offers => ?_⟩
  · rw [network, take_self, acts_self, self]
  · rw [not_joined] at away ⊢
    have peers : ∀ (p : Message → Bool) (c : Cluster), (c.take p).2.peers = c.peers := fun p c => by
      unfold take
      split <;> rfl
    rw [network, peers]
    exact acts_strangers _ (send_stranger away replica _).1
  · rw [network, take_answers, acts_answers]
    have there : (s.network.send replica (s.getFrame req x expected)).answers = s.network.answers := by
      rw [Cluster.send, found]
    exact there
  · rw [network]
    have sent := ordinary.send replica (s.getFrame req x expected)
    exact (Ordinary.acts (c := s.waiting req x expected replica) ⟨sent.peers, sent.queue⟩ _).take _
  · rw [network]
    have asked : (s.waiting req x expected replica).At node (Offers s.network.self x' b') :=
      offers_send (fun event same => by
        cases (getFrame_read generated req expected s).symm.trans same
        exact spares_get x' _) offers
    exact offers_take (offers_lasting.acts self _ asked)

/-- One of the replicas gives the chunk, the second one where the first one has not sent it. -/
def Fetchable (req : ReadChunkRequest) (x : Bytes) (expected : UInt32) (replicas : NodeId × NodeId) (s : System) : Prop :=
  s.Gives req x expected replicas.1 ∨
    s.worker.isAvailable replicas.1 = false ∧ s.Gives req x expected replicas.2 ∨
    s.worker.isAvailable replicas.1 = true ∧
      (s.getReply req x expected replicas.1).1.bind (chunkIn req.chunkIndex expected) = none ∧
        System.Gives req x expected replicas.2 (s.afterGet req x expected replicas.1)

theorem joined_of_at {P : Peer → List (Nat × Message) → Prop} (h : s.network.At node P) : s.Joined node := by
  obtain ⟨peer, found, -⟩ := h
  exact ⟨peer, found⟩

theorem Fetchable.fetched {replicas : NodeId × NodeId} (fetchable : s.Fetchable req x expected replicas)
    (ordinary : s.network.Ordinary) (generated : Generated x) (first : s.network.At replicas.1 (Offers s.network.self x b))
    (second : s.network.At replicas.2 (Offers s.network.self x b)) (inside : req.chunkIndex.toNat * chunkSize ≤ b.length)
    (bounded : expected.toNat ≤ chunkSize) (length : (StorageWorker.slice b req.chunkIndex expected).length = expected.toNat) :
    ∃ s', s.fetchChunk req x expected [replicas.1, replicas.2] = (some (StorageWorker.slice b req.chunkIndex expected), s') ∧
      s.Unchanged s' := by
  have given : ∀ {t : System} {replica : NodeId} {rest : List NodeId}, System.Gives req x expected replica t →
      t.network.Ordinary → t.network.At replica (Offers t.network.self x b) →
      t.fetchChunk req x expected (replica :: rest) = (some (StorageWorker.slice b req.chunkIndex expected),
        t.afterGet req x expected replica) ∧ System.Unchanged t (t.afterGet req x expected replica) := by
    intro t replica rest gives ordinary offers
    rw [fetchChunk_available gives.available, gives.answer ordinary generated offers inside bounded length]
    exact ⟨rfl, afterGet_unchanged generated (joined_of_at offers) req expected⟩
  rcases fetchable with gives | ⟨absent, gives⟩ | ⟨available, other, gives⟩
  · exact ⟨_, given gives ordinary first⟩
  · rw [fetchChunk_unavailable absent]
    exact ⟨_, given gives ordinary second⟩
  · have asked := afterGet_unchanged generated (joined_of_at first) req expected
    rw [fetchChunk_available available, other]
    obtain ⟨fetched, behind⟩ := given gives (asked.ordinary ordinary)
      (by rw [asked.self]; exact asked.offers _ _ _ second)
    exact ⟨_, fetched, asked.trans behind⟩

end System

/-! ## The chunks of a file -/

/-- Chunk `k` of a file. -/
def piece (b : Bytes) (k : Nat) : Bytes := (b.drop (k * chunkSize)).take chunkSize

theorem piece_length (b : Bytes) (k : Nat) : (piece b k).length = min chunkSize (b.length - k * chunkSize) := by
  rw [piece, List.length_take, List.length_drop]

theorem take_append_piece (b : Bytes) (k : Nat) : b.take (k * chunkSize) ++ piece b k = b.take ((k + 1) * chunkSize) := by
  rw [Nat.succ_mul, List.take_add, piece]

/-- What a `GET` is to bring is the chunk. -/
theorem slice_expected {fileSize : UInt64} {k : UInt32} {b : Bytes} (exact : ChunkExact fileSize k)
    (length : fileSize.toNat = b.length) :
    (expectedSize fileSize k).toUInt32.toNat = (piece b k.toNat).length ∧
      StorageWorker.slice b k (expectedSize fileSize k).toUInt32 = piece b k.toNat := by
  have expected := exact.expected
  have small := exact.small
  have fits : (expectedSize fileSize k).toUInt32.toNat = (expectedSize fileSize k).toNat := by
    rw [UInt64.toNat_toUInt32, Nat.mod_eq_of_lt (by rw [chunkSize] at small; omega)]
  rw [piece_length, StorageWorker.slice, piece, fits, expected, length]
  refine ⟨rfl, ?_⟩
  rw [← List.length_drop, ← List.take_take, List.take_length]

namespace System

open Cluster MetadataState MetadataStore MetadataWorker

variable {s s' : System} {context : RequestContext} {read : PendingRead} {b path : Bytes} {env : Env} {script : List (List Act)}
  {e : SystemEvent} {node : NodeId}

/-! ## Between two requests -/

theorem Unchanged.of_network (tables : SameTables s.worker s'.worker) (network : s'.network = s.network) : s.Unchanged s' := by
  refine ⟨tables, by rw [network], fun node away => ?_, by rw [network], fun ordinary => by rwa [network],
    fun node x b offers => by rwa [network]⟩
  rwa [Joined, network]

theorem Background.unchanged (background : e.Background) (h : s.next e = .ok s') : s.Unchanged s' := by
  cases e with
  | request event env script => exact background.elim
  | heartbeat now sender =>
      cases h
      exact .of_network ⟨rfl, rfl, rfl⟩ rfl
  | checkTimeouts now =>
      cases h
      exact .of_network ⟨rfl, rfl, rfl⟩ rfl
  | storage acts =>
      cases h
      refine ⟨⟨rfl, rfl, rfl⟩, acts_self _ _, fun node away => ?_, acts_answers _ _, fun ordinary => ordinary.acts acts,
        fun node x b offers => offers_lasting.acts rfl acts offers⟩
      rw [not_joined] at away ⊢
      exact acts_strangers acts away

/-- The file at the path is `b`, whatever is under way. -/
structure Provides (path b : Bytes) (s : System) : Prop where
  writes : ∀ c, s.worker.findWrite c = none
  reads : ∀ c, s.worker.findRead c = none
  ordinary : s.network.Ordinary
  valid : validFilename path = true
  record : ∃ m, s.worker.store.data.lookup (key path) = some m ∧ m.objId ≠ [] ∧ m.size.toNat = b.length ∧
    (b ≠ [] → Generated m.objId ∧ (m.replicaLocations.1 ≠ [] ∧ m.replicaLocations.2 ≠ [] ∧
      m.replicaLocations.1 ≠ m.replicaLocations.2) ∧
      s.network.At m.replicaLocations.1 (Offers s.network.self m.objId b) ∧
      s.network.At m.replicaLocations.2 (Offers s.network.self m.objId b))

theorem Contains.provides (contains : Contains path b s) : Provides path b s := by
  obtain ⟨m, found, named, size, stored⟩ := contains.record
  have offers : ∀ {node x}, s.Holds node x b → s.network.At node (Offers s.network.self x b) := by
    rintro node x ⟨peer, found, holds⟩
    refine ⟨peer, found, holds, fun e mem => ?_⟩
    rw [(contains.rest.calm.2 node peer found).1] at mem
    cases mem
  refine ⟨contains.rest.writes, contains.rest.reads, contains.ordinary, contains.valid, m, found, named, size, fun some => ?_⟩
  obtain ⟨generated, bound, first, second⟩ := stored some
  exact ⟨generated, bound, offers first, offers second⟩

theorem Provides.unchanged (provides : Provides path b s) (unchanged : s.Unchanged s') : Provides path b s' := by
  obtain ⟨m, found, named, size, stored⟩ := provides.record
  obtain ⟨store, reads, writes⟩ := unchanged.tables
  refine ⟨fun c => (congrArg (Nested.find · _ _) writes).trans (provides.writes c),
    fun c => (congrArg (Nested.find · _ _) reads).trans (provides.reads c), unchanged.ordinary provides.ordinary, provides.valid,
    m, by rw [store]; exact found, named, size, fun some => ?_⟩
  obtain ⟨generated, bound, first, second⟩ := stored some
  rw [unchanged.self]
  exact ⟨generated, bound, unchanged.offers _ _ _ first, unchanged.offers _ _ _ second⟩

/-- The session of the context reads `b`, chunk after chunk. -/
structure Downloading (context : RequestContext) (read : PendingRead) (b : Bytes) (s : System) : Prop where
  client : ¬ s.Joined context.sender.id
  ordinary : s.network.Ordinary
  found : s.worker.findRead context = some read
  sized : chunksOf read.fileSize = read.chunkCount.toUInt64
  length : read.fileSize.toNat = b.length
  due : read.nextChunk < read.chunkCount
  generated : Generated read.objectId
  first : s.network.At read.replicas.1 (Offers s.network.self read.objectId b)
  second : s.network.At read.replicas.2 (Offers s.network.self read.objectId b)

theorem Downloading.unchanged (downloading : Downloading context read b s) (unchanged : s.Unchanged s') :
    Downloading context read b s' where
  client := unchanged.strangers _ downloading.client
  ordinary := unchanged.ordinary downloading.ordinary
  found := (congrArg (Nested.find · _ _) unchanged.tables.pendingReads).trans downloading.found
  sized := downloading.sized
  length := downloading.length
  due := downloading.due
  generated := downloading.generated
  first := unchanged.self.symm ▸ unchanged.offers _ _ _ downloading.first
  second := unchanged.self.symm ▸ unchanged.offers _ _ _ downloading.second

/-! ## The request for the file -/

/-- One of the replicas of the path is available. -/
def Readable (s : System) (path : Bytes) : Prop :=
  ∀ m, s.worker.store.data.lookup (key path) = some m →
    s.worker.isAvailable m.replicaLocations.1 = true ∨ s.worker.isAvailable m.replicaLocations.2 = true

theorem unwritten {w : MetadataWorker} (none : ∀ c, w.findWrite c = none) (path : Bytes) : w.beingWritten path = false := by
  rw [Bool.eq_false_iff]
  intro being
  obtain ⟨client, id, write, found, -⟩ := (Nested.any_iff _ _).1 being
  exact absurd ((none ⟨id, ⟨client, .client⟩⟩).symm.trans found) (by simp)

/-- What the handler of the request for the file does. -/
theorem Provides.readFile {req : ReadFileRequest} (provides : Provides req.path b s)
    (fits : (b.length + (chunkSize - 1)) / chunkSize < 2 ^ 32) (available : b ≠ [] → s.Readable req.path) :
    ∃ fileSize chunkCount, fileSize.toNat = b.length ∧ chunksOf fileSize = chunkCount.toUInt64 ∧
      (b = [] → (s.prepared env script).readFile req = ((.success, fileSize, chunkCount), s.prepared env script)) ∧
      (b ≠ [] → ∃ read, read.fileSize = fileSize ∧ read.chunkCount = chunkCount ∧ read.nextChunk = 0 ∧ Generated read.objectId ∧
        s.network.At read.replicas.1 (Offers s.network.self read.objectId b) ∧
        s.network.At read.replicas.2 (Offers s.network.self read.objectId b) ∧
        (s.prepared env script).readFile req = ((.success, fileSize, chunkCount),
          { s.prepared env script with worker := (s.prepared env script).worker.putRead req.context read })) := by
  obtain ⟨m, found, named, size, stored⟩ := provides.record
  have count : (chunksOf m.size).toNat < 2 ^ 32 := by rw [chunksOf_toNat, size]; exact fits
  have known : (s.prepared env script).worker.store.getMetadata req.path = .ok m := by
    change s.worker.store.getMetadata req.path = .ok m
    rw [getMetadata, if_neg (by simp [provides.valid]), found]
  have free : (s.prepared env script).worker.beingWritten req.path = false := unwritten provides.writes _
  refine ⟨m.size, (chunksOf m.size).toUInt32, size, ?_, fun empty => ?_, fun some => ?_⟩
  · apply UInt64.toNat_inj.1
    rw [UInt32.toNat_toUInt64, UInt64.toNat_toUInt32, Nat.mod_eq_of_lt count]
  · have zero : m.size = 0 := UInt64.toNat_inj.1 (by rw [size, empty]; rfl)
    rw [MetadataState.readFile, free, if_neg (by simp), known]
    dsimp only
    rw [if_neg named, if_neg (by omega), if_neg (by simp [zero]), if_neg (by simp [zero]), if_pos (by rw [zero]; rfl)]
  · obtain ⟨generated, ⟨first, second, apart⟩, offers₁, offers₂⟩ := stored some
    have positive : chunksOf m.size ≠ 0 := fun zero => by
      have none := congrArg UInt64.toNat zero
      have length := List.length_pos_iff.2 some
      rw [chunksOf_toNat, size, chunkSize] at none
      simp only [UInt64.toNat_zero] at none
      omega
    refine ⟨⟨req.path, m.objId, m.size, (chunksOf m.size).toUInt32, 0, m.replicaLocations⟩, rfl, rfl, rfl, generated, offers₁,
      offers₂, ?_⟩
    have there : ¬ ((s.prepared env script).worker.isAvailable m.replicaLocations.1 = false ∧
        (s.prepared env script).worker.isAvailable m.replicaLocations.2 = false) := by
      rintro ⟨away₁, away₂⟩
      rcases available some m found with here | here
      · exact absurd (here.symm.trans away₁) (by simp)
      · exact absurd (here.symm.trans away₂) (by simp)
    rw [MetadataState.readFile, free, if_neg (by simp), known]
    dsimp only
    rw [if_neg named, if_neg (by omega), if_neg (by simp [first, second, apart]), if_neg (fun bad => there bad.2), if_neg positive]
    have none : (s.prepared env script).worker.findRead req.context = .none := provides.reads _
    rw [none]

theorem Provides.replies {req : ReadFileRequest} (provides : Provides req.path b s) (client : ¬ s.Joined req.context.sender.id)
    (fits : (b.length + (chunkSize - 1)) / chunkSize < 2 ^ 32) (available : b ≠ [] → s.Readable req.path) (env : Env)
    (script : List (List Act)) :
    ∃ fileSize chunkCount s', s.Replies (.readFile req) env script (ClientProtocol.encodeReadFileResponse req.context.requestId
        { status := .success, fileSize, chunkCount, context := req.context }) s' ∧
      fileSize.toNat = b.length ∧ chunksOf fileSize = chunkCount.toUInt64 ∧
      (b ≠ [] → ∃ read, read.fileSize = fileSize ∧ read.chunkCount = chunkCount ∧ read.nextChunk = 0 ∧
        Downloading req.context read b s') := by
  obtain ⟨fileSize, chunkCount, length, sized, empty, opened⟩ := @Provides.readFile s b env script req provides fits available
  set encode := fun id => ClientProtocol.encodeReadFileResponse id
    { status := .success, fileSize, chunkCount, context := req.context }
  have stepped : ∀ {s₁ : System}, (s.prepared env script).readFile req = ((.success, fileSize, chunkCount), s₁) →
      s.next (.request (.readFile req) env script) = .ok (s₁.respond req.context encode) := fun {s₁} run => by
    have handled : MetadataState.handle env (.readFile req) (s.scripted script) =
        (.ok (), handleReadFile req (s.prepared env script)) := rfl
    simp only [next, handled, handleReadFile, run]
    rfl
  by_cases some : b = []
  · exact ⟨fileSize, chunkCount, _, ⟨stepped (empty some), respond_answers (s := s.prepared env script) client⟩, length, sized,
      fun none => absurd some none⟩
  · obtain ⟨read, size, count, zero, generated, first, second, run⟩ := opened some
    set s₁ : System := { s.prepared env script with worker := (s.prepared env script).worker.putRead req.context read }
    have client₁ : ¬ System.Joined s₁ req.context.sender.id := client
    obtain ⟨peers, -, self⟩ := respond_network encode client₁
    have own : (s₁.respond req.context encode).network.self = s.network.self := self
    refine ⟨fileSize, chunkCount, _, ⟨stepped run, respond_answers client₁⟩, length, sized, fun _ => ⟨read, size, count, zero, ?_, ?_,
      ?_, ?_, ?_, ?_, generated, ?_, ?_⟩⟩
    · rw [Joined, peers]
      exact client
    · exact nextNode_ordinary (e := .step (.request (.readFile req) env script)) provides.ordinary (stepped run)
    · change Nested.find (Nested.put _ _ _ _) _ _ = _
      rw [Nested.find_put, if_pos ⟨rfl, rfl⟩]
    · rw [size, count]
      exact sized
    · rw [size]
      exact length
    · have chunks := chunkCount_toNat sized
      have positive := List.length_pos_iff.2 some
      rw [length, chunkSize] at chunks
      rw [zero, count, UInt32.lt_iff_toNat_lt, UInt32.toNat_zero]
      omega
    · rw [own]
      exact at_respond client₁ first
    · rw [own]
      exact at_respond client₁ second

/-! ## One chunk -/

/-- The next chunk comes back. -/
theorem Downloading.replies {req : ReadChunkRequest} (downloading : Downloading req.context read b s)
    (index : req.chunkIndex = read.nextChunk)
    (fetchable : System.Fetchable req read.objectId (expectedSize read.fileSize read.nextChunk).toUInt32 read.replicas
      (s.prepared env script)) :
    ∃ s', s.Replies (.readChunk req) env script (ClientProtocol.encodeReadChunkResponse req.context.requestId
        { chunkIndex := read.nextChunk, status := .success, data := piece b read.nextChunk.toNat, context := req.context }) s' ∧
      (read.nextChunk + 1 ≠ read.chunkCount →
        Downloading req.context { read with nextChunk := read.nextChunk + 1 } b s') := by
  have exact := chunkExact_of_below downloading.sized downloading.due
  obtain ⟨fits, slice⟩ := slice_expected exact downloading.length
  have inside : req.chunkIndex.toNat * chunkSize ≤ b.length := by
    have below := exact.within
    rw [index, ← downloading.length]
    omega
  obtain ⟨s₁, fetched, unchanged⟩ := fetchable.fetched (s := s.prepared env script)
    ⟨downloading.ordinary.peers, downloading.ordinary.queue⟩ downloading.generated
    downloading.first downloading.second inside (by rw [fits, piece_length]; omega) (by rw [index, slice, fits])
  have found : (s.prepared env script).worker.findRead req.context = some read := downloading.found
  have due : ¬ (req.chunkIndex ≠ read.nextChunk ∨ req.chunkIndex ≥ read.chunkCount) := by
    rw [index]
    simp [UInt32.not_le.2 downloading.due]
  set worker := if read.nextChunk + 1 = read.chunkCount then s₁.worker.discardRead req.context
    else s₁.worker.putRead req.context { read with nextChunk := read.nextChunk + 1 } with after
  have run : (s.prepared env script).readChunk req = ((.success, piece b read.nextChunk.toNat), { s₁ with worker }) := by
    rw [MetadataState.readChunk, found]
    dsimp only
    rw [if_neg due, index, fetched, index, slice]
  set s₂ : System := { s₁ with worker }
  set encode := fun id => ClientProtocol.encodeReadChunkResponse id
    { chunkIndex := read.nextChunk, status := .success, data := piece b read.nextChunk.toNat, context := req.context }
  have client : ¬ System.Joined s₂ req.context.sender.id := unchanged.strangers _ downloading.client
  have stepped : s.next (.request (.readChunk req) env script) = .ok (s₂.respond req.context encode) := by
    have handled : MetadataState.handle env (.readChunk req) (s.scripted script) =
        (.ok (), handleReadChunk req (s.prepared env script)) := rfl
    simp only [next, handled, handleReadChunk, run, index]
    rfl
  obtain ⟨peers, -, self⟩ := respond_network encode client
  have own : (s₂.respond req.context encode).network.self = s.network.self := self.trans unchanged.self
  refine ⟨_, ⟨stepped, (respond_answers client).trans (congrArg (· ++ _) unchanged.answers)⟩, fun more => ⟨?_, ?_, ?_,
    downloading.sized, downloading.length, ?_, downloading.generated, ?_, ?_⟩⟩
  · rw [Joined, peers]
    exact client
  · exact nextNode_ordinary (e := .step (.request (.readChunk req) env script)) downloading.ordinary stepped
  · change Nested.find worker.pendingReads _ _ = _
    rw [after, if_neg more]
    change Nested.find (Nested.put _ _ _ _) _ _ = _
    rw [Nested.find_put, if_pos ⟨rfl, rfl⟩]
  · have next := exact.next
    have below := UInt32.lt_iff_toNat_lt.1 downloading.due
    have apart : (read.nextChunk + 1).toNat ≠ read.chunkCount.toNat := fun same => more (UInt32.toNat_inj.1 same)
    rw [UInt32.lt_iff_toNat_lt]
    dsimp only
    omega
  · rw [own]
    exact at_respond client (unchanged.offers _ _ _ downloading.first)
  · rw [own]
    exact at_respond client (unchanged.offers _ _ _ downloading.second)

end System

end Dfs
