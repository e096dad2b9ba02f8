import Dfs.Lib.Queue
import Dfs.Storage.Healthy
import Dfs.System.Cluster
import Dfs.Metadata.WorkerSteps

/-!
# A request to a storage node and its reply

What the connection to one node and the message queue can look like while a single request to
this node is under way. Requests to other nodes do not matter.
-/

namespace Dfs

open Lib

/-- How the file calls of the storage nodes may turn out, and whether frames may be lost. -/
structure Conditions where
  calls : List Outcome → Prop
  lossy : Prop

/-- Nodes handle requests and replies arrive; no node dies or makes up a reply. -/
def Act.Under (conditions : Conditions) : Act → Prop
  | .serve _ outcomes => conditions.calls outcomes
  | .deliver _ => True
  | .loseRequest _ _ => conditions.lossy
  | .loseReply _ _ => conditions.lossy
  | .restart _ => False
  | .forge _ _ => False

namespace Cluster

variable {c : Cluster} {node : NodeId} {P : Peer → List (Nat × Message) → Prop}

/-- The messages from a node that wait in the queue. -/
def held (c : Cluster) (node : NodeId) : List (Nat × Message) := c.queue.filter fun e => e.2.sender.id = node

/-- `P` holds of a node, its connection and its messages in the queue. -/
def At (c : Cluster) (node : NodeId) (P : Peer → List (Nat × Message) → Prop) : Prop :=
  ∃ peer, c.peers.lookup node = some peer ∧ P peer (c.held node)

theorem at_modify {n : NodeId} {f : Peer → Peer} (h : c.At node P)
    (step : n = node → ∀ peer q, P peer q → P (f peer) q) : (c.modify n f).At node P := by
  obtain ⟨peer, found, holds⟩ := h
  unfold modify
  split
  · exact ⟨peer, found, holds⟩
  · rename_i peer' found'
    by_cases here : n = node
    · subst here
      rw [found] at found'
      cases found'
      exact ⟨f peer, by rw [Assoc.lookup_insert_ite, if_pos rfl], step rfl peer _ holds⟩
    · exact ⟨peer, by rw [Assoc.lookup_insert_ite, if_neg (Ne.symm here), found], holds⟩

theorem at_deliver {n : NodeId} (h : c.At node P)
    (step : ∀ peer tag frame rest q, P peer q → peer.outbox = (tag, frame) :: rest →
      P { peer with outbox := rest } (q ++ [(tag, frame.from ⟨node, .storage⟩)])) : (c.deliver n).At node P := by
  obtain ⟨peer, found, holds⟩ := h
  unfold deliver
  split
  · exact ⟨peer, found, holds⟩
  rename_i peer' found'
  split
  · exact ⟨peer, found, holds⟩
  rename_i tag frame rest outbox
  by_cases here : n = node
  · subst here
    rw [found] at found'
    cases found'
    refine ⟨{ peer with outbox := rest }, by rw [Assoc.lookup_insert_ite, if_pos rfl], ?_⟩
    have held : (c.queue ++ [(tag, frame.from ⟨n, .storage⟩)]).filter (fun e => decide (e.2.sender.id = n)) =
        c.held n ++ [(tag, frame.from ⟨n, .storage⟩)] := by
      simp [Cluster.held, Frame.from]
    rw [Cluster.held, held]
    exact step peer tag frame rest _ holds outbox
  · refine ⟨peer, by rw [Assoc.lookup_insert_ite, if_neg (Ne.symm here), found], ?_⟩
    have held : (c.queue ++ [(tag, frame.from ⟨n, .storage⟩)]).filter (fun e => decide (e.2.sender.id = node)) =
        c.held node := by
      simp [Cluster.held, Frame.from, here]
    rw [Cluster.held, held]
    exact holds

theorem at_send {n : NodeId} {frame : Frame} (h : c.At node P) (ne : n ≠ node) : (c.send n frame).At node P := by
  obtain ⟨peer, found, holds⟩ := h
  unfold send
  split
  · exact ⟨peer, found, holds⟩
  · exact ⟨peer, by rw [Assoc.lookup_insert_ite, if_neg (Ne.symm ne), found], holds⟩

theorem at_send_self {frame : Frame} {Q : Peer → List (Nat × Message) → Prop} (h : c.At node P)
    (step : ∀ peer q, P peer q → Q { peer with inbox := peer.inbox ++ [(c.sent.length, frame)] } q) :
    (c.send node frame).At node Q := by
  obtain ⟨peer, found, holds⟩ := h
  unfold send
  rw [found]
  exact ⟨_, by rw [Assoc.lookup_insert_ite, if_pos rfl], step peer _ holds⟩

/-! ## The message queue -/

/-- Taking a message from another node leaves this node's messages alone. -/
theorem at_take_other {p : Message → Bool} {n : NodeId} (h : c.At node P) (from_ : ∀ m, p m = true → m.sender.id = n)
    (ne : n ≠ node) : (c.take p).2.At node P := by
  obtain ⟨peer, found, holds⟩ := h
  unfold take popIf
  split
  · exact ⟨peer, found, holds⟩
  · rename_i popped
    cases (Prod.mk.inj popped).2
    refine ⟨peer, found, ?_⟩
    rw [Cluster.held, filter_eraseP_other]
    · exact holds
    · rintro ⟨tag, m⟩ here
      cases accepted : p m with
      | false => rfl
      | true => exact absurd ((from_ m accepted).symm.trans (of_decide_eq_true here)) ne

/-- Taking a message from a node is taking it from this node's messages. -/
theorem at_take {p : Message → Bool} {Q : Option Message → Peer → List (Nat × Message) → Prop} (h : c.At node P)
    (from_ : ∀ m, p m = true → m.sender.id = node)
    (step : ∀ peer q, P peer q →
      Q ((q.find? fun e : Nat × Message => p e.2).map (·.2)) peer (q.eraseP fun e => p e.2)) :
    (c.take p).2.At node (Q (c.take p).1) := by
  obtain ⟨peer, found, holds⟩ := h
  have imp : ∀ e : Nat × Message, p e.2 = true → decide (e.2.sender.id = node) = true := fun e accepted =>
    decide_eq_true (from_ e.2 accepted)
  have first : (c.held node).find? (fun e => p e.2) = c.queue.find? fun e => p e.2 := find?_of_filter imp
  have rest : (c.queue.eraseP fun e => p e.2).filter (fun e => decide (e.2.sender.id = node)) =
      (c.held node).eraseP fun e => p e.2 := filter_eraseP imp
  have stepped := step peer _ holds
  rw [first, ← rest] at stepped
  unfold take popIf
  split
  · rename_i popped
    obtain ⟨none, rfl⟩ := Prod.mk.inj popped
    rw [none] at stepped
    refine ⟨peer, found, ?_⟩
    rwa [List.eraseP_of_forall_not (by simpa using none)] at stepped
  · rename_i tag message queue popped
    obtain ⟨some, rfl⟩ := Prod.mk.inj popped
    rw [some] at stepped
    exact ⟨peer, found, stepped⟩

/-! ## While a handler waits -/

/-- What the steps of a node and of its connection keep. -/
structure Stable (asker : NodeIdentity) (conditions : Conditions) (node : NodeId)
    (P : Peer → List (Nat × Message) → Prop) : Prop where
  serve : ∀ outcomes peer q, conditions.calls outcomes → P peer q → P (serve asker outcomes peer) q
  deliver : ∀ peer tag frame rest q, P peer q → peer.outbox = (tag, frame) :: rest →
    P { peer with outbox := rest } (q ++ [(tag, frame.from ⟨node, .storage⟩)])
  loseRequest : conditions.lossy → ∀ index peer q, P peer q → P { peer with inbox := peer.inbox.eraseIdx index } q
  loseReply : conditions.lossy → ∀ index peer q, P peer q → P { peer with outbox := peer.outbox.eraseIdx index } q

/-- Whatever happens while the metadata node waits happens under these conditions. -/
def Fair (conditions : Conditions) (c : Cluster) : Prop := ∀ acts ∈ c.script, ∀ a ∈ acts, a.Under conditions

variable {conditions : Conditions} {a : Act}

theorem act_self (c : Cluster) (a : Act) : (c.act a).self = c.self := by
  cases a <;> simp only [act, modify, deliver] <;> repeat' split
  all_goals rfl

theorem act_script (c : Cluster) (a : Act) : (c.act a).script = c.script := by
  cases a <;> simp only [act, modify, deliver] <;> repeat' split
  all_goals rfl

theorem at_act (stable : Stable c.self conditions node P) (under : a.Under conditions) (h : c.At node P) :
    (c.act a).At node P := by
  cases a with
  | serve n outcomes => exact at_modify h fun _ peer q => stable.serve outcomes peer q under
  | deliver n => exact at_deliver h stable.deliver
  | loseRequest n index => exact at_modify h fun _ peer q => stable.loseRequest under index peer q
  | loseReply n index => exact at_modify h fun _ peer q => stable.loseReply under index peer q
  | restart n => exact absurd under id
  | forge n frame => exact absurd under id

theorem at_acts {l : List Act} (stable : Stable c.self conditions node P) (under : ∀ a ∈ l, a.Under conditions)
    (h : c.At node P) : (c.acts l).At node P := by
  induction l generalizing c with
  | nil => exact h
  | cons a l ih =>
      have first := at_act stable (under a List.mem_cons_self) h
      rw [← act_self c a] at stable
      exact ih stable (fun a' mem => under a' (List.mem_cons_of_mem _ mem)) first

theorem acts_self (c : Cluster) (l : List Act) : (c.acts l).self = c.self := by
  induction l generalizing c with
  | nil => rfl
  | cons a l ih => exact (ih _).trans (act_self c a)

theorem acts_script (c : Cluster) (l : List Act) : (c.acts l).script = c.script := by
  induction l generalizing c with
  | nil => rfl
  | cons a l ih => exact (ih _).trans (act_script c a)

theorem act_answers (c : Cluster) (a : Act) : (c.act a).answers = c.answers := by
  cases a <;> simp only [act, modify, deliver] <;> repeat' split
  all_goals rfl

theorem acts_answers (c : Cluster) (l : List Act) : (c.acts l).answers = c.answers := by
  induction l generalizing c with
  | nil => rfl
  | cons a l ih => exact (ih _).trans (act_answers c a)

theorem await_self (c : Cluster) : c.await.self = c.self := acts_self _ _

theorem Fair.await (fair : c.Fair conditions) : c.await.Fair conditions := by
  intro acts mem
  rw [Cluster.await, acts_script] at mem
  exact fair acts (List.mem_of_mem_tail mem)

theorem at_await (stable : Stable c.self conditions node P) (fair : c.Fair conditions) (h : c.At node P) :
    c.await.At node P := by
  have now : ∀ a ∈ c.script.headD [], a.Under conditions := fun a mem => by
    cases script : c.script with
    | nil => simp [script] at mem
    | cons acts rest => exact fair acts (by simp [script]) a (by simpa [script] using mem)
  exact at_acts (c := { c with script := c.script.tail }) stable now h

theorem take_self {p : Message → Bool} : (c.take p).2.self = c.self := by
  unfold take
  split <;> rfl

theorem take_answers {p : Message → Bool} : (c.take p).2.answers = c.answers := by
  unfold take
  split <;> rfl

theorem take_script {p : Message → Bool} : (c.take p).2.script = c.script := by
  unfold take
  split <;> rfl

theorem Fair.take {p : Message → Bool} (fair : c.Fair conditions) : (c.take p).2.Fair conditions := by
  unfold Cluster.take
  split <;> exact fair

theorem send_self {n : NodeId} {frame : Frame} : (c.send n frame).self = c.self := by
  unfold send
  split <;> rfl

theorem send_script {n : NodeId} {frame : Frame} : (c.send n frame).script = c.script := by
  unfold send
  split <;> rfl

theorem Fair.send {n : NodeId} {frame : Frame} (fair : c.Fair conditions) : (c.send n frame).Fair conditions := by
  unfold Cluster.send
  split <;> exact fair

/-! ## A node without requests, and one with a single request -/

/-- Nothing is under way to or from the node, whose worker is `w`. -/
def Idle (w : StorageWorker) (peer : Peer) (q : List (Nat × Message)) : Prop :=
  peer = { worker := w, inbox := [], outbox := [] } ∧ q = []

theorem idle_stable {w : StorageWorker} : Stable c.self conditions node (Idle w) where
  serve outcomes peer q _ := by
    rintro ⟨rfl, rfl⟩
    exact ⟨rfl, rfl⟩
  deliver peer tag frame rest q := by
    rintro ⟨rfl, rfl⟩ outbox
    cases outbox
  loseRequest _ index peer q := by
    rintro ⟨rfl, rfl⟩
    exact ⟨rfl, rfl⟩
  loseReply _ index peer q := by
    rintro ⟨rfl, rfl⟩
    exact ⟨rfl, rfl⟩

/-- The worker handles the job with `reply`. -/
def Handled (conditions : Conditions) (w : StorageWorker) (event : StorageEvent) (reply : Frame)
    (w' : StorageWorker) : Prop :=
  ∃ outcomes, conditions.calls outcomes ∧
    StorageWorker.handle event { w with disk := w.disk.withOutcomes outcomes } = (reply, w')

/-- How far the one request to a node has come. -/
inductive Course (asker : NodeIdentity) (conditions : Conditions) (node : NodeId) (w : StorageWorker) (event : StorageEvent) :
    Peer → List (Nat × Message) → Prop where
  | asked (tag : Nat) (frame : Frame) (read : StorageEvent.of (frame.from asker) = .ok event) :
      Course asker conditions node w event { worker := w, inbox := [(tag, frame)], outbox := [] } []
  | lost (lossy : conditions.lossy) : Course asker conditions node w event { worker := w, inbox := [], outbox := [] } []
  | answered (tag : Nat) (reply : Frame) (w' : StorageWorker) (handled : Handled conditions w event reply w') :
      Course asker conditions node w event { worker := w', inbox := [], outbox := [(tag, reply)] } []
  | arrived (tag : Nat) (reply : Frame) (w' : StorageWorker) (handled : Handled conditions w event reply w') :
      Course asker conditions node w event { worker := w', inbox := [], outbox := [] }
        [(tag, reply.from ⟨node, .storage⟩)]
  | gone (reply : Frame) (w' : StorageWorker) (handled : Handled conditions w event reply w') :
      Course asker conditions node w event { worker := w', inbox := [], outbox := [] } []

theorem course_stable {asker : NodeIdentity} {w : StorageWorker} {event : StorageEvent} :
    Stable asker conditions node (Course asker conditions node w event) where
  serve outcomes peer q calls course := by
    cases course with
    | asked tag frame read =>
        simp only [Cluster.serve, read]
        exact .answered tag _ _ ⟨outcomes, calls, rfl⟩
    | lost lossy => exact .lost lossy
    | answered tag reply w' handled => exact .answered tag reply w' handled
    | arrived tag reply w' handled => exact .arrived tag reply w' handled
    | gone reply w' handled => exact .gone reply w' handled
  deliver peer tag frame rest q course outbox := by
    cases course with
    | answered _ _ w' handled =>
        cases outbox
        exact .arrived _ _ w' handled
    | _ => cases outbox
  loseRequest lossy index peer q course := by
    cases course with
    | asked tag frame read =>
        cases index with
        | zero => exact .lost lossy
        | succ index => exact .asked tag frame read
    | lost lossy => exact .lost lossy
    | answered tag reply w' handled => exact .answered tag reply w' handled
    | arrived tag reply w' handled => exact .arrived tag reply w' handled
    | gone reply w' handled => exact .gone reply w' handled
  loseReply lossy index peer q course := by
    cases course with
    | asked tag frame read => exact .asked tag frame read
    | lost lossy => exact .lost lossy
    | answered tag reply w' handled =>
        cases index with
        | zero => exact .gone reply w' handled
        | succ index => exact .answered tag reply w' handled
    | arrived tag reply w' handled => exact .arrived tag reply w' handled
    | gone reply w' handled => exact .gone reply w' handled

/-- A request sent to an idle node. -/
theorem at_asked {frame : Frame} {w : StorageWorker} {event : StorageEvent} (h : c.At node (Idle w))
    (read : StorageEvent.of (frame.from c.self) = .ok event) :
    (c.send node frame).At node (Course c.self conditions node w event) := by
  refine at_send_self h fun peer q idle => ?_
  obtain ⟨rfl, rfl⟩ := idle
  exact .asked _ frame read

/-- What taking a message from the node can find. -/
def Taken (asker : NodeIdentity) (conditions : Conditions) (node : NodeId) (w : StorageWorker) (event : StorageEvent)
    (m : Option Message) (peer : Peer) (q : List (Nat × Message)) : Prop :=
  (m = none ∧ Course asker conditions node w event peer q) ∨
    ∃ reply w', m = some (reply.from ⟨node, .storage⟩) ∧ Handled conditions w event reply w' ∧ Idle w' peer q

theorem at_take_course {p : Message → Bool} {asker : NodeIdentity} {w : StorageWorker} {event : StorageEvent}
    (h : c.At node (Course asker conditions node w event)) (from_ : ∀ m, p m = true → m.sender.id = node) :
    (c.take p).2.At node (Taken asker conditions node w event (c.take p).1) := by
  refine at_take h from_ fun peer q course => ?_
  cases course with
  | asked tag frame read => exact Or.inl ⟨rfl, .asked tag frame read⟩
  | lost lossy => exact Or.inl ⟨rfl, .lost lossy⟩
  | answered tag reply w' handled => exact Or.inl ⟨rfl, .answered tag reply w' handled⟩
  | gone reply w' handled => exact Or.inl ⟨rfl, .gone reply w' handled⟩
  | arrived tag reply w' handled =>
      cases accepted : p (reply.from ⟨node, .storage⟩)
      · refine Or.inl ⟨by simp [accepted], ?_⟩
        simpa [accepted] using Course.arrived tag reply w' handled
      · exact Or.inr ⟨reply, w', by simp [accepted], handled, rfl, by simp [accepted]⟩

theorem Taken.course {asker : NodeIdentity} {w : StorageWorker} {event : StorageEvent} {m : Option Message} {peer : Peer}
    {q : List (Nat × Message)} (taken : Taken asker conditions node w event m peer q) :
    Course asker conditions node w event peer q := by
  rcases taken with ⟨-, course⟩ | ⟨reply, w', -, handled, rfl, rfl⟩
  · exact course
  · exact .gone reply w' handled

theorem At.mono {Q : Peer → List (Nat × Message) → Prop} (h : c.At node P) (imp : ∀ peer q, P peer q → Q peer q) :
    c.At node Q := by
  obtain ⟨peer, found, holds⟩ := h
  exact ⟨peer, found, imp _ _ holds⟩

end Cluster

namespace MetadataState

open Cluster

variable {s s' : System} {conditions : Conditions} {node : NodeId} {P : Peer → List (Nat × Message) → Prop}

theorem receiveIf_network (s : System) (p : Message → Bool) :
    (s.receiveIf p).1 = (s.network.await.take p).1 ∧ (s.receiveIf p).2.network = (s.network.await.take p).2 := ⟨rfl, rfl⟩

/-- The `PUT` has been handled and answered with `Success`. -/
def PutDone (conditions : Conditions) (w : StorageWorker) (put : PutRequest) (w' : StorageWorker) : Prop :=
  ∃ outcomes response, conditions.calls outcomes ∧
    StorageWorker.handlePut { w with disk := w.disk.withOutcomes outcomes } put = (response, w') ∧
    response.status = .success

section Put

variable {req : WriteChunkRequest} {replica : NodeId} {r : Except Exn Bool}

theorem awaitPut_network (h : s.awaitPut req replica = (r, s')) :
    ∃ p : Message → Bool, (∀ m, p m = true → m.sender.id = replica) ∧ s'.network = (s.network.await.take p).2 ∧
      (r = .ok true → ∃ m response, (s.network.await.take p).1 = some m ∧
        (Rpc.readMessage StorageJob m >>= StorageProtocol.decodePutResponse) = .ok response ∧
        response.status = .success) := by
  refine ⟨Rpc.makeMessageIs req.context.requestId StorageJob.put .response replica (Rpc.matchChunk req.chunkIndex),
    fun m accepted => (Rpc.makeMessageIs_type accepted).2, ?_⟩
  unfold awaitPut at h
  split at h
  · rename_i received
    obtain ⟨-, network⟩ := Prod.mk.inj received
    cases h
    exact ⟨congrArg MetadataState.network network.symm, by simp⟩
  · rename_i message s₁ received
    obtain ⟨found, network⟩ := Prod.mk.inj received
    split at h
    · cases h
      exact ⟨congrArg MetadataState.network network.symm, by simp⟩
    · rename_i response read
      cases h
      refine ⟨congrArg MetadataState.network network.symm, fun ok => ⟨message, response, found, read, ?_⟩⟩
      simpa using ok

theorem awaitPut_other (stable : Stable s.network.self conditions node P) (fair : s.network.Fair conditions)
    (ne : replica ≠ node) (at_ : s.network.At node P) (h : s.awaitPut req replica = (r, s')) : s'.network.At node P := by
  obtain ⟨p, sender, network, -⟩ := awaitPut_network h
  rw [network]
  exact at_take_other (at_await stable fair at_) sender ne

theorem awaitPut_fair (fair : s.network.Fair conditions) (h : s.awaitPut req replica = (r, s')) :
    s'.network.Fair conditions ∧ s'.network.self = s.network.self := by
  obtain ⟨p, -, network, -⟩ := awaitPut_network h
  rw [network]
  exact ⟨fair.await.take, take_self.trans (await_self _)⟩

/-- Waiting for the reply to a `PUT`. -/
theorem awaitPut_course {w : StorageWorker} {put : PutRequest} (fair : s.network.Fair conditions)
    (at_ : s.network.At replica (Course s.network.self conditions replica w (.put put)))
    (h : s.awaitPut req replica = (r, s')) :
    s'.network.At replica (Course s.network.self conditions replica w (.put put)) ∧
      (r = .ok true → ∃ w', PutDone conditions w put w' ∧ s'.network.At replica (Idle w')) := by
  obtain ⟨p, sender, network, ok⟩ := awaitPut_network h
  have taken := at_take_course (at_await course_stable fair at_) sender
  rw [network]
  refine ⟨taken.mono fun _ _ => Taken.course, fun success => ?_⟩
  obtain ⟨m, response, some, read, status⟩ := ok success
  obtain ⟨peer, found, ⟨none, -⟩ | ⟨reply, w', some', ⟨outcomes, calls, handled⟩, idle⟩⟩ := taken
  · rw [some] at none
    cases none
  · rw [some] at some'
    cases some'
    simp only [StorageWorker.handle] at handled
    obtain ⟨rfl, rfl⟩ := Prod.mk.inj handled
    rw [StorageKind.receive_putResponse] at read
    cases read
    exact ⟨_, ⟨outcomes, _, calls, rfl, status⟩, peer, found, idle⟩

/-- Waiting for both replies. -/
theorem awaitPuts_course {replicas : NodeId × NodeId} (apart : replicas.1 ≠ replicas.2) {w₁ w₂ : StorageWorker}
    {put : PutRequest} (fair : s.network.Fair conditions)
    (first : s.network.At replicas.1 (Course s.network.self conditions replicas.1 w₁ (.put put)))
    (second : s.network.At replicas.2 (Course s.network.self conditions replicas.2 w₂ (.put put)))
    (h : s.awaitPuts req replicas = (r, s')) :
    s'.network.At replicas.1 (Course s.network.self conditions replicas.1 w₁ (.put put)) ∧
      s'.network.At replicas.2 (Course s.network.self conditions replicas.2 w₂ (.put put)) ∧
      (r = .ok true → ∃ w₁' w₂', PutDone conditions w₁ put w₁' ∧ PutDone conditions w₂ put w₂' ∧
        s'.network.At replicas.1 (Idle w₁') ∧ s'.network.At replicas.2 (Idle w₂')) := by
  unfold awaitPuts at h
  split at h
  · rename_i waited
    cases h
    exact ⟨(awaitPut_course fair first waited).1, awaitPut_other course_stable fair apart second waited, by simp⟩
  rename_i answer s₁ waited
  obtain ⟨first₁, done₁⟩ := awaitPut_course fair first waited
  have second₁ := awaitPut_other course_stable fair apart second waited
  obtain ⟨fair₁, self₁⟩ := awaitPut_fair fair waited
  rw [← self₁] at first₁ second₁
  have both : ∀ {r'}, s₁.awaitPut req replicas.2 = (r', s') →
      s'.network.At replicas.1 (Course s.network.self conditions replicas.1 w₁ (.put put)) ∧
        s'.network.At replicas.2 (Course s.network.self conditions replicas.2 w₂ (.put put)) := fun waited' => by
    rw [← self₁]
    exact ⟨awaitPut_other course_stable fair₁ (Ne.symm apart) first₁ waited', (awaitPut_course fair₁ second₁ waited').1⟩
  split at h
  · rename_i waited'
    cases h
    exact ⟨(both waited').1, (both waited').2, by simp⟩
  · rename_i answer' s₂ waited'
    cases h
    refine ⟨(both waited').1, (both waited').2, fun ok => ?_⟩
    simp only [Except.ok.injEq, Bool.and_eq_true] at ok
    obtain ⟨w₁', done₁, idle₁⟩ := done₁ (congrArg _ ok.1)
    obtain ⟨w₂', done₂, idle₂⟩ := (awaitPut_course fair₁ second₁ waited').2 (congrArg _ ok.2)
    exact ⟨w₁', w₂', done₁, done₂, awaitPut_other idle_stable fair₁ (Ne.symm apart) idle₁ waited', idle₂⟩

end Put

/-! ## A chunk that is due -/

/-- What has become of a chunk that was sent to two idle replicas. -/
inductive ChunkSent (conditions : Conditions) (env : Env) (req : WriteChunkRequest) (write : PendingWrite)
    (put : PutRequest) (w₁ w₂ : StorageWorker) (s s' : System) : Except Exn ClientStatus → Prop where
  | failed (r : Except Exn ClientStatus) (bad : r ≠ .ok .success) (store : s'.worker.store = s.worker.store)
      (first : s'.network.At write.replicas.1 (Course s.network.self conditions write.replicas.1 w₁ (.put put)))
      (second : s'.network.At write.replicas.2 (Course s.network.self conditions write.replicas.2 w₂ (.put put))) :
      ChunkSent conditions env req write put w₁ w₂ s s' r
  | accepted (status : ClientStatus) (s₁ : System) (w₁' w₂' : StorageWorker) (done₁ : PutDone conditions w₁ put w₁')
      (done₂ : PutDone conditions w₂ put w₂') (first : s'.network.At write.replicas.1 (Idle w₁'))
      (second : s'.network.At write.replicas.2 (Idle w₂')) (same : MetadataWorker.SameTables s.worker s₁.worker)
      (accept : s₁.acceptChunk env req write = (status, s')) :
      ChunkSent conditions env req write put w₁ w₂ s s' (.ok status)

theorem writeChunk_sent {env : Env} {req : WriteChunkRequest} {write : PendingWrite} {put : PutRequest}
    {w₁ w₂ : StorageWorker} {r : Except Exn ClientStatus} (found : s.worker.findWrite req.context = some write)
    (due : write.Due req) (apart : write.replicas.1 ≠ write.replicas.2) (fair : s.network.Fair conditions)
    (first : s.network.At write.replicas.1 (Idle w₁)) (second : s.network.At write.replicas.2 (Idle w₂))
    (read : StorageEvent.of ((StorageProtocol.encodePutRequest req.context.requestId (putOf req write)).from
      s.network.self) = .ok (.put put)) (h : s.writeChunk env req = (r, s')) :
    ChunkSent conditions env req write put w₁ w₂ s s' r := by
  unfold writeChunk at h
  rw [found] at h
  dsimp only at h
  rw [if_neg (by rintro (bad | bad); exacts [bad due.1, UInt32.not_le.2 due.2.1 bad]),
    if_neg fun bad => bad due.2.2] at h
  set frame := StorageProtocol.encodePutRequest req.context.requestId (putOf req write)
  set s₀ := (s.send write.replicas.1 frame).send write.replicas.2 frame
  -- both replicas have been asked
  have self₁ : (s.send write.replicas.1 frame).network.self = s.network.self := send_self
  have self₀ : s₀.network.self = s.network.self := send_self.trans self₁
  have fair₀ : s₀.network.Fair conditions := fair.send.send
  have asked₁ : s₀.network.At write.replicas.1 (Course s₀.network.self conditions write.replicas.1 w₁ (.put put)) := by
    rw [self₀]
    exact at_send (at_asked first read) (Ne.symm apart)
  have asked₂ : s₀.network.At write.replicas.2 (Course s₀.network.self conditions write.replicas.2 w₂ (.put put)) := by
    rw [self₀, ← self₁]
    exact at_asked (at_send second apart) (by rw [self₁]; exact read)
  split at h
  · rename_i waited
    cases h
    obtain ⟨course₁, course₂, -⟩ := awaitPuts_course apart fair₀ asked₁ asked₂ waited
    rw [self₀] at course₁ course₂
    exact .failed _ (by simp) (awaitPuts_same waited).store course₁ course₂
  · rename_i waited
    cases h
    obtain ⟨course₁, course₂, -⟩ := awaitPuts_course apart fair₀ asked₁ asked₂ waited
    rw [self₀] at course₁ course₂
    exact .failed _ (by simp) (awaitPuts_same waited).store course₁ course₂
  · rename_i s₁ waited
    obtain ⟨-, -, done⟩ := awaitPuts_course apart fair₀ asked₁ asked₂ waited
    obtain ⟨w₁', w₂', done₁, done₂, idle₁, idle₂⟩ := done rfl
    have same := awaitPuts_same waited
    rcases accepted : s₁.acceptChunk env req write with ⟨status, s₂⟩
    rw [accepted] at h
    cases h
    rw [← acceptChunk_network accepted] at idle₁ idle₂
    exact .accepted status s₁ w₁' w₂' done₁ done₂ idle₁ idle₂ ⟨same.store, same.pendingReads, same.pendingWrites⟩ accepted

end MetadataState

end Dfs
