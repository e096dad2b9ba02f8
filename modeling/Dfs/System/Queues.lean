import Dfs.Common.BlockingQueue
import Dfs.Lib.Run
import Dfs.System.Producers

/-!
# The queues of a metadata node

Two threads take messages out of the network's queue: the producer takes client requests and
heartbeats for the job queue, and the worker takes the responses that it waits for while it
handles a job.
-/

namespace Dfs

open Lib

/-- The threads that call `receive_if`. -/
inductive NodeThread where
  | producer
  | worker
  deriving DecidableEq

/-- The queues of the node, and the jobs that the worker thread has been given. -/
structure NodeQueues extends Producer NodeJob where
  worked : List NodeJob := []
  deriving DecidableEq

/-- A message arrives, the worker looks for a response, the producer does a round, or the worker
asks for its next job. -/
inductive QueueEvent where
  | arrive (message : Message)
  | extract (requestId : UInt64) (job : StorageJob) (sender : NodeId) (bodyPredicate : BinaryReader → Except Exn Bool)
  | produce
  | work

namespace NodeQueues

/-- The worker's predicate. -/
def responseIs (requestId : UInt64) (job : StorageJob) (sender : NodeId) (bodyPredicate : BinaryReader → Except Exn Bool) :
    Message → Bool :=
  Rpc.makeMessageIs requestId job .response sender bodyPredicate

/-- No error unless one leaves the producer thread. -/
def step (s : NodeQueues) : QueueEvent → Except Exn NodeQueues
  | .arrive message => .ok { s with messages := s.messages ++ [message] }
  | .extract requestId job sender bodyPredicate =>
      .ok { s with messages := (popIf (responseIs requestId job sender bodyPredicate) s.messages).2 }
  | .produce =>
      match NodeJob.produce s.toProducer with
      | .error e => .error e
      | .ok producer => .ok { s with toProducer := producer }
  | .work =>
      match s.jobs with
      | [] => .ok s
      | job :: jobs => .ok { s with jobs, worked := s.worked ++ [job] }

def initial : NodeQueues := { messages := [], jobs := [] }

/-- What the event does to the message queue. -/
def callOf : QueueEvent → Option (QueueCall NodeThread Message)
  | .arrive message => some (.push message)
  | .extract requestId job sender bodyPredicate => some (.take .worker (responseIs requestId job sender bodyPredicate))
  | .produce => some (.take .producer NodeJob.takes)
  | .work => none

/-- The messages that arrive, in their order. -/
def arrivals (events : List QueueEvent) : List Message :=
  events.filterMap fun
    | .arrive message => some message
    | _ => none

variable {s s' : NodeQueues} {event : QueueEvent} {events : List QueueEvent}

theorem pushes_calls (events : List QueueEvent) : BlockingQueue.pushes (events.filterMap callOf) = arrivals events := by
  rw [BlockingQueue.pushes, List.filterMap_filterMap, arrivals]
  refine List.filterMap_congr fun event _ => ?_
  cases event <;> rfl

theorem takes_type {message : Message} (taken : NodeJob.takes message = true) :
    message.header.type = .clientRpc ∨ message.header.type = .storageHeartbeat := by
  rw [NodeJob.takes, Bool.or_eq_true, decide_eq_true_eq] at taken
  refine taken.imp_left fun request => ?_
  have matched := (Rpc.messageIs_iff.1 request).1
  simp only [Rpc.headerMatches, Bool.and_eq_true, decide_eq_true_eq] at matched
  exact matched.1.2

/-- No message is for both threads. -/
theorem takes_apart {message : Message} (taken : NodeJob.takes message = true) (requestId : UInt64) (job : StorageJob)
    (sender : NodeId) (bodyPredicate : BinaryReader → Except Exn Bool) :
    responseIs requestId job sender bodyPredicate message = false := by
  refine Bool.eq_false_iff.2 fun extracted => ?_
  rw [responseIs, Rpc.makeMessageIs, Bool.and_eq_true, Bool.and_eq_true] at extracted
  have response : message.header.type = .storageRpc := by
    have matched := extracted.1.2
    simp only [Rpc.headerMatches, Bool.and_eq_true, decide_eq_true_eq] at matched
    exact matched.1.2
  rcases takes_type taken with client | heartbeat
  · rw [client] at response
    cases response
  · rw [heartbeat] at response
    cases response

theorem calls_use (events : List QueueEvent) : ∀ c ∈ events.filterMap callOf, Served.Uses .producer NodeJob.takes c := by
  intro c mem
  obtain ⟨event, -, here⟩ := List.mem_filterMap.1 mem
  cases event with
  | arrive message =>
      cases here
      trivial
  | extract requestId job sender bodyPredicate =>
      cases here
      exact fun message taken => takes_apart taken requestId job sender bodyPredicate
  | produce =>
      cases here
      exact rfl
  | work => cases here

/-- The producer has turned what it took from the message queue into jobs. -/
structure Traces (s : NodeQueues) (q : BlockingQueue NodeThread Message) : Prop where
  messages : s.messages = q.queue
  jobs : List.Forall₂ (fun message job => NodeJob.of message = .ok (some job)) (q.poppedBy .producer) (s.worked ++ s.jobs)

/-- A message that the producer takes becomes a job, unless it is malformed. -/
theorem of_taken {message : Message} {job : Option NodeJob} (taken : NodeJob.takes message = true)
    (decoded : NodeJob.of message = .ok job) : ∃ job', job = some job' := by
  rw [NodeJob.of] at decoded
  split at decoded
  · split at decoded
    · cases decoded
    · cases decoded
      exact ⟨_, rfl⟩
  · rename_i other
    split at decoded
    · cases decoded
      exact ⟨_, rfl⟩
    · rename_i neither
      exact absurd (takes_type taken) (not_or.2 ⟨other, neither⟩)

theorem Traces.step {q : BlockingQueue NodeThread Message} (traces : Traces s q) (h : s.step event = .ok s') :
    Traces s' ((callOf event).toList.foldl BlockingQueue.call q) := by
  obtain ⟨messages, jobs⟩ := traces
  cases event with
  | arrive message =>
      cases h
      exact ⟨congrArg (· ++ [message]) messages, jobs⟩
  | extract requestId job sender bodyPredicate =>
      cases h
      refine ⟨congrArg (fun queue => (popIf _ queue).2) messages, ?_⟩
      have same : (q.call (.take .worker (responseIs requestId job sender bodyPredicate))).poppedBy .producer =
          q.poppedBy .producer := by
        simp only [BlockingQueue.poppedBy, BlockingQueue.call, List.filter_append, List.map_append]
        cases (popIf (responseIs requestId job sender bodyPredicate) q.queue).1 <;> simp
      exact same.symm ▸ jobs
  | produce =>
      have oldest := BlockingQueue.popIf_oldest NodeJob.takes s.messages
      rw [NodeQueues.step, NodeJob.produce] at h
      simp only [callOf, Option.toList_some, List.foldl_cons, List.foldl_nil, BlockingQueue.call, ← messages]
      generalize popIf NodeJob.takes s.messages = popped at h oldest ⊢
      obtain ⟨found, left⟩ := popped
      cases found with
      | none =>
          cases h
          refine ⟨rfl, ?_⟩
          simpa [BlockingQueue.poppedBy] using jobs
      | some message =>
          dsimp only at h oldest
          cases decoded : NodeJob.of message with
          | error e =>
              rw [decoded] at h
              cases h
          | ok made =>
              rw [decoded] at h
              cases h
              obtain ⟨job, rfl⟩ := of_taken oldest.1 decoded
              refine ⟨rfl, ?_⟩
              have popped : ({ queue := left, popped := q.popped ++ [(.producer, message)] } :
                  BlockingQueue NodeThread Message).poppedBy .producer = q.poppedBy .producer ++ [message] := by
                simp [BlockingQueue.poppedBy]
              change List.Forall₂ _ (BlockingQueue.poppedBy _ _) (s.worked ++ (s.jobs ++ [job]))
              rw [← List.append_assoc]
              exact popped.symm ▸ List.rel_append jobs (.cons decoded .nil)
  | work =>
      rw [NodeQueues.step] at h
      split at h
      · cases h
        exact ⟨messages, jobs⟩
      · rename_i job rest queued
        cases h
        refine ⟨messages, ?_⟩
        rw [queued] at jobs
        change List.Forall₂ _ (q.poppedBy .producer) ((s.worked ++ [job]) ++ rest)
        rwa [List.append_assoc]

theorem run_traces (h : run step initial events = .ok s) : Traces s (BlockingQueue.run (events.filterMap callOf)) := by
  have all : ∀ (events : List QueueEvent) (s₀ : NodeQueues) (q : BlockingQueue NodeThread Message), Traces s₀ q →
      run step s₀ events = .ok s → Traces s ((events.filterMap callOf).foldl BlockingQueue.call q) := by
    intro events
    induction events with
    | nil =>
        intro s₀ q traces ran
        cases ran
        exact traces
    | cons event events ih =>
        intro s₀ q traces ran
        obtain ⟨s₁, stepped, rest⟩ := run_cons ran
        have split : (event :: events).filterMap callOf = (callOf event).toList ++ events.filterMap callOf := by
          rw [List.filterMap_cons]
          cases callOf event <;> rfl
        rw [split, List.foldl_append]
        exact ih s₁ _ (traces.step stepped) rest
  exact all events initial {} ⟨rfl, .nil⟩ h

end NodeQueues

/-- The queue that several threads take from keeps its order: the items that only one of them takes
reach it in the order in which they were pushed, the others get the oldest item they look for, and
the rest is still queued. On a metadata node this makes the worker's jobs the client requests and
heartbeats in the order of their arrival. -/
theorem queue_demultiplexed {κ T : Type} [DecidableEq κ] {fixed : κ} {P : T → Bool} {calls : List (QueueCall κ T)}
    (uses : ∀ c ∈ calls, Served.Uses fixed P c) {events : List QueueEvent} {s : NodeQueues}
    (h : run NodeQueues.step NodeQueues.initial events = .ok s) :
    ((BlockingQueue.pushes calls).filter P =
        (BlockingQueue.run calls).poppedBy fixed ++ (BlockingQueue.run calls).queue.filter P ∧
      (∃ stamped : Served κ T, BlockingQueue.run calls = BlockingQueue.forget stamped ∧
        stamped.queue.Sublist (BlockingQueue.pushes calls).zipIdx ∧
        (stamped.taken.map (·.2) ++ stamped.queue).Perm (BlockingQueue.pushes calls).zipIdx ∧
        stamped.takenBy fixed <+: (BlockingQueue.pushes calls).zipIdx.filter fun entry => P entry.1) ∧
      ∀ (predicate : T → Bool) (queue : List T), match popIf predicate queue with
        | (some item, left) => predicate item = true ∧ ∃ before after, queue = before ++ item :: after ∧
            left = before ++ after ∧ ∀ other ∈ before, predicate other = false
        | (none, left) => left = queue ∧ ∀ item ∈ queue, predicate item = false) ∧
    (∀ message, NodeJob.takes message = true → ∀ requestId job sender bodyPredicate,
      NodeQueues.responseIs requestId job sender bodyPredicate message = false) ∧
    ∃ taken, (NodeQueues.arrivals events).filter NodeJob.takes = taken ++ s.messages.filter NodeJob.takes ∧
      List.Forall₂ (fun message job => NodeJob.of message = .ok (some job)) taken (s.worked ++ s.jobs) := by
  refine ⟨⟨BlockingQueue.run_forwards uses, ?_, BlockingQueue.popIf_oldest⟩,
    fun message taken => NodeQueues.takes_apart taken, ?_⟩
  · have exact := Served.run_exact calls
    have forwards := Served.run_forwards uses
    rw [Served.Forwards] at forwards
    rw [BlockingQueue.run_pushed] at forwards
    refine ⟨Served.run calls, BlockingQueue.run_forget calls, ?_, ?_, ?_⟩
    · rw [← BlockingQueue.run_pushed]
      exact exact.ordered
    · rw [← BlockingQueue.run_pushed]
      exact exact.once
    · exact ⟨_, forwards.symm⟩
  · obtain ⟨messages, jobs⟩ := NodeQueues.run_traces h
    have forwards := BlockingQueue.run_forwards (NodeQueues.calls_use events)
    rw [NodeQueues.pushes_calls, ← messages] at forwards
    exact ⟨_, forwards, jobs⟩

section Examples

/-- Two consumers of numbers; the second one takes what is not even. -/
def numberCalls : List (QueueCall Bool Nat) :=
  [.push 1, .push 2, .take true (· % 2 == 0), .push 4, .take false (· % 2 == 1)]

def heartbeatMessage : Message := ⟨⟨[98], .storage⟩, ⟨headerMagic, 0, .storageHeartbeat⟩, []⟩

/-- The worker looks for a response before the producer takes the heartbeat. -/
def heartbeatEvents : List QueueEvent :=
  [.arrive heartbeatMessage, .extract 0 .put [98] Rpc.matchAnyBody, .produce, .work]

theorem queue_demultiplexed_heartbeat : ∃ s, run NodeQueues.step NodeQueues.initial heartbeatEvents = .ok s ∧
    (BlockingQueue.pushes numberCalls).filter (· % 2 == 0) =
      (BlockingQueue.run numberCalls).poppedBy true ++ (BlockingQueue.run numberCalls).queue.filter (· % 2 == 0) ∧
    ∃ taken, (NodeQueues.arrivals heartbeatEvents).filter NodeJob.takes = taken ++ s.messages.filter NodeJob.takes ∧
      List.Forall₂ (fun message job => NodeJob.of message = .ok (some job)) taken (s.worked ++ s.jobs) := by
  have uses : ∀ c ∈ numberCalls, Served.Uses true (· % 2 == 0) c := by
    intro c mem
    simp only [numberCalls, List.mem_cons, List.not_mem_nil, or_false] at mem
    rcases mem with rfl | rfl | rfl | rfl | rfl
    · trivial
    · trivial
    · exact rfl
    · trivial
    · intro n even
      simp only [beq_iff_eq, beq_eq_false_iff_ne] at even ⊢
      omega
  obtain ⟨s, ran, -⟩ := exists_ok (r := run NodeQueues.step NodeQueues.initial heartbeatEvents) (f := fun _ => true)
    (by decide +kernel)
  obtain ⟨numbers, -, taken⟩ := queue_demultiplexed uses ran
  exact ⟨s, ran, numbers.1, taken⟩

end Examples

end Dfs
