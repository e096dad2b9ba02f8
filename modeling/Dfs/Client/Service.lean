import Dfs.Client.Replies
import Dfs.Metadata.Progress
import Dfs.System.Exchange

/-!
# A client and the metadata node among its storage nodes

A request of the client waits until the worker takes it. What the metadata node answers the
client is under way until it reaches the client's message queue, or is lost.
-/

namespace Dfs

open Lib

/-- What happens around a client. -/
inductive ServiceAct where
  /-- The worker takes one of the client's requests; `script` is what happens while it waits. -/
  | handle (i : Nat) (env : Env) (script : List (List Act))
  /-- An answer reaches the client's message queue. -/
  | arrive (i : Nat)
  | loseAnswer (i : Nat)
  /-- A step of the metadata node and its storage nodes. The requests in it are those of other clients. -/
  | other (event : SystemEvent)

structure Service where
  system : System
  client : NodeId
  requests : List Frame := []
  messageQueue : List Frame := []
  /-- Every request that the client has sent. -/
  sent : List Frame := []
  /-- An exception has ended the metadata node. -/
  ended : Bool := false
  /-- What happens while the client waits, wait for wait. -/
  script : List (List ServiceAct) := []

/-- The node that a request comes from. -/
def SystemEvent.requester : SystemEvent → Option NodeId
  | .request event _ _ => some event.context.sender.id
  | _ => none

namespace Service

def step (event : SystemEvent) (s : Service) : Service :=
  match s.system.next event with
  | .error _ => { s with ended := true }
  | .ok system => { s with system }

def handle (i : Nat) (env : Env) (script : List (List Act)) (s : Service) : Service :=
  match s.requests[i]? with
  | none => s
  | some frame =>
      let s := { s with requests := s.requests.eraseIdx i }
      match NodeJob.of (frame.from ⟨s.client, .client⟩) with
      | .error _ => { s with ended := true }
      | .ok (some (.client event)) => s.step (.request event env script)
      | .ok _ => s

/-- The answer is no longer under way. -/
def dropAnswer (i : Nat) (s : Service) : Service :=
  { s with system := { s.system with network := { s.system.network with answers := s.system.network.answers.eraseIdx i } } }

def arrive (i : Nat) (s : Service) : Service :=
  match s.system.network.answers[i]? with
  | none => s
  | some (node, frame) =>
      if node = s.client then { s.dropAnswer i with messageQueue := s.messageQueue ++ [frame] } else s

def act (s : Service) : ServiceAct → Service
  | .handle i env script => if s.ended then s else s.handle i env script
  | .arrive i => s.arrive i
  | .loseAnswer i => s.dropAnswer i
  | .other event => if s.ended ∨ event.requester = some s.client then s else s.step event

def acts (s : Service) (l : List ServiceAct) : Service := l.foldl act s

def send (frame : Frame) (s : Service) : Service := { s with requests := s.requests ++ [frame], sent := s.sent ++ [frame] }

def await (s : Service) : Service := acts { s with script := s.script.tail } (s.script.headD [])

/-- `pop_if` on the client's message queue. -/
def take (p : Message → Bool) (s : Service) : Option Message × Service :=
  match popIf (fun frame => p (frame.from s.system.network.self)) s.messageQueue with
  | (none, _) => (none, s)
  | (some frame, messageQueue) => (some (frame.from s.system.network.self), { s with messageQueue })

theorem take_accepts {p : Message → Bool} {s : Service} {m : Message} (h : (s.take p).1 = some m) : p m = true := by
  unfold take popIf at h
  split at h
  · cases h
  · rename_i found
    cases h
    have accepted := List.find?_some (Prod.mk.inj found).1
    exact accepted

instance : Network Service where
  send _ frame s := s.send frame
  receiveIf _ p s := s.await.take p
  receiveIf_accepts _ _ _ _ := take_accepts

/-! ## One request id -/

/-- The contexts of the client's requests. -/
def context (s : Service) (id : UInt64) : RequestContext := ⟨id, ⟨s.client, .client⟩⟩

/-- How far the sessions are that the metadata node has for the id. -/
def sessions (s : Service) (id : UInt64) : MetadataWorker.Sessions := s.system.worker.sessions (s.context id)

/-- A frame that the client can still get. -/
def Around (s : Service) (frame : Frame) : Prop :=
  frame ∈ s.messageQueue ∨ (s.client, frame) ∈ s.system.network.answers

/-- A request that has the id or cannot be read. -/
def concerns (client : NodeId) (id : UInt64) (frame : Frame) : Bool :=
  match NodeJob.of (frame.from ⟨client, .client⟩) with
  | .error _ => true
  | .ok (some (.client event)) => event.context.requestId = id
  | .ok _ => false

/-- The requests under way that concern the id. -/
def waiting (s : Service) (id : UInt64) : List Frame := s.requests.filter (concerns s.client id)

/-- No filter takes the frame for a response to the id. -/
def Unrelated (id : UInt64) (sender : NodeIdentity) (frame : Frame) : Prop :=
  ∀ (job : ClientJob) (node : NodeId) (body : BinaryReader → Except Exn Bool),
    Rpc.makeMessageIs id job .response node body (frame.from sender) = false

/-- The client has not used the id yet, and nothing is left of a process that did. -/
structure Unused (id : UInt64) (s : Service) : Prop where
  waiting : s.waiting id = []
  sessions : s.sessions id = (none, none)
  around : ∀ frame, s.Around frame → Unrelated id s.system.network.self frame

end Service

/-! ## What reaches the client -/

namespace Cluster

variable (c : Cluster)

theorem receiveIf_answers (timeout : Nat) (p : Message → Bool) :
    (Network.receiveIf timeout p c).2.answers = c.answers ∧ (Network.receiveIf timeout p c).2.self = c.self := by
  have waited : c.await.answers = c.answers := acts_answers _ _
  have own : c.await.self = c.self := await_self c
  simp only [Network.receiveIf, take]
  split
  · exact ⟨waited, own⟩
  · exact ⟨waited, own⟩

theorem send_answers (node : NodeId) (frame : Frame) :
    (∀ a ∈ (Network.send node frame c).answers, a ∈ c.answers ∨ a = (node, frame)) ∧
      (Network.send node frame c).self = c.self := by
  simp only [Network.send, send]
  split
  · refine ⟨fun a mem => ?_, rfl⟩
    rcases List.mem_append.1 mem with old | new
    · exact .inl old
    · exact .inr (List.mem_singleton.1 new)
  · exact ⟨fun a mem => .inl mem, rfl⟩

end Cluster

namespace System

open MetadataState

variable {s s' s₁ : System} {env : Env} {event : ClientEvent} {status : ClientStatus} {frame : Frame}

/-- Requests to storage nodes are frames of another type. -/
theorem asks_storage {worker : MetadataWorker} : Asks (fun frame => frame.header.type ≠ .clientRpc) worker event := by
  cases event with
  | writeChunk req => exact fun write _ _ => nofun
  | readChunk req => exact fun read _ id => nofun
  | remove req => exact fun m _ id => nofun
  | _ => trivial

/-- A handler answers its client, and whatever else it sends is no answer. -/
theorem handled_answers (handled : MetadataState.Handled env s event status s₁) (node : NodeId) :
    (s₁.send node frame).network.self = s.network.self ∧
      ∀ a ∈ (s₁.send node frame).network.answers,
        a ∈ s.network.answers ∨ a.2.header.type ≠ .clientRpc ∨ a = (node, frame) := by
  have used := handled_used handled (@asks_storage event s.worker)
  obtain ⟨own, answers⟩ := used.keeps
    (P := fun c : Cluster => c.self = s.network.self ∧
      ∀ a ∈ c.answers, a ∈ s.network.answers ∨ a.2.header.type ≠ .clientRpc)
    (fun c node frame holds other => by
      obtain ⟨answers, own⟩ := c.send_answers node frame
      refine ⟨own.trans holds.1, fun a mem => ?_⟩
      rcases answers a mem with old | rfl
      · exact holds.2 a old
      · exact .inr other)
    (fun c timeout p holds => by
      obtain ⟨answers, own⟩ := c.receiveIf_answers timeout p
      exact ⟨own.trans holds.1, fun a mem => holds.2 a (answers ▸ mem)⟩)
    ⟨rfl, fun a mem => .inl mem⟩
  obtain ⟨last, own'⟩ := s₁.network.send_answers node frame
  refine ⟨own'.trans own, fun a mem => ?_⟩
  rcases last a mem with old | new
  · exact (answers a old).imp_right .inl
  · exact .inr (.inr new)

end System

namespace NodeJob

variable {client : NodeId} {frame : Frame} {event : ClientEvent}

theorem of_event {m : Message} (decoded : NodeJob.of m = .ok (some (.client event))) : ClientEvent.of m = .ok event := by
  rw [NodeJob.of] at decoded
  split at decoded
  · split at decoded
    · cases decoded
    · rename_i read
      cases decoded
      exact read
  · split at decoded <;> cases decoded

/-- A request is handled for the client that it comes from. -/
theorem event_sender (decoded : NodeJob.of (frame.from ⟨client, .client⟩) = .ok (some (.client event))) :
    event.context.sender = ⟨client, .client⟩ := by
  obtain ⟨rpcMessage, read, context, -⟩ := clientEvent_read (of_event decoded)
  obtain ⟨matched, requestId, job, kind, body, same, proper⟩ := Rpc.exists_makeFrame_of_read read
  rw [context]
  rw [same] at matched read
  rw [Rpc.readMessage_matched matched proper] at read
  cases read
  rfl

end NodeJob

namespace Service

open MetadataState

variable {s s' s'' : Service} {id : UInt64} {frame : Frame} {used : List RequestKey}

theorem unrelated_of_type {sender : NodeIdentity} (other : frame.header.type ≠ .clientRpc) : Unrelated id sender frame :=
  fun _ _ _ => Bool.eq_false_iff.2 fun accepted => other (Rpc.makeMessageIs_type accepted).1

theorem unrelated_of_id {sender : NodeIdentity} {key : RequestKey} (made : key.In .response frame)
    (other : key.requestId ≠ id) : Unrelated id sender frame :=
  fun _ _ _ => Bool.eq_false_iff.2 fun accepted => other (made.accepted accepted).1

/-- From `s` to `s'` nothing happens to the session and the requests of the id, and no answer to them comes. -/
structure Aside (id : UInt64) (s s' : Service) : Prop where
  client : s'.client = s.client
  own : s'.system.network.self = s.system.network.self
  waiting : s'.waiting id = s.waiting id
  sessions : s'.sessions id = s.sessions id
  around : ∀ frame, s'.Around frame → s.Around frame ∨ Unrelated id s.system.network.self frame

theorem Aside.refl : Aside id s s := ⟨rfl, rfl, rfl, rfl, fun _ => .inl⟩

theorem Aside.trans (first : Aside id s s') (second : Aside id s' s'') : Aside id s s'' :=
  ⟨second.client.trans first.client, second.own.trans first.own, second.waiting.trans first.waiting,
    second.sessions.trans first.sessions, fun frame there =>
      (second.around frame there).elim (first.around frame) fun foreign => .inr (first.own ▸ foreign)⟩

/-- What is around may become less. -/
theorem Aside.of_around (client : s'.client = s.client) (own : s'.system.network.self = s.system.network.self)
    (requests : s'.requests = s.requests) (worker : s'.system.worker = s.system.worker)
    (around : ∀ frame, s'.Around frame → s.Around frame) : Aside id s s' := by
  refine ⟨client, own, ?_, ?_, fun frame there => .inl (around frame there)⟩
  · simp only [Service.waiting, requests, client]
  · simp only [Service.sessions, Service.context, worker, client]

theorem Aside.dropAnswer (i : Nat) : Aside id s (s.dropAnswer i) :=
  .of_around rfl rfl rfl rfl fun _ there => there.imp_right List.mem_of_mem_eraseIdx

theorem Aside.arrive (i : Nat) : Aside id s (s.arrive i) := by
  unfold Service.arrive
  split
  · exact .refl
  rename_i node frame found
  split
  · rename_i here
    refine .of_around rfl rfl rfl rfl fun other there => ?_
    rcases there with queued | under
    · rcases List.mem_append.1 queued with old | new
      · exact .inl old
      · rw [List.mem_singleton.1 new]
        subst here
        exact .inr (List.mem_of_getElem? found)
    · exact .inr (List.mem_of_mem_eraseIdx under)
  · exact .refl

/-- The handler of another request. -/
theorem Aside.handled {system : System} {event : ClientEvent} {env : Env} {script : List (List Act)}
    (other : event.context.sender.id ≠ s.client ∨ event.context.requestId ≠ id)
    (stepped : s.system.next (.request event env script) = .ok system) : Aside id s { s with system } := by
  simp only [System.next] at stepped
  split at stepped
  · cases stepped
  rename_i system' handled
  cases stepped
  obtain ⟨writes, reads⟩ := handle_others handled (s.context id) fun both => other.elim (absurd both.1.symm) (absurd both.2.symm)
  obtain ⟨status, frame, s₁, result, responds, rfl⟩ := handle_handled handled
  obtain ⟨own, answers⟩ := System.handled_answers result event.context.sender.id
  refine ⟨rfl, own, rfl, ?_, fun other' there => ?_⟩
  · exact Prod.ext (congrArg (Option.map _) writes) (congrArg (Option.map _) reads)
  · rcases there with queued | under
    · exact .inl (.inl queued)
    · rcases answers _ under with old | foreign | answer
      · exact .inl (.inr old)
      · exact .inr (unrelated_of_type foreign)
      · obtain ⟨here, rfl⟩ := Prod.mk.inj answer
        exact .inr (unrelated_of_id (RequestKey.of_responds responds) (other.resolve_left fun ne => ne here.symm))

theorem Aside.other {system : System} {event : SystemEvent} (foreign : event.requester ≠ some s.client)
    (stepped : s.system.next event = .ok system) : Aside id s { s with system } := by
  cases event with
  | request event env script => exact .handled (.inl fun same => foreign (congrArg some same)) stepped
  | storage acts =>
      cases stepped
      refine .of_around rfl (Cluster.acts_self _ _) rfl rfl fun frame there => there.imp_right fun under => ?_
      rw [← s.system.network.acts_answers acts]
      exact under
  | heartbeat now sender =>
      cases stepped
      exact ⟨rfl, rfl, rfl, rfl, fun _ => .inl⟩
  | checkTimeouts now =>
      cases stepped
      exact ⟨rfl, rfl, rfl, rfl, fun _ => .inl⟩

theorem concerns_event {event : ClientEvent}
    (decoded : NodeJob.of (frame.from ⟨s.client, .client⟩) = .ok (some (.client event))) :
    concerns s.client id frame = decide (event.context.requestId = id) := by
  rw [concerns, decoded]

/-- A step has nothing to do with the id, ends the metadata node, or handles a request that concerns the id. -/
theorem act_cases (id : UInt64) (a : ServiceAct) (s : Service) :
    Aside id s (s.act a) ∧ (s.act a).ended = s.ended ∨ (s.act a).ended = true ∨
      ∃ i frame event env script system, s.requests[i]? = some frame ∧ concerns s.client id frame = true ∧
        NodeJob.of (frame.from ⟨s.client, .client⟩) = .ok (some (.client event)) ∧
        s.system.next (.request event env script) = .ok system ∧
        s.act a = { s with requests := s.requests.eraseIdx i, system } := by
  cases a with
  | arrive i =>
      refine .inl ⟨.arrive i, ?_⟩
      simp only [act, Service.arrive]
      split
      · rfl
      · split <;> rfl
  | loseAnswer i => exact .inl ⟨.dropAnswer i, rfl⟩
  | other event =>
      simp only [act]
      split
      · exact .inl ⟨.refl, rfl⟩
      rename_i proper
      rw [step]
      split
      · exact .inr (.inl rfl)
      · rename_i system stepped
        exact .inl ⟨.other (not_or.1 proper).2 stepped, rfl⟩
  | handle i env script =>
      simp only [act]
      split
      · exact .inl ⟨.refl, rfl⟩
      rename_i running
      rw [Service.handle]
      split
      · exact .inl ⟨.refl, rfl⟩
      rename_i frame found
      let rest : Service := { s with requests := s.requests.eraseIdx i }
      -- taking a request that does not concern the id
      have taken : concerns s.client id frame = false → Aside id s rest := fun foreign =>
        ⟨rfl, rfl, filter_eraseIdx_other found foreign, rfl, fun _ => .inl⟩
      dsimp only
      split
      · exact .inr (.inl rfl)
      · rename_i event decoded
        rw [step]
        split
        · exact .inr (.inl rfl)
        rename_i system stepped
        by_cases here : event.context.requestId = id
        · exact .inr (.inr ⟨i, frame, event, env, script, system, found, by rw [concerns_event decoded]; simp [here],
            decoded, stepped, rfl⟩)
        · have handled : Aside id rest { rest with system } := .handled (.inr here) stepped
          exact .inl ⟨(taken (by rw [concerns_event decoded]; simp [here])).trans handled, rfl⟩
      · rename_i job decoded ok
        refine .inl ⟨taken ?_, rfl⟩
        rw [concerns, ok]
        split <;> simp_all

end Service

/-! ## One request of the client -/

/-- A request, the filter for its answer, and what an answer says of the sessions where they were `before`. -/
structure Question where
  key : RequestKey
  request : Frame
  node : NodeId
  body : BinaryReader → Except Exn Bool
  before : MetadataWorker.Sessions
  after : Frame → MetadataWorker.Sessions → Prop

/-- The handler of `event` leaves what `after` says. -/
def ClientEvent.Concludes (event : ClientEvent) (before : MetadataWorker.Sessions)
    (after : Frame → MetadataWorker.Sessions → Prop) : Prop :=
  ∀ (env : Env) (s s' : System), s.worker.sessions event.context = before → s.handle env event = (.ok (), s') →
    ∃ status frame s₁, MetadataState.Handled env (s.entered env) event status s₁ ∧ Responds event status frame ∧
      s' = s₁.send event.context.sender.id frame ∧ after frame (s'.worker.sessions event.context)

namespace Question

def filter (q : Question) : Message → Bool := Rpc.makeMessageIs q.key.requestId q.key.job .response q.node q.body

structure Proper (client : NodeId) (q : Question) : Prop where
  made : q.key.In .request q.request
  chunk : ∀ i, q.key.chunkIndex = some i → q.body = Rpc.matchChunk i
  concludes : ∀ event, NodeJob.of (q.request.from ⟨client, .client⟩) = .ok (some (.client event)) →
    event.Concludes q.before q.after

end Question

namespace Service

/-- Every frame around is unrelated to the id, an answer to one of the requests in `used`, or `frame`. -/
def Answers (id : UInt64) (used : List RequestKey) (s : Service) (allowed : Frame → Prop) : Prop :=
  ∀ frame, s.Around frame → Unrelated id s.system.network.self frame ∨ (∃ key ∈ used, key.In .response frame) ∨ allowed frame

/-- No request that concerns the id is under way. -/
structure Idle (client : NodeId) (id : UInt64) (used : List RequestKey) (v : MetadataWorker.Sessions) (s : Service) : Prop where
  client : s.client = client
  waiting : s.waiting id = []
  sessions : s.sessions id = v
  answers : Answers id used s fun _ => False

/-- The client has sent a request and not received an answer. -/
inductive Asking (client : NodeId) (q : Question) (used : List RequestKey) (s : Service) : Prop where
  | waiting (client : s.client = client) (one : s.waiting q.key.requestId = [q.request])
      (same : s.sessions q.key.requestId = q.before) (answers : Answers q.key.requestId used s fun _ => False)
  | answered (client : s.client = client) (none : s.waiting q.key.requestId = []) (frame : Frame)
      (after : q.after frame (s.sessions q.key.requestId)) (made : q.key.In .response frame)
      (answers : Answers q.key.requestId used s (· = frame))

variable {s s' : Service} {id : UInt64} {frame : Frame} {used : List RequestKey} {client : NodeId} {q : Question}
  {v : MetadataWorker.Sessions} {allowed : Frame → Prop}

theorem Unused.idle (unused : s.Unused id) : s.Idle s.client id [] (none, none) :=
  ⟨rfl, unused.waiting, unused.sessions, fun frame there => .inl (unused.around frame there)⟩

theorem Answers.aside (answers : Answers id used s allowed) (aside : Aside id s s') : Answers id used s' allowed :=
  fun frame there => by
    rw [aside.own]
    exact (aside.around frame there).elim (answers frame) .inl

theorem Idle.aside (idle : s.Idle client id used v) (aside : Aside id s s') : s'.Idle client id used v :=
  ⟨aside.client.trans idle.client, aside.waiting.trans idle.waiting, aside.sessions.trans idle.sessions,
    idle.answers.aside aside⟩

theorem Asking.aside (asked : s.Asking client q used) (aside : Aside q.key.requestId s s') : s'.Asking client q used := by
  cases asked with
  | waiting here one same answers =>
      exact .waiting (aside.client.trans here) (aside.waiting.trans one) (aside.sessions.trans same) (answers.aside aside)
  | answered here none frame after made answers =>
      exact .answered (aside.client.trans here) (aside.waiting.trans none) frame (aside.sessions ▸ after) made
        (answers.aside aside)

theorem act_ended (ended : s.ended = true) (a : ServiceAct) : (s.act a).ended = true := by
  cases a with
  | handle i env script => simp [act, ended]
  | other event => simp [act, ended]
  | loseAnswer i => exact ended
  | arrive i =>
      simp only [act, arrive]
      split
      · exact ended
      · split <;> exact ended

/-- What holds of `s` unless the metadata node has ended. -/
def Unless (P : Service → Prop) (s : Service) : Prop := s.ended = true ∨ P s

theorem Unless.acts {P : Service → Prop} (holds : s.Unless P) (step : ∀ s a, P s → (s.act a).Unless P)
    (l : List ServiceAct) : (s.acts l).Unless P := by
  induction l generalizing s with
  | nil => exact holds
  | cons a l ih =>
      refine ih ?_
      rcases holds with ended | holds
      · exact .inl (act_ended ended a)
      · exact step s a holds

theorem Idle.act (a : ServiceAct) (idle : s.Idle client id used v) : (s.act a).Unless (Idle client id used v) := by
  rcases act_cases id a s with ⟨aside, -⟩ | ended | ⟨i, frame, event, env, script, system, found, concerned, -⟩
  · exact .inr (idle.aside aside)
  · exact .inl ended
  · have there : frame ∈ s.waiting id := List.mem_filter.2 ⟨List.mem_of_getElem? found, concerned⟩
    rw [idle.waiting] at there
    cases there

/-- The handler of the request that is under way. -/
theorem Asking.act (proper : q.Proper client) (a : ServiceAct) (asked : s.Asking client q used) :
    (s.act a).Unless (Asking client q used) := by
  rcases act_cases q.key.requestId a s with
    ⟨aside, -⟩ | ended | ⟨i, frame, event, env, script, system, found, concerned, decoded, stepped, result⟩
  · exact .inr (asked.aside aside)
  · exact .inl ended
  cases asked with
  | answered here none frame' after made answers =>
      have there : frame ∈ s.waiting q.key.requestId := List.mem_filter.2 ⟨List.mem_of_getElem? found, concerned⟩
      rw [none] at there
      cases there
  | waiting here one same answers =>
      subst here
      obtain ⟨rfl, none⟩ := filter_eraseIdx_only found concerned one
      have key : event.key = q.key := proper.made.read (NodeJob.of_event decoded)
      have context : s.context q.key.requestId = event.context := by
        rw [← key, Service.context, ← NodeJob.event_sender decoded]
        rfl
      rw [Service.sessions, context] at same
      simp only [System.next] at stepped
      split at stepped
      · cases stepped
      rename_i handled
      cases stepped
      obtain ⟨status, frame, s₁, computed, responds, rfl, after⟩ := proper.concludes event decoded env (s.system.scripted script) _ same handled
      obtain ⟨own, frames⟩ := System.handled_answers computed event.context.sender.id
      have made : q.key.In .response frame := key ▸ RequestKey.of_responds responds
      rw [result]
      refine .inr (.answered rfl none frame ?_ made fun other there => ?_)
      · change q.after frame (MetadataWorker.sessions _ (s.context q.key.requestId))
        rw [context]
        exact after
      · rcases there with queued | under
        · exact (answers other (.inl queued)).imp (fun foreign => own ▸ foreign) (.imp_right nofun)
        · rcases frames _ under with old | foreign | answer
          · exact (answers other (.inr old)).imp (fun foreign => own ▸ foreign) (.imp_right nofun)
          · exact .inl (unrelated_of_type foreign)
          · exact .inr (.inr (Prod.mk.inj answer).2)

theorem Aside.scripted (script : List (List ServiceAct)) : Aside id s { s with script } :=
  .of_around rfl rfl rfl rfl fun _ there => there

theorem Asking.await (proper : q.Proper client) (asked : s.Unless (Asking client q used)) :
    s.await.Unless (Asking client q used) := by
  have waits : Unless (Asking client q used) { s with script := s.script.tail } := asked.imp_right fun asked => asked.aside (.scripted _)
  exact waits.acts (fun s a asked => asked.act proper a) _

theorem Aside.take (p : Message → Bool) : Aside id s (s.take p).2 := by
  unfold Service.take popIf
  split
  · exact .refl
  · rename_i popped
    refine .of_around rfl rfl rfl rfl fun frame there => there.imp_left fun queued => ?_
    exact List.mem_of_mem_eraseP ((Prod.mk.inj popped).2 ▸ queued)

theorem take_around {p : Message → Bool} {m : Message} (found : (s.take p).1 = some m) :
    ∃ frame, s.Around frame ∧ m = frame.from s.system.network.self := by
  unfold Service.take popIf at found
  split at found
  · cases found
  · rename_i frame messageQueue popped
    cases found
    exact ⟨frame, .inl (List.mem_of_find?_eq_some (Prod.mk.inj popped).1), rfl⟩

/-- What the filter takes is the answer. -/
theorem Asking.take (proper : q.Proper client) (new : q.key ∉ used) (asked : s.Asking client q used) :
    (s.take q.filter).2.Asking client q used ∧ ∀ m, (s.take q.filter).1 = some m →
      ∃ frame v, m = frame.from s.system.network.self ∧ q.after frame v ∧
        (s.take q.filter).2.Idle client q.key.requestId (q.key :: used) v := by
  refine ⟨asked.aside (.take _), fun m found => ?_⟩
  obtain ⟨frame, there, rfl⟩ := take_around found
  have accepted : q.filter (frame.from s.system.network.self) = true := take_accepts found
  -- it is neither unrelated nor an answer to an earlier request
  have only : ∀ {allowed}, Answers q.key.requestId used s allowed → allowed frame := fun answers => by
    rcases answers frame there with foreign | ⟨key, mem, made⟩ | here
    · have refused := foreign q.key.job q.node q.body
      rw [Question.filter, refused] at accepted
      cases accepted
    · have same := (Client.selects proper.made proper.chunk _ accepted).2 key frame _ rfl made
      have key_eq : key = q.key := same
      exact absurd (key_eq ▸ mem) new
    · exact here
  cases asked with
  | waiting here one same answers => exact (only answers).elim
  | answered here none frame' after made answers =>
      cases only answers
      refine ⟨frame, s.sessions q.key.requestId, rfl, after, Idle.aside ⟨here, none, rfl, fun other around => ?_⟩ (.take _)⟩
      rcases answers other around with foreign | ⟨key, mem, made'⟩ | rfl
      · exact .inl foreign
      · exact .inr (.inl ⟨key, List.mem_cons_of_mem _ mem, made'⟩)
      · exact .inr (.inl ⟨q.key, List.mem_cons_self, made⟩)

theorem concerns_request {key : RequestKey} (made : key.In .request frame) : concerns client key.requestId frame = true := by
  unfold concerns
  split
  · rfl
  · rename_i decoded
    rw [← made.read (NodeJob.of_event decoded)]
    exact decide_eq_true rfl
  · rename_i job other ok
    obtain ⟨-, rest, rfl⟩ := made
    unfold NodeJob.of at ok
    split at ok
    · split at ok
      · cases ok
      · cases ok
        exact (other _ rfl).elim
    · rename_i foreign
      exact absurd rfl foreign

theorem Idle.send (proper : q.Proper client) (idle : s.Idle client q.key.requestId used q.before) :
    (s.send q.request).Asking client q used := by
  have one : (s.send q.request).waiting q.key.requestId = [q.request] := by
    have none := idle.waiting
    rw [Service.waiting] at none ⊢
    change List.filter _ (s.requests ++ [q.request]) = _
    rw [List.filter_append, show (s.send q.request).client = s.client from rfl, none,
      List.filter_cons_of_pos (concerns_request proper.made)]
    rfl
  exact .waiting idle.client one idle.sessions fun frame there => idle.answers frame there

theorem act_sent (s : Service) (a : ServiceAct) : (s.act a).sent = s.sent := by
  cases a <;> simp only [act, handle, arrive, step] <;> repeat' split
  all_goals rfl

theorem acts_sent (s : Service) (l : List ServiceAct) : (s.acts l).sent = s.sent := by
  induction l generalizing s with
  | nil => rfl
  | cons a l ih => exact (ih _).trans (s.act_sent a)

theorem take_sent (p : Message → Bool) : (s.take p).2.sent = s.sent := by
  unfold Service.take
  split <;> rfl

end Service

namespace Client

variable {c c' : Client Service} {q : Question} {used : List RequestKey} {client : NodeId} {seconds : Nat}

open Service

/-- A request and the wait for its answer. -/
theorem call_asked {r : Except Exn (Except ClientError ClientRpcMessage)} (proper : q.Proper client) (new : q.key ∉ used)
    (dest : q.node = c.metadataNodeId) (idle : c.network.Unless (Idle client q.key.requestId used q.before))
    (called : c.call q.key.requestId q.key.job seconds q.body q.request = (r, c')) :
    c' = { c with network := c'.network } ∧ c'.network.sent = c.network.sent ++ [q.request] ∧
      c'.network.Unless (Asking client q used) ∧ (∀ e, r = .ok (.error e) → e = .timeout ∨ e = .badResponse) ∧
      ∀ rpcMessage, r = .ok (.ok rpcMessage) → c'.network.Unless fun s =>
        ∃ frame sender v, Rpc.readMessage ClientJob (Frame.from frame sender) = .ok rpcMessage ∧ q.after frame v ∧
          s.Idle client q.key.requestId (q.key :: used) v := by
  have sent : (c.network.send q.request).Unless (Asking client q used) := idle.imp_right fun idle => idle.send proper
  have waited := Asking.await proper sent
  have all : ((c.network.send q.request).await.take q.filter).2.sent = c.network.sent ++ [q.request] :=
    (take_sent _).trans (acts_sent _ _)
  have ended : (c.network.send q.request).await.ended = true →
      ((c.network.send q.request).await.take q.filter).2.ended = true := fun ended => by
    unfold Service.take
    split <;> exact ended
  have received : Network.receiveIf seconds (Rpc.makeMessageIs q.key.requestId q.key.job .response c.metadataNodeId q.body)
      (Network.send c.metadataNodeId q.request c.network) = (c.network.send q.request).await.take q.filter := by
    rw [Question.filter, dest]
    rfl
  have asked : ((c.network.send q.request).await.take q.filter).2.Unless (Asking client q used) :=
    waited.imp ended fun asked => (asked.take proper new).1
  rw [call, received] at called
  rcases got : (c.network.send q.request).await.take q.filter with ⟨m, network⟩
  have answer : ∀ message, m = some message → network.Unless fun s =>
      ∃ frame sender v, message = Frame.from frame sender ∧ q.after frame v ∧
        s.Idle client q.key.requestId (q.key :: used) v := by
    rintro message rfl
    refine waited.imp (fun late => by rw [got] at ended; exact ended late) fun asked => ?_
    obtain ⟨frame, v, from_, after, idle⟩ := (asked.take proper new).2 message (by rw [got])
    rw [got] at idle
    exact ⟨frame, _, v, from_, after, idle⟩
  rw [got] at called all asked
  cases m with
  | none =>
      cases called
      refine ⟨rfl, all, asked, fun e same => ?_, fun rpcMessage same => ?_⟩
      · cases same
        exact .inl rfl
      · cases same
  | some message =>
      dsimp only at called
      split at called
      · cases called
        refine ⟨rfl, all, asked, fun e same => ?_, fun rpcMessage same => ?_⟩
        · cases same
        · cases same
      rename_i rpcMessage read
      split at called
      · cases called
        refine ⟨rfl, all, asked, fun e same => ?_, fun rpcMessage same => ?_⟩
        · cases same
          exact .inr rfl
        · cases same
      · cases called
        refine ⟨rfl, all, asked, fun e same => ?_, fun rpcMessage' same => (answer message rfl).imp_right ?_⟩
        · cases same
        · cases same
          rintro ⟨frame, sender, v, rfl, after, idle⟩
          exact ⟨frame, sender, v, read, after, idle⟩

end Client

end Dfs
