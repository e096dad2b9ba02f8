import Dfs.Common.BlockingQueue
import Dfs.Lib.Run
import Dfs.Metadata.Responses
import Dfs.System.Producers

/-!
# Who is given up (`MetadataNode::start`)

A heartbeat counts from the moment at which the worker handles it, and before that it waits: for the
producer thread, and behind other jobs in the one queue of the worker. By an explicit clock: a node
that keeps beating is given up exactly where one of its heartbeats has waited for too long.
-/

namespace Dfs

open Lib

/-- What the worker thread does, and since when. -/
inductive WorkerPhase where
  | popping
  | handling (job : NodeJob) (since : TimePoint)
  | checking
  deriving DecidableEq

structure TimedNode (ν : Type) where
  state : MetadataState ν
  /-- The messages that are not replies to the worker, and the jobs. -/
  queues : Producer NodeJob
  phase : WorkerPhase
  clock : TimePoint
  /-- When the last heartbeat of a node has arrived. -/
  arrived : Assoc NodeId TimePoint

inductive TimedAct where
  /-- The network thread puts a message into the message queue. -/
  | arrive (message : Message)
  | produce
  | pop
  /-- `pop_with_timeout` gives up. -/
  | giveUp
  /-- The handler is done with the job. -/
  | handle (env : Env)
  | check

/-- A step and the clock at it. -/
structure TimedEvent where
  now : TimePoint
  act : TimedAct

/-- The clock as a number. -/
def TimePoint.ticks (t : TimePoint) : Int := t.nanoseconds.toInt

namespace TimedNode

open MetadataWorker

variable {ν : Type} [Network ν]

/-- A thread that is not there yet does not take its step. -/
def next (s : TimedNode ν) (e : TimedEvent) : Except Exn (TimedNode ν) :=
  let s := { s with clock := e.now }
  match e.act with
  | .arrive message =>
      .ok { s with
        queues := { s.queues with messages := s.queues.messages ++ [message] }
        arrived :=
          if message.header.type = .storageHeartbeat then s.arrived.insert message.sender.id e.now else s.arrived }
  | .produce =>
      match NodeJob.produce s.queues with
      | .error e => .error e
      | .ok queues => .ok { s with queues }
  | .pop =>
      match s.phase, s.queues.jobs with
      | .popping, job :: jobs => .ok { s with queues := { s.queues with jobs }, phase := .handling job e.now }
      | _, _ => .ok s
  | .giveUp =>
      match s.phase, s.queues.jobs with
      | .popping, [] => .ok { s with phase := .checking }
      | _, _ => .ok s
  | .handle env =>
      match s.phase with
      | .handling (.client event) _ =>
          match MetadataState.handle env event s.state with
          | (.error e, _) => .error e
          | (.ok _, state) => .ok { s with state, phase := .checking }
      | .handling (.heartbeat sender) _ =>
          .ok { s with state := { s.state with worker := s.state.worker.handleHeartbeat e.now sender }, phase := .checking }
      | _ => .ok s
  | .check =>
      match s.phase with
      | .checking =>
          .ok { s with state := { s.state with worker := s.state.worker.checkHeartbeatTimeouts e.now }, phase := .popping }
      | _ => .ok s

def run (s : TimedNode ν) (events : List TimedEvent) : Except Exn (TimedNode ν) := Lib.run next s events

/-- A heartbeat of `x` is in one of the two queues. -/
def Queued (x : NodeId) (queues : Producer NodeJob) : Prop :=
  (∃ m ∈ queues.messages, m.header.type = .storageHeartbeat ∧ m.sender.id = x) ∨
    ∃ sender, .heartbeat sender ∈ queues.jobs ∧ sender.id = x

/-- A heartbeat of `x` has arrived and is not handled yet. -/
def Waiting (x : NodeId) (s : TimedNode ν) : Prop :=
  Queued x s.queues ∨ ∃ sender since, s.phase = .handling (.heartbeat sender) since ∧ sender.id = x

/-- The clock goes forward, and `x` keeps beating: its last heartbeat is never as old as `heartbeat_timeout_`. -/
structure Beats (x : NodeId) (s : TimedNode ν) (e : TimedEvent) : Prop where
  positive : 0 ≤ e.now.ticks
  forward : s.clock.ticks ≤ e.now.ticks
  beats : ∀ t, s.arrived.lookup x = some t → e.now.ticks - t.ticks < heartbeatTimeout.toInt

/-- No check finds `x` silent for `heartbeat_timeout_` while one of its heartbeats waits. -/
def Served (x : NodeId) (s : TimedNode ν) (e : TimedEvent) : Prop :=
  e.act = .check → s.phase = .checking → s.Waiting x → ∀ t, s.state.worker.sight x = some (t, true) →
    e.now.ticks - t.ticks < heartbeatTimeout.toInt

/-- The node has just been started. -/
structure Started (s : TimedNode ν) : Prop where
  nodes : s.state.worker.storageNodes = ∅
  queues : s.queues = { messages := [], jobs := [] }
  phase : s.phase = .popping
  arrived : s.arrived = ∅
  clock : 0 ≤ s.clock.ticks

variable {x : NodeId} {s s' : TimedNode ν} {e : TimedEvent}

/-- The producer thread moves heartbeats on and loses none. -/
theorem produce_queued {queues queues' : Producer NodeJob} (h : NodeJob.produce queues = .ok queues') :
    Queued x queues' ↔ Queued x queues := by
  obtain ⟨messages, jobs⟩ := queues
  have oldest := BlockingQueue.popIf_oldest NodeJob.takes messages
  simp only [NodeJob.produce] at h
  rcases popped : popIf NodeJob.takes messages with ⟨found, left⟩
  rw [popped] at h oldest
  cases found with
  | none =>
      cases h
      rw [oldest.1]
  | some message =>
      dsimp only at h oldest
      obtain ⟨-, before, after, rfl, rfl, -⟩ := oldest
      cases decoded : NodeJob.of message with
      | error e =>
          rw [decoded] at h
          cases h
      | ok job =>
          rw [decoded] at h
          cases h
          have here : message.header.type = .storageHeartbeat ∧ message.sender.id = x ↔
              ∃ sender, job = some (.heartbeat sender) ∧ sender.id = x := by
            constructor
            · rintro ⟨type, same⟩
              have known := NodeJob.of_heartbeat.2 ⟨type, rfl⟩
              exact ⟨message.sender, Except.ok.inj (decoded.symm.trans known), same⟩
            · rintro ⟨sender, rfl, same⟩
              obtain ⟨type, rfl⟩ := NodeJob.of_heartbeat.1 decoded
              exact ⟨type, same⟩
          have moved : (∃ sender, NodeJob.heartbeat sender ∈ jobs ++ job.toList ∧ sender.id = x) ↔
              (∃ sender, NodeJob.heartbeat sender ∈ jobs ∧ sender.id = x) ∨
                message.header.type = .storageHeartbeat ∧ message.sender.id = x := by
            rw [here]
            simp only [List.mem_append, Option.mem_toList, or_and_right, exists_or]
          rw [Queued, Queued, moved]
          simp only [List.mem_append, List.mem_cons, or_and_right, exists_or, exists_eq_left]
          simp only [or_comm, or_left_comm]
          exact or_assoc.symm

/-! ## What is known about a node -/

/-- A node that is known was seen after its last heartbeat has arrived, unless a later one waits. -/
structure Heard (x : NodeId) (s : TimedNode ν) : Prop where
  clock : 0 ≤ s.clock.ticks
  arrival : ∀ t, s.arrived.lookup x = some t → t.ticks ≤ s.clock.ticks
  waiting : s.Waiting x → (s.arrived.lookup x).isSome = true
  seen : ∀ t a, s.state.worker.sight x = some (t, a) → 0 ≤ t.ticks ∧ t.ticks ≤ s.clock.ticks ∧
    ∃ t', s.arrived.lookup x = some t' ∧ (¬ s.Waiting x → t'.ticks ≤ t.ticks)

omit [Network ν] in
/-- A step in which no heartbeat of `x` arrives or is handled. -/
theorem Heard.aside (heard : s.Heard x) (forward : s.clock.ticks ≤ s'.clock.ticks)
    (arrived : s'.arrived.lookup x = s.arrived.lookup x) (waiting : s'.Waiting x ↔ s.Waiting x)
    (seen : ∀ t a, s'.state.worker.sight x = some (t, a) → ∃ a', s.state.worker.sight x = some (t, a')) : s'.Heard x where
  clock := Int.le_trans heard.clock forward
  arrival t there := by
    rw [arrived] at there
    exact Int.le_trans (heard.arrival t there) forward
  waiting waits := by
    rw [arrived]
    exact heard.waiting (waiting.1 waits)
  seen t a there := by
    obtain ⟨a', before⟩ := seen t a there
    obtain ⟨positive, past, t', last, order⟩ := heard.seen t a' before
    rw [arrived, waiting]
    exact ⟨positive, Int.le_trans past forward, t', last, order⟩

theorem check_sight {w : MetadataWorker} {now : TimePoint} : (w.checkHeartbeatTimeouts now).sight x =
    (w.sight x).map fun seen => (seen.1, seen.2 && !decide (heartbeatTimeout ≤ now.nanoseconds - seen.1.nanoseconds)) := by
  rw [sight, checkHeartbeatTimeouts, Assoc.lookup_mapValues, sight, Option.map_map, Option.map_map]
  congr 1
  funext info
  obtain ⟨lastSeen, bytesLeft, available⟩ := info
  simp only [Function.comp_apply]
  cases available with
  | false => simp
  | true =>
      simp only [Bool.true_and, decide_eq_true_eq]
      split <;> simp_all

theorem heartbeat_sight {w : MetadataWorker} {now : TimePoint} {sender : NodeIdentity} :
    (w.handleHeartbeat now sender).sight x = if x = sender.id then some (now, true) else w.sight x := by
  rw [sight, handleHeartbeat]
  dsimp only
  rw [Assoc.lookup_insert_ite]
  split
  · cases w.storageNodes.lookup sender.id <;> rfl
  · rfl

omit [Network ν] in
/-- Only a heartbeat of `x` in the worker's hand waits outside the queues. -/
theorem waiting_queued (hand : ∀ sender since, s.phase = .handling (.heartbeat sender) since → sender.id ≠ x) :
    s.Waiting x ↔ Queued x s.queues :=
  or_iff_left fun ⟨sender, since, phase, same⟩ => hand sender since phase same

theorem next_heard (heard : s.Heard x) (beats : Beats x s e) (h : s.next e = .ok s') : s'.Heard x := by
  obtain ⟨now, act⟩ := e
  obtain ⟨positive, forward, -⟩ := beats
  dsimp only at positive forward
  have same : ({ s with clock := now } : TimedNode ν).Heard x := heard.aside forward rfl Iff.rfl fun t a there => ⟨a, there⟩
  cases act with
  | arrive message =>
      cases h
      by_cases own : message.header.type = .storageHeartbeat ∧ message.sender.id = x
      · have last : (if message.header.type = .storageHeartbeat then s.arrived.insert message.sender.id now
            else s.arrived).lookup x = some now := by
          rw [if_pos own.1, Assoc.lookup_insert_ite, if_pos own.2.symm]
        refine ⟨positive, fun t there => ?_, fun _ => ?_, fun t a there => ?_⟩
        · cases last.symm.trans there
          exact Int.le_refl _
        · rw [last]
          rfl
        · obtain ⟨before, past, -⟩ := heard.seen t a there
          refine ⟨before, Int.le_trans past forward, now, last, fun idle => absurd ?_ idle⟩
          exact .inl (.inl ⟨message, by simp, own⟩)
      · refine heard.aside forward ?_ ?_ fun t a there => ⟨a, there⟩
        · dsimp only
          split
          · rename_i type
            rw [Assoc.lookup_insert_ite, if_neg fun same => own ⟨type, same.symm⟩]
          · rfl
        · simp only [Waiting, Queued, List.mem_append, List.mem_singleton, or_and_right, exists_or, exists_eq_left, own, or_false]
  | produce =>
      simp only [next] at h
      split at h
      · cases h
      rename_i queues produced
      cases h
      refine heard.aside forward rfl ?_ fun t a there => ⟨a, there⟩
      rw [Waiting, Waiting, produce_queued produced]
  | pop =>
      simp only [next] at h
      split at h
      · rename_i job jobs phase queue
        cases h
        refine heard.aside forward rfl ?_ fun t a there => ⟨a, there⟩
        rw [waiting_queued (s := s) (by rw [phase]; rintro _ _ ⟨⟩), Waiting, Queued, Queued, queue]
        have hand : (∃ sender since, WorkerPhase.handling job now = .handling (.heartbeat sender) since ∧ sender.id = x) ↔
            ∃ sender, NodeJob.heartbeat sender = job ∧ sender.id = x := by
          constructor
          · rintro ⟨sender, since, same, here⟩
            cases same
            exact ⟨sender, rfl, here⟩
          · rintro ⟨sender, rfl, here⟩
            exact ⟨sender, now, rfl, here⟩
        rw [hand]
        simp only [List.mem_cons, or_and_right, exists_or]
        rw [or_assoc]
        exact or_congr_right or_comm
      · cases h
        exact same
  | giveUp =>
      simp only [next] at h
      split at h
      · rename_i phase queue
        cases h
        refine heard.aside forward rfl ?_ fun t a there => ⟨a, there⟩
        rw [waiting_queued (by rintro _ _ ⟨⟩), waiting_queued (by rw [phase]; rintro _ _ ⟨⟩)]
      · cases h
        exact same
  | handle env =>
      simp only [next] at h
      split at h
      · rename_i event since phase
        split at h
        · cases h
        rename_i state handled
        cases h
        have seen := MetadataState.handle_seen handled x
        refine heard.aside forward rfl ?_ fun t a there => ⟨a, seen ▸ there⟩
        rw [waiting_queued (by rintro _ _ ⟨⟩), waiting_queued (by rw [phase]; rintro _ _ ⟨⟩)]
      · rename_i sender since phase
        cases h
        by_cases own : x = sender.id
        · have waits : s.Waiting x := .inr ⟨sender, since, phase, own.symm⟩
          obtain ⟨last, arrived⟩ := Option.isSome_iff_exists.1 (heard.waiting waits)
          refine ⟨positive, same.arrival, fun _ => heard.waiting waits, fun t a there => ?_⟩
          rw [heartbeat_sight, if_pos own] at there
          cases there
          exact ⟨positive, Int.le_refl _, last, arrived, fun _ => same.arrival last arrived⟩
        · refine heard.aside forward rfl ?_ fun t a there => ⟨a, ?_⟩
          · have others : ∀ other since', s.phase = .handling (.heartbeat other) since' → other.id ≠ x := by
              intro other since' phase' here
              cases phase.symm.trans phase'
              exact own here.symm
            rw [waiting_queued (by rintro _ _ ⟨⟩), waiting_queued others]
          · rwa [heartbeat_sight, if_neg own] at there
      · cases h
        exact same
  | check =>
      simp only [next] at h
      split at h
      · rename_i phase
        cases h
        refine heard.aside forward rfl ?_ fun t a there => ?_
        · rw [waiting_queued (by rintro _ _ ⟨⟩), waiting_queued (by rw [phase]; rintro _ _ ⟨⟩)]
        · rw [check_sight, Option.map_eq_some_iff] at there
          obtain ⟨⟨t', a'⟩, before, eq⟩ := there
          cases eq
          exact ⟨a', before⟩
      · cases h
        exact same

/-! ## Who is given up -/

theorem late_iff {now seen : TimePoint} (positive : 0 ≤ seen.ticks) (past : seen.ticks ≤ now.ticks) :
    heartbeatTimeout ≤ now.nanoseconds - seen.nanoseconds ↔ heartbeatTimeout.toInt ≤ now.ticks - seen.ticks := by
  have zero : (0 : Int64).toInt = 0 := rfl
  rw [Int64.le_iff_toInt_le, Int64.toInt_sub_of_le _ _ (by rw [Int64.le_iff_toInt_le, zero]; exact positive)
    (Int64.le_iff_toInt_le.2 past)]
  rfl

omit [Network ν] in
/-- A check gives up a node that keeps beating exactly where one of its heartbeats waits and the last one was handled too
long ago. -/
theorem Heard.given_up_iff {now t : TimePoint} (heard : s.Heard x) (beats : Beats x s ⟨now, .check⟩)
    (available : s.state.worker.sight x = some (t, true)) :
    (s.state.worker.checkHeartbeatTimeouts now).sight x = some (t, false) ↔
      s.Waiting x ∧ heartbeatTimeout.toInt ≤ now.ticks - t.ticks := by
  obtain ⟨positive, past, last, arrived, order⟩ := heard.seen t true available
  have late := @late_iff now t positive (Int.le_trans past beats.forward)
  rw [check_sight, available, Option.map_some, Option.some_inj, Prod.mk.injEq]
  simp only [Bool.true_and, true_and, Bool.not_eq_false', decide_eq_true_eq]
  rw [late]
  constructor
  · intro given
    refine ⟨?_, given⟩
    by_contra idle
    have recent := beats.beats last arrived
    have before := order idle
    dsimp only at recent
    omega
  · exact And.right

/-- What every state on the way has to satisfy. -/
def Available (x : NodeId) (s : TimedNode ν) : Prop := ∀ t a, s.state.worker.sight x = some (t, a) → a = true

/-- Only a check can give up a node. -/
theorem next_available (quiet : e.act ≠ .check) (available : s.Available x) (h : s.next e = .ok s') : s'.Available x := by
  obtain ⟨now, act⟩ := e
  cases act with
  | arrive message =>
      cases h
      exact available
  | produce =>
      simp only [next] at h
      split at h <;> cases h
      exact available
  | pop =>
      simp only [next] at h
      split at h <;> cases h <;> exact available
  | giveUp =>
      simp only [next] at h
      split at h <;> cases h <;> exact available
  | handle env =>
      simp only [next] at h
      split at h
      · split at h
        · cases h
        · rename_i handled
          cases h
          have seen := MetadataState.handle_seen handled x
          exact fun t a there => available t a (seen ▸ there)
      · cases h
        intro t a there
        rw [heartbeat_sight] at there
        split at there
        · cases there
          rfl
        · exact available t a there
      · cases h
        exact available
  | check => exact absurd rfl quiet

theorem next_available_iff (heard : s.Heard x) (beats : Beats x s e) (available : s.Available x) (h : s.next e = .ok s') :
    s'.Available x ↔ Served x s e := by
  obtain ⟨now, act⟩ := e
  cases act with
  | check =>
      simp only [next] at h
      split at h
      · rename_i phase
        cases h
        have served : Served x s ⟨now, .check⟩ ↔ (s.Waiting x → ∀ t, s.state.worker.sight x = some (t, true) →
            now.ticks - t.ticks < heartbeatTimeout.toInt) := ⟨fun all => all rfl phase, fun all _ _ => all⟩
        rw [served]
        constructor
        · intro kept waits t here
          by_contra late
          have given := (heard.given_up_iff beats here).2 ⟨waits, Int.not_lt.1 late⟩
          cases kept t false given
        · intro all t a there
          cases a with
          | true => rfl
          | false =>
              have looked := there
              rw [check_sight, Option.map_eq_some_iff] at looked
              obtain ⟨⟨t', a'⟩, before, eq⟩ := looked
              cases available t' a' before
              obtain rfl : t' = t := (Prod.mk.inj eq).1
              have given := (heard.given_up_iff beats before).1 there
              have soon := all given.1 t' before
              omega
      · rename_i other
        cases h
        exact iff_of_true available fun _ phase => absurd phase other
  | _ => exact iff_of_true (next_available (by rintro ⟨⟩) available h) (by rintro ⟨⟩)

/-- For every run of the two threads in which `x` keeps beating: `x` is available in every state after its first heartbeat
exactly if no check finds it silent for `heartbeat_timeout_` while one of its heartbeats waits. -/
theorem available_iff_served {s₀ : TimedNode ν} {events : List TimedEvent} (started : s₀.Started)
    (beats : Along next (Beats x) s₀ events) (h : s₀.run events = .ok s) :
    Along next (Served x) s₀ events ↔
      ∀ before after s₁, events = before ++ after → s₀.run before = .ok s₁ → s₁.Available x := by
  have unknown : s₀.state.worker.sight x = none := by
    rw [sight, started.nodes]
    rfl
  have idle : ¬ s₀.Waiting x := by
    rw [Waiting, Queued, started.queues, started.phase]
    simp
  have heard : s₀.Heard x := by
    refine ⟨started.clock, fun t there => ?_, fun waits => absurd waits idle, fun t a there => ?_⟩
    · rw [started.arrived] at there
      cases there
    · cases unknown.symm.trans there
  refine Along.iff (P := Heard x) (Q := Available x) (fun _ _ _ heard beats stepped => next_heard heard beats stepped)
    (fun _ _ _ heard beats available stepped => next_available_iff heard beats available stepped) heard ?_ beats h
  intro t a there
  cases unknown.symm.trans there

/-! ## Heartbeats behind two uploads -/

instance (x : NodeId) (s : TimedNode ν) (e : TimedEvent) : Decidable (Beats x s e) :=
  decidable_of_iff (0 ≤ e.now.ticks ∧ s.clock.ticks ≤ e.now.ticks ∧
      ((s.arrived.lookup x).all fun t => e.now.ticks - t.ticks < heartbeatTimeout.toInt) = true) <| by
    rw [Option.all_eq_true]
    simp only [decide_eq_true_eq]
    exact ⟨fun ⟨a, b, c⟩ => ⟨a, b, c⟩, fun ⟨a, b, c⟩ => ⟨a, b, c⟩⟩

/-- How many replies of storage nodes a handler waits for. -/
def waits : NodeJob → Nat
  | .client (.writeChunk _) | .client (.readChunk _) | .client (.remove _) => 2
  | _ => 0

/-- A handler is done after its waits. -/
def Brief (s : TimedNode ν) (e : TimedEvent) : Prop :=
  match e.act, s.phase with
  | .handle _, .handling job since => e.now.ticks - since.ticks ≤ waits job * MetadataState.storageRequestTimeout * 1000000000
  | _, _ => True

instance (s : TimedNode ν) (e : TimedEvent) : Decidable (Brief s e) := by
  unfold Brief
  split <;> infer_instance

/-- A node that no storage node answers. -/
def unanswered : TimedNode Inbox where
  state :=
    { worker :=
        { store := .onTree .empty, storageNodes := ∅, pendingReads := ∅, pendingWrites := ∅, currentStorageRequestId := 0 }
      network := ⟨[]⟩ }
  queues := { messages := [], jobs := [] }
  phase := .popping
  clock := ⟨0⟩
  arrived := ∅

def atSecond (n : Nat) (acts : List TimedAct) : List TimedEvent := acts.map fun act => ⟨⟨Int64.ofNat (n * 1000000000)⟩, act⟩

def beatOf (node : NodeId) : Message := ⟨⟨node, .storage⟩, ⟨headerMagic, 0, .storageHeartbeat⟩, []⟩

def fromClient (frame : Frame) : Message := frame.from ⟨[99], .client⟩

/-- Uploads of one byte each, under the requests 1 and 2. -/
def upload (id : UInt64) (path : Bytes) : Message :=
  fromClient (ClientProtocol.encodeWriteFileRequest id { fileSize := 1, chunkCount := 1, path, context := ⟨id, ⟨[99], .client⟩⟩ })

def uploadByte (id : UInt64) : Message :=
  fromClient (ClientProtocol.encodeWriteChunkRequest id { chunkIndex := 0, data := [120], context := ⟨id, ⟨[99], .client⟩⟩ })

/-- The storage node `"a"` beats every three seconds, but the worker waits six seconds for each of two chunks. -/
def behindUploads : List TimedEvent :=
  atSecond 0 ([beatOf [97], beatOf [98], upload 1 [112], upload 2 [113]].flatMap fun message =>
      [.arrive message, .produce, .pop, .handle { first := message.header.length.toUInt64 }, .check]) ++
    atSecond 0 [.arrive (uploadByte 1), .produce, .arrive (uploadByte 2), .produce, .pop] ++
    atSecond 3 [.arrive (beatOf [97]), .produce] ++
    atSecond 6 [.arrive (beatOf [97]), .produce, .handle {}, .check, .pop] ++
    atSecond 9 [.arrive (beatOf [97]), .produce] ++
    atSecond 12 [.handle {}, .check]

theorem unanswered_started : unanswered.Started := ⟨rfl, rfl, rfl, rfl, by decide⟩

/-- Three heartbeats are in the queue when `"a"` is given up. -/
theorem behindUploads_given_up : unanswered.Started ∧ Along next (Beats [97]) unanswered behindUploads ∧
    Along next Brief unanswered behindUploads ∧
      ∃ s, unanswered.run behindUploads = .ok s ∧ s.state.worker.sight [97] = some (⟨0⟩, false) := by
  refine ⟨unanswered_started, by decide +kernel, by decide +kernel, ?_⟩
  obtain ⟨s, ran, given⟩ := exists_ok (f := fun s : TimedNode Inbox => decide (s.state.worker.sight [97] = some (⟨0⟩, false)))
    (r := unanswered.run behindUploads) (by decide +kernel)
  exact ⟨s, ran, of_decide_eq_true given⟩

/-- Before the second chunk is done. -/
theorem available_iff_served_prompt : ∃ s, unanswered.run (behindUploads.take 32) = .ok s ∧
    (Along next (Served [97]) unanswered (behindUploads.take 32) ↔
      ∀ before after s₁, behindUploads.take 32 = before ++ after → unanswered.run before = .ok s₁ → s₁.Available [97]) := by
  obtain ⟨s, ran, -⟩ := exists_ok (f := fun s : TimedNode Inbox => true) (r := unanswered.run (behindUploads.take 32))
    (by decide +kernel)
  exact ⟨s, ran, available_iff_served unanswered_started (by decide +kernel) ran⟩

end TimedNode

end Dfs
