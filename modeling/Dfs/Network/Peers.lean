import Dfs.Network.Connection

/-!
# What can be outstanding on a connection

Each handler works on one connection, so the invariant of the node is one about each single
connection, its fields and the operations outstanding on it, together with what the table of
connections says of the connections in it.
-/

namespace Dfs

open Lib

/-- The connection whose socket the operation is for. -/
def Op.on : Op → Option ConnectionPtr
  | .resolve _ c | .connect _ c | .writeHello c _ | .readHello c | .read c _ | .write c _ => some c
  | .accept | .reconnect _ => none

namespace NetworkState

variable {s s' s'' : NetworkState} {c : ConnectionPtr}

def opsOf (s : NetworkState) (c : ConnectionPtr) : List Op := s.ops.filter fun op => op.on = some c

theorem mem_opsOf {op : Op} : op ∈ s.opsOf c ↔ op ∈ s.ops ∧ op.on = some c := by
  simp [opsOf]

theorem opsOf_begin {op : Op} (here : op.on = some c) : (s.begin op).opsOf c = op :: s.opsOf c := by
  simp only [opsOf, begin, List.filter_cons, decide_eq_true_eq, if_pos here]

theorem opsOf_begin_ne {op : Op} (elsewhere : op.on ≠ some c) : (s.begin op).opsOf c = s.opsOf c := by
  simp only [opsOf, begin, List.filter_cons, decide_eq_true_eq, if_neg elsewhere]

theorem opsOf_modify {c' : ConnectionPtr} {f : Connection → Connection} : (s.modify c' f).opsOf c = s.opsOf c := rfl

theorem heap_modify {f : Connection → Connection} : (s.modify c f).heap c = f (s.heap c) := Function.update_self ..

theorem heap_modify_ne {c' : ConnectionPtr} {f : Connection → Connection} (ne : c' ≠ c) :
    (s.modify c f).heap c' = s.heap c' := Function.update_of_ne ne ..

@[simp] theorem complete_heap (op : Op) : (s.complete op).heap = s.heap := rfl

@[simp] theorem complete_connections (op : Op) : (s.complete op).connections = s.connections := rfl

@[simp] theorem complete_self (op : Op) : (s.complete op).self = s.self := rfl

/-- A completion handler runs when its operation has been taken from the outstanding ones. -/
theorem finish_bind {op : Op} {k : NetworkState → Except Unit NetworkState} (h : (s.finish op >>= k) = .ok s') :
    op ∈ s.ops ∧ k (s.complete op) = .ok s' := by
  unfold finish at h
  split at h
  · exact ⟨‹_›, h⟩
  · cases h

theorem opsOf_erase (op : Op) : (s.complete op).opsOf c = (s.opsOf c).erase op :=
  List.erase_filter.symm

theorem opsOf_erase_ne {op : Op} (elsewhere : op.on ≠ some c) :
    (s.complete op).opsOf c = s.opsOf c := by
  rw [opsOf_erase]
  exact List.erase_of_not_mem fun mem => elsewhere (mem_opsOf.1 mem).2

/-! ## Handing frames to a connection -/

/-- What giving `frames` to the connection `c` may do, and how far they have come. -/
structure Puts (c : ConnectionPtr) (frames : List Frame) (s s' : NetworkState) : Prop where
  same : s' = { s with heap := s'.heap, ops := s'.ops }
  others : ∀ c', c' ≠ c → s'.heap c' = s.heap c' ∧ s'.opsOf c' = s.opsOf c'
  remote : (s'.heap c).remote = (s.heap c).remote
  expectedRemote : (s'.heap c).expectedRemote = (s.heap c).expectedRemote
  closed : (s'.heap c).closed = (s.heap c).closed
  ops : ∃ ops, s'.opsOf c = ops ++ s.opsOf c ∧ ∀ op ∈ ops, ∃ encoded, op = .write c encoded
  grows : ∀ op ∈ s.ops, op ∈ s'.ops
  stream : (s.heap c).closed = false → ∃ moved,
    (s'.heap c).handed = (s.heap c).handed ++ moved.flatMap frameBytes ∧
      moved ++ (s'.heap c).writeQueue = (s.heap c).writeQueue ++ frames

theorem Puts.refl : Puts c [] s s :=
  ⟨rfl, fun _ _ => ⟨rfl, rfl⟩, rfl, rfl, rfl, ⟨[], rfl, nofun⟩, fun _ => id, fun _ => ⟨[], by simp, by simp⟩⟩

theorem Puts.trans {frames frames' : List Frame} (first : Puts c frames s s') (second : Puts c frames' s' s'') :
    Puts c (frames ++ frames') s s'' := by
  obtain ⟨ops, added, write⟩ := first.ops
  obtain ⟨ops', added', write'⟩ := second.ops
  refine ⟨?_, fun c' ne => ?_, second.remote.trans first.remote, second.expectedRemote.trans first.expectedRemote,
    second.closed.trans first.closed, ⟨ops' ++ ops, by rw [added', added, List.append_assoc], fun op mem => ?_⟩,
    fun op mem => second.grows op (first.grows op mem), fun isOpen => ?_⟩
  · rw [second.same, first.same]
  · obtain ⟨heap, opsOf⟩ := second.others c' ne
    rw [heap, opsOf]
    exact first.others c' ne
  · exact (List.mem_append.1 mem).elim (write' op) (write op)
  · obtain ⟨moved, handed, queue⟩ := first.stream isOpen
    obtain ⟨moved', handed', queue'⟩ := second.stream (first.closed.trans isOpen)
    refine ⟨moved ++ moved', ?_, ?_⟩
    · rw [handed', handed, List.flatMap_append, List.append_assoc]
    · rw [List.append_assoc, queue', ← List.append_assoc, queue, List.append_assoc]

/-- Passing a frame to `async_write`. -/
theorem asyncWriteFrame_cases (c : ConnectionPtr) (frame : Frame) (op : Bool → Op) (s : NetworkState) :
    ∃ encoded, s.asyncWriteFrame c frame op =
      (s.modify c fun conn => { conn with handed := conn.handed ++ frameBytes frame }).begin (op encoded) := by
  rw [asyncWriteFrame]
  cases encoded : encodeFrame frame with
  | none =>
      refine ⟨false, ?_⟩
      have nothing : frameBytes frame = [] := by rw [frameBytes, encoded]; rfl
      simp only [nothing, List.append_nil, modify]
      rw [Function.update_eq_self]
  | some bytes => exact ⟨true, by rw [frameBytes_of_some encoded]⟩

theorem writeNext_puts : Puts c [] s (s.writeNext c) := by
  rw [writeNext]
  split
  · exact .refl
  split
  · rename_i empty
    refine ⟨rfl, fun c' ne => ⟨heap_modify_ne ne, rfl⟩, ?_, ?_, ?_, ⟨[], rfl, nofun⟩, fun _ => id, fun _ => ⟨[], ?_, ?_⟩⟩
    all_goals simp [heap_modify]
  · rename_i frame rest queued
    obtain ⟨encoded, result⟩ := asyncWriteFrame_cases c frame (.write c)
      (s.modify c fun conn => { conn with writeInProgress := true, writeQueue := rest })
    rw [result]
    refine ⟨rfl, fun c' ne => ⟨?_, ?_⟩, ?_, ?_, ?_, ⟨[.write c encoded], ?_, fun op mem => ⟨encoded, List.mem_singleton.1 mem⟩⟩,
      fun op mem => .tail _ mem, fun _ => ⟨[frame], ?_, ?_⟩⟩
    · simp [begin, heap_modify_ne ne]
    · exact opsOf_begin_ne fun here => ne (Option.some.inj here).symm
    · simp [begin, heap_modify]
    · simp [begin, heap_modify]
    · simp [begin, heap_modify]
    · exact opsOf_begin rfl
    · simp [begin, heap_modify]
    · simp [begin, heap_modify, queued]

theorem enqueueWrite_puts {frame : Frame} : Puts c [frame] s (s.enqueueWrite c frame) := by
  rw [enqueueWrite]
  split
  · rename_i closed
    exact ⟨rfl, fun _ _ => ⟨rfl, rfl⟩, rfl, rfl, rfl, ⟨[], rfl, nofun⟩, fun _ => id, fun isOpen => by simp [isOpen] at closed⟩
  have queued : Puts c [frame] s (s.modify c fun conn => { conn with writeQueue := conn.writeQueue ++ [frame] }) := by
    refine ⟨rfl, fun c' ne => ⟨heap_modify_ne ne, rfl⟩, ?_, ?_, ?_, ⟨[], rfl, nofun⟩, fun _ => id, fun _ => ⟨[], ?_, ?_⟩⟩
    all_goals simp [heap_modify]
  simp only
  split
  · exact queued
  · exact queued.trans writeNext_puts

theorem enqueueAll_puts (frames : List Frame) :
    Puts c frames s (frames.foldl (fun s frame => s.enqueueWrite c frame) s) := by
  induction frames generalizing s with
  | nil => exact .refl
  | cons frame frames ih => exact enqueueWrite_puts.trans ih

end NetworkState

/-! ## The life of a connection -/

def Op.isWrite : Op → Bool
  | .write _ _ => true
  | _ => false

def Op.isStream : Op → Bool
  | .write _ _ | .read _ _ => true
  | _ => false

/-- The operations of a connection after its handshake. -/
def Streams (c : ConnectionPtr) (conn : Connection) (ops : List Op) : Prop :=
  ∀ op ∈ ops, (∃ encoded, op = .write c encoded) ∨ ∃ remote, op = .read c remote ∧ conn.remote = some remote

/-- The hello is written or has been, and nothing else was. -/
structure Greeting (node : Endpoint) (conn : Connection) : Prop where
  unset : conn.remote = none
  opened : conn.closed = false
  empty : conn.writeQueue = []
  rests : conn.writeInProgress = false
  greeted : conn.handed = frameBytes (helloFrame node)

/-- A write is outstanding exactly while the flag says so, and without one nothing is queued. -/
structure Serving (c : ConnectionPtr) (conn : Connection) (ops : List Op) : Prop where
  known : ∃ remote, conn.remote = some remote
  opened : conn.closed = false
  streams : Streams c conn ops
  busy : ops.countP Op.isWrite = if conn.writeInProgress then 1 else 0
  idle : conn.writeInProgress = false → conn.writeQueue = []

inductive Phase (node : Endpoint) (c : ConnectionPtr) (conn : Connection) : List Op → Prop where
  | dialling {endpoint : Endpoint} {op : Op} (waits : op = .resolve endpoint c ∨ op = .connect endpoint c)
      (made : conn = { origin := .outgoing, expectedRemote := some endpoint.identity }) : Phase node c conn [op]
  | greeting {op : Op} (waits : (∃ encoded, op = .writeHello c encoded) ∨ op = .readHello c) (state : Greeting node conn) :
      Phase node c conn [op]
  | serving {ops : List Op} (state : Serving c conn ops) : Phase node c conn ops
  | gone {ops : List Op} (closed : conn.closed = true) (streams : Streams c conn ops) (single : ops.countP Op.isWrite ≤ 1) :
      Phase node c conn ops

namespace Phase

variable {node : Endpoint} {c : ConnectionPtr} {conn : Connection} {ops : List Op} {op : Op}

theorem of_dialling {endpoint : Endpoint} (phase : Phase node c conn ops) (mem : op ∈ ops)
    (waits : op = .resolve endpoint c ∨ op = .connect endpoint c) :
    ops = [op] ∧ conn = { origin := .outgoing, expectedRemote := some endpoint.identity } := by
  cases phase with
  | dialling waits' made =>
      cases List.mem_singleton.1 mem
      rcases waits with rfl | rfl <;> rcases waits' with same | same <;> cases same <;> exact ⟨rfl, made⟩
  | greeting waits' state =>
      cases List.mem_singleton.1 mem
      rcases waits with rfl | rfl <;> rcases waits' with ⟨encoded, same⟩ | same <;> cases same
  | serving state =>
      rcases waits with rfl | rfl <;> obtain ⟨encoded, same⟩ | ⟨remote, same, -⟩ := state.streams _ mem <;> cases same
  | gone closed streams single =>
      rcases waits with rfl | rfl <;> obtain ⟨encoded, same⟩ | ⟨remote, same, -⟩ := streams _ mem <;> cases same

theorem of_greeting (phase : Phase node c conn ops) (mem : op ∈ ops)
    (waits : (∃ encoded, op = .writeHello c encoded) ∨ op = .readHello c) : ops = [op] ∧ Greeting node conn := by
  cases phase with
  | dialling waits' made =>
      cases List.mem_singleton.1 mem
      rcases waits with ⟨encoded, rfl⟩ | rfl <;> rcases waits' with same | same <;> cases same
  | greeting waits' state =>
      cases List.mem_singleton.1 mem
      exact ⟨rfl, state⟩
  | serving state =>
      rcases waits with ⟨_, rfl⟩ | rfl <;> obtain ⟨encoded, same⟩ | ⟨remote, same, -⟩ := state.streams _ mem <;> cases same
  | gone closed streams single =>
      rcases waits with ⟨_, rfl⟩ | rfl <;> obtain ⟨encoded, same⟩ | ⟨remote, same, -⟩ := streams _ mem <;> cases same

/-- A connection with a peer that is not closed serves it. -/
theorem serves {remote : NodeIdentity} (phase : Phase node c conn ops) (known : conn.remote = some remote)
    (opened : conn.closed = false) : Serving c conn ops := by
  cases phase with
  | dialling waits made =>
      rw [made] at known
      cases known
  | greeting waits state =>
      rw [state.unset] at known
      cases known
  | serving state => exact state
  | gone closed streams single =>
      rw [closed] at opened
      cases opened

/-- An operation that comes after the handshake. -/
theorem of_stream (phase : Phase node c conn ops) (mem : op ∈ ops)
    (waits : (∃ encoded, op = .write c encoded) ∨ ∃ remote, op = .read c remote) :
    Streams c conn ops ∧ ops.countP Op.isWrite ≤ 1 ∧ (conn.closed = false → Serving c conn ops) := by
  cases phase with
  | dialling waits' made =>
      cases List.mem_singleton.1 mem
      rcases waits with ⟨encoded, rfl⟩ | ⟨remote, rfl⟩ <;> rcases waits' with same | same <;> cases same
  | greeting waits' state =>
      cases List.mem_singleton.1 mem
      rcases waits with ⟨encoded, rfl⟩ | ⟨remote, rfl⟩ <;> rcases waits' with ⟨_, same⟩ | same <;> cases same
  | serving state =>
      refine ⟨state.streams, ?_, fun _ => state⟩
      rw [state.busy]
      split <;> omega
  | gone closed streams single => exact ⟨streams, single, fun opened => by simp [closed] at opened⟩

/-- What is left when an operation of the handshake or after it has completed. -/
theorem after (phase : Phase node c conn ops) (mem : op ∈ ops)
    (first : ∀ endpoint, op ≠ .resolve endpoint c ∧ op ≠ .connect endpoint c) :
    Streams c conn (ops.erase op) ∧ (ops.erase op).countP Op.isWrite ≤ 1 := by
  have fewer : ∀ {ops' : List Op}, ops'.countP Op.isWrite ≤ 1 → (ops'.erase op).countP Op.isWrite ≤ 1 := fun le =>
    Nat.le_trans (List.erase_sublist.countP_le) le
  cases phase with
  | dialling waits made =>
      cases List.mem_singleton.1 mem
      exact absurd waits (not_or.2 (first _))
  | greeting waits state =>
      cases List.mem_singleton.1 mem
      rw [List.erase_cons_head]
      exact ⟨nofun, Nat.zero_le 1⟩
  | serving state =>
      refine ⟨fun op mem => state.streams op (List.mem_of_mem_erase mem), fewer ?_⟩
      rw [state.busy]
      split <;> omega
  | gone closed streams single => exact ⟨fun op mem => streams op (List.mem_of_mem_erase mem), fewer single⟩

end Phase

namespace NetworkState

variable {s s' : NetworkState} {c : ConnectionPtr}

/-- The table names open connections with peers of the right name. -/
structure Sound (s : NetworkState) : Prop where
  phase : ∀ c, c < s.next → Phase s.self c (s.heap c) (s.opsOf c)
  unused : ∀ c, s.next ≤ c → s.opsOf c = []
  registered : ∀ id c, s.connections.lookup id = some c →
    c < s.next ∧ (s.heap c).closed = false ∧ ∃ remote, (s.heap c).remote = some remote ∧ remote.id = id

theorem Sound.serves {id : NodeId} (sound : s.Sound) (found : s.connections.lookup id = some c) :
    Serving c (s.heap c) (s.opsOf c) := by
  obtain ⟨allocated, opened, remote, known, -⟩ := sound.registered id c found
  exact (sound.phase c allocated).serves known opened

theorem Sound.allocated {op : Op} (sound : s.Sound) (mem : op ∈ s.ops) (here : op.on = some c) : c < s.next := by
  by_contra beyond
  have none := sound.unused c (Nat.le_of_not_lt beyond)
  have some := mem_opsOf.2 ⟨mem, here⟩
  rw [none] at some
  cases some

/-! ## Serving a connection -/

theorem writeNext_serving {remote : NodeIdentity} (known : (s.heap c).remote = some remote) (opened : (s.heap c).closed = false)
    (streams : Streams c (s.heap c) (s.opsOf c)) (free : (s.opsOf c).countP Op.isWrite = 0) :
    Serving c ((s.writeNext c).heap c) ((s.writeNext c).opsOf c) := by
  rw [writeNext, if_neg (by simp [opened])]
  split
  · rename_i empty
    rw [heap_modify, opsOf_modify]
    exact ⟨⟨remote, known⟩, opened, streams, by simpa using free, fun _ => empty⟩
  · rename_i frame rest queued
    obtain ⟨encoded, result⟩ := asyncWriteFrame_cases c frame (.write c)
      (s.modify c fun conn => { conn with writeInProgress := true, writeQueue := rest })
    rw [result, opsOf_begin rfl]
    simp only [begin, heap_modify]
    refine ⟨⟨remote, known⟩, opened, ?_, ?_, nofun⟩
    · intro op mem
      cases mem with
      | head => exact .inl ⟨encoded, rfl⟩
      | tail _ mem => exact streams op mem
    · rw [List.countP_cons_of_pos (by rfl)]
      exact congrArg (· + 1) free

theorem enqueueWrite_serving {frame : Frame} (serving : Serving c (s.heap c) (s.opsOf c)) :
    Serving c ((s.enqueueWrite c frame).heap c) ((s.enqueueWrite c frame).opsOf c) := by
  obtain ⟨remote, known⟩ := serving.known
  have opened := serving.opened
  rw [enqueueWrite, if_neg (by simp [opened])]
  simp only
  split
  · rename_i inProgress
    rw [heap_modify, opsOf_modify]
    exact ⟨⟨remote, known⟩, opened, serving.streams, serving.busy, fun free => by simp [inProgress] at free⟩
  · rename_i free
    have none : (s.opsOf c).countP Op.isWrite = 0 := by rw [serving.busy, if_neg free]
    have queued := @heap_modify s c fun conn => { conn with writeQueue := conn.writeQueue ++ [frame] }
    refine writeNext_serving ((congrArg Connection.remote queued).trans known) ?_ ?_ none
    all_goals rw [queued]
    · exact opened
    · exact serving.streams

theorem enqueueAll_serving {frames : List Frame} (serving : Serving c (s.heap c) (s.opsOf c)) :
    Serving c ((frames.foldl (fun s frame => s.enqueueWrite c frame) s).heap c)
      ((frames.foldl (fun s frame => s.enqueueWrite c frame) s).opsOf c) := by
  induction frames generalizing s with
  | nil => exact serving
  | cons frame frames ih => exact ih (enqueueWrite_serving serving)

/-! ## What the handlers do to the other connections and to the table -/

/-- Only the connection `c` and its operations have changed. -/
structure Aside (c : ConnectionPtr) (s s' : NetworkState) : Prop where
  self : s'.self = s.self
  next : s'.next = s.next
  heap : ∀ c', c' ≠ c → s'.heap c' = s.heap c'
  opsOf : ∀ c', c' ≠ c → s'.opsOf c' = s.opsOf c'

theorem Aside.trans {s'' : NetworkState} (first : Aside c s s') (second : Aside c s' s'') : Aside c s s'' :=
  ⟨second.self.trans first.self, second.next.trans first.next, fun c' ne => (second.heap c' ne).trans (first.heap c' ne),
    fun c' ne => (second.opsOf c' ne).trans (first.opsOf c' ne)⟩

theorem aside_erase {op : Op} (here : op.on = some c) : Aside c s (s.complete op) :=
  ⟨rfl, rfl, fun _ _ => rfl, fun _ ne => opsOf_erase_ne fun there => ne (Option.some.inj (there.symm.trans here))⟩

theorem aside_begin {op : Op} (here : ∀ c', op.on = some c' → c' = c) : Aside c s (s.begin op) :=
  ⟨rfl, rfl, fun _ _ => rfl, fun c' ne => opsOf_begin_ne fun there => ne (here c' there)⟩

theorem aside_modify {f : Connection → Connection} : Aside c s (s.modify c f) :=
  ⟨rfl, rfl, fun _ ne => heap_modify_ne ne, fun _ _ => rfl⟩

theorem Puts.aside {frames : List Frame} (puts : Puts c frames s s') : Aside c s s' := by
  refine ⟨?_, ?_, fun c' ne => (puts.others c' ne).1, fun c' ne => (puts.others c' ne).2⟩
  · rw [puts.same]
  · rw [puts.same]

theorem Puts.connections {frames : List Frame} (puts : Puts c frames s s') : s'.connections = s.connections := by
  rw [puts.same]

theorem Puts.pendingFrames {frames : List Frame} (puts : Puts c frames s s') : s'.pendingFrames = s.pendingFrames := by
  rw [puts.same]

theorem Puts.expected {frames : List Frame} (puts : Puts c frames s s') (c' : ConnectionPtr) :
    (s'.heap c').expectedRemote = (s.heap c').expectedRemote := by
  by_cases here : c' = c
  · rw [here, puts.expectedRemote]
  · rw [puts.aside.heap c' here]

theorem handshake_cases (c : ConnectionPtr) (s : NetworkState) : ∃ encoded, s.handshake c =
    (s.modify c fun conn => { conn with handed := conn.handed ++ frameBytes (helloFrame s.self) }).begin
      (.writeHello c encoded) :=
  asyncWriteFrame_cases c _ _ s

/-- What giving up the connection `c` does. -/
structure Fails (c : ConnectionPtr) (s s' : NetworkState) : Prop where
  aside : Aside c s s'
  ops : s'.ops = s.ops
  pendingFrames : s'.pendingFrames = s.pendingFrames
  remote : (s'.heap c).remote = (s.heap c).remote
  expectedRemote : ∀ c', (s'.heap c').expectedRemote = (s.heap c').expectedRemote
  closed : (s'.heap c).closed = true
  lookup : ∀ id, s'.connections.lookup id =
    if s.connections.lookup id = some c ∧ (s.heap c).remote.map (·.id) = some id then none else s.connections.lookup id

theorem close_heap : ((s.close c).heap c).closed = true ∧ ((s.close c).heap c).remote = (s.heap c).remote ∧
    ∀ c', ((s.close c).heap c').expectedRemote = (s.heap c').expectedRemote := by
  rw [close]
  split
  · exact ⟨‹_›, rfl, fun _ => rfl⟩
  · refine ⟨by rw [heap_modify], by rw [heap_modify], fun c' => ?_⟩
    by_cases same : c' = c
    · rw [same, heap_modify]
    · rw [heap_modify_ne same]

theorem failConnection_fails : Fails c s (s.failConnection c) := by
  obtain ⟨closed, remote, expectedRemote⟩ := @close_heap s c
  have kept : ∃ heap, s.close c = { s with heap } ∧ ∀ c', c' ≠ c → heap c' = s.heap c' := by
    rw [close]
    split
    · exact ⟨s.heap, rfl, fun _ _ => rfl⟩
    · exact ⟨_, rfl, fun c' ne => Function.update_of_ne ne ..⟩
  obtain ⟨heap, result, others⟩ := kept
  rw [failConnection]
  rw [result] at closed remote expectedRemote ⊢
  dsimp only at closed remote expectedRemote ⊢
  have aside : ∀ (connections : Assoc NodeId ConnectionPtr) (pendingConnections : List ConnectionPtr),
      Aside c s { s with heap, connections, pendingConnections } := fun _ _ => ⟨rfl, rfl, others, fun _ _ => rfl⟩
  split
  · rename_i unknown
    refine ⟨aside _ _, rfl, rfl, remote, expectedRemote, closed, fun id => ?_⟩
    rw [← remote, unknown]
    simp
  · rename_i peer known
    rw [known] at remote
    split
    · rename_i stored
      refine ⟨aside _ _, rfl, rfl, known.trans remote, expectedRemote, closed, fun id => ?_⟩
      rw [Assoc.lookup_erase_ite, ← remote]
      grind
    · rename_i other
      refine ⟨aside _ _, rfl, rfl, known.trans remote, expectedRemote, closed, fun id => ?_⟩
      rw [← remote]
      grind

theorem makeConnection_heap {conn : Connection} : (s.makeConnection conn).heap s.next = conn := Function.update_self ..

theorem makeConnection_heap_ne {conn : Connection} {c' : ConnectionPtr} (ne : c' ≠ s.next) :
    (s.makeConnection conn).heap c' = s.heap c' := Function.update_of_ne ne ..

/-! ## The invariant -/

theorem Sound.replace (sound : s.Sound) (allocated : c < s.next) (aside : Aside c s s')
    (phase : Phase s.self c (s'.heap c) (s'.opsOf c))
    (registered : ∀ id c', s'.connections.lookup id = some c' → (c' ≠ c ∧ s.connections.lookup id = some c') ∨
      (c' = c ∧ (s'.heap c).closed = false ∧ ∃ remote, (s'.heap c).remote = some remote ∧ remote.id = id)) : s'.Sound := by
  refine ⟨fun c' below => ?_, fun c' beyond => ?_, fun id c' found => ?_⟩
  · rw [aside.self]
    rw [aside.next] at below
    by_cases same : c' = c
    · rw [same]
      exact phase
    · rw [aside.heap c' same, aside.opsOf c' same]
      exact sound.phase c' below
  · rw [aside.next] at beyond
    rw [aside.opsOf c' (Nat.ne_of_gt (Nat.lt_of_lt_of_le allocated beyond))]
    exact sound.unused c' beyond
  · rw [aside.next]
    rcases registered id c' found with ⟨ne, found⟩ | ⟨rfl, opened, named⟩
    · rw [aside.heap c' ne]
      exact sound.registered id c' found
    · exact ⟨allocated, opened, named⟩

/-- The connection of the handler stays with its peer, if it has one. -/
theorem Sound.keep (sound : s.Sound) (allocated : c < s.next) (aside : Aside c s s')
    (phase : Phase s.self c (s'.heap c) (s'.opsOf c)) (connections : s'.connections = s.connections)
    (remote : (s'.heap c).remote = (s.heap c).remote) (closed : (s'.heap c).closed = (s.heap c).closed) : s'.Sound := by
  refine sound.replace allocated aside phase fun id c' found => ?_
  rw [connections] at found
  by_cases same : c' = c
  · subst same
    obtain ⟨-, opened, named⟩ := sound.registered id c' found
    rw [remote, closed]
    exact .inr ⟨rfl, opened, named⟩
  · exact .inl ⟨same, found⟩

theorem Sound.fail (sound : s.Sound) (allocated : c < s.next) (aside : Aside c s s')
    (same : s'.connections = s.connections ∧ (s'.heap c).remote = (s.heap c).remote)
    (streams : Streams c (s.heap c) (s'.opsOf c)) (single : (s'.opsOf c).countP Op.isWrite ≤ 1) :
    (s'.failConnection c).Sound := by
  have fails := @failConnection_fails s' c
  have opsOf : (s'.failConnection c).opsOf c = s'.opsOf c := congrArg (List.filter _) fails.ops
  refine sound.replace allocated (aside.trans fails.aside) ?_ fun id c' found => ?_
  · rw [opsOf]
    refine .gone fails.closed (fun op mem => ?_) single
    rw [fails.remote, same.2]
    exact streams op mem
  · rw [fails.lookup, same.1, same.2] at found
    split at found
    · cases found
    rename_i other
    refine .inl ⟨fun here => ?_, found⟩
    subst here
    obtain ⟨-, -, remote, known, named⟩ := sound.registered id c' found
    exact other ⟨found, by rw [known]; exact congrArg some named⟩

theorem Sound.extend (sound : s.Sound) (self : s'.self = s.self) (next : s'.next = s.next + 1)
    (others : ∀ c', c' ≠ s.next → s'.heap c' = s.heap c' ∧ s'.opsOf c' = s.opsOf c')
    (phase : Phase s.self s.next (s'.heap s.next) (s'.opsOf s.next)) (connections : s'.connections = s.connections) :
    s'.Sound := by
  refine ⟨fun c' below => ?_, fun c' beyond => ?_, fun id c' found => ?_⟩
  · rw [self]
    by_cases same : c' = s.next
    · rw [same]
      exact phase
    · obtain ⟨heap, opsOf⟩ := others c' same
      rw [heap, opsOf]
      rw [next] at below
      exact sound.phase c' (Nat.lt_of_le_of_ne (Nat.le_of_lt_succ below) same)
  · rw [next] at beyond
    rw [(others c' (Nat.ne_of_gt beyond)).2]
    exact sound.unused c' (Nat.le_of_succ_le beyond)
  · rw [connections] at found
    obtain ⟨allocated, rest⟩ := sound.registered id c' found
    rw [(others c' (Nat.ne_of_lt allocated)).1, next]
    exact ⟨Nat.lt_succ_of_lt allocated, rest⟩

theorem connect_sound {endpoint : Endpoint} (sound : s.Sound) : (s.connect endpoint).Sound := by
  refine sound.extend rfl rfl (fun c' ne => ⟨makeConnection_heap_ne ne, ?_⟩) ?_ rfl
  · exact opsOf_begin_ne fun here => ne (Option.some.inj here).symm
  · have none : (s.makeConnection { origin := .outgoing, expectedRemote := some endpoint.identity }).opsOf s.next = [] :=
      sound.unused s.next (Nat.le_refl _)
    rw [connect, opsOf_begin rfl, none]
    exact .dialling (.inl rfl) makeConnection_heap

theorem initial_sound (self : Endpoint) : (initial self).Sound :=
  ⟨fun c below => absurd below (Nat.not_lt_zero c), fun _ _ => rfl, fun id c found => by simp [initial] at found⟩

theorem start_sound (self : Endpoint) (seedNodes : List Endpoint) : (start self seedNodes).Sound := by
  have all : ∀ (endpoints : List Endpoint) (s : NetworkState), s.Sound →
      (endpoints.foldl (fun s endpoint => s.connect endpoint) s).Sound := by
    intro endpoints
    induction endpoints with
    | nil => exact fun s sound => sound
    | cons endpoint endpoints ih => exact fun s sound => ih _ (connect_sound sound)
  have sound := all (seedNodes.filter (shouldConnect self)) (initial self) (initial_sound self)
  refine ⟨fun c below => ?_, fun c beyond => ?_, sound.registered⟩
  · rw [start, opsOf_begin_ne (by simp [Op.on])]
    exact sound.phase c below
  · rw [start, opsOf_begin_ne (by simp [Op.on])]
    exact sound.unused c beyond

/-- What is left on a connection when its only operation has completed. -/
theorem opsOf_last {op : Op} (only : s.opsOf c = [op]) :
    (s.complete op).opsOf c = [] := by
  rw [opsOf_erase, only, List.erase_cons_head]

theorem handshake_sound (sound : s.Sound) {endpoint : Endpoint} (mem : .connect endpoint c ∈ s.ops) :
    ((s.complete (.connect endpoint c)).handshake c).Sound := by
  have allocated := sound.allocated mem rfl
  obtain ⟨only, made⟩ := (sound.phase c allocated).of_dialling (mem_opsOf.2 ⟨mem, rfl⟩) (.inr rfl)
  obtain ⟨encoded, result⟩ := handshake_cases c (s.complete (.connect endpoint c))
  rw [result]
  refine sound.keep allocated ?_ ?_ rfl ?_ ?_
  · exact (aside_erase rfl).trans (aside_modify.trans (aside_begin fun c' here => (Option.some.inj here).symm))
  · rw [opsOf_begin rfl, opsOf_modify, opsOf_last only]
    refine .greeting (.inl ⟨encoded, rfl⟩) ?_
    simp only [begin, heap_modify, complete_heap, complete_self, made]
    exact ⟨rfl, rfl, rfl, rfl, rfl⟩
  · simp [begin, heap_modify]
  · simp [begin, heap_modify]

theorem accept_sound (sound : s.Sound) : ((s.makeConnection { origin := .incoming }).handshake s.next).Sound := by
  obtain ⟨encoded, result⟩ := handshake_cases s.next (s.makeConnection { origin := .incoming })
  rw [result]
  refine sound.extend rfl rfl (fun c' ne => ⟨?_, ?_⟩) ?_ rfl
  · simp [begin, heap_modify_ne ne, makeConnection_heap_ne ne]
  · exact opsOf_begin_ne fun here => ne (Option.some.inj here).symm
  · have none : (s.makeConnection { origin := .incoming }).opsOf s.next = [] := sound.unused s.next (Nat.le_refl _)
    rw [opsOf_begin rfl, opsOf_modify, none]
    refine .greeting (.inl ⟨encoded, rfl⟩) ?_
    simp only [begin, heap_modify, makeConnection_heap]
    exact ⟨rfl, rfl, rfl, rfl, rfl⟩

/-- The table with the connection `c` registered for its peer. -/
def registered (c : ConnectionPtr) (remote : NodeIdentity) (s : NetworkState) : NetworkState :=
  { s.modify c fun conn => { conn with remote := some remote } with
    pendingConnections := s.pendingConnections.erase c
    connections := s.connections.insert remote.id c }

/-- The connection serves from its registration on, and the frames that waited for the peer go to it. -/
structure Registers (c : ConnectionPtr) (remote : NodeIdentity) (s s' : NetworkState) : Prop where
  aside : Aside c s s'
  connections : s'.connections = s.connections.insert remote.id c
  pendingFrames : ∀ id, s'.pendingFrames.lookup id = if id = remote.id then none else s.pendingFrames.lookup id
  known : (s'.heap c).remote = some remote
  expectedRemote : ∀ c', (s'.heap c').expectedRemote = (s.heap c').expectedRemote
  serving : Serving c (s'.heap c) (s'.opsOf c)
  grows : ∀ op ∈ s.ops, op ∈ s'.ops
  stream : ∃ moved, (s'.heap c).handed = (s.heap c).handed ++ moved.flatMap frameBytes ∧
    moved ++ (s'.heap c).writeQueue = (s.pendingFrames.lookup remote.id).getD []

/-- The waiting frames are given to the connection. -/
theorem flush_cases {remote : NodeIdentity} (serving : Serving c (s.heap c) (s.opsOf c)) :
    ∃ s₁ pendingFrames, Puts c ((s.pendingFrames.lookup remote.id).getD []) s s₁ ∧ Serving c (s₁.heap c) (s₁.opsOf c) ∧
      (∀ id, pendingFrames.lookup id = if id = remote.id then none else s.pendingFrames.lookup id) ∧
      s.flush c remote.id = { s₁ with pendingFrames } := by
  rw [flush]
  split
  · rename_i nothing
    refine ⟨s, s.pendingFrames, ?_, serving, fun id => ?_, rfl⟩
    · rw [nothing]
      exact .refl
    · split
      · rename_i same
        rw [same, nothing]
      · rfl
  · rename_i frames found
    refine ⟨frames.foldl (fun s frame => s.enqueueWrite c frame) s, s.pendingFrames.erase remote.id, ?_,
      enqueueAll_serving serving, fun id => Assoc.lookup_erase_ite _ _ _, ?_⟩
    · rw [found]
      exact enqueueAll_puts frames
    · have unchanged : (frames.foldl (fun s frame => s.enqueueWrite c frame) s).pendingFrames = s.pendingFrames :=
        (enqueueAll_puts frames).pendingFrames
      simp only [unchanged]

theorem registerConnection_registers {remote : NodeIdentity} (greeting : Greeting s.self (s.heap c))
    (none : s.opsOf c = []) : Registers c remote s (s.registerConnection c remote) := by
  have known : ((s.registered c remote).heap c).remote = some remote := by rw [registered, heap_modify]
  have serving : Serving c ((s.registered c remote).heap c) ((s.registered c remote).opsOf c) := by
    have empty : (s.registered c remote).opsOf c = [] := none
    rw [empty, registered, heap_modify]
    exact ⟨⟨remote, rfl⟩, greeting.opened, nofun, by simp [greeting.rests], fun _ => greeting.empty⟩
  obtain ⟨s₁, pendingFrames, puts, serving', lookup, flushed⟩ := @flush_cases (s.registered c remote) c remote serving
  have result : s.registerConnection c remote = ({ s₁ with pendingFrames } : NetworkState).begin (.read c remote) := by
    change (((s.registered c remote).flush c remote.id).startReading c) = _
    rw [flushed, startReading]
    dsimp only
    rw [puts.remote, known]
  rw [result]
  have changed : Aside c s (s.registered c remote) :=
    ⟨rfl, rfl, fun _ ne => by rw [registered, heap_modify_ne ne], fun _ _ => rfl⟩
  refine ⟨changed.trans (puts.aside.trans ?_), puts.connections, lookup, puts.remote.trans known, fun c' => ?_, ?_,
    fun op mem => .tail _ (puts.grows op mem), ?_⟩
  · exact ⟨rfl, rfl, fun _ _ => rfl, fun c' ne => opsOf_begin_ne fun here => ne (Option.some.inj here).symm⟩
  · refine (puts.expected c').trans ?_
    rw [registered]
    by_cases same : c' = c
    · rw [same, heap_modify]
    · rw [heap_modify_ne same]
  · rw [opsOf_begin rfl]
    refine ⟨serving'.known, serving'.opened, ?_, ?_, serving'.idle⟩
    · intro op mem
      cases mem with
      | head => exact .inr ⟨remote, rfl, puts.remote.trans known⟩
      | tail _ mem => exact serving'.streams op mem
    · rw [List.countP_cons_of_neg (by simp [Op.isWrite])]
      exact serving'.busy
  · obtain ⟨moved, given, queue⟩ := puts.stream serving.opened
    rw [registered, heap_modify] at given queue
    refine ⟨moved, given, queue.trans ?_⟩
    rw [greeting.empty, List.nil_append]
    rfl

/-- A connection whose hello is being read can be registered. -/
theorem Sound.registers (sound : s.Sound) (mem : .readHello c ∈ s.ops) (remote : NodeIdentity) :
    Greeting s.self (s.heap c) ∧
      Registers c remote (s.complete (.readHello c)) ((s.complete (.readHello c)).registerConnection c remote) := by
  obtain ⟨only, greeting⟩ := (sound.phase c (sound.allocated mem rfl)).of_greeting (mem_opsOf.2 ⟨mem, rfl⟩) (.inr rfl)
  exact ⟨greeting, registerConnection_registers greeting (opsOf_last only)⟩

theorem registerConnection_sound {remote : NodeIdentity} (sound : s.Sound) (mem : .readHello c ∈ s.ops) :
    ((s.complete (.readHello c)).registerConnection c remote).Sound := by
  obtain ⟨greeting, registers⟩ := sound.registers mem remote
  have taken : Aside c s (s.complete (.readHello c)) := aside_erase rfl
  refine sound.replace (sound.allocated mem rfl) (taken.trans registers.aside) (.serving registers.serving)
    fun id c' found => ?_
  rw [registers.connections, complete_connections, Assoc.lookup_insert_ite] at found
  split at found
  · rename_i same
    cases found
    exact .inr ⟨rfl, registers.serving.opened, remote, registers.known, same.symm⟩
  · refine .inl ⟨fun here => ?_, found⟩
    subst here
    obtain ⟨-, -, peer, known, -⟩ := sound.registered id c' found
    rw [greeting.unset] at known
    cases known

theorem startReading_eq {remote : NodeIdentity} (known : (s.heap c).remote = some remote) :
    s.startReading c = s.begin (.read c remote) := by
  rw [startReading, known]

/-- A read is for the peer of its connection. -/
theorem Sound.reads {remote : NodeIdentity} (sound : s.Sound) (mem : .read c remote ∈ s.ops) :
    (s.heap c).remote = some remote := by
  have here := mem_opsOf.2 ⟨mem, (rfl : Op.on (.read c remote) = some c)⟩
  obtain ⟨streams, -, -⟩ := (sound.phase c (sound.allocated mem rfl)).of_stream here (.inr ⟨remote, rfl⟩)
  obtain ⟨_, same⟩ | ⟨_, same, known⟩ := streams _ here
  · cases same
  · cases same
    exact known

/-- The next read is started when a message has been queued. -/
theorem Sound.reading {remote : NodeIdentity} (sound : s.Sound) (mem : .read c remote ∈ s.ops) (messageQueue : List Message) :
    ({ s.complete (.read c remote) with messageQueue }.startReading c : NetworkState) =
      ({ s.complete (.read c remote) with messageQueue } : NetworkState).begin (.read c remote) :=
  startReading_eq (sound.reads mem)

theorem startReading_sound {remote : NodeIdentity} {messageQueue : List Message} (sound : s.Sound)
    (mem : .read c remote ∈ s.ops) :
    ({ s.complete (.read c remote) with messageQueue }.startReading c : NetworkState).Sound := by
  have allocated := sound.allocated mem rfl
  have here := mem_opsOf.2 ⟨mem, (rfl : Op.on (.read c remote) = some c)⟩
  obtain ⟨streams, single, serves⟩ := (sound.phase c allocated).of_stream here (.inr ⟨remote, rfl⟩)
  have ops : (({ s.complete (.read c remote) with messageQueue } : NetworkState).begin (.read c remote)).opsOf c =
      .read c remote :: (s.opsOf c).erase (.read c remote) := by
    rw [opsOf_begin rfl]
    exact congrArg (_ :: ·) (opsOf_erase _)
  have perm := List.perm_cons_erase here
  rw [sound.reading mem]
  have taken : Aside c s (s.complete (.read c remote)) := aside_erase rfl
  refine sound.keep allocated (taken.trans ?_) ?_ rfl rfl rfl
  · exact ⟨rfl, rfl, fun _ _ => rfl, fun c' ne => opsOf_begin_ne fun here => ne (Option.some.inj here).symm⟩
  · rw [ops]
    cases closed : (s.heap c).closed with
    | true => exact .gone closed (fun op mem => streams op (perm.mem_iff.2 mem)) (perm.countP_eq _ ▸ single)
    | false =>
        obtain ⟨known, opened, streams, busy, idle⟩ := serves closed
        exact .serving ⟨known, opened, fun op mem => streams op (perm.mem_iff.2 mem), perm.countP_eq _ ▸ busy, idle⟩

theorem handleWritten_sound {encoded error : Bool} (sound : s.Sound) (mem : .write c encoded ∈ s.ops) :
    ((s.complete (.write c encoded)).handleWritten c error).Sound := by
  have allocated := sound.allocated mem rfl
  have here := mem_opsOf.2 ⟨mem, (rfl : Op.on (.write c encoded) = some c)⟩
  obtain ⟨streams, single, serves⟩ := (sound.phase c allocated).of_stream here (.inl ⟨encoded, rfl⟩)
  have taken : Aside c s (s.complete (.write c encoded)) := aside_erase rfl
  have left : Streams c (s.heap c) ((s.complete (.write c encoded)).opsOf c) := by
    rw [opsOf_erase]
    exact fun op mem => streams op (List.mem_of_mem_erase mem)
  have free : ((s.complete (.write c encoded)).opsOf c).countP Op.isWrite = 0 := by
    rw [(List.perm_cons_erase here).countP_eq, List.countP_cons_of_pos (by rfl)] at single
    rw [opsOf_erase]
    omega
  rw [handleWritten]
  split
  · rename_i closed
    exact sound.keep allocated taken (.gone closed left (by omega)) rfl rfl rfl
  rename_i opened
  split
  · refine sound.fail allocated (taken.trans aside_modify) ⟨rfl, by rw [heap_modify]; rfl⟩ ?_ ?_
    · exact left
    · rw [opsOf_modify]
      omega
  · obtain ⟨remote, known⟩ := (serves (by simpa using opened)).known
    have puts := @writeNext_puts (s.complete (.write c encoded)) c
    refine sound.keep allocated (taken.trans puts.aside) ?_ puts.connections puts.remote puts.closed
    exact .serving (writeNext_serving known (by simpa using opened) left free)

theorem enqueueWrite_sound {id : NodeId} {frame : Frame} (sound : s.Sound) (found : s.connections.lookup id = some c) :
    (s.enqueueWrite c frame).Sound := by
  have puts := @enqueueWrite_puts s c frame
  exact sound.keep (sound.registered id c found).1 puts.aside (.serving (enqueueWrite_serving (sound.serves found)))
    puts.connections puts.remote puts.closed

theorem handleBroadcast_sound {role : NodeRole} {frame : Frame} (sound : s.Sound) : (s.handleBroadcast role frame).Sound := by
  have all : ∀ (entries : List (Sigma fun _ : NodeId => ConnectionPtr)) (s : NetworkState), s.Sound →
      (∀ entry ∈ entries, s.connections.lookup entry.1 = some entry.2) →
      (entries.foldl (fun s entry =>
        if (s.heap entry.2).remote.map (·.role) = some role then s.enqueueWrite entry.2 frame else s) s).Sound := by
    intro entries
    induction entries with
    | nil => exact fun s sound _ => sound
    | cons entry entries ih =>
        intro s sound stored
        rw [List.foldl_cons]
        split
        · have found := stored entry (.head _)
          refine ih _ (enqueueWrite_sound sound found) fun entry' mem => ?_
          rw [enqueueWrite_puts.connections]
          exact stored entry' (.tail _ mem)
        · exact ih s sound fun entry' mem => stored entry' (.tail _ mem)
  exact all s.connections.entries s sound fun entry mem => (Assoc.mem_entries_iff _ _ _).1 mem

/-! ## What one handler can do -/

/-- Whether the event is the completion of an operation. -/
def completes : NetworkEvent → Bool
  | .send _ _ | .broadcast _ _ => false
  | _ => true

/-- The connection that the handler gives up without another attempt to connect. -/
def abandons (s : NetworkState) : NetworkEvent → Option ConnectionPtr
  | .helloWritten c _ error => if error then some c else none
  | .helloRead c frame => if acceptHello s.self.role (s.heap c).expectedRemote frame = none then some c else none
  | .frameRead c _ none => some c
  | .frameRead c _ (some frame) => if frame.header.type = .hello then some c else none
  | .frameWritten c _ error => if error then some c else none
  | _ => none

/-- The peer that the handler registers, and its connection. -/
def registers (s : NetworkState) : NetworkEvent → Option (ConnectionPtr × NodeIdentity)
  | .helloRead c frame => (acceptHello s.self.role (s.heap c).expectedRemote frame).map fun remote => (c, remote)
  | _ => none

inductive Handles (s : NetworkState) : NetworkEvent → NetworkState → Prop where
  | queue {id : NodeId} {frame : Frame} (absent : s.connections.lookup id = none) : Handles s (.send id frame)
      { s with pendingFrames := s.pendingFrames.insert id ((s.pendingFrames.lookup id).getD [] ++ [frame]) }
  | send {id : NodeId} {frame : Frame} {c : ConnectionPtr} (found : s.connections.lookup id = some c) :
      Handles s (.send id frame) (s.enqueueWrite c frame)
  | broadcast {role : NodeRole} {frame : Frame} : Handles s (.broadcast role frame) (s.handleBroadcast role frame)
  | retry {event : NetworkEvent} {op : Op} {endpoint : Endpoint} {c : ConnectionPtr} (mem : op ∈ s.ops)
      (waits : op = .resolve endpoint c ∨ op = .connect endpoint c)
      (none : s.abandons event = none ∧ s.registers event = none) (completes : completes event = true) :
      Handles s event (((s.complete op).failConnection c).scheduleReconnect endpoint)
  | resolved {endpoint : Endpoint} {c : ConnectionPtr} (mem : .resolve endpoint c ∈ s.ops) :
      Handles s (.resolved endpoint c false) ((s.complete (.resolve endpoint c)).begin (.connect endpoint c))
  | connected {endpoint : Endpoint} {c : ConnectionPtr} (mem : .connect endpoint c ∈ s.ops) :
      Handles s (.connected endpoint c false) ((s.complete (.connect endpoint c)).handshake c)
  | refused (mem : .accept ∈ s.ops) : Handles s (.accepted true) ((s.complete .accept).begin .accept)
  | accepted (mem : .accept ∈ s.ops) : Handles s (.accepted false)
      ((((s.complete .accept).begin .accept).makeConnection { origin := .incoming }).handshake s.next)
  | greeted {c : ConnectionPtr} (mem : .writeHello c true ∈ s.ops) :
      Handles s (.helloWritten c true false) ((s.complete (.writeHello c true)).begin (.readHello c))
  | failed {event : NetworkEvent} {op : Op} {c : ConnectionPtr} (mem : op ∈ s.ops) (here : op.on = some c)
      (gives : s.abandons event = some c) (none : s.registers event = none)
      (first : ∀ endpoint, op ≠ .resolve endpoint c ∧ op ≠ .connect endpoint c) (completes : completes event = true) :
      Handles s event ((s.complete op).failConnection c)
  | registered {c : ConnectionPtr} {frame : Option Frame} {remote : NodeIdentity} (mem : .readHello c ∈ s.ops)
      (accepted : acceptHello s.self.role (s.heap c).expectedRemote frame = some remote) :
      Handles s (.helloRead c frame) ((s.complete (.readHello c)).registerConnection c remote)
  | read {c : ConnectionPtr} {remote : NodeIdentity} {frame : Frame} (mem : .read c remote ∈ s.ops)
      (proper : frame.header.type ≠ .hello) :
      Handles s (.frameRead c remote (some frame))
        ({ s.complete (.read c remote) with messageQueue := s.messageQueue ++ [frame.from remote] }.startReading c)
  | written {c : ConnectionPtr} {encoded error : Bool} (mem : .write c encoded ∈ s.ops) :
      Handles s (.frameWritten c encoded error) ((s.complete (.write c encoded)).handleWritten c error)
  | held {endpoint : Endpoint} (mem : .reconnect endpoint ∈ s.ops)
      (found : (s.connections.lookup endpoint.nodeId).isSome = true) :
      Handles s (.expired endpoint) (s.complete (.reconnect endpoint))
  | redial {endpoint : Endpoint} (mem : .reconnect endpoint ∈ s.ops) :
      Handles s (.expired endpoint) ((s.complete (.reconnect endpoint)).connect endpoint)

theorem step_handles {event : NetworkEvent} (h : s.step event = .ok s') : Handles s event s' := by
  cases event with
  | send id frame =>
      cases h
      rw [handleSend]
      split
      · exact .queue ‹_›
      · exact .send ‹_›
  | broadcast role frame =>
      cases h
      exact .broadcast
  | resolved endpoint c error =>
      obtain ⟨mem, h⟩ := finish_bind h
      cases error with
      | true =>
          cases h
          exact .retry mem (.inl rfl) ⟨rfl, rfl⟩ rfl
      | false =>
          cases h
          exact .resolved mem
  | connected endpoint c error =>
      obtain ⟨mem, h⟩ := finish_bind h
      cases error with
      | true =>
          cases h
          exact .retry mem (.inr rfl) ⟨rfl, rfl⟩ rfl
      | false =>
          cases h
          exact .connected mem
  | accepted error =>
      obtain ⟨mem, h⟩ := finish_bind h
      cases error with
      | true =>
          cases h
          exact .refused mem
      | false =>
          cases h
          exact .accepted mem
  | helloWritten c encoded error =>
      obtain ⟨mem, h⟩ := finish_bind h
      cases error with
      | true =>
          cases h
          exact .failed mem rfl rfl rfl (fun _ => ⟨nofun, nofun⟩) rfl
      | false =>
          cases encoded with
          | true =>
              cases h
              exact .greeted mem
          | false => cases h
  | helloRead c frame =>
      obtain ⟨mem, h⟩ := finish_bind h
      split at h
      · rename_i refused
        cases h
        exact .failed mem rfl (if_pos refused) (Option.map_eq_none_iff.2 refused) (fun _ => ⟨nofun, nofun⟩) rfl
      · rename_i remote accepted
        cases h
        exact .registered mem accepted
  | frameRead c remote frame =>
      obtain ⟨mem, h⟩ := finish_bind h
      cases h
      cases frame with
      | none => exact .failed mem rfl rfl rfl (fun _ => ⟨nofun, nofun⟩) rfl
      | some frame =>
          simp only [handleFrame]
          split
          · rename_i hello
            exact .failed mem rfl (if_pos hello) rfl (fun _ => ⟨nofun, nofun⟩) rfl
          · exact .read mem ‹_›
  | frameWritten c encoded error =>
      obtain ⟨mem, h⟩ := finish_bind h
      split at h
      · cases h
        exact .written mem
      · cases h
  | expired endpoint =>
      obtain ⟨mem, h⟩ := finish_bind h
      split at h
      · rename_i found
        cases h
        exact .held mem found
      · cases h
        exact .redial mem

/-- Operations that belong to no connection come and go. -/
theorem Sound.of_ops (sound : s.Sound) {ops : List Op}
    (same : ∀ c, ({ s with ops } : NetworkState).opsOf c = s.opsOf c) : ({ s with ops } : NetworkState).Sound := by
  refine ⟨fun c below => ?_, fun c beyond => ?_, sound.registered⟩
  · rw [same c]
    exact sound.phase c below
  · rw [same c]
    exact sound.unused c beyond

theorem Sound.complete (sound : s.Sound) {op : Op} (nowhere : op.on = none) : (s.complete op).Sound :=
  sound.of_ops fun c => opsOf_erase_ne (by rw [nowhere]; exact nofun)

theorem Sound.begin (sound : s.Sound) {op : Op} (nowhere : op.on = none) : (s.begin op).Sound :=
  sound.of_ops fun c => opsOf_begin_ne (by rw [nowhere]; exact nofun)

/-- The invariant survives every handler. -/
theorem step_sound {event : NetworkEvent} (sound : s.Sound) (h : s.step event = .ok s') : s'.Sound := by
  cases step_handles h with
  | queue absent => exact ⟨sound.phase, sound.unused, sound.registered⟩
  | send found => exact enqueueWrite_sound sound found
  | broadcast => exact handleBroadcast_sound sound
  | @retry event op endpoint c mem waits none completes =>
      have here : op.on = some c := by rcases waits with rfl | rfl <;> rfl
      have allocated := sound.allocated mem here
      obtain ⟨only, made⟩ := (sound.phase c allocated).of_dialling (mem_opsOf.2 ⟨mem, here⟩) waits
      refine Sound.begin (sound.fail allocated (aside_erase here) ⟨rfl, rfl⟩ ?_ ?_) rfl
      all_goals rw [opsOf_last only]
      · exact nofun
      · exact Nat.zero_le 1
  | @resolved endpoint c mem =>
      have allocated := sound.allocated mem rfl
      obtain ⟨only, made⟩ := (sound.phase c allocated).of_dialling (mem_opsOf.2 ⟨mem, rfl⟩) (.inl rfl)
      refine sound.keep allocated ?_ ?_ rfl rfl rfl
      · exact (aside_erase rfl).trans (aside_begin fun c' here => (Option.some.inj here).symm)
      · rw [opsOf_begin rfl, opsOf_last only]
        exact .dialling (.inr rfl) made
  | connected mem => exact handshake_sound sound mem
  | refused mem => exact (sound.complete rfl).begin rfl
  | accepted mem => exact accept_sound ((sound.complete rfl).begin rfl)
  | @greeted c mem =>
      have allocated := sound.allocated mem rfl
      obtain ⟨only, greeting⟩ := (sound.phase c allocated).of_greeting (mem_opsOf.2 ⟨mem, rfl⟩) (.inl ⟨true, rfl⟩)
      refine sound.keep allocated ?_ ?_ rfl rfl rfl
      · exact (aside_erase rfl).trans (aside_begin fun c' here => (Option.some.inj here).symm)
      · rw [opsOf_begin rfl, opsOf_last only]
        exact .greeting (.inr rfl) greeting
  | @failed event op c mem here gives none first completes =>
      have allocated := sound.allocated mem here
      have after := (sound.phase c allocated).after (mem_opsOf.2 ⟨mem, here⟩) first
      refine sound.fail allocated (aside_erase here) ⟨rfl, rfl⟩ ?_ ?_
      all_goals rw [opsOf_erase]
      · exact after.1
      · exact after.2
  | registered mem accepted => exact registerConnection_sound sound mem
  | read mem proper => exact startReading_sound sound mem
  | written mem => exact handleWritten_sound sound mem
  | held mem found => exact sound.complete rfl
  | redial mem => exact connect_sound (sound.complete rfl)

theorem Fails.of_modify {f : Connection → Connection} (remote : (f (s.heap c)).remote = (s.heap c).remote)
    (expectedRemote : (f (s.heap c)).expectedRemote = (s.heap c).expectedRemote) (fails : Fails c (s.modify c f) s') :
    Fails c s s' := by
  have same : ((s.modify c f).heap c).remote = (s.heap c).remote := by rw [heap_modify, remote]
  refine ⟨aside_modify.trans fails.aside, fails.ops, fails.pendingFrames, fails.remote.trans same, fun c' => ?_, fails.closed,
    fun id => ?_⟩
  · rw [fails.expectedRemote c']
    by_cases here : c' = c
    · rw [here, heap_modify, expectedRemote]
    · rw [heap_modify_ne here]
  · rw [fails.lookup id, same]
    rfl

/-- A write that has failed closes its connection, unless that is closed. -/
theorem handleWritten_fails {encoded : Bool} (sound : s.Sound) :
    Fails c (s.complete (.write c encoded)) ((s.complete (.write c encoded)).handleWritten c true) := by
  rw [handleWritten]
  split
  · rename_i closed
    refine ⟨⟨rfl, rfl, fun _ _ => rfl, fun _ _ => rfl⟩, rfl, rfl, rfl, fun _ => rfl, closed, fun id => ?_⟩
    rw [if_neg]
    rintro ⟨found, -⟩
    have opened := (sound.registered id c found).2.1
    rw [complete_heap, opened] at closed
    cases closed
  · rw [if_pos rfl]
    exact Fails.of_modify rfl rfl failConnection_fails

/-- What giving a connection up does, whichever handler does it. -/
theorem step_abandons {event : NetworkEvent} (sound : s.Sound) (h : s.step event = .ok s') (gives : s.abandons event = some c) :
    ∃ op ∈ s.ops, op.on = some c ∧ (∀ endpoint, op ≠ .resolve endpoint c ∧ op ≠ .connect endpoint c) ∧
      Fails c (s.complete op) s' := by
  cases step_handles h with
  | @failed event op c' mem here gives' none first completes =>
      cases gives.symm.trans gives'
      exact ⟨op, mem, here, first, failConnection_fails⟩
  | @written c' encoded error mem =>
      cases error with
      | true =>
          cases gives
          exact ⟨.write c encoded, mem, rfl, fun _ => ⟨nofun, nofun⟩, handleWritten_fails sound⟩
      | false => cases gives
  | retry mem waits none completes =>
      rw [none.1] at gives
      cases gives
  | registered mem accepted =>
      rw [abandons, accepted] at gives
      cases gives
  | read mem proper =>
      rw [abandons, if_neg proper] at gives
      cases gives
  | _ => cases gives

/-- A broadcast puts frames on connections, and nothing else. -/
theorem handleBroadcast_same {role : NodeRole} {frame : Frame} :
    s.handleBroadcast role frame =
      { s with heap := (s.handleBroadcast role frame).heap, ops := (s.handleBroadcast role frame).ops } := by
  rw [handleBroadcast]
  generalize s.connections.entries = entries
  induction entries generalizing s with
  | nil => rfl
  | cons entry entries ih =>
      rw [List.foldl_cons, ih]
      split
      · rw [enqueueWrite_puts.same]
      · rfl

theorem handleBroadcast_self {role : NodeRole} {frame : Frame} : (s.handleBroadcast role frame).self = s.self := by
  rw [handleBroadcast_same]

theorem start_fields (self : Endpoint) (seedNodes : List Endpoint) : (start self seedNodes).self = self ∧
    (start self seedNodes).connections = ∅ ∧ (start self seedNodes).pendingFrames = ∅ := by
  have all : ∀ (endpoints : List Endpoint) (s : NetworkState),
      (endpoints.foldl (fun s endpoint => s.connect endpoint) s).self = s.self ∧
        (endpoints.foldl (fun s endpoint => s.connect endpoint) s).connections = s.connections ∧
        (endpoints.foldl (fun s endpoint => s.connect endpoint) s).pendingFrames = s.pendingFrames := by
    intro endpoints
    induction endpoints with
    | nil => exact fun s => ⟨rfl, rfl, rfl⟩
    | cons endpoint endpoints ih => exact fun s => ih (s.connect endpoint)
  exact all _ (initial self)

/-- A node keeps its own endpoint. -/
theorem step_self {event : NetworkEvent} (sound : s.Sound) (h : s.step event = .ok s') : s'.self = s.self := by
  cases step_handles h with
  | send found => exact enqueueWrite_puts.aside.self
  | broadcast => exact handleBroadcast_self
  | retry mem waits none completes => exact failConnection_fails.aside.self
  | @connected endpoint c mem =>
      obtain ⟨encoded, result⟩ := handshake_cases c (s.complete (.connect endpoint c))
      rw [result]
      rfl
  | accepted mem =>
      obtain ⟨encoded, result⟩ :=
        handshake_cases s.next (((s.complete .accept).begin .accept).makeConnection { origin := .incoming })
      rw [result]
      rfl
  | failed mem here gives none first completes => exact failConnection_fails.aside.self
  | registered mem accepted => exact (sound.registers mem _).2.aside.self
  | read mem proper =>
      rw [sound.reading mem]
      rfl
  | @written c encoded error mem =>
      cases error with
      | true => exact (handleWritten_fails sound).aside.self
      | false =>
          rw [handleWritten]
          split
          · rfl
          · exact writeNext_puts.aside.self
  | _ => rfl

end NetworkState

end Dfs
