import Dfs.Network.Delivery
import Dfs.Network.FrameReader
import Dfs.Network.Senders
import Mathlib.Data.List.Infix

/-!
# From one node to another

A node passes frames to a socket, and the node at the other end makes frames of the bytes that
come. Between the two is a stream that neither loses nor reorders bytes; it may be late, and
it may end early.
-/

namespace Dfs

open Lib

/-! ## Who introduces itself -/

/-- Where the hello of a node is accepted, the node is taken for what it is. -/
theorem acceptHello_helloFrame {role : NodeRole} {expected : Option NodeIdentity} {remote : NodeIdentity} {node : Endpoint}
    (named : NulFree node.nodeId) (accepted : acceptHello role expected (some (helloFrame node).received) = some remote) :
    remote = node.identity := by
  rw [acceptHello, if_neg fun other => other rfl] at accepted
  split at accepted
  case h_2 => cases accepted
  rename_i remote' read
  subst accepted
  obtain ⟨tail, same⟩ : ∃ tail, (helloFrame node).received.buffer = write node.role ++ (write node.nodeId ++ tail) := ⟨_, rfl⟩
  obtain ⟨r₁, read₁, h₁⟩ := BinaryReader.read_start node.role (write node.nodeId ++ tail) trivial
  obtain ⟨r₂, read₂, -⟩ := LawfulSerial.read_write node.nodeId r₁ tail named h₁
  rw [same] at read
  simp only [readHello, read₁, read₂, bind, Except.bind] at read
  have last : ∀ reader, checkRemote expected ⟨node.nodeId, node.role⟩ reader = some remote → remote = node.identity :=
    fun reader checked => (checkRemote_some checked).1
  split at read
  · cases read
  split at read
  · cases read
  split at read
  · split at read
    · cases read
    split at read
    · cases read
    split at read
    · cases read
    · exact last _ (Except.ok.inj read)
  · exact last _ (Except.ok.inj read)

namespace Table

variable {t t' : Table} {d : ConnectionPtr} {node : Endpoint} {got got' : List Frame} {role : NodeRole}
  {registers : Option (ConnectionPtr × NodeIdentity)}

theorem Step.next_le (step : Step role t registers t') : t.next ≤ t'.next := by
  cases step with
  | make expected => exact Nat.le_succ _
  | _ => exact Nat.le_refl _

/-- `got` has been read from the connection `d`, which is the only one that `node` has introduced itself on. -/
structure Hears (d : ConnectionPtr) (node : Endpoint) (got : List Frame) (t : Table) : Prop where
  unread : t.next ≤ d ∨ t.remote d = none ∧ t.closed d = false → got = []
  known : d < t.next → ∀ remote, t.remote d = some remote → remote = node.identity ∧ got ≠ []
  only : ∀ c < t.next, ∀ remote, t.remote c = some remote → remote.id = node.nodeId → c = d

/-- A handler that reads nothing from `d`. -/
theorem Hears.step (hears : t.Hears d node got) (step : Step role t registers t')
    (elsewhere : ∀ r ∈ registers, r.1 ≠ d ∧ r.2.id ≠ node.nodeId) : t'.Hears d node got := by
  cases step with
  | idle => exact hears
  | make expected =>
      have old : ∀ {c remote}, Function.update t.remote t.next none c = some remote → c < t.next + 1 →
          c < t.next ∧ t.remote c = some remote := by
        intro c remote known below
        have other : c ≠ t.next := fun same => by
          rw [same, Function.update_self] at known
          cases known
        rw [Function.update_of_ne other] at known
        exact ⟨Nat.lt_of_le_of_ne (Nat.le_of_lt_succ below) other, known⟩
      refine ⟨fun fresh => ?_, fun below remote known => ?_, fun c below remote known => ?_⟩
      · by_cases next : t.next ≤ d
        · exact hears.unread (.inl next)
        have other : d ≠ t.next := fun same => next (Nat.le_of_eq same.symm)
        simp only [make, Function.update_of_ne other] at fresh
        exact hears.unread (fresh.imp_left fun later => Nat.le_of_succ_le later)
      · obtain ⟨below, known⟩ := old known below
        exact hears.known below remote known
      · obtain ⟨below, known⟩ := old known below
        exact hears.only c below remote known
  | fail c =>
      refine ⟨fun fresh => hears.unread (fresh.imp_right fun both => ⟨both.1, ?_⟩), hears.known, hears.only⟩
      have opened : Function.update t.closed c true d = false := both.2
      by_cases same : d = c
      · rw [same, Function.update_self] at opened
        cases opened
      · rwa [Function.update_of_ne same] at opened
  | @register c remote below unset opened admits =>
      obtain ⟨other, named⟩ := elsewhere _ rfl
      have same : Function.update t.remote c (some remote) d = t.remote d := Function.update_of_ne other.symm ..
      refine ⟨fun fresh => hears.unread (fresh.imp_right fun both => ⟨same.symm.trans both.1, both.2⟩),
        fun below remote known => hears.known below remote (same.symm.trans known), fun c' below' peer known => ?_⟩
      simp only [register] at known
      by_cases here : c' = c
      · rw [here, Function.update_self] at known
        cases known
        exact fun name => absurd name named
      · rw [Function.update_of_ne here] at known
        exact hears.only c' below' peer known

/-- What is read from `d` when it is no longer new. -/
theorem Hears.more (hears : t.Hears d node got) (below : d < t.next) (old : t.remote d = none → t.closed d = true)
    (heard : got' ≠ []) : t.Hears d node got' := by
  refine ⟨fun fresh => ?_, fun below remote known => ⟨(hears.known below remote known).1, heard⟩, hears.only⟩
  rcases fresh with later | ⟨unset, opened⟩
  · exact absurd below (Nat.not_lt.2 later)
  · rw [old unset] at opened
    cases opened

/-- The hello of `node` is accepted on `d`. -/
theorem Hears.register (hears : t.Hears d node []) (below : d < t.next) (heard : got ≠ []) :
    (t.register d node.identity).Hears d node got := by
  have known : (t.register d node.identity).remote d = some node.identity := Function.update_self ..
  refine ⟨fun fresh => ?_, fun below remote known' => ⟨?_, heard⟩, fun c below remote known' named => ?_⟩
  · rcases fresh with later | ⟨unset, -⟩
    · exact absurd below (Nat.not_lt.2 later)
    · rw [known] at unset
      cases unset
  · rw [known] at known'
    exact (Option.some.inj known').symm
  · by_cases same : c = d
    · exact same
    · exact hears.only c below remote ((Function.update_of_ne same ..).symm.trans known') named

end Table

namespace NetworkState

variable {s s' : NetworkState} {c : ConnectionPtr}

/-! ## What has been passed to a socket stays there -/

theorem Aside.handed {c' : ConnectionPtr} (aside : Aside c' s s') (here : (s.heap c').handed <+: (s'.heap c').handed)
    (c : ConnectionPtr) : (s.heap c).handed <+: (s'.heap c).handed := by
  by_cases same : c = c'
  · rw [same]
    exact here
  · rw [aside.heap c same]

theorem Puts.handed {frames : List Frame} (puts : Puts c frames s s') (opened : (s.heap c).closed = false) :
    (s.heap c).handed <+: (s'.heap c).handed := by
  obtain ⟨moved, handed, -⟩ := puts.stream opened
  exact ⟨_, handed.symm⟩

theorem enqueueWrite_handed (c' : ConnectionPtr) (frame : Frame) :
    (s.heap c).handed <+: ((s.enqueueWrite c' frame).heap c).handed := by
  have puts := @enqueueWrite_puts s c' frame
  by_cases closed : (s.heap c').closed = true
  · rw [enqueueWrite, if_pos closed]
  · exact puts.aside.handed (puts.handed (Bool.eq_false_iff.2 closed)) c

theorem handleBroadcast_handed {role : NodeRole} {frame : Frame} :
    (s.heap c).handed <+: ((s.handleBroadcast role frame).heap c).handed := by
  change _ <+: ((s.connections.entries.foldl (broadcastTo role frame) s).heap c).handed
  generalize s.connections.entries = entries
  induction entries generalizing s with
  | nil => exact List.prefix_rfl
  | cons entry entries ih =>
      refine List.IsPrefix.trans ?_ ih
      rw [broadcastTo]
      split
      · exact enqueueWrite_handed entry.2 frame
      · exact List.prefix_rfl

theorem failConnection_handed : ((s.failConnection c).heap c).handed = (s.heap c).handed := by
  have close : ((s.close c).heap c).handed = (s.heap c).handed := by
    rw [NetworkState.close]
    split
    · rfl
    · rw [heap_modify]
  rw [failConnection, ← close]
  dsimp only
  split
  · rfl
  · split <;> rfl

/-- Giving a connection up, whatever came before. -/
theorem Aside.failConnection {c' : ConnectionPtr} (aside : Aside c' s s') (same : (s'.heap c').handed = (s.heap c').handed) :
    (s.heap c).handed <+: ((s'.failConnection c').heap c).handed := by
  refine (aside.trans failConnection_fails.aside).handed ?_ c
  rw [failConnection_handed, same]

theorem handshake_handed (c' : ConnectionPtr) : (s.heap c).handed <+: ((s.handshake c').heap c).handed := by
  obtain ⟨encoded, result⟩ := handshake_cases c' s
  rw [result]
  refine (aside_modify.trans (aside_begin ?_)).handed ⟨frameBytes (helloFrame s.self), ?_⟩ c
  · intro c'' here
    exact (Option.some.inj here).symm
  · simp only [NetworkState.begin, heap_modify]

theorem handleWritten_handed {c' : ConnectionPtr} {error : Bool} :
    (s.heap c).handed <+: ((s.handleWritten c' error).heap c).handed := by
  rw [handleWritten]
  split
  · exact List.prefix_rfl
  rename_i opened
  split
  · refine Aside.failConnection aside_modify ?_
    rw [heap_modify]
  · exact writeNext_puts.aside.handed (writeNext_puts.handed (Bool.eq_false_iff.2 opened)) c

/-- No handler takes back what has been passed to a socket. -/
theorem step_handed {event : NetworkEvent} (sound : s.Sound) (h : s.step event = .ok s') (below : c < s.next) :
    (s.heap c).handed <+: (s'.heap c).handed := by
  have older : ∀ {conn : Connection} {s : NetworkState}, c < s.next →
      (s.heap c).handed <+: ((s.makeConnection conn).heap c).handed := by
    intro conn s below
    rw [makeConnection_heap_ne (Nat.ne_of_lt below)]
  cases step_handles h with
  | queue absent => exact List.prefix_rfl
  | send found => exact enqueueWrite_handed _ _
  | broadcast => exact handleBroadcast_handed
  | @retry event op endpoint c' mem waits none _ =>
      have here : op.on = some c' := by rcases waits with rfl | rfl <;> rfl
      exact (aside_erase here).failConnection rfl
  | resolved mem => exact List.prefix_rfl
  | connected mem => exact handshake_handed (s := s.complete _) _
  | refused mem => exact List.prefix_rfl
  | accepted mem => exact (older (s := (s.complete .accept).begin .accept) below).trans (handshake_handed s.next)
  | greeted mem => exact List.prefix_rfl
  | failed mem here gives none first _ => exact (aside_erase here).failConnection rfl
  | @registered c' frame remote mem accepted =>
      obtain ⟨-, registers⟩ := sound.registers mem remote
      obtain ⟨moved, handed, -⟩ := registers.stream
      exact registers.aside.handed ⟨_, handed.symm⟩ c
  | read mem proper =>
      rw [sound.reading mem]
      exact List.prefix_rfl
  | written mem => exact handleWritten_handed (s := s.complete _)
  | held mem found => exact List.prefix_rfl
  | redial mem => exact older (s := s.complete _) below

/-! ## What the node at the other end makes of it -/

/-- The frame that the handler has been given from the connection `d`. -/
def readFrom (d : ConnectionPtr) : NetworkEvent → Option Frame
  | .helloRead c frame | .frameRead c _ frame => if c = d then frame else none
  | _ => none

/-- The messages of `node` are the frames that came from `d` behind its hello. -/
structure Hears (d : ConnectionPtr) (node : Endpoint) (got : List Frame) (s : NetworkState) : Prop where
  table : s.table.Hears d node got
  queued : s.messageQueue.filter (·.sender.id = node.nodeId) = got.tail.map (·.from node.identity)

section Hears

variable {d : ConnectionPtr} {node : Endpoint} {got rest : List Frame} {frame : Frame} {event : NetworkEvent}

/-- A connection is registered when its hello has been read. -/
theorem registers_reads {registration : ConnectionPtr × NodeIdentity} (registered : registration ∈ s.registers event) :
    readFrom registration.1 event ≠ none := by
  intro nothing
  cases event with
  | helloRead c frame =>
      obtain ⟨remote, accepted, rfl⟩ := Option.map_eq_some_iff.1 registered
      rw [readFrom, if_pos rfl] at nothing
      rw [nothing] at accepted
      cases accepted
  | _ => cases registered

/-- A message comes from the connection that has been read, under the name of its peer. -/
theorem arrival_reads {m : Message} (sound : s.Sound) (h : s.step event = .ok s') (arrived : arrival event = some m) :
    ∃ c < s.next, (s.heap c).remote = some m.sender ∧ readFrom c event ≠ none := by
  unfold arrival at arrived
  split at arrived
  · rename_i c remote frame
    split at arrived
    · cases arrived
    cases arrived
    obtain ⟨mem, -⟩ := finish_bind h
    refine ⟨c, sound.allocated mem rfl, sound.reads mem, ?_⟩
    rw [readFrom, if_pos rfl]
    exact Option.some_ne_none frame
  · cases arrived

theorem Hears.elsewhere (sound : s.Sound) (hears : Hears d node got s)
    (only : ∀ registration ∈ s.registers event, registration.2.id = node.nodeId → registration.1 = d)
    (nothing : readFrom d event = none) (h : s.step event = .ok s') : Hears d node got s' := by
  constructor
  · have apart : ∀ registration ∈ s.registers event, registration.1 ≠ d := fun registration registered same =>
      registers_reads registered (same ▸ nothing)
    exact hears.table.step (step_table sound h) fun registration registered =>
      ⟨apart registration registered, fun named => apart registration registered (only registration registered named)⟩
  · rw [(step_messages sound h).1, List.filter_append, hears.queued, List.append_right_eq_self, List.filter_eq_nil_iff]
    intro m arrived named
    obtain ⟨c, below, known, read⟩ := arrival_reads sound h (Option.mem_toList.1 arrived)
    have here := hears.table.only c below m.sender known (of_decide_eq_true named)
    exact read (here ▸ nothing)

/-- The first frame is the hello. -/
theorem Hears.hello (sound : s.Sound) (hears : Hears d node got s) (named : NulFree node.nodeId)
    (next : got ++ [frame] <+: (helloFrame node).received :: rest) (h : s.step (.helloRead d (some frame)) = .ok s') :
    Hears d node (got ++ [frame]) s' := by
  obtain ⟨mem, h⟩ := finish_bind h
  have below : d < s.next := sound.allocated mem rfl
  obtain ⟨greeting, -⟩ := sound.registers mem node.identity
  obtain rfl : got = [] := hears.table.unread (.inr ⟨greeting.unset, greeting.opened⟩)
  obtain ⟨rfl, -⟩ := List.cons_prefix_cons.1 next
  rw [complete_self, complete_heap] at h
  cases accepted : acceptHello s.self.role (s.heap d).expectedRemote (some (helloFrame node).received) with
  | none =>
      rw [accepted] at h
      cases h
      constructor
      · rw [failConnection_table, complete_table]
        exact (hears.table.step (@Table.Step.fail s.self.role s.table d) nofun).more below (fun _ => Function.update_self ..)
          (by simp)
      · rw [failConnection_messages]
        exact hears.queued
  | some remote =>
      rw [accepted] at h
      cases h
      obtain rfl := acceptHello_helloFrame named accepted
      constructor
      · rw [registerConnection_table, complete_table]
        exact hears.table.register below (by simp)
      · rw [registerConnection_messages]
        exact hears.queued

/-- Each of the others makes a message. -/
theorem Hears.later {remote : NodeIdentity} (sound : s.Sound) (hears : Hears d node got s)
    (proper : ∀ frame ∈ rest, frame.header.type ≠ .hello)
    (next : got ++ [frame] <+: (helloFrame node).received :: rest) (h : s.step (.frameRead d remote (some frame)) = .ok s') :
    Hears d node (got ++ [frame]) s' := by
  obtain ⟨mem, h⟩ := finish_bind h
  have below : d < s.next := sound.allocated mem rfl
  obtain ⟨rfl, greeted⟩ := hears.table.known below remote (sound.reads mem)
  have later : frame ∈ rest := by
    cases got with
    | nil => exact absurd rfl greeted
    | cons hello got => exact (List.cons_prefix_cons.1 next).2.subset (by simp)
  have opened : (s.heap d).remote = none → (s.heap d).closed = true := fun unset => by
    rw [sound.reads mem] at unset
    cases unset
  rw [handleFrame, if_neg (proper frame later), sound.reading mem] at h
  cases h
  constructor
  · exact hears.table.more below opened (by simp)
  · change (s.messageQueue ++ [frame.from node.identity]).filter _ = _
    rw [List.filter_append, hears.queued, List.tail_append_of_ne_nil greeted, List.map_append]
    congr 1
    exact List.filter_cons_of_pos (decide_eq_true rfl)

theorem Hears.step (sound : s.Sound) (hears : Hears d node got s) (named : NulFree node.nodeId)
    (only : ∀ registration ∈ s.registers event, registration.2.id = node.nodeId → registration.1 = d)
    (proper : ∀ frame ∈ rest, frame.header.type ≠ .hello)
    (next : ∀ frame ∈ readFrom d event, got ++ [frame] <+: (helloFrame node).received :: rest)
    (h : s.step event = .ok s') : Hears d node (got ++ (readFrom d event).toList) s' := by
  cases read : readFrom d event with
  | none =>
      rw [Option.toList_none, List.append_nil]
      exact hears.elsewhere sound only read h
  | some frame =>
      replace next := next frame read
      cases event with
      | helloRead c frame' =>
          obtain ⟨rfl, rfl⟩ := Option.ite_none_right_eq_some.1 read
          exact hears.hello sound named next h
      | frameRead c remote frame' =>
          obtain ⟨rfl, rfl⟩ := Option.ite_none_right_eq_some.1 read
          exact hears.later sound proper next h
      | _ => cases read

end Hears

/-- The frames that `async_read_frame` makes of the bytes passed to the socket of `c`. -/
def carried (c : ConnectionPtr) (s : NetworkState) : List Frame :=
  (ReadState.receiveAll (s.heap c).handed (.awaitsHeader [])).2

theorem carried_eq (c : ConnectionPtr) (s : NetworkState) : s.carried c = (readFrames (s.heap c).handed).1 := by
  rw [carried, ReadState.receiveAll_eq]

theorem carried_mono (handed : (s.heap c).handed <+: (s'.heap c).handed) : s.carried c <+: s'.carried c := by
  obtain ⟨more, whole⟩ := handed
  rw [carried_eq, carried_eq, ← whole]
  exact frameCutter.split_prefix _ more

/-- Whole frames on a socket are read as they are. -/
theorem carried_frames {frames : List Frame} (fits : ∀ frame ∈ frames, frame.buffer.length ≤ maxMessageSize)
    (handed : (s.heap c).handed = frames.flatMap frameBytes) : s.carried c = frames.map Frame.received := by
  have read := readFrames_encoded fits []
  rw [List.append_nil, readFrames_empty, List.append_nil] at read
  rw [carried_eq, handed, read]

/-- Nothing is queued where no write is outstanding. -/
theorem queue_empty (serving : Serving c (s.heap c) (s.opsOf c)) (idle : s.ops.countP (writesTo c) = 0) :
    (s.heap c).writeQueue = [] := by
  rw [countP_writesTo s serving, serving.busy] at idle
  refine serving.idle ?_
  by_contra busy
  rw [if_pos (Bool.not_eq_false _ ▸ busy)] at idle
  cases idle

theorem start_delivered (x : NodeId) (c : ConnectionPtr) (self : Endpoint) (seedNodes : List Endpoint) :
    Delivered x c (start self seedNodes) [] := by
  obtain ⟨-, connections, pendingFrames⟩ := start_fields self seedNodes
  refine .waiting ?_ ?_
  · rw [connections]
    rfl
  · rw [pendingFrames]
    rfl

theorem start_messages (self : Endpoint) (seedNodes : List Endpoint) : (start self seedNodes).messageQueue = [] := by
  have all : ∀ (endpoints : List Endpoint) (s : NetworkState), s.messageQueue = [] →
      (endpoints.foldl (fun s endpoint => s.connect endpoint) s).messageQueue = [] := by
    intro endpoints
    induction endpoints with
    | nil => exact fun s empty => empty
    | cons endpoint endpoints ih => exact fun s empty => ih _ empty
  exact all _ (initial self) rfl

end NetworkState

/-! ## Two nodes -/

/-- Two nodes, and the frames that the second one has read from its connection to the first. -/
structure Wire where
  sender : NetworkState
  receiver : NetworkState
  got : List Frame

inductive WireEvent where
  | sender (event : NetworkEvent)
  | receiver (event : NetworkEvent)

namespace Wire

open NetworkState

variable {x : NodeId} {c d : ConnectionPtr} {w w' : Wire} {events : List WireEvent}

def step (d : ConnectionPtr) (w : Wire) : WireEvent → Except Unit Wire
  | .sender event => do return { w with sender := ← w.sender.step event }
  | .receiver event => do
      return { w with receiver := ← w.receiver.step event, got := w.got ++ (readFrom d event).toList }

/-- What the handlers of the first node are run with. -/
def sending : List WireEvent → List NetworkEvent
  | [] => []
  | .sender event :: events => event :: sending events
  | .receiver _ :: events => sending events

/-- The first node keeps to its connection `c` with `x`, and `d` is the other end of that: a frame read from `d` is the
next one of those that `c` has carried. No other connection introduces itself as the first node. -/
def Carries (x : NodeId) (c d : ConnectionPtr) (w : Wire) : WireEvent → Prop
  | .sender event => Undisturbed x c w.sender event
  | .receiver event =>
      (∀ frame ∈ readFrom d event, c < w.sender.next ∧ w.got ++ [frame] <+: w.sender.carried c) ∧
        ∀ registration ∈ w.receiver.registers event, registration.2.id = w.sender.self.nodeId → registration.1 = d

instance (w : Wire) (event : WireEvent) : Decidable (Carries x c d w event) :=
  match event with
  | .sender event => inferInstanceAs (Decidable (Undisturbed x c w.sender event))
  | .receiver event => inferInstanceAs (Decidable ((∀ frame ∈ readFrom d event, _) ∧ ∀ registration ∈ _, _))

theorem step_sender {event : NetworkEvent} (h : w.step d (.sender event) = .ok w') :
    ∃ s, w.sender.step event = .ok s ∧ w' = { w with sender := s } := by
  cases moved : w.sender.step event with
  | error e =>
      simp only [step, moved] at h
      cases h
  | ok s =>
      simp only [step, moved] at h
      cases h
      exact ⟨s, rfl, rfl⟩

theorem step_receiver {event : NetworkEvent} (h : w.step d (.receiver event) = .ok w') :
    ∃ s, w.receiver.step event = .ok s ∧ w' = { w with receiver := s, got := w.got ++ (readFrom d event).toList } := by
  cases moved : w.receiver.step event with
  | error e =>
      simp only [step, moved] at h
      cases h
  | ok s =>
      simp only [step, moved] at h
      cases h
      exact ⟨s, rfl, rfl⟩

/-- The part of the first node is a run of its own. -/
theorem run_sending (along : Along (step d) (Carries x c d) w events) (h : run (step d) w events = .ok w') :
    run NetworkState.step w.sender (sending events) = .ok w'.sender ∧
      Along NetworkState.step (Undisturbed x c) w.sender (sending events) := by
  induction events generalizing w with
  | nil =>
      cases h
      exact ⟨rfl, trivial⟩
  | cons event events ih =>
      obtain ⟨w₁, stepped, rest⟩ := run_cons h
      obtain ⟨runs, undisturbed⟩ := ih (along.2 w₁ stepped) rest
      cases event with
      | sender event =>
          obtain ⟨s, moved, rfl⟩ := step_sender stepped
          refine ⟨?_, Along.of_step moved along.1 undisturbed⟩
          rw [sending, run, moved]
          exact runs
      | receiver event =>
          obtain ⟨s, -, rfl⟩ := step_receiver stepped
          exact ⟨runs, undisturbed⟩

/-- The socket of the first node only gets more bytes. -/
theorem run_carried (sound : w.sender.Sound) (below : c < w.sender.next) (h : run (step d) w events = .ok w') :
    w.sender.carried c <+: w'.sender.carried c := by
  induction events generalizing w with
  | nil =>
      cases h
      exact List.prefix_rfl
  | cons event events ih =>
      obtain ⟨w₁, stepped, rest⟩ := run_cons h
      cases event with
      | sender event =>
          obtain ⟨s, moved, rfl⟩ := step_sender stepped
          have grown := carried_mono (step_handed sound moved below)
          have later : w.sender.next ≤ s.next := (step_table sound moved).next_le
          exact grown.trans (ih (w := { w with sender := s }) (step_sound sound moved) (Nat.lt_of_lt_of_le below later) rest)
      | receiver event =>
          obtain ⟨s, moved, rfl⟩ := step_receiver stepped
          exact ih (w := { w with receiver := s, got := _ }) sound below rest

/-- What the second node makes of a stream that ends as `rest` behind the hello. -/
structure Heard (d : ConnectionPtr) (node : Endpoint) (rest : List Frame) (w : Wire) : Prop where
  sound : w.sender.Sound
  self : w.sender.self = node
  other : w.receiver.Sound
  hears : Hears d node w.got w.receiver
  stream : w.got <+: (helloFrame node).received :: rest

theorem run_heard {node : Endpoint} {rest : List Frame} (named : NulFree node.nodeId)
    (proper : ∀ frame ∈ rest, frame.header.type ≠ .hello) (heard : Heard d node rest w)
    (along : Along (step d) (Carries x c d) w events) (h : run (step d) w events = .ok w')
    (last : w'.sender.carried c = (helloFrame node).received :: rest) : Heard d node rest w' := by
  induction events generalizing w with
  | nil =>
      cases h
      exact heard
  | cons event events ih =>
      obtain ⟨w₁, stepped, later⟩ := run_cons h
      refine ih ?_ (along.2 w₁ stepped) later
      cases event with
      | sender event =>
          obtain ⟨s, moved, rfl⟩ := step_sender stepped
          exact ⟨step_sound heard.sound moved, (step_self heard.sound moved).trans heard.self, heard.other, heard.hears,
            heard.stream⟩
      | receiver event =>
          obtain ⟨s, moved, rfl⟩ := step_receiver stepped
          obtain ⟨reads, only⟩ := along.1
          rw [heard.self] at only
          have next : ∀ frame ∈ readFrom d event, w.got ++ [frame] <+: (helloFrame node).received :: rest := by
            intro frame read
            obtain ⟨below, carried⟩ := reads frame read
            rw [← last]
            exact carried.trans (run_carried heard.sound below h)
          refine ⟨heard.sound, heard.self, step_sound heard.other moved,
            heard.hears.step heard.other named only proper next moved, ?_⟩
          change w.got ++ (readFrom d event).toList <+: _
          cases read : readFrom d event with
          | none =>
              rw [Option.toList_none, List.append_nil]
              exact heard.stream
          | some frame => exact next frame read

/-- Where the nodes are when their network threads begin to run handlers. -/
def start (node peer : Endpoint) (seedNodes peerSeeds : List Endpoint) : Wire :=
  ⟨NetworkState.start node seedNodes, NetworkState.start peer peerSeeds, []⟩

theorem start_heard (node peer : Endpoint) (seedNodes peerSeeds : List Endpoint) (rest : List Frame) :
    Heard d node rest (start node peer seedNodes peerSeeds) := by
  refine ⟨start_sound node seedNodes, (start_fields node seedNodes).1, start_sound peer peerSeeds, ⟨?_, ?_⟩, List.nil_prefix⟩
  · have fresh : ∀ t : Table, (∀ c, t.remote c = none) → t.Hears d node [] := fun t unset =>
      ⟨fun _ => rfl, fun _ remote known => absurd ((unset d).symm.trans known) nofun,
        fun c _ remote known => absurd ((unset c).symm.trans known) nofun⟩
    refine fresh _ (start_table (P := fun t => ∀ c, t.remote c = none) peer peerSeeds (fun _ => rfl) ?_)
    intro t expected unset c
    by_cases same : c = t.next
    · rw [same]
      exact Function.update_self ..
    · exact (Function.update_of_ne same ..).trans (unset c)
  · rw [show (start node peer seedNodes peerSeeds).receiver.messageQueue = [] from start_messages peer peerSeeds]
    rfl

/-- What a node queues as messages of another one is what that one has sent to it, in order, each frame once and under
the name and role of its sender. Nothing is missing where all bytes have come and no write is outstanding. -/
theorem frames_arrive {node peer : Endpoint} {seedNodes peerSeeds : List Endpoint} (named : NulFree node.nodeId)
    (along : Along (step d) (Carries x c d) (start node peer seedNodes peerSeeds) events)
    (small : ∀ frame ∈ helloFrame node :: sent x (NetworkState.start node seedNodes) (sending events),
      frame.buffer.length ≤ maxMessageSize)
    (proper : ∀ frame ∈ sent x (NetworkState.start node seedNodes) (sending events), frame.header.type ≠ .hello)
    (h : run (step d) (start node peer seedNodes peerSeeds) events = .ok w)
    (registered : w.sender.connections.lookup x = some c) :
    ∃ done, done <+: sent x (NetworkState.start node seedNodes) (sending events) ∧
      w.receiver.messageQueue.filter (·.sender.id = node.nodeId) =
        done.map (fun frame => frame.received.from node.identity) ∧
      (w.sender.ops.countP (writesTo c) = 0 → w.got = w.sender.carried c →
        done = sent x (NetworkState.start node seedNodes) (sending events)) := by
  obtain ⟨runs, undisturbed⟩ := run_sending along h
  obtain ⟨sound, self, delivered⟩ :=
    run_delivered (start_sound node seedNodes) (start_delivered x c node seedNodes) undisturbed runs
  cases delivered with
  | waiting absent _ =>
      rw [absent] at registered
      cases registered
  | passed found none done queue handed =>
      rw [List.nil_append] at queue
      rw [self, (start_fields node seedNodes).1] at handed
      have fits : ∀ frame ∈ helloFrame node :: done, frame.buffer.length ≤ maxMessageSize := by
        rw [← queue] at small
        exact fun frame mem => small frame (List.cons_subset_cons _ (List.subset_append_left _ _) mem)
      have carried : w.sender.carried c = (helloFrame node).received :: done.map Frame.received := carried_frames fits handed
      have proper : ∀ frame ∈ done.map Frame.received, frame.header.type ≠ .hello := by
        intro frame mem
        obtain ⟨original, here, rfl⟩ := List.mem_map.1 mem
        refine proper original ?_
        rw [← queue]
        exact List.mem_append_left _ here
      obtain ⟨-, -, -, hears, stream⟩ :=
        run_heard named proper (start_heard node peer seedNodes peerSeeds _) along h carried
      have behind : w.got.tail <+: done.map Frame.received := by
        cases got : w.got with
        | nil => exact List.nil_prefix
        | cons first tail =>
            rw [got] at stream
            exact (List.cons_prefix_cons.1 stream).2
      have taken : w.got.tail = (done.take w.got.tail.length).map Frame.received := by
        rw [List.map_take]
        exact List.prefix_iff_eq_take.1 behind
      refine ⟨done.take w.got.tail.length, (List.take_prefix _ _).trans ⟨_, queue⟩, ?_, fun idle all => ?_⟩
      · rw [hears.queued]
        conv_lhs => rw [taken]
        rw [List.map_map]
        rfl
      · have whole : w.got.tail.length = done.length := by rw [all, carried, List.tail_cons, List.length_map]
        rw [whole, List.take_length, ← queue, queue_empty (sound.serves found) idle, List.append_nil]

/-- A frame sent before the connection registers, and one while the first one is on its way. -/
theorem frames_arrive_two :
    let node : Endpoint := ⟨[97], .metadata, [104], 1⟩
    let peer : Endpoint := ⟨[98], .storage, [105], 2⟩
    let first : Frame := ⟨⟨headerMagic, 1, .storageRpc⟩, [1]⟩
    let second : Frame := ⟨⟨headerMagic, 1, .storageRpc⟩, [2]⟩
    let events : List WireEvent := [.sender (.send peer.nodeId first), .sender (.resolved peer 0 false),
      .sender (.connected peer 0 false), .receiver (.accepted false), .receiver (.helloWritten 0 true false),
      .receiver (.helloRead 0 (some (helloFrame node))), .sender (.helloWritten 0 true false),
      .sender (.helloRead 0 (some (helloFrame peer))), .receiver (.frameRead 0 node.identity (some first)),
      .sender (.send peer.nodeId second), .sender (.frameWritten 0 true false), .sender (.frameWritten 0 true false),
      .receiver (.frameRead 0 node.identity (some second))]
    ∃ w, run (step 0) (start node peer [peer] []) events = .ok w ∧
      w.receiver.messageQueue.filter (·.sender.id = node.nodeId) =
        [first, second].map (fun frame => frame.received.from node.identity) := by
  intro node peer first second events
  obtain ⟨w, ran, holds⟩ := exists_ok (r := run (step 0) (start node peer [peer] []) events)
    (f := fun w => decide (w.sender.connections.lookup peer.nodeId = some 0 ∧ w.sender.ops.countP (writesTo 0) = 0 ∧
      w.got = w.sender.carried 0)) (by decide +kernel)
  obtain ⟨registered, idle, all⟩ := of_decide_eq_true holds
  have both : sent peer.nodeId (NetworkState.start node [peer]) (sending events) = [first, second] := by decide +kernel
  obtain ⟨done, -, queued, whole⟩ := frames_arrive (by decide) (by decide +kernel)
    (by rw [both]; decide +kernel) (by rw [both]; decide) ran registered
  rw [both] at whole
  exact ⟨w, ran, by rw [queued, whole idle all]⟩

end Wire

end Dfs
