import Dfs.Network.Peers

/-!
# The frames that reach a peer

A frame for a peer waits in `pending_frames_` until a connection registers for it, and from
then on in the queue of that connection. What the socket has been given is the hello and
the frames before the ones still queued, in the order in which they were sent.
-/

namespace Dfs

open Lib

namespace NetworkState

variable {s s' : NetworkState} {x : NodeId} {c : ConnectionPtr} {frames : List Frame}

/-- The frames that a handler sends to the peer `x`. -/
def sentNow (x : NodeId) (s : NetworkState) : NetworkEvent → List Frame
  | .send id frame => if id = x then [frame] else []
  | .broadcast role frame =>
      match s.connections.lookup x with
      | none => []
      | some c => if (s.heap c).remote.map (·.role) = some role then [frame] else []
  | _ => []

/-- The frames that the handlers of a run send to the peer `x`, in their order. -/
def sent (x : NodeId) (s : NetworkState) : List NetworkEvent → List Frame
  | [] => []
  | event :: events =>
      sentNow x s event ++
        match s.step event with
        | .ok s' => sent x s' events
        | .error _ => []

/-- No connection but `c` registers for `x`, and `c` does not fail. -/
structure Undisturbed (x : NodeId) (c : ConnectionPtr) (s : NetworkState) (event : NetworkEvent) : Prop where
  only : ∀ registration ∈ s.registers event, registration.2.id = x → registration.1 = c
  stays : s.abandons event ≠ some c

instance (event : NetworkEvent) : Decidable (Undisturbed x c s event) :=
  decidable_of_iff ((∀ registration ∈ s.registers event, registration.2.id = x → registration.1 = c) ∧
    s.abandons event ≠ some c) ⟨fun h => ⟨h.1, h.2⟩, fun h => ⟨h.1, h.2⟩⟩

/-- Where the frames sent to `x` are. -/
inductive Delivered (x : NodeId) (c : ConnectionPtr) (s : NetworkState) (frames : List Frame) : Prop where
  | waiting (absent : s.connections.lookup x = none) (pending : (s.pendingFrames.lookup x).getD [] = frames)
  | passed (found : s.connections.lookup x = some c) (none : s.pendingFrames.lookup x = none) (done : List Frame)
      (rest : done ++ (s.heap c).writeQueue = frames)
      (handed : (s.heap c).handed = frameBytes (helloFrame s.self) ++ done.flatMap frameBytes)

/-- Whether the operation writes to the socket of the connection `c`. -/
def writesTo (c : ConnectionPtr) : Op → Bool
  | .writeHello c' _ | .write c' _ => c' = c
  | _ => false

/-- What concerns `x` is as it was. -/
theorem Delivered.of_same (delivered : Delivered x c s frames) (self : s'.self = s.self)
    (connections : s'.connections.lookup x = s.connections.lookup x)
    (pending : s'.pendingFrames.lookup x = s.pendingFrames.lookup x)
    (heap : s.connections.lookup x = some c →
      (s'.heap c).writeQueue = (s.heap c).writeQueue ∧ (s'.heap c).handed = (s.heap c).handed) :
    Delivered x c s' frames := by
  cases delivered with
  | waiting absent waits =>
      refine .waiting (connections.trans absent) ?_
      rw [pending]
      exact waits
  | passed found none done rest handed =>
      obtain ⟨queue, same⟩ := heap found
      refine .passed (connections.trans found) (pending.trans none) done ?_ ?_
      · rw [queue]
        exact rest
      · rw [same, self]
        exact handed

theorem Delivered.complete {op : Op} (delivered : Delivered x c s frames) : Delivered x c (s.complete op) frames :=
  delivered.of_same rfl rfl rfl fun _ => ⟨rfl, rfl⟩

theorem Delivered.begin {op : Op} (delivered : Delivered x c s frames) : Delivered x c (s.begin op) frames :=
  delivered.of_same rfl rfl rfl fun _ => ⟨rfl, rfl⟩

/-- More frames for the connection of `x`. -/
theorem Delivered.puts {more : List Frame} (sound : s.Sound) (found : s.connections.lookup x = some c)
    (puts : Puts c more s s') (delivered : Delivered x c s frames) : Delivered x c s' (frames ++ more) := by
  cases delivered with
  | waiting absent _ =>
      rw [absent] at found
      cases found
  | passed _ none done rest handed =>
      obtain ⟨moved, given, queue⟩ := puts.stream (sound.serves found).opened
      refine .passed (by rw [puts.connections, found]) (by rw [puts.pendingFrames, none]) (done ++ moved) ?_ ?_
      · rw [List.append_assoc, queue, ← List.append_assoc, rest]
      · rw [given, handed, puts.aside.self, List.flatMap_append, List.append_assoc]

/-- Frames for another connection. -/
theorem Delivered.elsewhere {more : List Frame} {c' : ConnectionPtr} (other : s.connections.lookup x ≠ some c')
    (puts : Puts c' more s s') (delivered : Delivered x c s frames) : Delivered x c s' frames := by
  refine delivered.of_same puts.aside.self (by rw [puts.connections]) (by rw [puts.pendingFrames]) fun found => ?_
  have ne : c ≠ c' := fun same => other (same ▸ found)
  rw [puts.aside.heap c ne]
  exact ⟨rfl, rfl⟩

/-- One connection is registered for one peer. -/
theorem Sound.injective {id id' : NodeId} (sound : s.Sound) (found : s.connections.lookup id = some c)
    (found' : s.connections.lookup id' = some c) : id = id' := by
  obtain ⟨-, -, remote, known, named⟩ := sound.registered id c found
  obtain ⟨-, -, remote', known', named'⟩ := sound.registered id' c found'
  rw [known] at known'
  cases known'
  exact named.symm.trans named'

/-- An operation that comes before the registration is for a connection without a peer. -/
theorem Sound.unregistered {op : Op} {c' : ConnectionPtr} (sound : s.Sound) (mem : op ∈ s.ops) (here : op.on = some c')
    (early : op.isStream = false) (id : NodeId) : s.connections.lookup id ≠ some c' := by
  intro found
  obtain ⟨encoded, rfl⟩ | ⟨remote, rfl, -⟩ := (sound.serves found).streams op (mem_opsOf.2 ⟨mem, here⟩) <;> cases early

/-! ## Broadcasts -/

/-- One turn of the loop of `broadcast`. -/
def broadcastTo (role : NodeRole) (frame : Frame) (s : NetworkState) (entry : Sigma fun _ : NodeId => ConnectionPtr) :
    NetworkState :=
  if (s.heap entry.2).remote.map (·.role) = some role then s.enqueueWrite entry.2 frame else s

/-- What a loop over other peers than `x` leaves alone. -/
structure Passes (x : NodeId) (s s' : NetworkState) : Prop where
  sound : s'.Sound
  connections : s'.connections = s.connections
  remote : ∀ c, (s'.heap c).remote = (s.heap c).remote
  delivered : ∀ c frames, Delivered x c s frames → Delivered x c s' frames

theorem broadcastTo_passes {role : NodeRole} {frame : Frame} {entries : List (Sigma fun _ : NodeId => ConnectionPtr)}
    (sound : s.Sound) (others : ∀ entry ∈ entries, s.connections.lookup entry.1 = some entry.2 ∧ entry.1 ≠ x) :
    Passes x s (entries.foldl (broadcastTo role frame) s) := by
  induction entries generalizing s with
  | nil => exact ⟨sound, rfl, fun _ => rfl, fun _ _ => id⟩
  | cons entry entries ih =>
      obtain ⟨found, other⟩ := others entry (.head _)
      have elsewhere : s.connections.lookup x ≠ some entry.2 := fun same => other (sound.injective found same)
      have first : Passes x s (broadcastTo role frame s entry) := by
        rw [broadcastTo]
        split
        · have puts := @enqueueWrite_puts s entry.2 frame
          refine ⟨enqueueWrite_sound sound found, puts.connections, fun c => ?_, fun c frames => Delivered.elsewhere elsewhere puts⟩
          by_cases same : c = entry.2
          · rw [same, puts.remote]
          · rw [puts.aside.heap c same]
        · exact ⟨sound, rfl, fun _ => rfl, fun _ _ => id⟩
      have last := ih first.sound fun entry' mem => by
        rw [first.connections]
        exact others entry' (.tail _ mem)
      exact ⟨last.sound, last.connections.trans first.connections, fun c => (last.remote c).trans (first.remote c),
        fun c frames delivered => last.delivered c frames (first.delivered c frames delivered)⟩

theorem handleBroadcast_delivered {role : NodeRole} {frame : Frame} (sound : s.Sound) (delivered : Delivered x c s frames) :
    Delivered x c (s.handleBroadcast role frame) (frames ++ sentNow x s (.broadcast role frame)) := by
  have stored : ∀ entry ∈ s.connections.entries, s.connections.lookup entry.1 = some entry.2 := fun entry mem =>
    (Assoc.mem_entries_iff _ _ _).1 mem
  change Delivered x c (s.connections.entries.foldl (broadcastTo role frame) s) _
  rw [sentNow]
  cases found : s.connections.lookup x with
  | none =>
      rw [List.append_nil]
      refine (broadcastTo_passes sound fun entry mem => ⟨stored entry mem, fun same => ?_⟩).delivered c frames delivered
      have here := stored entry mem
      rw [same, found] at here
      cases here
  | some c' =>
      cases delivered with
      | waiting absent _ =>
          rw [absent] at found
          cases found
      | passed found' none done rest handed =>
      cases found'.symm.trans found
      have delivered : Delivered x c s frames := .passed found none done rest handed
      obtain ⟨before, after, parts⟩ := List.append_of_mem ((Assoc.mem_entries_iff _ x c).2 found)
      have distinct := s.connections.nodupKeys
      rw [parts] at distinct
      have absent : x ∉ (before ++ after).keys := (List.nodupKeys_cons.1 (List.nodupKeys_middle.1 distinct)).1
      have apart : ∀ entry ∈ before ++ after, entry.1 ≠ x := by
        rintro entry mem rfl
        exact absent (List.mem_keys_of_mem mem)
      have first : Passes x s (before.foldl (broadcastTo role frame) s) := by
        refine broadcastTo_passes sound fun entry mem => ⟨stored entry ?_, apart entry (List.mem_append_left _ mem)⟩
        rw [parts]
        exact List.mem_append_left _ mem
      have found₁ : (before.foldl (broadcastTo role frame) s).connections.lookup x = some c := by rw [first.connections, found]
      have puts : Puts c (if (s.heap c).remote.map (·.role) = some role then [frame] else [])
          (before.foldl (broadcastTo role frame) s) (broadcastTo role frame (before.foldl (broadcastTo role frame) s) ⟨x, c⟩) := by
        rw [broadcastTo, first.remote]
        split
        · exact enqueueWrite_puts
        · exact .refl
      have sound₂ : (broadcastTo role frame (before.foldl (broadcastTo role frame) s) ⟨x, c⟩).Sound := by
        rw [broadcastTo]
        split
        · exact enqueueWrite_sound first.sound found₁
        · exact first.sound
      rw [parts, List.foldl_append, List.foldl_cons]
      refine (broadcastTo_passes sound₂ fun entry mem => ⟨?_, apart entry (List.mem_append_right _ mem)⟩).delivered c _
        ((first.delivered c frames delivered).puts first.sound found₁ puts)
      rw [puts.connections, first.connections]
      refine stored entry ?_
      rw [parts]
      exact List.mem_append_right _ (.tail _ mem)

/-! ## The other handlers -/

/-- A connection that no peer is registered with changes nothing for `x`. -/
theorem Delivered.aside {c' : ConnectionPtr} (delivered : Delivered x c s frames) (aside : Aside c' s s')
    (other : s.connections.lookup x ≠ some c') (connections : s'.connections.lookup x = s.connections.lookup x)
    (pending : s'.pendingFrames.lookup x = s.pendingFrames.lookup x) : Delivered x c s' frames := by
  refine delivered.of_same aside.self connections pending fun found => ?_
  rw [aside.heap c fun same => other (same ▸ found)]
  exact ⟨rfl, rfl⟩

theorem Delivered.fail {op : Op} {c' : ConnectionPtr} (delivered : Delivered x c s frames) (here : op.on = some c')
    (fails : Fails c' (s.complete op) s') (other : s.connections.lookup x ≠ some c') : Delivered x c s' frames := by
  have taken : Aside c' s (s.complete op) := aside_erase here
  refine delivered.aside (taken.trans fails.aside) other ?_ (by rw [fails.pendingFrames]; rfl)
  rw [fails.lookup, if_neg fun both => other both.1]
  rfl

theorem registerConnection_delivered {c' : ConnectionPtr} {remote : NodeIdentity} (sound : s.Sound)
    (mem : .readHello c' ∈ s.ops) (only : remote.id = x → c' = c) (delivered : Delivered x c s frames) :
    Delivered x c ((s.complete (.readHello c')).registerConnection c' remote) frames := by
  have unregistered := sound.unregistered mem rfl rfl x
  obtain ⟨greeting, registers⟩ := sound.registers mem remote
  have pending := registers.pendingFrames x
  have lookup : ((s.complete (.readHello c')).registerConnection c' remote).connections.lookup x =
      if x = remote.id then some c' else s.connections.lookup x := by
    rw [registers.connections, Assoc.lookup_insert_ite]
    rfl
  by_cases named : x = remote.id
  · cases only named.symm
    rw [if_pos named] at pending lookup
    cases delivered with
    | passed found _ _ _ _ => exact absurd found unregistered
    | waiting absent waits =>
        obtain ⟨moved, given, queue⟩ := registers.stream
        refine .passed lookup pending moved ?_ ?_
        · rw [queue, ← waits, named]
          rfl
        · rw [given, complete_heap, greeting.greeted, registers.aside.self, complete_self]
  · rw [if_neg named] at pending lookup
    have taken : Aside c' s (s.complete (.readHello c')) := aside_erase rfl
    exact delivered.aside (taken.trans registers.aside) unregistered lookup pending

theorem handleWritten_delivered {c' : ConnectionPtr} {encoded error : Bool} (sound : s.Sound)
    (mem : .write c' encoded ∈ s.ops) (stays : error = true → c' ≠ c) (delivered : Delivered x c s frames) :
    Delivered x c ((s.complete (.write c' encoded)).handleWritten c' error) frames := by
  have taken : Delivered x c (s.complete (.write c' encoded)) frames := delivered.complete
  cases error with
  | true =>
      refine delivered.fail rfl (handleWritten_fails sound) fun found => ?_
      cases delivered with
      | waiting absent _ =>
          rw [absent] at found
          cases found
      | passed found' _ _ _ _ => exact stays rfl (Option.some.inj (found.symm.trans found'))
  | false =>
      rw [handleWritten]
      split
      · exact taken
      rw [if_neg (by decide)]
      by_cases found : s.connections.lookup x = some c'
      · cases delivered with
        | waiting absent _ =>
            rw [absent] at found
            cases found
        | passed found' none done rest handed =>
            cases found.symm.trans found'
            obtain ⟨moved, given, queue⟩ := (@writeNext_puts (s.complete (.write c encoded)) c).stream (sound.serves found).opened
            have puts := @writeNext_puts (s.complete (.write c encoded)) c
            refine .passed (by rw [puts.connections]; exact found) (by rw [puts.pendingFrames]; exact none) (done ++ moved) ?_ ?_
            · rw [List.append_assoc, queue, List.append_nil]
              exact rest
            · rw [given, puts.aside.self, complete_heap, handed, List.flatMap_append, List.append_assoc]
              rfl
      · exact Delivered.elsewhere (s := s.complete (.write c' encoded)) found writeNext_puts taken

theorem handleSend_delivered {id : NodeId} {frame : Frame} (sound : s.Sound) (delivered : Delivered x c s frames) :
    Delivered x c (s.handleSend id frame) (frames ++ sentNow x s (.send id frame)) := by
  rw [sentNow, handleSend]
  by_cases same : id = x
  · subst same
    rw [if_pos rfl]
    cases delivered with
    | waiting absent waits =>
        rw [absent]
        exact .waiting absent (by rw [AList.lookup_insert, Option.getD_some, waits])
    | passed found none done rest handed =>
        rw [found]
        exact Delivered.puts sound found enqueueWrite_puts (.passed found none done rest handed)
  · rw [if_neg same, List.append_nil]
    split
    · refine delivered.of_same rfl rfl ?_ fun _ => ⟨rfl, rfl⟩
      exact AList.lookup_insert_ne fun here => same here.symm
    · rename_i found
      exact delivered.elsewhere (fun here => same (sound.injective found here)) enqueueWrite_puts

theorem handshake_delivered {endpoint : Endpoint} {c' : ConnectionPtr} (sound : s.Sound) (mem : .connect endpoint c' ∈ s.ops)
    (delivered : Delivered x c s frames) : Delivered x c ((s.complete (.connect endpoint c')).handshake c') frames := by
  obtain ⟨encoded, result⟩ := handshake_cases c' (s.complete (.connect endpoint c'))
  rw [result]
  refine Delivered.begin ?_
  exact Delivered.aside (s := s.complete (.connect endpoint c')) delivered.complete aside_modify
    (sound.unregistered mem rfl rfl x) rfl rfl

theorem accept_delivered (sound : s.Sound) (delivered : Delivered x c s frames) :
    Delivered x c ((s.makeConnection { origin := .incoming }).handshake s.next) frames := by
  obtain ⟨encoded, result⟩ := handshake_cases s.next (s.makeConnection { origin := .incoming })
  rw [result]
  refine Delivered.begin (delivered.of_same rfl rfl rfl fun found => ?_)
  have old := Nat.ne_of_lt (sound.registered x c found).1
  rw [heap_modify_ne old, makeConnection_heap_ne old]
  exact ⟨rfl, rfl⟩

theorem connect_delivered {endpoint : Endpoint} (sound : s.Sound) (delivered : Delivered x c s frames) :
    Delivered x c (s.connect endpoint) frames := by
  refine Delivered.begin (delivered.of_same rfl rfl rfl fun found => ?_)
  rw [makeConnection_heap_ne (Nat.ne_of_lt (sound.registered x c found).1)]
  exact ⟨rfl, rfl⟩

theorem sentNow_completes {event : NetworkEvent} (completed : completes event = true) : sentNow x s event = [] := by
  cases event with
  | send _ _ => cases completed
  | broadcast _ _ => cases completed
  | _ => rfl

/-- Every handler leaves the frames for `x` in order, those that it sends itself at the end. -/
theorem step_delivered {event : NetworkEvent} (sound : s.Sound) (undisturbed : Undisturbed x c s event)
    (h : s.step event = .ok s') (delivered : Delivered x c s frames) : Delivered x c s' (frames ++ sentNow x s event) := by
  by_cases completed : completes event = true
  case neg =>
    cases event with
    | send id frame =>
        cases h
        exact handleSend_delivered sound delivered
    | broadcast role frame =>
        cases h
        exact handleBroadcast_delivered sound delivered
    | _ => exact absurd rfl completed
  case pos =>
    rw [sentNow_completes completed, List.append_nil]
    cases step_handles h with
    | queue absent => cases completed
    | send found => cases completed
    | broadcast => cases completed
    | @retry event op endpoint c' mem waits none _ =>
        have here : op.on = some c' := by rcases waits with rfl | rfl <;> rfl
        have early : op.isStream = false := by rcases waits with rfl | rfl <;> rfl
        exact (delivered.fail here failConnection_fails (sound.unregistered mem here early x)).begin
    | resolved mem => exact delivered.complete.begin
    | connected mem => exact handshake_delivered sound mem delivered
    | refused mem => exact delivered.complete.begin
    | accepted mem => exact accept_delivered ((sound.complete rfl).begin rfl) delivered.complete.begin
    | greeted mem => exact delivered.complete.begin
    | @failed event op c' mem here gives none first _ =>
        refine delivered.fail here failConnection_fails fun found => ?_
        cases delivered with
        | waiting absent _ =>
            rw [absent] at found
            cases found
        | passed found' _ _ _ _ =>
            cases found.symm.trans found'
            exact undisturbed.stays gives
    | @registered c' frame remote mem accepted =>
        refine registerConnection_delivered sound mem (fun named => ?_) delivered
        exact undisturbed.only (c', remote) (by rw [registers, accepted]; rfl) named
    | read mem proper =>
        rw [sound.reading mem]
        refine Delivered.begin (delivered.of_same rfl rfl rfl fun _ => ⟨rfl, rfl⟩)
    | @written c' encoded error mem =>
        refine handleWritten_delivered sound mem (fun failed same => undisturbed.stays ?_) delivered
        rw [abandons, if_pos failed, same]
    | held mem found => exact delivered.complete
    | redial mem => exact connect_delivered (sound.complete rfl) delivered.complete

/-! ## Runs -/

theorem run_delivered {events : List NetworkEvent} (sound : s.Sound) (delivered : Delivered x c s frames)
    (along : Along step (Undisturbed x c) s events) (h : run step s events = .ok s') :
    s'.Sound ∧ s'.self = s.self ∧ Delivered x c s' (frames ++ sent x s events) := by
  induction events generalizing s frames with
  | nil =>
      cases h
      refine ⟨sound, rfl, ?_⟩
      rw [sent, List.append_nil]
      exact delivered
  | cons event events ih =>
      obtain ⟨s₁, stepped, rest⟩ := run_cons h
      obtain ⟨sound', self, delivered'⟩ := ih (step_sound sound stepped)
        (step_delivered sound along.1 stepped delivered) (along.2 s₁ stepped) rest
      refine ⟨sound', self.trans (step_self sound stepped), ?_⟩
      rw [sent, stepped, ← List.append_assoc]
      exact delivered'

/-- The writes to the socket of a connection that serves its peer. -/
theorem countP_writesTo (s : NetworkState) (serving : Serving c (s.heap c) (s.opsOf c)) :
    s.ops.countP (writesTo c) = (s.opsOf c).countP Op.isWrite := by
  rw [opsOf, List.countP_filter]
  refine List.countP_congr fun op mem => ?_
  have known : op.on = some c → op.isStream = true := by
    intro here
    obtain ⟨encoded, rfl⟩ | ⟨remote, rfl, -⟩ := serving.streams op (mem_opsOf.2 ⟨mem, here⟩) <;> rfl
  cases op <;> simp_all [writesTo, Op.isWrite, Op.on, Op.isStream]

/-- Frames reach a peer that has one connection in the order in which they were sent, each once:
the socket has been given the hello and all of them but the ones still queued, and it is being
written to whenever some are. -/
theorem frames_delivered {self : Endpoint} {seedNodes : List Endpoint} {events : List NetworkEvent}
    (along : Along step (Undisturbed x c) (start self seedNodes) events)
    (small : ∀ frame ∈ helloFrame self :: sent x (start self seedNodes) events, frame.buffer.length ≤ maxMessageSize)
    (h : run step (start self seedNodes) events = .ok s) (registered : s.connections.lookup x = some c) :
    (∀ frame ∈ helloFrame self :: sent x (start self seedNodes) events, encodeFrame frame = some (frameBytes frame)) ∧
      (∃ done, done <+: sent x (start self seedNodes) events ∧
        (s.heap c).handed = frameBytes (helloFrame self) ++ done.flatMap frameBytes ∧
        (s.ops.countP (writesTo c) = 0 → done = sent x (start self seedNodes) events)) ∧
      s.ops.countP (writesTo c) ≤ 1 ∧ s.pendingFrames.lookup x = none := by
  obtain ⟨own, connections, pendingFrames⟩ := start_fields self seedNodes
  have first : Delivered x c (start self seedNodes) [] := by
    refine .waiting ?_ ?_
    · rw [connections]
      rfl
    · rw [pendingFrames]
      rfl
  obtain ⟨sound, same, delivered⟩ := run_delivered (start_sound self seedNodes) first along h
  have serving := sound.serves registered
  refine ⟨fun frame mem => encodeFrame_eq (small frame mem), ?_⟩
  rw [countP_writesTo s serving]
  cases delivered with
  | waiting absent _ =>
      rw [absent] at registered
      cases registered
  | passed found none done rest handed =>
      rw [List.nil_append] at rest
      rw [same, own] at handed
      refine ⟨⟨done, ⟨_, rest⟩, handed, fun idle => ?_⟩, ?_, none⟩
      · have resting : (s.heap c).writeInProgress = false := by
          by_contra busy
          rw [serving.busy, if_pos (Bool.not_eq_false _ ▸ busy)] at idle
          cases idle
        rw [← rest, serving.idle resting, List.append_nil]
      · rw [serving.busy]
        split <;> omega

/-- A frame sent before the connection registers, and one after. -/
theorem frames_delivered_two :
    let self : Endpoint := ⟨[97], .metadata, [104], 1⟩
    let peer : Endpoint := ⟨[98], .storage, [105], 2⟩
    let first : Frame := ⟨⟨headerMagic, 1, .storageRpc⟩, [1]⟩
    let second : Frame := ⟨⟨headerMagic, 1, .storageRpc⟩, [2]⟩
    let events : List NetworkEvent := [.send peer.nodeId first, .resolved peer 0 false, .connected peer 0 false,
      .helloWritten 0 true false, .helloRead 0 (some (helloFrame peer)), .send peer.nodeId second, .frameWritten 0 true false]
    ∃ s, run step (start self [peer]) events = .ok s ∧
      ∃ done, done <+: [first, second] ∧ (s.heap 0).handed = frameBytes (helloFrame self) ++ done.flatMap frameBytes := by
  intro self peer first second events
  obtain ⟨s, ran, registered⟩ := exists_ok (r := run step (start self [peer]) events)
    (f := fun s => decide (s.connections.lookup peer.nodeId = some 0)) (by decide +kernel)
  have both : sent peer.nodeId (start self [peer]) events = [first, second] := by decide +kernel
  obtain ⟨-, ⟨done, before, handed, -⟩, -, -⟩ := frames_delivered (by decide +kernel)
    (by rw [both]; decide +kernel) ran (of_decide_eq_true registered)
  rw [both] at before
  exact ⟨s, ran, done, before, handed⟩

end NetworkState

end Dfs
