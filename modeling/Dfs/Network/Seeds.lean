import Dfs.Network.Peers

/-!
# What is kept for a seed peer

A node is to hold a connection to each seed peer that it should connect with, to be busy
connecting, or to have a timer to try again. The handlers that fail to resolve or to connect
leave such a timer behind; the ones that give up a handshake or a connection do not.
-/

namespace Dfs

open Lib

namespace NetworkState

variable {s s' : NetworkState} {c : ConnectionPtr} {e : Endpoint}

/-- The operation is part of an attempt to connect with `e`, or of the handshake after it. -/
def attempts (s : NetworkState) (e : Endpoint) : Op → Bool
  | .resolve endpoint _ | .connect endpoint _ => endpoint = e
  | .writeHello c _ | .readHello c => (s.heap c).expectedRemote = some e.identity
  | _ => false

/-- The seed peer is not given up. -/
def Kept (s : NetworkState) (e : Endpoint) : Prop :=
  (∃ c ∈ s.connections.lookup e.nodeId, True) ∨ (∃ op ∈ s.ops, s.attempts e op = true) ∨ .reconnect e ∈ s.ops

/-- Nor is it without the connection `c`. -/
def KeptBeside (c : ConnectionPtr) (s : NetworkState) (e : Endpoint) : Prop :=
  (∃ c' ∈ s.connections.lookup e.nodeId, c' ≠ c) ∨ (∃ op ∈ s.ops, s.attempts e op = true ∧ op.on ≠ some c) ∨
    .reconnect e ∈ s.ops

instance : Decidable (s.Kept e) := inferInstanceAs (Decidable (_ ∨ _))

instance : Decidable (s.KeptBeside c e) := inferInstanceAs (Decidable (_ ∨ _))

/-- Where the handler gives a connection up, no seed peer depended on it. -/
def Spares (self : Endpoint) (seedNodes : List Endpoint) (s : NetworkState) (event : NetworkEvent) : Prop :=
  ∀ c ∈ s.abandons event, ∀ e ∈ seedNodes, shouldConnect self e = true → s.KeptBeside c e

instance (self : Endpoint) (seedNodes : List Endpoint) (event : NetworkEvent) : Decidable (Spares self seedNodes s event) :=
  inferInstanceAs (Decidable (∀ c ∈ _, _))

/-- What was kept is kept, if the completed operation leaves something in its place. -/
theorem Kept.carry (kept : s.Kept e) (op : Op)
    (table : ∀ c, s.connections.lookup e.nodeId = some c → ∃ c', s'.connections.lookup e.nodeId = some c')
    (ops : ∀ op' ∈ s.ops, op' ≠ op → op' ∈ s'.ops)
    (attempts : ∀ op' ∈ s.ops, s.attempts e op' = true → s'.attempts e op' = true)
    (instead : s.attempts e op = true ∨ op = .reconnect e → s'.Kept e) : s'.Kept e := by
  rcases kept with ⟨c, found, -⟩ | ⟨op', mem, attempt⟩ | timer
  · obtain ⟨c', found'⟩ := table c found
    exact .inl ⟨c', found', trivial⟩
  · by_cases same : op' = op
    · exact instead (.inl (same ▸ attempt))
    · exact .inr (.inl ⟨op', ops op' mem same, attempts op' mem attempt⟩)
  · by_cases same : .reconnect e = op
    · exact instead (.inr same.symm)
    · exact .inr (.inr (ops _ timer same))

/-- An attempt is one as long as its connection expects the same peer. -/
theorem attempts_of_expected {op : Op}
    (same : ∀ c, op.on = some c → (s'.heap c).expectedRemote = (s.heap c).expectedRemote)
    (attempt : s.attempts e op = true) : s'.attempts e op = true := by
  cases op with
  | resolve endpoint c => exact attempt
  | connect endpoint c => exact attempt
  | writeHello c encoded =>
      rw [attempts] at attempt ⊢
      rwa [same c rfl]
  | readHello c =>
      rw [attempts] at attempt ⊢
      rwa [same c rfl]
  | _ => exact attempt

theorem Kept.puts {frames : List Frame} (puts : Puts c frames s s') (kept : s.Kept e) : s'.Kept e := by
  refine kept.carry .accept (fun c found => ⟨c, by rw [puts.connections, found]⟩) (fun op mem _ => puts.grows op mem)
    (fun op mem => attempts_of_expected fun c _ => puts.expected c) ?_
  rintro (attempt | same)
  · cases attempt
  · cases same

/-- One operation has taken the place of another. -/
theorem Kept.replace {op op' : Op} (kept : s.Kept e)
    (instead : s.attempts e op = true ∨ op = .reconnect e → s.attempts e op' = true ∨ op' = .reconnect e) :
    ((s.complete op).begin op').Kept e := by
  refine kept.carry op (fun c found => ⟨c, found⟩) (fun op' mem ne => .tail _ ((List.mem_erase_of_ne ne).2 mem))
    (fun op' _ => attempts_of_expected fun _ _ => rfl) fun was => ?_
  rcases instead was with attempt | same
  · exact .inr (.inl ⟨op', .head _, attempts_of_expected (fun _ _ => rfl) attempt⟩)
  · rw [same]
    exact .inr (.inr (.head _))

theorem Kept.complete {op : Op} (kept : s.Kept e)
    (instead : s.attempts e op = true ∨ op = .reconnect e → ∃ c, s.connections.lookup e.nodeId = some c) :
    (s.complete op).Kept e := by
  refine kept.carry op (fun c found => ⟨c, found⟩) (fun op' mem ne => (List.mem_erase_of_ne ne).2 mem)
    (fun op' _ => attempts_of_expected fun _ _ => rfl) fun was => ?_
  obtain ⟨c, found⟩ := instead was
  exact .inl ⟨c, found, trivial⟩

theorem handleBroadcast_kept {role : NodeRole} {frame : Frame} (kept : s.Kept e) : (s.handleBroadcast role frame).Kept e := by
  rw [handleBroadcast]
  generalize s.connections.entries = entries
  induction entries generalizing s with
  | nil => exact kept
  | cons entry entries ih =>
      rw [List.foldl_cons]
      split
      · exact ih (kept.puts enqueueWrite_puts)
      · exact ih kept

/-- No seed is lost with a connection that none depends on. -/
theorem KeptBeside.fail {op : Op} (here : op.on = some c) (kept : s.KeptBeside c e) (fails : Fails c (s.complete op) s') :
    s'.Kept e := by
  rcases kept with ⟨c', found, other⟩ | ⟨op', mem, attempt, elsewhere⟩ | timer
  · refine .inl ⟨c', ?_, trivial⟩
    have lookup := fails.lookup e.nodeId
    rw [complete_connections, Option.mem_def.1 found, if_neg fun same => other (Option.some.inj same.1)] at lookup
    exact lookup
  · refine .inr (.inl ⟨op', ?_, attempts_of_expected (fun c _ => fails.expectedRemote c) attempt⟩)
    rw [fails.ops]
    exact (List.mem_erase_of_ne fun same => elsewhere (by rw [same, here])).2 mem
  · refine .inr (.inr ?_)
    rw [fails.ops]
    exact (List.mem_erase_of_ne fun same => by rw [← same] at here; cases here).2 timer

theorem retry_kept {op : Op} {endpoint : Endpoint} (sound : s.Sound) (mem : op ∈ s.ops)
    (waits : op = .resolve endpoint c ∨ op = .connect endpoint c) (kept : s.Kept e) :
    (((s.complete op).failConnection c).scheduleReconnect endpoint).Kept e := by
  have here : op.on = some c := by rcases waits with rfl | rfl <;> rfl
  obtain ⟨only, made⟩ := (sound.phase c (sound.allocated mem here)).of_dialling (mem_opsOf.2 ⟨mem, here⟩) waits
  have fails := @failConnection_fails (s.complete op) c
  refine kept.carry op (fun c' found => ⟨c', ?_⟩) (fun op' mem' ne => .tail _ ?_) (fun op' _ => ?_) ?_
  · have lookup := fails.lookup e.nodeId
    rw [complete_heap, made, complete_connections, if_neg (by simp)] at lookup
    exact lookup.trans found
  · rw [fails.ops]
    exact (List.mem_erase_of_ne ne).2 mem'
  · exact attempts_of_expected fun c _ => fails.expectedRemote c
  · rintro (attempt | same)
    · have same : endpoint = e := by rcases waits with rfl | rfl <;> simpa [attempts] using attempt
      rw [same]
      exact .inr (.inr (.head _))
    · rcases waits with rfl | rfl <;> cases same

theorem handshake_kept {endpoint : Endpoint} (sound : s.Sound) (mem : .connect endpoint c ∈ s.ops) (kept : s.Kept e) :
    ((s.complete (.connect endpoint c)).handshake c).Kept e := by
  obtain ⟨only, made⟩ := (sound.phase c (sound.allocated mem rfl)).of_dialling (mem_opsOf.2 ⟨mem, rfl⟩) (.inr rfl)
  obtain ⟨encoded, result⟩ := handshake_cases c (s.complete (.connect endpoint c))
  have expected : ∀ c', ((s.modify c fun conn => { conn with
      handed := conn.handed ++ frameBytes (helloFrame s.self) }).heap c').expectedRemote = (s.heap c').expectedRemote := by
    intro c'
    by_cases same : c' = c
    · rw [same, heap_modify]
    · rw [heap_modify_ne same]
  rw [result]
  refine kept.carry (.connect endpoint c) (fun c' found => ⟨c', found⟩)
    (fun op' mem' ne => .tail _ ((List.mem_erase_of_ne ne).2 mem')) (fun op' _ => ?_) ?_
  · exact attempts_of_expected fun c _ => expected c
  · rintro (attempt | same)
    · refine .inr (.inl ⟨.writeHello c encoded, .head _, ?_⟩)
      have same : endpoint = e := by simpa [attempts] using attempt
      have aimed := expected c
      rw [made, same] at aimed
      exact decide_eq_true aimed
    · cases same

theorem accept_kept (sound : s.Sound) (kept : s.Kept e) :
    ((((s.complete .accept).begin .accept).makeConnection { origin := .incoming }).handshake s.next).Kept e := by
  obtain ⟨encoded, result⟩ :=
    handshake_cases s.next (((s.complete .accept).begin .accept).makeConnection { origin := .incoming })
  rw [result]
  refine kept.carry .accept (fun c' found => ⟨c', found⟩)
    (fun op' mem' ne => .tail _ (.tail _ ((List.mem_erase_of_ne ne).2 mem'))) (fun op' mem' => ?_) nofun
  refine attempts_of_expected fun c' here => ?_
  have old : c' ≠ s.next := Nat.ne_of_lt (sound.allocated mem' here)
  simp only [begin]
  rw [heap_modify_ne old]
  exact congrArg _ (makeConnection_heap_ne old)

theorem registerConnection_kept {frame : Option Frame} {remote : NodeIdentity} (sound : s.Sound) (mem : .readHello c ∈ s.ops)
    (accepted : acceptHello s.self.role (s.heap c).expectedRemote frame = some remote) (kept : s.Kept e) :
    ((s.complete (.readHello c)).registerConnection c remote).Kept e := by
  obtain ⟨-, registers⟩ := sound.registers mem remote
  refine kept.carry (.readHello c) (fun c' found => ?_) (fun op' mem' ne => registers.grows op' ((List.mem_erase_of_ne ne).2 mem'))
    (fun op' _ => attempts_of_expected fun c _ => registers.expectedRemote c) ?_
  · rw [registers.connections, Assoc.lookup_insert_ite]
    split
    · exact ⟨c, rfl⟩
    · exact ⟨c', found⟩
  · rintro (attempt | same)
    · rw [attempts, decide_eq_true_eq] at attempt
      rw [attempt] at accepted
      obtain ⟨-, -, impossible | expects⟩ := acceptHello_some accepted
      · cases impossible
      refine .inl ⟨c, ?_, trivial⟩
      rw [registers.connections, Assoc.lookup_insert_ite, if_pos]
      · rfl
      · rw [← Option.some.inj expects]
        rfl
    · cases same

theorem handleWritten_kept {encoded : Bool} (kept : s.Kept e) :
    ((s.complete (.write c encoded)).handleWritten c false).Kept e := by
  have carried : (s.complete (.write c encoded)).Kept e := kept.complete nofun
  rw [handleWritten]
  split
  · exact carried
  · exact carried.puts writeNext_puts

theorem redial_kept {endpoint : Endpoint} (sound : s.Sound) (kept : s.Kept e) :
    ((s.complete (.reconnect endpoint)).connect endpoint).Kept e := by
  refine kept.carry (.reconnect endpoint) (fun c' found => ⟨c', found⟩)
    (fun op' mem' ne => .tail _ ((List.mem_erase_of_ne ne).2 mem')) (fun op' mem' => ?_) ?_
  · refine attempts_of_expected fun c' here => ?_
    exact congrArg _ (makeConnection_heap_ne (Nat.ne_of_lt (sound.allocated mem' here)))
  · rintro (attempt | same)
    · cases attempt
    · cases same
      exact .inr (.inl ⟨.resolve e s.next, .head _, by simp [attempts]⟩)

/-- What a handler that gives up a connection leaves for a seed peer is what was kept beside it. -/
theorem abandoned_iff {event : NetworkEvent} (sound : s.Sound) (h : s.step event = .ok s')
    (gives : s.abandons event = some c) : s'.Kept e ↔ s.KeptBeside c e := by
  obtain ⟨op, mem, here, first, fails⟩ := step_abandons sound h gives
  refine ⟨fun kept => ?_, fun beside => beside.fail here fails⟩
  rcases kept with ⟨c', found, -⟩ | ⟨op', mem', attempt⟩ | timer
  · have lookup := fails.lookup e.nodeId
    rw [Option.mem_def.1 found] at lookup
    split at lookup
    · cases lookup
    rename_i other
    refine .inl ⟨c', lookup.symm, fun same => other ⟨same ▸ lookup.symm, ?_⟩⟩
    obtain ⟨-, -, remote, known, named⟩ := sound.registered e.nodeId c (same ▸ lookup.symm)
    rw [complete_heap, known, ← named]
    rfl
  · rw [fails.ops] at mem'
    refine .inr (.inl ⟨op', List.mem_of_mem_erase mem', ?_, fun there => ?_⟩)
    · exact attempts_of_expected (fun c _ => (fails.expectedRemote c).symm) attempt
    · obtain ⟨streams, -⟩ := (sound.phase c (sound.allocated mem here)).after (mem_opsOf.2 ⟨mem, here⟩) first
      have left : op' ∈ (s.opsOf c).erase op := by
        rw [← opsOf_erase]
        exact mem_opsOf.2 ⟨mem', there⟩
      obtain ⟨_, rfl⟩ | ⟨_, rfl, -⟩ := streams op' left <;> cases attempt
  · rw [fails.ops] at timer
    exact .inr (.inr (List.mem_of_mem_erase timer))

/-- The other handlers keep what is kept for a seed peer. -/
theorem step_kept {event : NetworkEvent} (sound : s.Sound) (h : s.step event = .ok s') (kept : s.Kept e)
    (spares : ∀ c ∈ s.abandons event, s.KeptBeside c e) : s'.Kept e := by
  cases step_handles h with
  | queue absent => exact kept
  | send found => exact kept.puts enqueueWrite_puts
  | broadcast => exact handleBroadcast_kept kept
  | retry mem waits none completes => exact retry_kept sound mem waits kept
  | resolved mem => exact kept.replace fun was => .inl (was.resolve_right nofun)
  | connected mem => exact handshake_kept sound mem kept
  | refused mem => exact kept.replace nofun
  | accepted mem => exact accept_kept sound kept
  | greeted mem => exact kept.replace fun was => .inl (was.resolve_right nofun)
  | failed mem here gives none first completes => exact (abandoned_iff sound h gives).2 (spares _ gives)
  | registered mem accepted => exact registerConnection_kept sound mem accepted kept
  | @read c remote frame mem proper =>
      rw [sound.reading mem]
      exact @Kept.replace s e (.read c remote) (.read c remote) kept nofun
  | @written c encoded error mem =>
      cases error with
      | true => exact (abandoned_iff sound h rfl).2 (spares c rfl)
      | false => exact handleWritten_kept kept
  | held mem found =>
      refine kept.complete fun was => ?_
      rcases was with attempt | same
      · cases attempt
      · cases same
        exact Option.isSome_iff_exists.1 found
  | redial mem => exact redial_kept sound kept

theorem connect_kept {endpoint : Endpoint} (sound : s.Sound) (kept : endpoint = e ∨ s.Kept e) : (s.connect endpoint).Kept e := by
  rcases kept with rfl | kept
  · exact .inr (.inl ⟨.resolve endpoint s.next, .head _, by simp [attempts]⟩)
  · refine kept.carry .accept (fun c' found => ⟨c', found⟩) (fun op' mem' _ => .tail _ mem') (fun op' mem' => ?_) nofun
    refine attempts_of_expected fun c' here => ?_
    exact congrArg _ (makeConnection_heap_ne (Nat.ne_of_lt (sound.allocated mem' here)))

/-- At first there is an attempt for every seed peer to connect with. -/
theorem start_kept {self : Endpoint} {seedNodes : List Endpoint} (mem : e ∈ seedNodes) (should : shouldConnect self e = true) :
    (start self seedNodes).Kept e := by
  have all : ∀ (endpoints : List Endpoint) (s : NetworkState), s.Sound → e ∈ endpoints ∨ s.Kept e →
      (endpoints.foldl (fun s endpoint => s.connect endpoint) s).Kept e := by
    intro endpoints
    induction endpoints with
    | nil => exact fun s _ kept => kept.resolve_left List.not_mem_nil
    | cons endpoint endpoints ih =>
        intro s sound kept
        refine ih _ (connect_sound sound) ?_
        rcases kept with mem | kept
        · cases mem with
          | head => exact .inr (connect_kept sound (.inl rfl))
          | tail _ mem => exact .inl mem
        · exact .inr (connect_kept sound (.inr kept))
  have kept := all (seedNodes.filter (shouldConnect self)) (initial self) (initial_sound self)
    (.inl (List.mem_filter.2 ⟨mem, should⟩))
  refine kept.carry .accept (fun c' found => ⟨c', found⟩) (fun op' mem' _ => .tail _ mem') (fun op' _ => ?_) nofun
  exact attempts_of_expected fun _ _ => rfl

/-- As long as no handler gives up the last thing that is kept for a seed peer, none is given up. -/
theorem seeds_kept {self : Endpoint} {seedNodes : List Endpoint} {events : List NetworkEvent}
    (along : Along step (Spares self seedNodes) (start self seedNodes) events)
    (h : run step (start self seedNodes) events = .ok s) (mem : e ∈ seedNodes) (should : shouldConnect self e = true) :
    s.Kept e := by
  have keeps : ∀ (s s' : NetworkState) (event : NetworkEvent) (_ : List NetworkEvent), s.Sound ∧ s.Kept e →
      Spares self seedNodes s event → s.step event = .ok s' → s'.Sound ∧ s'.Kept e := by
    intro s s' event _ ⟨sound, kept⟩ spares stepped
    exact ⟨step_sound sound stepped, step_kept sound stepped kept fun c gives => spares c gives e mem should⟩
  exact (run_invariant (P := fun s _ => s.Sound ∧ s.Kept e) keeps ⟨start_sound self seedNodes, start_kept mem should⟩ along h).2

section Examples

/-- A metadata node and a storage node among its seeds. -/
def metadataEndpoint : Endpoint := ⟨[97], .metadata, [104], 1⟩

def storageEndpoint : Endpoint := ⟨[98], .storage, [105], 2⟩

/-- The attempt to connect succeeds, and so does the handshake. -/
def connectedRun : List NetworkEvent :=
  [.resolved storageEndpoint 0 false, .connected storageEndpoint 0 false, .helloWritten 0 true false,
    .helloRead 0 (some (helloFrame storageEndpoint))]

theorem seeds_kept_connected : ∃ s, run step (start metadataEndpoint [storageEndpoint]) connectedRun = .ok s ∧
    s.Kept storageEndpoint := by
  obtain ⟨s, ran, -⟩ := exists_ok (r := run step (start metadataEndpoint [storageEndpoint]) connectedRun)
    (f := fun _ => true) (by decide +kernel)
  exact ⟨s, ran, seeds_kept (by decide +kernel) ran (.head _) (by decide +kernel)⟩

/-- The connection is lost later. -/
theorem seed_given_up : ∃ s, run step (start metadataEndpoint [storageEndpoint])
      (connectedRun ++ [.frameRead 0 storageEndpoint.identity none]) = .ok s ∧
    shouldConnect metadataEndpoint storageEndpoint = true ∧ ¬ s.Kept storageEndpoint := by
  obtain ⟨s, ran, lost⟩ := exists_ok (r := run step (start metadataEndpoint [storageEndpoint])
    (connectedRun ++ [.frameRead 0 storageEndpoint.identity none]))
    (f := fun s => !decide (s.Kept storageEndpoint)) (by decide +kernel)
  exact ⟨s, ran, by decide +kernel, by simpa using lost⟩

end Examples

end NetworkState

end Dfs
