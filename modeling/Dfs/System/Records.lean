import Dfs.Metadata.WorkerDurable
import Dfs.System.Sharing
import Dfs.System.Tables

/-!
# The records along a run with restarts

A metadata node may end at any time, also in the middle of a handler. The next process loads
the directory and knows neither sessions nor storage nodes.
-/

namespace Dfs

open Lib

inductive NodeEvent where
  | step (e : SystemEvent)
  | restart (outcomes : List Outcome)
  /-- The process ends in the handler of a request, at the `point`-th tree of the way. -/
  | crash (event : ClientEvent) (env : Env) (script : List (List Act)) (point : Nat) (outcomes : List Outcome)

/-- A heartbeat comes from a peer whose id the handshake takes. -/
def NodeEvent.From (taken : NodeId → Prop) : NodeEvent → Prop
  | .step e => e.From taken
  | _ => True

instance (taken : NodeId → Prop) [DecidablePred taken] (e : NodeEvent) : Decidable (e.From taken) := by
  unfold NodeEvent.From
  split <;> infer_instance

namespace System

open MetadataStore MetadataWorker MetadataState

variable {s s' : System} {e : NodeEvent} {events : List NodeEvent}

/-- A new process on the directory `t`; if it cannot be loaded the node does not start. -/
def restarted (s : System) (t : FileTree) (outcomes : List Outcome) : Except Exn System :=
  match loadFromStorage { disk := { s.worker.store.disk with tree := t, outcomes }, data := ∅ } with
  | (.error _, _) => .error .runtimeError
  | (.ok _, store) =>
      .ok
        { worker := { store, storageNodes := ∅, pendingReads := ∅, pendingWrites := ∅, currentStorageRequestId := 0 }
          network := { s.network with queue := [] } }

/-- The state when a handler has ended, with or without an exception. -/
def handled (s : System) (event : ClientEvent) (env : Env) (script : List (List Act)) : System :=
  (MetadataState.handle env event (s.scripted script)).2

def nextNode (s : System) : NodeEvent → Except Exn System
  | .step e => s.next e
  | .restart outcomes => s.restarted s.worker.store.disk.tree outcomes
  | .crash event env script point outcomes =>
      let s' := s.handled event env script
      s'.restarted ((passed s.worker.store s'.worker.store).getD point s.worker.store.disk.tree) outcomes

def runNode (s : System) (events : List NodeEvent) : Except Exn System := Lib.run nextNode s events

/-- The ids that the generator yields along the events. -/
def issuedNode (events : List NodeEvent) : List Bytes :=
  events.flatMap fun
    | .step e => issued [e]
    | .restart _ => []
    | .crash event env _ _ _ => drawn env event

/-- The node has just been started with an empty directory. -/
structure Blank (s : System) : Prop where
  fresh : s.Fresh
  records : s.worker.store.data = ∅
  directory : s.worker.store.disk.tree = .empty

/-- No record is corrupt, and all that is bound to an object agrees on its replicas. -/
structure RecordsSound (s : System) : Prop where
  named : ∀ k m, s.worker.store.data.lookup k = some m → m.objId ≠ []
  bound : ∀ k m, s.worker.store.data.lookup k = some m → m.replicaLocations = ([], []) ∨
    m.replicaLocations.1 ≠ [] ∧ m.replicaLocations.2 ≠ [] ∧ m.replicaLocations.1 ≠ m.replicaLocations.2
  sized : ∀ k m, s.worker.store.data.lookup k = some m → m.size ≠ 0 → m.replicaLocations ≠ ([], [])
  counted : ∀ k m, s.worker.store.data.lookup k = some m → (m.size.toNat + (chunkSize - 1)) / chunkSize < 2 ^ 32
  agree : ∀ x r r', s.worker.Names x r → s.worker.Names x r' → r ≠ ([], []) → r' ≠ ([], []) → r = r'
  /-- The checks of `WriteFile`, `ReadFile` and `Remove` for corrupt metadata. -/
  accepted : ∀ k m, s.worker.store.data.lookup k = some m →
    ¬ (m.objId = [] ∨ halfBound m.replicaLocations = true ∨ doubled m.replicaLocations = true ∨
      (chunksOf m.size).toNat > 0xffffffff ∨
      m.size ≠ 0 ∧ (m.replicaLocations.1 = [] ∨ m.replicaLocations.2 = [] ∨
        m.replicaLocations.1 = m.replicaLocations.2))

theorem recordsSound_of_coherent {fresh : List Bytes} (coherent : s.worker.Coherent fresh) : s.RecordsSound where
  named k m found := (coherent.clean _ _ (.record k m found)).named
  bound k m found := (coherent.records k m found).bound
  sized k m found := (coherent.records k m found).sized
  counted k m found := by
    have counted := (coherent.records k m found).counted
    rw [chunksOf_toNat] at counted
    omega
  agree x r r' names names' _ _ := coherent.agree x r r' names names'
  accepted k m found := by
    have sound := coherent.records k m found
    have named := (coherent.clean _ _ (.record k m found)).named
    rcases sound.bound with unbound | ⟨first, second, apart⟩
    · have empty : m.size = 0 := by
        by_contra sized
        exact sound.sized sized unbound
      have counted := sound.counted
      simp [named, unbound, empty, halfBound, doubled]
      decide
    · have counted := sound.counted
      simp [named, first, second, apart, halfBound, doubled]
      omega

/-! ## Steps -/

/-- The names in use survive a metadata file, and the directory shows the records. -/
structure Sturdy (s : System) : Prop where
  clean : s.worker.AllClean
  sessions : s.worker.SessionsSound
  known : Known NodeClean s.worker
  mirrored : Mirrored s.worker

/-- What every step keeps when generated ids never repeat. -/
structure Upright (s : System) (events : List NodeEvent) : Prop where
  coherent : s.worker.Coherent (issuedNode events)
  once : (issuedNode events).Nodup
  known : Known NodeClean s.worker
  mirrored : Mirrored s.worker

theorem Upright.sturdy (upright : s.Upright events) : s.Sturdy :=
  ⟨upright.coherent.clean, upright.coherent.sessions, upright.known, upright.mirrored⟩

theorem issuedNode_cons (e : NodeEvent) (events : List NodeEvent) :
    issuedNode (e :: events) = issuedNode [e] ++ issuedNode events := by
  simp [issuedNode]

/-- A new process knows the records of the directory and nothing else. -/
structure Restarted (data : Assoc FilePath FileMetadata) (s' : System) : Prop where
  fresh : s'.Fresh
  origin : ∀ k m, s'.worker.store.data.lookup k = some m → ∃ m₀, data.lookup k = some m₀ ∧ m = m₀.reloaded k
  mirrored : Mirrored s'.worker

theorem restarted_spec {t : FileTree} {data : Assoc FilePath FileMetadata} {outcomes : List Outcome}
    (mirror : Mirrors t data) (h : s.restarted t outcomes = .ok s') : Restarted data s' := by
  unfold System.restarted at h
  split at h
  · cases h
  rename_i store loaded
  cases h
  obtain ⟨tree, lookup⟩ := load_ok (s := { disk := { s.worker.store.disk with tree := t, outcomes }, data := ∅ }) mirror loaded
  refine ⟨⟨rfl, rfl, rfl⟩, fun k m found => ?_, ?_⟩
  · rw [lookup, Option.map_eq_some_iff] at found
    obtain ⟨m₀, found₀, rfl⟩ := found
    exact ⟨m₀, found₀, rfl⟩
  · rw [Mirrored, tree]
    exact mirror.reloaded lookup

/-- Where there are no sessions, only records have objects. -/
theorem Fresh.names (fresh : s.Fresh) {x : Bytes} {r : NodeId × NodeId} (names : s.worker.Names x r) :
    ∃ k m, s.worker.store.data.lookup k = some m ∧ m.objId = x ∧ m.replicaLocations = r := by
  cases names with
  | record k m found => exact ⟨k, m, found, rfl, rfl⟩
  | write context write found =>
      rw [findWrite, fresh.writes] at found
      cases found.symm.trans (Nested.find_empty _ _)
  | read context read found =>
      rw [findRead, fresh.reads] at found
      cases found.symm.trans (Nested.find_empty _ _)

theorem Restarted.names {w : MetadataWorker} {x : Bytes} {r : NodeId × NodeId} (restarted : Restarted w.store.data s')
    (names : s'.worker.Names x r) : w.Names x r := by
  obtain ⟨k, m, found, rfl, rfl⟩ := restarted.fresh.names names
  obtain ⟨m₀, found₀, rfl⟩ := restarted.origin k m found
  exact .record k m₀ found₀

theorem Restarted.sturdy {w : MetadataWorker} (restarted : Restarted w.store.data s') (clean : w.AllClean) : s'.Sturdy :=
  ⟨fun x r names => clean x r (restarted.names names), restarted.fresh.sound, restarted.fresh.known, restarted.mirrored⟩

theorem Restarted.coherent {w : MetadataWorker} {fresh : List Bytes} (restarted : Restarted w.store.data s')
    (coherent : w.Coherent fresh) : s'.worker.Coherent fresh := by
  refine coherent.within (fun x r => restarted.names) (fun k m found => ?_) restarted.fresh.sound ?_
  · obtain ⟨m₀, found₀, rfl⟩ := restarted.origin k m found
    have sound := coherent.records k m₀ found₀
    exact ⟨sound.bound, sound.sized, sound.counted⟩
  · intro k k' m m' found found' ne objId
    obtain ⟨m₀, found₀, rfl⟩ := restarted.origin k m found
    obtain ⟨m₀', found₀', rfl⟩ := restarted.origin k' m' found'
    exact coherent.alone k k' m₀ m₀' found₀ found₀' ne objId

/-- The worker whose records the directory shows at any point of a handler: the one from before
the handler, or the one it returns. -/
theorem Sturdy.passed {event : ClientEvent} {env : Env} {script : List (List Act)} {t : FileTree} (sturdy : s.Sturdy)
    (passed : t ∈ passed s.worker.store (s.handled event env script).worker.store) :
    Mirrors t s.worker.store.data ∨
      ∃ s₁, MetadataState.handle env event (s.scripted script) = (.ok (), s₁) ∧ Mirrors t s₁.worker.store.data := by
  have durable := handle_durable (s := s.scripted script) env event sturdy.mirrored sturdy.clean
    sturdy.known.available
  rcases durable.passed sturdy.mirrored t passed with mirror | mirror
  · exact Or.inl mirror
  · rcases result : MetadataState.handle env event (s.scripted script) with ⟨r, s₁⟩
    rw [result] at mirror
    cases r with
    | error e => exact Or.inl ((handle_error (s := s.scripted script) result : _ = s.worker.store.data) ▸ mirror)
    | ok _ => exact Or.inr ⟨s₁, rfl, mirror⟩

theorem handled_sturdy {event : ClientEvent} {env : Env} {script : List (List Act)} (sturdy : s.Sturdy)
    (h : MetadataState.handle env event (s.scripted script) = (.ok (), s')) : s'.Sturdy := by
  have durable := handle_durable (s := s.scripted script) env event sturdy.mirrored sturdy.clean
    sturdy.known.available
  rw [h] at durable
  have named : s.worker.Named := fun node available => (sturdy.known.available node available).1
  exact ⟨handle_allClean (s := s.scripted script) sturdy.clean sturdy.known.available h,
    (handle_sessions (s := s.scripted script) sturdy.sessions named h).1,
    fun node there => sturdy.known node ((handle_nodes h node).symm.trans there), durable.mirrors⟩

/-- What happens to storage nodes concerns neither records nor sessions. -/
theorem Sturdy.same (sturdy : s.Sturdy) (store : s'.worker.store = s.worker.store)
    (writes : s'.worker.pendingWrites = s.worker.pendingWrites) (reads : s'.worker.pendingReads = s.worker.pendingReads)
    (known : Known NodeClean s'.worker) : s'.Sturdy := by
  refine ⟨fun x r names => sturdy.clean x r (names.same (congrArg MetadataStore.data store) writes reads), ?_, known, ?_⟩
  · obtain ⟨soundWrites, soundReads, writesFilled, readsFilled⟩ := sturdy.sessions
    rw [← writes] at soundWrites writesFilled
    rw [← reads] at soundReads readsFilled
    exact ⟨soundWrites, soundReads, writesFilled, readsFilled⟩
  · rw [Mirrored, store]
    exact sturdy.mirrored

theorem next_sturdy (sturdy : s.Sturdy) (heard : e.From NodeClean) (h : s.nextNode e = .ok s') : s'.Sturdy := by
  cases e with
  | step e =>
      have known := next_known sturdy.known heard h
      cases e with
      | request event env script =>
          simp only [nextNode, next] at h
          split at h
          · cases h
          · rename_i s₁ handled
            cases h
            exact handled_sturdy sturdy handled
      | storage acts =>
          cases h
          exact sturdy.same rfl rfl rfl known
      | heartbeat now sender =>
          cases h
          exact sturdy.same rfl rfl rfl known
      | checkTimeouts now =>
          cases h
          exact sturdy.same rfl rfl rfl known
  | restart outcomes => exact (restarted_spec sturdy.mirrored h).sturdy sturdy.clean
  | crash event env script point outcomes =>
      rcases sturdy.passed (passed_getD_mem _ _ point) with mirror | ⟨s₁, handled, mirror⟩
      · exact (restarted_spec mirror h).sturdy sturdy.clean
      · exact (restarted_spec mirror h).sturdy (handled_sturdy sturdy handled).clean

theorem next_upright (upright : s.Upright (e :: events)) (heard : e.From NodeClean) (h : s.nextNode e = .ok s') :
    s'.Upright events := by
  have sturdy' := next_sturdy upright.sturdy heard h
  have sturdy := upright.sturdy
  obtain ⟨coherent, once, -, -⟩ := upright
  rw [issuedNode_cons] at coherent once
  have once' := (List.nodup_append.1 once).2.1
  have before : s.worker.Coherent (issuedNode events) := coherent.fewer (List.subset_append_right _ _)
  refine ⟨?_, once', sturdy'.known, sturdy'.mirrored⟩
  cases e with
  | step e =>
      cases e with
      | request event env script =>
          have drawn_eq : issuedNode [.step (.request event env script)] = drawn env event := by simp [issuedNode, issued]
          rw [drawn_eq] at coherent once
          simp only [nextNode, next] at h
          split at h
          · cases h
          · rename_i s₁ handled
            cases h
            exact handle_coherent (s := s.scripted script) coherent once sturdy.known.available handled
      | storage acts =>
          cases h
          exact before
      | heartbeat now sender =>
          cases h
          refine before.keep rfl (fun context write found => .write context write found)
            (fun context read found => .read context read found) ?_
          exact ⟨before.sessions.writes, before.sessions.reads, before.sessions.writesFilled, before.sessions.readsFilled⟩
      | checkTimeouts now =>
          cases h
          refine before.keep rfl (fun context write found => .write context write found)
            (fun context read found => .read context read found) ?_
          exact ⟨before.sessions.writes, before.sessions.reads, before.sessions.writesFilled, before.sessions.readsFilled⟩
  | restart outcomes => exact (restarted_spec sturdy.mirrored h).coherent before
  | crash event env script point outcomes =>
      have drawn_eq : issuedNode [.crash event env script point outcomes] = drawn env event := List.append_nil _
      rw [drawn_eq] at coherent once
      rcases sturdy.passed (passed_getD_mem _ _ point) with mirror | ⟨s₁, handled, mirror⟩
      · exact (restarted_spec mirror h).coherent before
      · exact (restarted_spec mirror h).coherent
          (handle_coherent (s := s.scripted script) coherent once sturdy.known.available handled)

theorem Blank.sturdy (blank : s.Blank) : s.Sturdy := by
  refine ⟨fun x r names => ?_, blank.fresh.sound, blank.fresh.known, ?_⟩
  · obtain ⟨k, m, found, -, -⟩ := blank.fresh.names names
    simp [blank.records] at found
  · rw [Mirrored, blank.directory, blank.records]
    exact empty_mirrors

theorem Blank.upright (blank : s.Blank) (once : (issuedNode events).Nodup) : s.Upright events := by
  have unnamed : ∀ x r, ¬ s.worker.Names x r := fun x r names => by
    obtain ⟨k, m, found, -, -⟩ := blank.fresh.names names
    simp [blank.records] at found
  refine ⟨⟨fun k m found => ?_, blank.fresh.sound, fun x r r' names => absurd names (unnamed x r),
    fun k k' m m' found => ?_, fun x r names => absurd names (unnamed x r), fun x r names => absurd names (unnamed x r)⟩,
    once, blank.sturdy.known, blank.sturdy.mirrored⟩
  · simp [blank.records] at found
  · simp [blank.records] at found

/-- No record is ever corrupt, whatever clients and storage nodes do and whenever the node ends. -/
theorem records_sound (blank : s.Blank) (once : (issuedNode events).Nodup) (heard : ∀ e ∈ events, e.From NodeClean)
    (h : s.runNode events = .ok s') : s'.RecordsSound := by
  have upright := run_invariant (p := fun _ _ => True)
    (P := fun s events => s.Upright events ∧ ∀ e ∈ events, e.From NodeClean)
    (fun s s' e events holds _ stepped => ⟨next_upright holds.1 (holds.2 e List.mem_cons_self) stepped,
      fun e' mem => holds.2 e' (List.mem_cons_of_mem _ mem)⟩)
    ⟨blank.upright once, heard⟩ (along_true _ _) h
  exact recordsSound_of_coherent upright.1.coherent

instance : DecidablePred NodeClean := fun node =>
  inferInstanceAs (Decidable (node ≠ [] ∧ NulFree node ∧ node.length ≤ maxMessageSize))

/-- A file is bound to the storage nodes, and the process ends twice: between two requests, and
in the middle of the next `WriteFile` of that file. -/
def bindAndCrash : List NodeEvent :=
  joined.map .step ++
    [.step (.request (.writeFile { path := [112], fileSize := 1, chunkCount := 1, context := fromClient 1 }) { first := 7 } []),
      .restart [],
      .crash (.writeFile { path := [112], fileSize := 0, chunkCount := 0, context := fromClient 2 }) { first := 8 } [] 4 []]

theorem records_sound_bindAndCrash :
    ∃ s', start.runNode bindAndCrash = .ok s' ∧
      (s'.worker.store.data.lookup [[112]]).any (fun m => m.replicaLocations = ([97], [98])) = true ∧ s'.RecordsSound := by
  obtain ⟨s', ran, found⟩ := exists_ok (r := start.runNode bindAndCrash)
    (f := fun s => (s.worker.store.data.lookup [[112]]).any (fun m => m.replicaLocations = ([97], [98]))) (by decide +kernel)
  exact ⟨s', ran, found, records_sound ⟨⟨rfl, rfl, rfl⟩, rfl, rfl⟩ (by decide +kernel) (by decide) ran⟩

end System

end Dfs
