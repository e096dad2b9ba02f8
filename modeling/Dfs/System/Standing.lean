import Dfs.Metadata.Custody
import Dfs.Storage.Reads
import Dfs.System.Download

/-!
# Files that nobody writes

A file keeps its contents as long as no upload to it is completed and nobody empties or removes it, whatever else
the clients ask for, however the storage nodes and the connections behave and whenever a process ends. A rename
takes the contents along.
-/

namespace Dfs

open Lib

variable {x b : Bytes}

theorem Generated.plain (generated : Generated x) : PosixPath.dot ∉ x := by
  obtain ⟨first, second, rfl⟩ := generated
  exact ObjectId.not_mem_generate (by simp [ObjectId.Plain, PosixPath.dot])

/-- Of the `PUT`s only the last one of an upload touches the object. -/
theorem spares_put {put : PutRequest} (plain : PosixPath.dot ∉ x) (unfinished : put.objectId = x → put.finalChunk = false) :
    Spares x (.put put) := by
  intro w
  rcases handled : w.handlePut put with ⟨response, w'⟩
  have next : History.next ⟨w, []⟩ (.handle (.put put) w.disk.outcomes) = ⟨w', [.put put response.status]⟩ := by
    have same : { w with disk := w.disk.withOutcomes w.disk.outcomes } = w := rfl
    simp only [History.next, same, handled]
  obtain ⟨entry, log, replaces | same⟩ := History.next_committed (h := ⟨w, []⟩) plain (.handle (.put put) w.disk.outcomes)
  · rw [next] at log
    cases log
    cases (unfinished replaces.1).symm.trans replaces.2.1
  · rw [next] at same
    rw [StorageWorker.handle, handled]
    exact same

theorem spares_delete {delete : DeleteRequest} (plain : PosixPath.dot ∉ x) (other : x ≠ delete.objectId) :
    Spares x (.delete delete) := fun _ => StorageWorker.handleDelete_other other plain

namespace Cluster

variable {c c' : Cluster} {node : NodeId}

/-- A storage node that gets the frame leaves the object alone. -/
def Harmless (asker : NodeIdentity) (x : Bytes) (frame : Frame) : Prop :=
  ∀ event, StorageEvent.of (frame.from asker) = .ok event → Spares x event

theorem offers_used (used : Network.Used (Harmless c.self x) c c') (h : c.At node (Offers c.self x b)) :
    c'.self = c.self ∧ c'.At node (Offers c.self x b) := by
  refine used.keeps (P := fun n => n.self = c.self ∧ n.At node (Offers c.self x b)) (fun n other frame holds harmless => ?_)
    (fun n timeout p holds => ?_) ⟨rfl, h⟩
  · exact ⟨send_self.trans holds.1, offers_send harmless holds.2⟩
  · let n' : Cluster := { n with script := n.script.tail }
    have waited : (n'.acts (n.script.headD [])).At node (Offers c.self x b) :=
      offers_lasting.acts (c := n') holds.1 _ holds.2
    exact ⟨take_self.trans ((acts_self n' _).trans holds.1), offers_take waited⟩

end Cluster

namespace System

open Cluster MetadataStore MetadataWorker MetadataState

variable {s s' : System} {k : FilePath} {replicas : NodeId × NodeId} {env : Env} {event : ClientEvent}
  {script : List (List Act)} {e : NodeEvent}

/-- Both nodes have committed `b`, and nothing that waits for them changes that. -/
def Kept (s : System) (x b : Bytes) (replicas : NodeId × NodeId) : Prop :=
  s.network.At replicas.1 (Offers s.network.self x b) ∧ s.network.At replicas.2 (Offers s.network.self x b)

/-- The file at `k` has the object `x` and is `b`, whatever is under way. Whoever reads it reads `b`. -/
structure Standing (k : FilePath) (x b : Bytes) (replicas : NodeId × NodeId) (s : System) : Prop where
  generated : Generated x
  custody : s.worker.Custody k x b.length replicas
  kept : b ≠ [] → s.Kept x b replicas
  reads : ReadsOf x b.length (s.Kept x b) s.worker

/-- The file at `k` has the object `x` and is `b`. A session that reads it may still go by the record from before. -/
structure InPlace (k : FilePath) (x b : Bytes) (replicas : NodeId × NodeId) (s : System) : Prop where
  generated : Generated x
  custody : s.worker.Custody k x b.length replicas
  kept : b ≠ [] → s.Kept x b replicas

theorem Standing.inPlace (standing : s.Standing k x b replicas) : s.InPlace k x b replicas :=
  ⟨standing.generated, standing.custody, standing.kept⟩

theorem InPlace.standing (inPlace : s.InPlace k x b replicas)
    (unread : ∀ c read, s.worker.findRead c = some read → read.objectId ≠ x) : s.Standing k x b replicas :=
  ⟨inPlace.generated, inPlace.custody, inPlace.kept, fun c read found own => absurd own (unread c read found)⟩

theorem Kept.used (kept : s.Kept x b replicas) (used : Network.Used (Harmless s.network.self x) s.network s'.network) :
    s'.Kept x b replicas := by
  obtain ⟨self, first⟩ := offers_used used kept.1
  obtain ⟨-, second⟩ := offers_used used kept.2
  rw [Kept, self]
  exact ⟨first, second⟩

/-- What a request that leaves the file alone asks storage nodes for. -/
theorem InPlace.asks (inPlace : s.InPlace k x b replicas) (generated : s.worker.All fun x _ => Generated x)
    (leaves : s.worker.Leaves k x env event) : Asks (Harmless s.network.self x) s.worker event := by
  have plain := inPlace.generated.plain
  cases event with
  | writeChunk req =>
      intro write found due event read
      have object : Generated write.objectId := generated _ _ (.write _ write found)
      have small : write.objectId.length + req.data.length < 2 ^ 30 := by
        have chunk := due.2.2.trans_le (expectedSize_le _ _)
        rw [chunkSize] at chunk
        have id := object.length
        omega
      rw [of_putRequest object.nulFree small] at read
      cases read
      refine spares_put plain fun same => ?_
      have unfinished := leaves write found (inPlace.custody.owns.writes _ write found same)
      rw [← due.1] at unfinished
      exact decide_eq_false unfinished
  | readChunk req =>
      intro read found id event got
      have object : Generated read.objectId := generated _ _ (.read _ read found)
      rw [of_getRequest object.nulFree (object.length.trans_lt (by decide))] at got
      cases got
      exact spares_get x _
  | remove req =>
      intro m found id event read
      have there := (getMetadata_ok found).2
      have object : Generated m.objId := generated _ _ (.record _ m there)
      rw [of_deleteRequest object.nulFree (object.length.trans_lt (by decide))] at read
      cases read
      exact spares_delete plain fun same => leaves (inPlace.custody.owns.records _ m there same.symm)
  | _ => trivial

/-! ## One step -/

/-- The state when the handler has ended, in whichever way. -/
theorem InPlace.handled_kept (inPlace : s.InPlace k x b replicas) (generated : s.worker.All fun x _ => Generated x)
    (leaves : (s.worker.withOutcomes env.outcomes).Leaves k x env event) {pair : NodeId × NodeId} (kept : s.Kept x b pair) :
    (s.handled event env script).Kept x b pair := by
  have entered : System.InPlace k x b replicas ((s.scripted script).entered env) :=
    ⟨inPlace.generated, inPlace.custody.of_same rfl rfl, inPlace.kept⟩
  have asks := entered.asks (fun x r names => generated x r names.withOutcomes) leaves
  exact kept.used (s := s.scripted script) (handle_sends asks fun _ _ responds event read => by
    obtain ⟨rest, rfl⟩ := responds
    exact absurd read of_clientFrame)

theorem InPlace.request (inPlace : s.InPlace k x b replicas) (filed : Filed s.worker.store.disk.tree s.worker.store.data)
    (generated : s.worker.All fun x _ => Generated x) (leaves : (s.worker.withOutcomes env.outcomes).Leaves k x env event)
    (h : MetadataState.handle env event (s.scripted script) = (.ok (), s')) :
    s'.InPlace ((s.worker.withOutcomes env.outcomes).carried k event) x b replicas := by
  have same : s.handled event env script = s' := congrArg Prod.snd h
  exact ⟨inPlace.generated, handle_custody (s := s.scripted script) filed inPlace.custody leaves h, fun some =>
    same ▸ inPlace.handled_kept generated leaves (inPlace.kept some)⟩

theorem Kept.acts (kept : s.Kept x b replicas) (acts : List Act) :
    System.Kept { s with network := s.network.acts acts } x b replicas := by
  rw [Kept, acts_self]
  exact ⟨offers_lasting.acts rfl acts kept.1, offers_lasting.acts rfl acts kept.2⟩

/-- The step leaves the file with the object `x` alone. Where a process ends in the middle of a request, the request
does not move the file. -/
def LeavesAlone (x : Bytes) (s : System) : NodeEvent → Prop
  | .step (.request event env _) => ∀ k m, s.worker.store.data.lookup k = some m → m.objId = x →
      (s.worker.withOutcomes env.outcomes).Leaves k x env event
  | .crash event env _ _ _ => ∀ k m, s.worker.store.data.lookup k = some m → m.objId = x →
      (s.worker.withOutcomes env.outcomes).Leaves k x env event ∧ (s.worker.withOutcomes env.outcomes).carried k event = k
  | _ => True

instance (x : Bytes) (s : System) (e : NodeEvent) : Decidable (s.LeavesAlone x e) :=
  match e with
  | .step (.request event env _) => decidable_of_iff (¬ Assoc.any s.worker.store.data (fun k m =>
      m.objId = x ∧ ¬ (s.worker.withOutcomes env.outcomes).Leaves k x env event)) (by simp [LeavesAlone, Assoc.any_iff])
  | .crash event env _ _ _ => decidable_of_iff (¬ Assoc.any s.worker.store.data (fun k m =>
      m.objId = x ∧ ¬ ((s.worker.withOutcomes env.outcomes).Leaves k x env event ∧
        (s.worker.withOutcomes env.outcomes).carried k event = k))) (by simp [LeavesAlone, Assoc.any_iff])
  | .step (.storage _) | .step (.heartbeat _ _) | .step (.checkTimeouts _) | .restart _ => .isTrue trivial

/-- Where the file at `k` is after the step. -/
def carriedBy (s : System) (k : FilePath) : NodeEvent → FilePath
  | .step (.request event env _) => (s.worker.withOutcomes env.outcomes).carried k event
  | _ => k

/-- Messages that have come are no part of it. -/
theorem Kept.of_peers (kept : s.Kept x b replicas) (self : s'.network.self = s.network.self)
    (peers : s'.network.peers = s.network.peers) : s'.Kept x b replicas := by
  have there : ∀ {node}, s.network.At node (Offers s.network.self x b) → s'.network.At node (Offers s'.network.self x b) := by
    intro node before
    obtain ⟨peer, found, offers⟩ := before
    rw [self]
    exact ⟨peer, by rw [peers]; exact found, offers.worker, offers.inbox⟩
  exact ⟨there kept.1, there kept.2⟩

/-- The next process finds the record and its object. -/
theorem InPlace.restarted {t : FileTree} {outcomes : List Outcome} {data : Assoc FilePath FileMetadata}
    (generated : Generated x) (mirror : Mirrors t data) (owned : ∀ k' m, data.lookup k' = some m → m.objId = x → k' = k)
    (record : ∃ m, data.lookup k = some m ∧ m.objId = x ∧ m.size.toNat = b.length ∧
      (b.length ≠ 0 → m.replicaLocations = replicas))
    (bound : b.length ≠ 0 → replicas ≠ ([], [])) (kept : b ≠ [] → s.Kept x b replicas)
    (h : s.restarted t outcomes = .ok s') : s'.InPlace k x b replicas := by
  unfold System.restarted at h
  split at h
  · cases h
  rename_i store loaded
  cases h
  obtain ⟨-, lookup⟩ := load_ok (s := { disk := { s.worker.store.disk with tree := t, outcomes }, data := ∅ }) mirror loaded
  refine ⟨generated, ⟨?_, bound, fun k' m found same => ?_, fun context write found => ?_⟩,
    fun some => (kept some).of_peers rfl rfl⟩
  · obtain ⟨m, found, object, length, located⟩ := record
    exact ⟨m.reloaded k, by rw [lookup, found]; rfl, object, length, located⟩
  · rw [lookup, Option.map_eq_some_iff] at found
    obtain ⟨m₀, found₀, rfl⟩ := found
    exact owned k' m₀ found₀ same
  · cases found.symm.trans (Nested.find_empty _ _)

theorem restarted_fresh {t : FileTree} {outcomes : List Outcome} (h : s.restarted t outcomes = .ok s') : s'.Fresh := by
  unfold System.restarted at h
  split at h <;> cases h
  exact ⟨rfl, rfl, rfl⟩

theorem Fresh.findRead (fresh : s.Fresh) (context : RequestContext) : s.worker.findRead context = none := by
  rw [MetadataWorker.findRead, fresh.reads, Nested.find_empty]

theorem nextNode_inPlace (inPlace : s.InPlace k x b replicas) (sturdy : s.Sturdy)
    (generated : s.worker.All fun x _ => Generated x) (leaves : s.LeavesAlone x e) (h : s.nextNode e = .ok s') :
    s'.InPlace (s.carriedBy k e) x b replicas := by
  have filed := Mirrors.filed sturdy.mirrored
  obtain ⟨m, found, object, -⟩ := inPlace.custody.record
  cases e with
  | step e =>
      cases e with
      | request event env script => exact inPlace.request filed generated (leaves k m found object) (next_request h)
      | storage acts =>
          cases h
          exact ⟨inPlace.generated, inPlace.custody, fun some => (inPlace.kept some).acts acts⟩
      | heartbeat now sender =>
          cases h
          exact ⟨inPlace.generated, inPlace.custody.of_same rfl rfl, inPlace.kept⟩
      | checkTimeouts now =>
          cases h
          exact ⟨inPlace.generated, inPlace.custody.of_same rfl rfl, inPlace.kept⟩
  | restart outcomes =>
      exact .restarted inPlace.generated sturdy.mirrored inPlace.custody.owns.records inPlace.custody.record
        inPlace.custody.bound inPlace.kept h
  | crash event env script point outcomes =>
      obtain ⟨leaves, still⟩ := leaves k m found object
      have mem := passed_getD_mem s.worker.store (s.handled event env script).worker.store point
      have kept : b ≠ [] → (s.handled event env script).Kept x b replicas := fun some =>
        inPlace.handled_kept generated leaves (inPlace.kept some)
      rcases sturdy.passed mem with mirror | ⟨s₁, handled, mirror⟩
      · exact .restarted inPlace.generated mirror inPlace.custody.owns.records inPlace.custody.record
          inPlace.custody.bound kept h
      · have after := (inPlace.request filed generated leaves handled).custody
        rw [still] at after
        exact .restarted inPlace.generated mirror after.owns.records after.record inPlace.custody.bound kept h

/-- Sessions that read the file go on with it, and those that are opened find it. -/
theorem nextNode_standing (standing : s.Standing k x b replicas) (sturdy : s.Sturdy)
    (generated : s.worker.All fun x _ => Generated x) (leaves : s.LeavesAlone x e) (h : s.nextNode e = .ok s') :
    s'.Standing (s.carriedBy k e) x b replicas := by
  obtain ⟨generated', custody, kept⟩ := nextNode_inPlace standing.inPlace sturdy generated leaves h
  refine ⟨generated', custody, kept, fun context read found own => ?_⟩
  cases e with
  | restart outcomes => cases ((restarted_fresh h).findRead context).symm.trans found
  | crash event env script point outcomes => cases ((restarted_fresh h).findRead context).symm.trans found
  | step e =>
      cases e with
      | request event env script =>
          obtain ⟨m, record, object, -⟩ := standing.custody.record
          have handled := next_request h
          have same : s.handled event env script = s' := congrArg Prod.snd handled
          have before : ReadsOf x b.length (s.Kept x b) s'.worker :=
            handle_readsOf (s := s.scripted script) standing.reads standing.custody
              (fun filled => standing.kept fun none => filled (by rw [none]; rfl)) handled
          obtain ⟨length, there⟩ := before context read found own
          exact ⟨length, same ▸ standing.inPlace.handled_kept generated (leaves k m record object) there⟩
      | storage acts =>
          cases h
          exact (standing.reads context read found own).imp_right fun kept => kept.acts acts
      | heartbeat now sender =>
          cases h
          exact standing.reads context read found own
      | checkTimeouts now =>
          cases h
          exact standing.reads context read found own

/-! ## Runs -/

/-- Where the file at `k` is after the events. -/
def whereabouts (s : System) (k : FilePath) : List NodeEvent → FilePath
  | [] => k
  | e :: events =>
      match s.nextNode e with
      | .error _ => k
      | .ok s' => whereabouts s' (s.carriedBy k e) events

theorem run_standing {s u : System} {events : List NodeEvent} (reached : s.Reached) (heard : ∀ e ∈ events, e.From NodeClean)
    (standing : s.Standing k x b replicas) (leaves : Along nextNode (LeavesAlone x) s events) (ran : s.runNode events = .ok u) :
    u.Standing (s.whereabouts k events) x b replicas := by
  induction events generalizing s k with
  | nil =>
      cases ran
      exact standing
  | cons e events ih =>
      obtain ⟨s', stepped, rest⟩ := run_cons ran
      have next := nextNode_standing standing reached.removable.sturdy reached.removable.generated leaves.1 stepped
      have after := ih (nextNode_reached reached (heard e List.mem_cons_self) stepped)
        (fun e' mem => heard e' (List.mem_cons_of_mem _ mem)) next (leaves.2 s' stepped) rest
      rwa [whereabouts, stepped]

variable {s₀ u : System} {earlier events : List NodeEvent}

/-- What a file holds after an upload stands. -/
theorem Contains.standing {path : Bytes} (contains : s.Contains path b) (reached : s.Reached)
    (owns : ∀ m, s.worker.store.data.lookup (key path) = some m → s.worker.Owns (key path) m.objId) :
    ∃ x replicas, s.Standing (key path) x b replicas := by
  obtain ⟨m, found, named, size, stored⟩ := contains.record
  have provides := contains.provides
  obtain ⟨m', found', -, -, stored'⟩ := provides.record
  cases found.symm.trans found'
  have some : b.length ≠ 0 → b ≠ [] := fun filled none => filled (by rw [none]; rfl)
  refine ⟨m.objId, m.replicaLocations, reached.removable.generated _ _ (.record _ m found),
    ⟨⟨m, found, rfl, size, fun _ => rfl⟩, fun filled same => ?_, owns m found⟩, fun filled => (stored' filled).2.2,
    fun context read here => ?_⟩
  · exact (stored' (some filled)).2.1.1 (congrArg Prod.fst same)
  · cases (contains.rest.reads context).symm.trans here

/-- Nothing is under way, no session is open, and the file stands. -/
def stands (k : FilePath) (x b : Bytes) (replicas : NodeId × NodeId) (s : System) : Bool :=
  ((s.worker.store.data.lookup k).any fun m => m.objId = x ∧ m.size.toNat = b.length ∧ m.replicaLocations = replicas) &&
    !(Assoc.any s.worker.store.data fun k' m => m.objId = x ∧ k' ≠ k) && !(Nested.any s.worker.pendingWrites fun _ => true) &&
    !(Nested.any s.worker.pendingReads fun _ => true) &&
    [replicas.1, replicas.2].all fun node => (s.network.peers.lookup node).any fun peer =>
      peer.worker.committed x = some b ∧ peer.inbox.isEmpty

theorem standing_of_stands (generated : Generated x) (bound : replicas ≠ ([], [])) (h : s.stands k x b replicas = true) :
    s.Standing k x b replicas := by
  simp only [stands, Bool.and_eq_true, Bool.not_eq_true', List.all_cons, List.all_nil, Bool.and_true] at h
  obtain ⟨⟨⟨⟨record, records⟩, writes⟩, reads⟩, first, second⟩ := h
  have free : ∀ {α : Type} {table : Nested NodeId UInt64 α} {client id v}, Nested.any table (fun _ => true) = false →
      Nested.find table client id ≠ some v := fun {α table client id v} none found => by
    have any := (Nested.any_iff table fun _ => true).2 ⟨_, _, v, found, rfl⟩
    rw [none] at any
    cases any
  have offers : ∀ {node}, ((s.network.peers.lookup node).any fun peer =>
      decide (peer.worker.committed x = some b ∧ peer.inbox.isEmpty)) = true →
        s.network.At node (Offers s.network.self x b) := fun {node} here => by
    obtain ⟨peer, found, holds⟩ := (Option.any_eq_true _ _).1 here
    obtain ⟨committed, empty⟩ := of_decide_eq_true holds
    exact ⟨peer, found, committed, fun e mem => by rw [List.isEmpty_iff.1 empty] at mem; cases mem⟩
  obtain ⟨m, found, same⟩ := (Option.any_eq_true _ _).1 record
  obtain ⟨object, length, located⟩ := of_decide_eq_true same
  refine ⟨generated, ⟨⟨m, found, object, length, fun _ => located⟩, fun _ => bound, fun k' m' found' same' => ?_,
    fun context write found' => absurd found' (free writes)⟩, fun _ => ⟨offers first, offers second⟩,
    fun context read found' => absurd found' (free reads)⟩
  by_contra other
  have any := (Assoc.any_iff s.worker.store.data fun k' m => decide (m.objId = x ∧ k' ≠ k)).2
    ⟨k', m', found', by simp [same', other]⟩
  rw [records] at any
  cases any

/-- Client `"c"` has written `[5]` to `"p"`. -/
def uploaded : List NodeEvent := joined.map .step ++
  [.step (.request (.writeFile { path := [112], fileSize := 1, chunkCount := 1, context := fromClient 1 }) { first := 7 } []),
    .step (.request (.writeChunk { chunkIndex := 0, data := [5], context := fromClient 1 }) {} [served])]

/-- An upload of two chunks is given up after a chunk of the wrong size, `"p"` is renamed to `"q"`, storage node `"a"` starts
again and sends an answer that nobody asked for, and the metadata node starts again. -/
def meddled : List NodeEvent :=
  [.step (.request (.writeFile { path := [112], fileSize := 524289, chunkCount := 2, context := fromClient 2 })
      { first := 8 } []),
    .step (.request (.writeChunk { chunkIndex := 0, data := [6], context := fromClient 2 }) {} []),
    .step (.request (.rename { oldPath := [112], newPath := [113], context := fromClient 3 }) {} []),
    .step (.storage [.restart [97], .loseReply [97] 0]), .restart []]

end System

end Dfs
