import Dfs.Lib.Ranking
import Dfs.Metadata.Answers
import Dfs.Metadata.FileFormat
import Dfs.System.Orderly
import Dfs.System.Refusals

/-!
# Where a file is placed

A `WriteFile` chooses the storage nodes of a file from the contents of the table, in whatever order the table lists them,
and record, metadata file and session name the same two.
-/

namespace Dfs

open Lib

namespace MetadataWorker

variable {w w' : MetadataWorker} {nodes : Assoc NodeId StorageNodeInfo} {lhs rhs : NodeId} {pair : NodeId × NodeId}

/-! ## The order of the nodes -/

/-- `lhs` has more bytes left than `rhs`, or as many and the smaller id. -/
def Precedes (nodes : Assoc NodeId StorageNodeInfo) (lhs rhs : NodeId) : Prop :=
  ∃ left right, nodes.lookup lhs = some left ∧ nodes.lookup rhs = some right ∧
    (right.bytesLeft < left.bytesLeft ∨ left.bytesLeft = right.bytesLeft ∧ lhs < rhs)

/-- The bytes left on a node, as the comparison looks them up. -/
def bytesLeft (w : MetadataWorker) (node : NodeId) : UInt64 := ((w.storageNodes.lookup node).map (·.bytesLeft)).getD 0

theorem before_iff : w.before lhs rhs = true ↔
    w.bytesLeft rhs < w.bytesLeft lhs ∨ w.bytesLeft lhs = w.bytesLeft rhs ∧ lhs < rhs := by
  change (if w.bytesLeft lhs ≠ w.bytesLeft rhs then decide (w.bytesLeft lhs > w.bytesLeft rhs) else decide (lhs < rhs)) = true ↔ _
  split
  · rename_i differ
    rw [decide_eq_true_eq]
    exact ⟨.inl, fun h => h.resolve_right fun same => differ same.1⟩
  · rename_i same
    rw [decide_eq_true_eq, Classical.not_not.1 same]
    exact ⟨fun less => .inr ⟨rfl, less⟩, fun h => (h.resolve_left (UInt64.lt_irrefl _)).2⟩

/-- Two nodes are never tied. -/
instance (w : MetadataWorker) : IsStrictTotalOrder NodeId fun lhs rhs => w.before lhs rhs = true where
  irrefl a := by
    rw [before_iff]
    rintro (less | ⟨-, less⟩)
    · exact UInt64.lt_irrefl _ less
    · exact List.lt_irrefl a less
  trans a b c := by
    simp only [before_iff]
    rintro (less | ⟨same, less⟩) (less' | ⟨same', less'⟩)
    · exact .inl (UInt64.lt_trans less' less)
    · exact .inl (same' ▸ less)
    · exact .inl (same ▸ less')
    · exact .inr ⟨same.trans same', List.lt_trans less less'⟩
  trichotomous a b := by
    simp only [before_iff, not_or, not_and]
    rintro ⟨more, smaller⟩ ⟨more', smaller'⟩
    have same : w.bytesLeft a = w.bytesLeft b := UInt64.le_antisymm (UInt64.not_lt.1 more) (UInt64.not_lt.1 more')
    exact List.le_antisymm (smaller' same.symm) (smaller same)

theorem isAvailable_iff {node : NodeId} : w.isAvailable node = true ↔
    ∃ info, w.storageNodes.lookup node = some info ∧ info.available = true := by
  rw [isAvailable, Option.any_eq_true]

theorem precedes_iff (left : w.isAvailable lhs = true) (right : w.isAvailable rhs = true) :
    w.before lhs rhs = true ↔ Precedes w.storageNodes lhs rhs := by
  obtain ⟨a, found, -⟩ := isAvailable_iff.1 left
  obtain ⟨b, found', -⟩ := isAvailable_iff.1 right
  rw [before_iff, bytesLeft, bytesLeft, found, found']
  constructor
  · intro h
    exact ⟨a, b, found, found', h⟩
  · rintro ⟨a', b', same, same', h⟩
    cases found.symm.trans same
    cases found'.symm.trans same'
    exact h

/-! ## The choice -/

def available (w : MetadataWorker) : List NodeId := w.storageNodes.keys.filter w.isAvailable

theorem available_nodup (w : MetadataWorker) : w.available.Nodup := w.storageNodes.keys_nodup.filter _

theorem mem_available {node : NodeId} : node ∈ w.available ↔ w.isAvailable node = true := by
  rw [available, List.mem_filter]
  refine ⟨fun h => h.2, fun here => ⟨?_, here⟩⟩
  obtain ⟨info, found, -⟩ := isAvailable_iff.1 here
  exact AList.lookup_isSome.1 (by rw [found]; rfl)

/-- However the nodes are sorted, the candidates come out in this order. -/
theorem candidates_unique {l : List NodeId} (perm : l.Perm w.available)
    (sorted : l.Pairwise fun lhs rhs => w.before lhs rhs = true) : l = w.candidates :=
  eq_insertionSort w.available_nodup sorted perm

theorem selectReplicas_eq (w : MetadataWorker) : w.selectReplicas = firstTwo w.candidates := by
  unfold selectReplicas
  cases w.candidates with
  | nil => rfl
  | cons first tail => cases tail <;> rfl

theorem selectReplicas_iff : w.selectReplicas = some pair ↔
    Foremost (Precedes w.storageNodes) (fun node => w.isAvailable node = true) pair := by
  rw [selectReplicas_eq]
  refine (firstTwo_iff w.available_nodup).trans ⟨fun best => ?_, fun best => ?_⟩
  · simp only [mem_available] at best
    exact best.congr fun _ _ left right => precedes_iff left right
  · simp only [mem_available]
    exact best.congr fun _ _ left right => (precedes_iff left right).symm

theorem selectReplicas_none : w.selectReplicas = none ↔
    ∀ lhs rhs, w.isAvailable lhs = true → w.isAvailable rhs = true → lhs = rhs := by
  rw [selectReplicas_eq]
  refine (firstTwo_none_iff w.available_nodup).trans ?_
  simp only [mem_available]
  exact ⟨fun alone lhs rhs left right => alone lhs left rhs right, fun alone lhs left rhs right => alone lhs rhs left right⟩

/-- The order in which the table lists its nodes makes no difference. -/
theorem selectReplicas_congr (same : ∀ node, w'.storageNodes.lookup node = w.storageNodes.lookup node) :
    w'.selectReplicas = w.selectReplicas := by
  have available : ∀ node, w'.isAvailable node = w.isAvailable node := fun node => by rw [isAvailable, same, isAvailable]
  have precedes : Precedes w'.storageNodes = Precedes w.storageNodes := by
    funext lhs rhs
    simp only [Precedes, same]
  refine Option.ext fun pair => ?_
  rw [selectReplicas_iff, selectReplicas_iff, precedes]
  simp only [available]

/-! ## What is asked for and what is inscribed -/

open MetadataStore

/-- Nothing but the table of the storage nodes keeps the file from being placed. -/
structure Unplaced (w : MetadataWorker) (req : WriteFileRequest) : Prop where
  sized : chunksOf req.fileSize = req.chunkCount.toUInt64
  free : w.findWrite req.context = none
  valid : validFilename req.path = true
  writable : Writable w.store.disk.tree (physical req.path)
  unbound : ∀ m, w.store.data.lookup (key req.path) = some m → m.replicaLocations = ([], [])

/-- The record of the path is `m`, in memory, on the disk and in the session, and the request changed nothing else. -/
structure Inscribed (req : WriteFileRequest) (m : FileMetadata) (w w' : MetadataWorker) : Prop where
  memory : w'.store.data = w.store.data.insert (key req.path) m
  disk : w'.store.disk.tree.content (physical req.path) = some (fileBytes m)
  readBack : m.Clean → Survives (physical req.path) m
  session : w'.pendingWrites = (w.putWrite req.context (sessionOf req m.objId m.replicaLocations)).pendingWrites
  reads : w'.pendingReads = w.pendingReads
  nodes : w'.storageNodes = w.storageNodes

/-- The same worker with another table. -/
def withNodes (w : MetadataWorker) (nodes : Assoc NodeId StorageNodeInfo) : MetadataWorker := { w with storageNodes := nodes }

end MetadataWorker

namespace MetadataState

open MetadataWorker MetadataStore

variable {ν : Type} [Network ν] {s s' : MetadataState ν} {env : Env} {req : WriteFileRequest} {status : ClientStatus}
  {m : FileMetadata} {nodes : Assoc NodeId StorageNodeInfo} {pair : NodeId × NodeId}

/-! ## The handler -/

def withNodes (s : MetadataState ν) (nodes : Assoc NodeId StorageNodeInfo) : MetadataState ν :=
  { s with worker := s.worker.withNodes nodes }

section Handler

omit [Network ν]

theorem openWrite_free {objectId : Bytes} (free : s.worker.findWrite req.context = none) :
    s.openWrite req objectId pair =
      (.success, { s with worker := s.worker.putWrite req.context (sessionOf req objectId pair) }) := by
  rw [openWrite, free]
  rfl

theorem writeFile_placed (unplaced : s.worker.Unplaced req) (chunks : req.chunkCount ≠ 0) (mirror : Mirrored s.worker)
    (clean : s.worker.AllClean) (still : s.worker.store.disk.Healthy 0) (selected : s.worker.selectReplicas = some pair) :
    ∃ s' m, s.writeFile env req = (.success, s') ∧ m.replicaLocations = pair ∧ Inscribed req m s.worker s'.worker := by
  have placed : ∀ m : FileMetadata, m.objId ≠ [] → m.replicaLocations = ([], []) →
      ∃ s' m', s.startWrite env req m = (.success, s') ∧ m'.replicaLocations = pair ∧ Inscribed req m' s.worker s'.worker := by
    intro m named unbound
    obtain ⟨store, updated⟩ := updateMetadata_healthy (m := { m with replicaLocations := pair }) env.now mirror
      unplaced.valid still (by decide) unplaced.writable
    obtain ⟨m', same, data, content⟩ := updateMetadata_content updated
    refine ⟨_, m', (startWrite_selected named unbound chunks selected updated).trans (openWrite_free unplaced.free),
      same.replicaLocations, data, content, fun clean' => ?_, ?_, rfl, rfl⟩
    · refine (survives_iff clean'.objId clean'.first clean'.second _).2 ?_
      have small := clean'.small
      rw [encodeMetadata_length]
      omega
    · rw [same.objId, same.replicaLocations]
      rfl
  unfold writeFile
  rw [if_neg (fun bad => bad unplaced.sized), getMetadata, if_neg (by simp [unplaced.valid])]
  cases found : s.worker.store.data.lookup (key req.path) with
  | some m => exact placed m (clean _ _ (.record _ m found)).named (unplaced.unbound m found)
  | none => exact placed _ (generated_clean_unbound env).named rfl

/-- Without two nodes to choose from, the request changes nothing. -/
theorem writeFile_scarce (unbound : ∀ m, s.worker.store.data.lookup (key req.path) = some m → m.replicaLocations = ([], []))
    (chunks : req.chunkCount ≠ 0) (scarce : s.worker.selectReplicas = none) : s.writeFile env req = (.serverError, s) := by
  have refused : ∀ m : FileMetadata, m.replicaLocations = ([], []) → s.startWrite env req m = (.serverError, s) := by
    intro m unbound
    unfold startWrite
    dsimp only
    split
    · rfl
    · rw [unbound, if_neg (by decide), if_neg (by decide), if_neg (by decide), scarce]
  unfold writeFile
  split
  · rfl
  split
  · rename_i m known
    refine refused m (unbound m ?_)
    unfold getMetadata at known
    split at known
    · cases known
    split at known
    · cases known
    · rename_i found
      cases known
      exact found
  · exact refused _ rfl
  · rfl

/-- A path that is bound stays bound to its nodes, and only if both are there a session is opened. -/
theorem startWrite_bound (bound : m.replicaLocations ≠ ([], [])) (chunks : req.chunkCount ≠ 0)
    (h : s.startWrite env req m = (status, s')) :
    status = .serverError ∧ s' = s ∨
      status = .success ∧ s.worker.isAvailable m.replicaLocations.1 = true ∧ s.worker.isAvailable m.replicaLocations.2 = true ∧
        s' = { s with worker := s.worker.putWrite req.context (sessionOf req m.objId m.replicaLocations) } := by
  unfold startWrite at h
  dsimp only at h
  split at h
  · cases h
    exact .inl ⟨rfl, rfl⟩
  split at h
  · cases h
    exact .inl ⟨rfl, rfl⟩
  rename_i whole
  split at h
  · cases h
    exact .inl ⟨rfl, rfl⟩
  split at h
  · split at h
    · rename_i there
      rw [Bool.and_eq_true] at there
      rw [openWrite] at h
      split at h <;> cases h
      · exact .inl ⟨rfl, rfl⟩
      · exact .inr ⟨rfl, there.1, there.2, rfl⟩
    · cases h
      exact .inl ⟨rfl, rfl⟩
  · rename_i unbound
    have first : m.replicaLocations.1 = [] := by simpa using unbound
    have second : m.replicaLocations.2 = [] := by
      by_contra named
      exact whole (by simp [halfBound, first, named])
    exact absurd (Prod.ext first second) bound

theorem writeFile_bound (found : s.worker.store.data.lookup (key req.path) = some m) (bound : m.replicaLocations ≠ ([], []))
    (chunks : req.chunkCount ≠ 0) (h : s.writeFile env req = (status, s')) :
    status = .serverError ∧ s' = s ∨
      status = .success ∧ s.worker.isAvailable m.replicaLocations.1 = true ∧ s.worker.isAvailable m.replicaLocations.2 = true ∧
        s' = { s with worker := s.worker.putWrite req.context (sessionOf req m.objId m.replicaLocations) } := by
  unfold writeFile at h
  split at h
  · cases h
    exact .inl ⟨rfl, rfl⟩
  unfold getMetadata at h
  rw [found] at h
  split at h <;> rename_i known <;> split at known <;> cases known
  · exact startWrite_bound bound chunks h
  · cases h
    exact .inl ⟨rfl, rfl⟩

/-! ### The order of the table -/

theorem openWrite_withNodes (objectId : Bytes) : (s.withNodes nodes).openWrite req objectId pair =
    ((s.openWrite req objectId pair).1, (s.openWrite req objectId pair).2.withNodes nodes) := by
  have same : (s.withNodes nodes).worker.findWrite req.context = s.worker.findWrite req.context := rfl
  unfold openWrite
  rw [same]
  cases s.worker.findWrite req.context <;> rfl

theorem startWrite_withNodes (same : ∀ node, nodes.lookup node = s.worker.storageNodes.lookup node) (m : FileMetadata) :
    (s.withNodes nodes).startWrite env req m =
      ((s.startWrite env req m).1, (s.startWrite env req m).2.withNodes nodes) := by
  have available : ∀ node, (s.withNodes nodes).worker.isAvailable node = s.worker.isAvailable node := fun node =>
    congrArg (Option.any StorageNodeInfo.available) (same node)
  have selected : (s.withNodes nodes).worker.selectReplicas = s.worker.selectReplicas := selectReplicas_congr same
  have stored : ∀ m, (s.withNodes nodes).onStore (updateMetadata env.now req.path m) =
      ((s.onStore (updateMetadata env.now req.path m)).1, (s.onStore (updateMetadata env.now req.path m)).2.withNodes nodes) :=
    fun _ => rfl
  unfold startWrite
  simp only [available, selected, stored]
  split
  · rfl
  split
  · rfl
  split
  · rfl
  split
  · rcases s.onStore (updateMetadata env.now req.path { m with size := 0 }) with ⟨r, s₁⟩
    cases r <;> rfl
  split
  · split
    · exact openWrite_withNodes _
    · rfl
  split
  · rfl
  · rename_i replicas _
    rcases s.onStore (updateMetadata env.now req.path { m with replicaLocations := replicas }) with ⟨r, s₁⟩
    cases r
    · rfl
    · exact openWrite_withNodes _

/-- Tables with the same contents lead to the same status, records and sessions. -/
theorem writeFile_withNodes (same : ∀ node, nodes.lookup node = s.worker.storageNodes.lookup node) :
    (s.withNodes nodes).writeFile env req = ((s.writeFile env req).1, (s.writeFile env req).2.withNodes nodes) := by
  have known : (s.withNodes nodes).worker.store.getMetadata req.path = s.worker.store.getMetadata req.path := rfl
  unfold writeFile
  rw [known]
  split
  · rfl
  split
  · exact startWrite_withNodes same _
  · exact startWrite_withNodes same _
  · rfl

end Handler

/-! ## The whole request -/

/-- The request is answered with `status`, and `s'` is the state before the answer is sent. -/
structure Concludes (env : Env) (req : WriteFileRequest) (s : MetadataState ν) (status : ClientStatus) (s' : MetadataState ν) :
    Prop where
  run : (s.entered env).writeFile env req = (status, s')
  answer : s.handle env (.writeFile req) = (.ok (), s'.respond req.context fun id =>
    ClientProtocol.encodeWriteFileResponse id { status, context := req.context })

theorem concludes (run : (s.entered env).writeFile env req = (status, s')) : Concludes env req s status s' := by
  refine ⟨run, ?_⟩
  have whole : s.handle env (.writeFile req) = (.ok (), (s.entered env).handleWriteFile env req) := rfl
  rw [whole, handleWriteFile, run]

/-- What a `WriteFile` with chunks does with the storage nodes that the table of `s` lists. -/
structure Placement (env : Env) (req : WriteFileRequest) (s : MetadataState ν) : Prop where
  ordered : ∀ nodes : Assoc NodeId StorageNodeInfo, (∀ node, nodes.lookup node = s.worker.storageNodes.lookup node) →
    ∀ status s', Concludes env req s status s' → Concludes env req (s.withNodes nodes) status (s'.withNodes nodes)
  paired : ∀ lhs rhs, lhs ≠ rhs → s.worker.isAvailable lhs = true → s.worker.isAvailable rhs = true →
    ∃ pair, Foremost (Precedes s.worker.storageNodes) (fun node => s.worker.isAvailable node = true) pair
  placed : s.worker.Unplaced req → env.Healthy → ∀ pair,
    Foremost (Precedes s.worker.storageNodes) (fun node => s.worker.isAvailable node = true) pair →
      ∃ s' m, Concludes env req s .success s' ∧ m.replicaLocations = pair ∧ Inscribed req m s.worker s'.worker
  scarce : (∀ m, s.worker.store.data.lookup (key req.path) = some m → m.replicaLocations = ([], [])) →
    (∀ lhs rhs, s.worker.isAvailable lhs = true → s.worker.isAvailable rhs = true → lhs = rhs) →
      Concludes env req s .serverError (s.entered env)
  bound : ∀ m, s.worker.store.data.lookup (key req.path) = some m → m.replicaLocations ≠ ([], []) →
    Concludes env req s .serverError (s.entered env) ∨
      s.worker.isAvailable m.replicaLocations.1 = true ∧ s.worker.isAvailable m.replicaLocations.2 = true ∧
        Concludes env req s .success { s.entered env with
          worker := (s.entered env).worker.putWrite req.context (sessionOf req m.objId m.replicaLocations) }

theorem placement (env : Env) (mirror : Mirrored s.worker) (clean : s.worker.AllClean) (chunks : req.chunkCount ≠ 0) :
    Placement env req s where
  ordered nodes same status s' concludes' := by
    refine concludes ?_
    have run : ((s.entered env).withNodes nodes).writeFile env req =
        (((s.entered env).writeFile env req).1, ((s.entered env).writeFile env req).2.withNodes nodes) := writeFile_withNodes same
    rw [concludes'.run] at run
    exact run
  paired lhs rhs apart left right := by
    cases selected : s.worker.selectReplicas with
    | none => exact absurd (selectReplicas_none.1 selected lhs rhs left right) apart
    | some pair => exact ⟨pair, selectReplicas_iff.1 selected⟩
  placed unplaced fine pair best := by
    have selected : (s.entered env).worker.selectReplicas = some pair := selectReplicas_iff.2 best
    obtain ⟨s', m, run, same, inscribed⟩ := @writeFile_placed ν (s.entered env) env req pair
      ⟨unplaced.sized, unplaced.free, unplaced.valid, unplaced.writable, unplaced.unbound⟩ chunks mirror
      (fun x r names => clean x r names.withOutcomes) (entered_healthy env s fine) selected
    exact ⟨s', m, concludes run, same, inscribed.memory, inscribed.disk, inscribed.readBack, inscribed.session, inscribed.reads,
      inscribed.nodes⟩
  scarce unbound alone := by
    have scarce : (s.entered env).worker.selectReplicas = none := selectReplicas_none.2 alone
    exact concludes (@writeFile_scarce ν (s.entered env) env req unbound chunks scarce)
  bound m found apart := by
    rcases run : (s.entered env).writeFile env req with ⟨status, s'⟩
    rcases @writeFile_bound ν (s.entered env) s' env req status m found apart chunks run with ⟨rfl, rfl⟩ | ⟨rfl, first, second, rfl⟩
    · exact .inl (concludes run)
    · exact .inr ⟨first, second, concludes run⟩

end MetadataState

namespace System

open MetadataWorker MetadataState MetadataStore

variable {ν : Type} [Network ν] {s₀ s : System} {events : List NodeEvent} {req : WriteFileRequest}

/-- In every state that a node reaches and for every table of storage nodes, files are placed by the contents of the table. -/
theorem placement_by_contents (blank : s₀.Blank) (heard : ∀ e ∈ events, e.From NodeClean) (h : s₀.runNode events = .ok s)
    (nodes : Assoc NodeId StorageNodeInfo) (network : ν) (env : Env) (chunks : req.chunkCount ≠ 0) :
    Placement env req { worker := s.worker.withNodes nodes, network } := by
  have sturdy := runNode_sturdy blank heard h
  have clean : (s.worker.withNodes nodes).AllClean := fun x r names =>
    sturdy.clean x r (@Names.same s.worker (s.worker.withNodes nodes) x r rfl rfl rfl names)
  exact placement env sturdy.mirrored clean chunks

/-- Two of four nodes are tied, and the one with most bytes is gone. -/
def tiedNodes : Assoc NodeId StorageNodeInfo :=
  ((((∅ : Assoc NodeId StorageNodeInfo).insert [97] ⟨⟨0⟩, 5, true⟩).insert [98] ⟨⟨0⟩, 9, false⟩).insert [99] ⟨⟨0⟩, 7, true⟩).insert [100] ⟨⟨0⟩, 5, true⟩

theorem placement_by_contents_tied : ∃ s' m, Concludes {} { path := [112], fileSize := 1, chunkCount := 1, context := fromClient 1 }
      { worker := start.worker.withNodes tiedNodes, network := start.network } .success s' ∧
    m.replicaLocations = ([99], [97]) ∧
    Inscribed { path := [112], fileSize := 1, chunkCount := 1, context := fromClient 1 } m (start.worker.withNodes tiedNodes)
      s'.worker := by
  have placement := @placement_by_contents Cluster _ start start []
    { path := [112], fileSize := 1, chunkCount := 1, context := fromClient 1 } ⟨⟨rfl, rfl, rfl⟩, rfl, rfl⟩ (by decide) rfl
    tiedNodes start.network {} (by decide)
  refine placement.placed ⟨by decide, rfl, by decide, by decide, fun m found => ?_⟩ (by decide) _ (selectReplicas_iff.1 ?_)
  · cases found
  · decide +kernel

end System

end Dfs
