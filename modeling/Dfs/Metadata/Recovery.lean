import Dfs.Metadata.Durable

/-!
# Runs of the metadata store

A run is a list of operations, each with what the operating system makes of its file calls.
A process may also die in the middle of an operation; the next one starts on whatever the
disk shows at that point.
-/

namespace Dfs

open Lib

inductive StoreOp where
  | add (now : TimePoint) (filename : Bytes) (metadata : FileMetadata)
  | update (now : TimePoint) (filename : Bytes) (metadata : FileMetadata)
  | remove (filename : Bytes)
  | rename (oldPath newPath : Bytes)
  | makeDirectory (path : Bytes)
  | removeDirectory (path : Bytes)
  | list (path : Bytes)
  | get (filename : Bytes)

namespace StoreOp

def apply (s : MetadataStore) : StoreOp → MetadataStore
  | add now filename metadata => (s.addMetadata now filename metadata).2
  | update now filename metadata => (s.updateMetadata now filename metadata).2
  | remove filename => (s.removeMetadata filename).2
  | rename oldPath newPath => (s.rename oldPath newPath).2
  | makeDirectory path => (s.makeDirectory path).2
  | removeDirectory path => (s.removeDirectory path).2
  | list path => (s.list path).2
  | get _ => s

/-- Object ids come from `ObjectId::generate` and replicas from handshakes, so neither has NUL
bytes. -/
def Clean : StoreOp → Prop
  | add _ _ metadata => metadata.Clean
  | update _ _ metadata => metadata.Clean
  | _ => True

instance (o : StoreOp) : Decidable o.Clean := by
  unfold Clean
  split <;> infer_instance

end StoreOp

inductive StoreEvent where
  | op (o : StoreOp) (outcomes : List Outcome)
  /-- The process dies in `o` at the `point`-th tree of the way, and the next one starts. -/
  | crash (o : StoreOp) (outcomes : List Outcome) (point : Nat)

def StoreEvent.Clean : StoreEvent → Prop
  | op o _ => o.Clean
  | crash o _ _ => o.Clean

instance (e : StoreEvent) : Decidable e.Clean := by
  unfold StoreEvent.Clean
  split <;> infer_instance

namespace MetadataStore

/-- The store of a process before `load_from_storage`, on a disk without faults. -/
def onTree (t : FileTree) : MetadataStore :=
  { disk := { tree := t, outcomes := [], trail := [], outside := fun _ => none }, data := ∅ }

def perform (s : MetadataStore) (o : StoreOp) (outcomes : List Outcome) : MetadataStore :=
  o.apply { s with disk := s.disk.withOutcomes outcomes }

/-- The trees the disk shows from `s` on until `s'`. -/
def passed (s s' : MetadataStore) : List FileTree :=
  s.disk.tree :: s'.disk.trail.drop s.disk.trail.length

def next (s : MetadataStore) : StoreEvent → MetadataStore
  | .op o outcomes => s.perform o outcomes
  | .crash o outcomes point =>
      (onTree ((s.passed (s.perform o outcomes)).getD point s.disk.tree)).loadFromStorage.2

def run (s : MetadataStore) (events : List StoreEvent) : MetadataStore := events.foldl next s

/-- Equal but for what lies below a millisecond. -/
structure SameRecord (m m' : FileMetadata) : Prop where
  size : m.size = m'.size
  objId : m.objId = m'.objId
  replicaLocations : m.replicaLocations = m'.replicaLocations
  createdAt : m.createdAt.milliseconds = m'.createdAt.milliseconds
  modifiedAt : m.modifiedAt.milliseconds = m'.modifiedAt.milliseconds

/-- A start on `t` succeeds and yields `data`. -/
def Loads (t : FileTree) (data : Assoc FilePath FileMetadata) : Prop :=
  ∃ s, (onTree t).loadFromStorage = (.ok (), s) ∧
    ∀ k, Option.Rel SameRecord (s.data.lookup k) (data.lookup k)

variable {s s' : MetadataStore} {t : FileTree} {data : Assoc FilePath FileMetadata}

theorem sameRecord_reloaded (m : FileMetadata) (path : FilePath) : SameRecord (m.reloaded path) m :=
  ⟨rfl, rfl, rfl, m.createdAt.milliseconds_ofMilliseconds, m.modifiedAt.milliseconds_ofMilliseconds⟩

theorem Mirrors.loads (mirror : Mirrors t data) : Loads t data := by
  obtain ⟨s, loaded, -, lookup⟩ := load_mirrors (s := onTree t) rfl mirror
  refine ⟨s, loaded, fun k => ?_⟩
  rw [lookup]
  cases data.lookup k with
  | none => exact .none
  | some m => exact .some (sameRecord_reloaded m k)

/-- What a start has loaded is mirrored by the same directory. -/
theorem Mirrors.start (mirror : Mirrors t data) :
    Mirrors (onTree t).loadFromStorage.2.disk.tree (onTree t).loadFromStorage.2.data := by
  obtain ⟨s, loaded, disk, lookup⟩ := load_mirrors (s := onTree t) rfl mirror
  rw [loaded, disk]
  exact mirror.reloaded lookup

/-- `Mirrors` depends on the visible files only. -/
theorem Mirrors.of_visible {t' : FileTree} (mirror : Mirrors t data) (same : visible t' = visible t) :
    Mirrors t' data :=
  ⟨fun k => by rw [same, mirror.files], mirror.clean⟩

theorem apply_durable {o : StoreOp} (mirror : Mirrors s.disk.tree s.data) (clean : o.Clean) :
    Durable s (o.apply s) := by
  cases o with
  | add now f m => exact addMetadata_durable mirror clean rfl
  | update now f m => exact updateMetadata_durable mirror clean rfl
  | remove f => exact removeMetadata_durable mirror rfl
  | rename f g => exact rename_durable mirror rfl
  | makeDirectory f => exact makeDirectory_durable mirror rfl
  | removeDirectory f => exact removeDirectory_durable mirror rfl
  | list f => exact (list_quiet rfl).durable mirror
  | get f => exact (Quiet.refl s).durable mirror

theorem Durable.passed {outcomes : List Outcome} (mirror : Mirrors s.disk.tree s.data)
    (durable : Durable { s with disk := s.disk.withOutcomes outcomes } s') :
    ∀ t ∈ MetadataStore.passed s s', Mirrors t s.data ∨ Mirrors t s'.data := by
  intro t mem
  rcases List.mem_cons.1 mem with rfl | mem
  · exact Or.inl mirror
  · obtain ⟨ts, trail, all⟩ := durable.between.passed
    rw [trail, show (s.disk.withOutcomes outcomes).trail = s.disk.trail from rfl, List.drop_left] at mem
    rcases all t mem with before | after
    · exact Or.inl (mirror.of_visible before)
    · exact Or.inr (durable.mirrors.of_visible after)

theorem passed_getD_mem (s s' : MetadataStore) (point : Nat) : (s.passed s').getD point s.disk.tree ∈ s.passed s' := by
  rw [List.getD_eq_getElem?_getD]
  cases found : (s.passed s')[point]? with
  | none => exact List.mem_cons_self
  | some t => exact List.mem_of_getElem? found

/-- Every tree of an operation mirrors the records from before or from after it. -/
theorem passed_mirrors {o : StoreOp} (mirror : Mirrors s.disk.tree s.data) (clean : o.Clean) (outcomes : List Outcome) :
    Mirrors (s.perform o outcomes).disk.tree (s.perform o outcomes).data ∧
      ∀ t ∈ s.passed (s.perform o outcomes), Mirrors t s.data ∨ Mirrors t (s.perform o outcomes).data := by
  have durable : Durable { s with disk := s.disk.withOutcomes outcomes } (s.perform o outcomes) :=
    apply_durable mirror clean
  exact ⟨durable.mirrors, durable.passed mirror⟩

theorem next_mirrors {e : StoreEvent} (mirror : Mirrors s.disk.tree s.data) (clean : e.Clean) :
    Mirrors (s.next e).disk.tree (s.next e).data := by
  cases e with
  | op o outcomes => exact (passed_mirrors mirror clean outcomes).1
  | crash o outcomes point =>
      have all := (passed_mirrors mirror clean outcomes).2
      rcases all _ (passed_getD_mem s _ point) with before | after
      · exact before.start
      · exact after.start

theorem run_mirrors {events : List StoreEvent} (mirror : Mirrors s.disk.tree s.data)
    (clean : ∀ e ∈ events, e.Clean) : Mirrors (s.run events).disk.tree (s.run events).data := by
  induction events generalizing s with
  | nil => exact mirror
  | cons e events ih =>
      exact ih (next_mirrors mirror (clean e List.mem_cons_self)) fun e' mem => clean e' (List.mem_cons_of_mem _ mem)

theorem empty_mirrors : Mirrors (onTree .empty).disk.tree (onTree .empty).data := by
  refine ⟨fun k => ?_, fun k m found => ?_⟩
  · have nothing : (FileTree.empty).content k = none := by
      rw [FileTree.content, FileTree.kind_empty]
      split <;> rfl
    rw [visible, show (onTree .empty).disk.tree = FileTree.empty from rfl, nothing, ite_self]
    rfl
  · simp [onTree] at found

/-- Between operations a start loads the current records, and inside an operation the records
from before or from after it. -/
theorem run_recoverable (events : List StoreEvent) (clean : ∀ e ∈ events, e.Clean) :
    Loads ((onTree .empty).run events).disk.tree ((onTree .empty).run events).data ∧
      ∀ o outcomes, o.Clean → ∀ t ∈ ((onTree .empty).run events).passed (((onTree .empty).run events).perform o outcomes),
        Loads t ((onTree .empty).run events).data ∨
          Loads t (((onTree .empty).run events).perform o outcomes).data := by
  have mirror := run_mirrors empty_mirrors clean
  refine ⟨mirror.loads, fun o outcomes cleanOp t mem => ?_⟩
  exact ((passed_mirrors mirror cleanOp outcomes).2 t mem).imp Mirrors.loads Mirrors.loads

/-- `a` is added, and the process dies half-way through writing its next version. -/
def overwriteCrash : List StoreEvent :=
  let record : FileMetadata := { path := [97], size := 3, objId := [120], replicaLocations := ([49], [50]) }
  [.op (.add ⟨1500000⟩ [97] record) [], .crash (.update ⟨2000000⟩ [97] { record with size := 4 }) [] 7]

theorem overwriteCrash_recoverable :
    Loads ((onTree .empty).run overwriteCrash).disk.tree ((onTree .empty).run overwriteCrash).data :=
  (run_recoverable overwriteCrash (by decide)).1

end MetadataStore

end Dfs
