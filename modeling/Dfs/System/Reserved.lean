import Dfs.System.Orderly

/-!
# The names of temporary files

`valid_filename` keeps the extension of a temporary file from the last name of a path, but not
from the directories on the way, which are made along with a file. As long as no step makes
such a directory, no temporary file finds its name taken, and records can always be updated.
-/

namespace Dfs

open Lib

/-- A step of the system, or a direct call of an operation of the store. -/
inductive StoreUse where
  | operation (o : StoreOp) (outcomes : List Outcome)
  | step (e : SystemEvent)

namespace StoreUse

/-- No file call fails. -/
def Healthy : StoreUse → Prop
  | operation _ outcomes => ∀ o ∈ outcomes, o.error = none
  | step e => e.Healthy

/-- Heartbeats come from peers whose ids the handshake takes, and callers of the store pass
generated object ids and such peers. -/
def Proper : StoreUse → Prop
  | operation o _ => ∀ m ∈ o.metadata, NamesClean m.objId m.replicaLocations
  | step e => e.From NodeClean

instance (e : StoreUse) : Decidable e.Healthy := by
  unfold Healthy
  split <;> infer_instance

instance (x : Bytes) (replicas : NodeId × NodeId) : Decidable (NamesClean x replicas) :=
  decidable_of_iff (x ≠ [] ∧ NulFree x ∧ NulFree replicas.1 ∧ NulFree replicas.2 ∧ x.length ≤ maxMessageSize ∧
      replicas.1.length ≤ maxMessageSize ∧ replicas.2.length ≤ maxMessageSize)
    ⟨fun ⟨named, objId, first, second, small⟩ => ⟨named, objId, first, second, small⟩,
      fun ⟨named, objId, first, second, small⟩ => ⟨named, objId, first, second, small⟩⟩

instance (e : StoreUse) : Decidable e.Proper := by
  unfold Proper
  split <;> infer_instance

end StoreUse

namespace MetadataWorker

open MetadataStore

/-- The path whose metadata file the handler of an event may write; a `WriteFile` that is refused
writes none. -/
def writes (w : MetadataWorker) : ClientEvent → Option Bytes
  | .createFile req => some req.path
  | .writeFile req =>
      if chunksOf req.fileSize = req.chunkCount.toUInt64 ∧ (req.chunkCount = 0 ∨ w.selectReplicas.isSome) then some req.path
      else none
  | .writeChunk req => (w.findWrite req.context).map (·.path)
  | _ => none

end MetadataWorker

namespace MetadataStore

variable {t : FileTree} {o : StoreOp} {f : Bytes}

/-- The way to `f` leads through a directory that has to be made and has the name of a temporary
file. -/
def Crosses (t : FileTree) (f : Bytes) : Prop :=
  validFilename f = true ∧ ∃ q ∈ (physical f).dropLast.inits, Opens t f q ∧ TemporaryName (q.getLastD [])

instance (t : FileTree) (f : Bytes) (q : FilePath) : Decidable (Opens t f q) :=
  decidable_of_iff (t.kind (physical f) = none ∧ q <+: (physical f).dropLast ∧ t.kind q = none ∧
      ∀ p ∈ q.inits, t.content p = none)
    ⟨fun ⟨absent, under, missing, clear⟩ => ⟨absent, under, missing, clear⟩,
      fun ⟨absent, under, missing, clear⟩ => ⟨absent, under, missing, clear⟩⟩

instance (t : FileTree) (f : Bytes) : Decidable (Crosses t f) := inferInstanceAs (Decidable (_ ∧ _))

theorem encroaches_iff : Encroaches t o ↔ ∃ f, o.written = some f ∧ Crosses t f := by
  constructor
  · rintro ⟨f, written, valid, q, opens, temporary⟩
    exact ⟨f, written, valid, q, (List.mem_inits _ _).2 opens.under, opens, temporary⟩
  · rintro ⟨f, written, valid, q, -, opens, temporary⟩
    exact ⟨f, written, valid, q, opens, temporary⟩

end MetadataStore

namespace MetadataState

open MetadataWorker MetadataStore

variable {ν : Type} [Network ν] {s : MetadataState ν} {env : Env} {event : ClientEvent}

omit [Network ν] in
/-- Where no replicas can be chosen a `WriteFile` with chunks leaves the store alone. -/
theorem startWrite_unselected {req : WriteFileRequest} {m : FileMetadata} (chunks : req.chunkCount ≠ 0)
    (unselected : s.worker.selectReplicas = none) : (s.startWrite env req m).2.worker.store = s.worker.store := by
  unfold startWrite
  dsimp only
  split
  · rfl
  split
  · rfl
  split
  · rfl
  split
  · split
    · exact openWrite_store (s := s) rfl
    · rfl
  · rw [unselected]

omit [Network ν] in
theorem writeFile_unwritten (env : Env) {req : WriteFileRequest} (none : s.worker.writes (.writeFile req) = none) :
    (s.writeFile env req).2.worker.store = s.worker.store := by
  simp only [writes] at none
  unfold writeFile
  split
  · rfl
  rename_i sized
  have unselected : req.chunkCount ≠ 0 ∧ s.worker.selectReplicas = Option.none := by
    split at none
    · cases none
    · rename_i refused
      have both := fun right => refused ⟨not_not.1 sized, right⟩
      simpa using both
  split
  · exact startWrite_unselected unselected.1 unselected.2
  · exact startWrite_unselected unselected.1 unselected.2
  · rfl

theorem handleWriteFile_writes {req : WriteFileRequest} {o : StoreOp}
    (same : (s.handle env (.writeFile req)).2.worker.store = o.apply (s.entered env).worker.store)
    (path : o.written = some req.path) :
    (s.handle env (.writeFile req)).2.worker.store = (s.entered env).worker.store ∨
      ∃ o : StoreOp, (s.handle env (.writeFile req)).2.worker.store = o.apply (s.entered env).worker.store ∧
        ∀ f, o.written = some f → s.worker.writes (.writeFile req) = some f := by
  cases write : s.worker.writes (.writeFile req) with
  | none => exact .inl (writeFile_unwritten (s := s.entered env) env write)
  | some f =>
      refine .inr ⟨o, same, fun f' written => ?_⟩
      rw [path] at written
      simp only [writes] at write
      split at write
      · exact write ▸ written
      · cases write

/-- The handler writes at most the metadata file of `writes`. -/
theorem handle_writes (s : MetadataState ν) (env : Env) (event : ClientEvent) :
    (s.handle env event).2.worker.store = (s.entered env).worker.store ∨
      ∃ o : StoreOp, (s.handle env event).2.worker.store = o.apply (s.entered env).worker.store ∧
        ∀ f, o.written = some f → s.worker.writes event = some f := by
  rcases handle_operates s env event with same | ⟨o, performs, same⟩
  · exact .inl same
  cases performs with
  | createFile req => exact .inr ⟨_, same, fun f written => written⟩
  | emptied req m target => exact handleWriteFile_writes same rfl
  | bound req m replicas target selected => exact handleWriteFile_writes same rfl
  | finished req write found =>
      refine .inr ⟨_, same, fun f written => ?_⟩
      have found' : s.worker.findWrite req.context = some write := found
      rw [writes, found']
      exact written
  | removeDirectory req => exact .inr ⟨_, same, nofun⟩
  | remove req => exact .inr ⟨_, same, nofun⟩
  | list req => exact .inr ⟨_, same, nofun⟩
  | makeDir req => exact .inr ⟨_, same, nofun⟩
  | rename req => exact .inr ⟨_, same, nofun⟩
  | stat req missing => exact .inr ⟨_, same, nofun⟩

end MetadataState

namespace System

open MetadataStore MetadataWorker MetadataState

variable {s s' : System} {e : StoreUse} {events : List StoreUse}

def nextUse (s : System) : StoreUse → Except Exn System
  | .operation o outcomes => .ok { s with worker := { s.worker with store := s.worker.store.perform o outcomes } }
  | .step e => s.next e

def runUse (s : System) (events : List StoreUse) : Except Exn System := Lib.run nextUse s events

/-- No metadata file is written across a directory that has to be made and has the name of a
temporary file. -/
def Clears (s : System) : StoreUse → Prop
  | .operation o _ => ∀ f ∈ o.written, ¬ Crosses s.worker.store.disk.tree f
  | .step (.request event _ _) => ∀ f ∈ s.worker.writes event, ¬ Crosses s.worker.store.disk.tree f
  | .step _ => True

instance (s : System) (e : StoreUse) : Decidable (s.Clears e) := by
  unfold Clears
  split <;> infer_instance

/-- No temporary file has its name taken, and every record can be updated. -/
structure NamesReserved (s : System) : Prop where
  free : ∀ f, validFilename f = true →
    s.worker.store.disk.tree.kind (PosixPath.appendSuffix (physical f) tmpExtension) = none
  updatable : ∀ f now m outcomes, validFilename f = true → (s.worker.store.data.lookup (key f)).isSome = true →
    (∀ o ∈ outcomes, o.error = none) →
      (updateMetadata now f m (s.worker.withOutcomes outcomes).store).1 = .ok ()

/-- What such steps keep. -/
structure Spotless (s : System) : Prop where
  neat : s.Neat
  unreserved : Unreserved s.worker.store.disk.tree

theorem Spotless.reserved (spotless : s.Spotless) : s.NamesReserved where
  free f valid := spotless.unreserved _ (temporaryName_of_valid valid)
  updatable f now m outcomes valid known fine := by
    obtain ⟨store, updated⟩ := update_unreserved (s := (s.worker.withOutcomes outcomes).store) now m
      spotless.neat.sturdy.mirrored spotless.unreserved valid known (fun o mem => ⟨fine o mem, Nat.zero_le _⟩)
    rw [updated]

theorem nextUse_neat (neat : s.Neat) (proper : e.Proper) (healthy : e.Healthy) (h : s.nextUse e = .ok s') : s'.Neat := by
  cases e with
  | step e => exact next_neat neat proper healthy h
  | operation o outcomes =>
      cases h
      have mirror := neat.sturdy.mirrored
      have clean : o.Clean := by
        cases o with
        | add now f m => exact NamesClean.record (proper m rfl)
        | update now f m => exact NamesClean.record (proper m rfl)
        | _ => trivial
      have durable := apply_durable (s := (s.worker.withOutcomes outcomes).store) (o := o) mirror clean
      have tidy := apply_tidy (s := (s.worker.withOutcomes outcomes).store) o mirror
        (fun o mem => ⟨healthy o mem, Nat.zero_le _⟩ : Disk.Healthy 0 _) (by decide) neat.tidy
      obtain ⟨clean₀, ⟨writes, reads, writesFilled, readsFilled⟩, known, -⟩ := neat.sturdy
      refine ⟨⟨fun x r names => ?_, ⟨writes, reads, writesFilled, readsFilled⟩, known, durable.mirrors⟩, tidy⟩
      cases names with
      | record k m found =>
          rcases apply_records (s := (s.worker.withOutcomes outcomes).store) found with ⟨k₀, m₀, found₀, same⟩ | ⟨m₀, given, same⟩
          · rw [same.objId, same.replicaLocations]
            exact clean₀ _ _ (.record k₀ m₀ found₀)
          · rw [same.objId, same.replicaLocations]
            exact proper m₀ given
      | write context write found => exact clean₀ _ _ (.write context write found)
      | read context read found => exact clean₀ _ _ (.read context read found)

theorem nextUse_spotless (spotless : s.Spotless) (clears : s.Clears e) (proper : e.Proper) (healthy : e.Healthy)
    (h : s.nextUse e = .ok s') : s'.Spotless := by
  refine ⟨nextUse_neat spotless.neat proper healthy h, ?_⟩
  have mirror := spotless.neat.sturdy.mirrored
  cases e with
  | operation o outcomes =>
      cases h
      refine apply_unreserved (s := (s.worker.withOutcomes outcomes).store) o mirror
        (fun o mem => ⟨healthy o mem, Nat.zero_le _⟩ : Disk.Healthy 0 _) (by decide) spotless.unreserved fun encroaches => ?_
      obtain ⟨f, written, crosses⟩ := encroaches_iff.1 encroaches
      exact clears f written crosses
  | step e =>
      cases e with
      | request event env script =>
          have kept : Unreserved (MetadataState.handle env event (s.scripted script)).2.worker.store.disk.tree := by
            rcases handle_writes (s.scripted script) env event with same | ⟨o, same, writes⟩
            · exact same ▸ spotless.unreserved
            · rw [same]
              refine apply_unreserved (s := ((s.scripted script).entered env).worker.store) o mirror
                (entered_healthy env (s.scripted script) healthy) (by decide) spotless.unreserved fun encroaches => ?_
              obtain ⟨f, written, crosses⟩ := encroaches_iff.1 encroaches
              exact clears f (writes f written) crosses
          simp only [nextUse, next] at h
          split at h
          · cases h
          · rename_i handled
            cases h
            rwa [handled] at kept
      | storage acts =>
          cases h
          exact spotless.unreserved
      | heartbeat now sender =>
          cases h
          exact spotless.unreserved
      | checkTimeouts now =>
          cases h
          exact spotless.unreserved

theorem unreserved_empty : Unreserved .empty := by
  intro q temporary
  rw [FileTree.kind_empty, if_neg]
  rintro rfl
  exact absurd temporary (by decide)

/-- Along a run whose steps all stay clear of such directories the names of temporary files are
reserved. -/
theorem names_reserved (blank : s.Blank) (proper : ∀ e ∈ events, e.Proper) (healthy : ∀ e ∈ events, e.Healthy)
    (clears : Along nextUse Clears s events) (h : s.runUse events = .ok s') : s'.NamesReserved := by
  have spotless := run_invariant (P := fun s events => s.Spotless ∧ (∀ e ∈ events, e.Proper) ∧ ∀ e ∈ events, e.Healthy)
    (fun s s' e events holds clears stepped =>
      ⟨nextUse_spotless holds.1 clears (holds.2.1 e List.mem_cons_self) (holds.2.2 e List.mem_cons_self) stepped,
        fun e' mem => holds.2.1 e' (List.mem_cons_of_mem _ mem), fun e' mem => holds.2.2 e' (List.mem_cons_of_mem _ mem)⟩)
    ⟨⟨blank.neat, blank.directory ▸ unreserved_empty⟩, proper, healthy⟩ clears h
  exact spotless.1.reserved

/-- A file whose metadata file wants to be replaced through `"f.tmp"`, and a file in `"f.tmp"`. -/
def crossing : List StoreUse :=
  [.step (.request (.createFile { path := [102], context := fromClient 1 }) { first := 7 } []),
    .step (.request (.createFile { path := [102, 46, 116, 109, 112, 47, 103], context := fromClient 2 }) { first := 8 } [])]

/-- The second client keeps the first one's file from ever being updated. -/
theorem crossing_blocks :
    ∃ s', start.runUse crossing = .ok s' ∧ (∀ e ∈ crossing, e.Proper) ∧ (∀ e ∈ crossing, e.Healthy) ∧
      validFilename [102] = true ∧ (s'.worker.store.data.lookup (key [102])).isSome = true ∧
      s'.worker.store.disk.tree.kind (PosixPath.appendSuffix (physical [102]) tmpExtension) = some .dir ∧
      ¬ s'.NamesReserved := by
  obtain ⟨s', ran, facts⟩ := exists_ok (r := start.runUse crossing)
    (f := fun s => (s.worker.store.data.lookup (key [102])).isSome &&
      s.worker.store.disk.tree.kind (PosixPath.appendSuffix (physical [102]) tmpExtension) = some .dir) (by decide +kernel)
  simp only [Bool.and_eq_true, decide_eq_true_eq] at facts
  refine ⟨s', ran, by decide, by decide, by decide, facts.1, facts.2, fun reserved => ?_⟩
  have free := reserved.free [102] (by decide)
  rw [facts.2] at free
  cases free

/-- The same files, with another name for the directory. -/
def apart : List StoreUse :=
  [.step (.request (.createFile { path := [102], context := fromClient 1 }) { first := 7 } []),
    .operation (.add ⟨0⟩ [116, 47, 103] { path := [116, 47, 103], size := 0, objId := [120], replicaLocations := ([], []) }) []]

theorem names_reserved_apart : ∃ s', start.runUse apart = .ok s' ∧
    (s'.worker.store.data.lookup (key [102])).isSome = true ∧ s'.NamesReserved := by
  obtain ⟨s', ran, found⟩ := exists_ok (r := start.runUse apart)
    (f := fun s => (s.worker.store.data.lookup (key [102])).isSome) (by decide +kernel)
  exact ⟨s', ran, found, names_reserved ⟨⟨rfl, rfl, rfl⟩, rfl, rfl⟩ (by decide) (by decide) (by decide +kernel) ran⟩

end System

end Dfs
