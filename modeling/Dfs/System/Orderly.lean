import Dfs.Metadata.Listings
import Dfs.System.Records

/-!
# Runs without failing file calls

Clients, storage nodes and callers of the store do what they like, and no file call of the
metadata node fails. Then the directory stays tidy, so that listings and single entries agree
on all but one kind of directory, and the names of temporary files stay free until a path runs
through one.
-/

namespace Dfs

open Lib

/-- No file call of the handler fails. -/
def Env.Healthy (env : Env) : Prop := ∀ o ∈ env.outcomes, o.error = none

instance (env : Env) : Decidable env.Healthy := inferInstanceAs (Decidable (∀ o ∈ env.outcomes, o.error = none))

def SystemEvent.Healthy : SystemEvent → Prop
  | .request _ env _ => env.Healthy
  | _ => True

instance (e : SystemEvent) : Decidable e.Healthy := by
  unfold SystemEvent.Healthy
  split <;> infer_instance

namespace StoreOp

/-- The metadata the operation is called with. -/
def metadata : StoreOp → Option FileMetadata
  | add _ _ metadata => some metadata
  | update _ _ metadata => some metadata
  | _ => none

end StoreOp

namespace MetadataStore

variable {s : MetadataStore} {o : StoreOp} {k : FilePath} {m : FileMetadata}

/-- A record after an operation was there before or is the one that the operation writes. -/
theorem apply_records (found : (o.apply s).data.lookup k = some m) :
    (∃ k₀ m₀, s.data.lookup k₀ = some m₀ ∧ m₀.SameObject m) ∨ ∃ m₀, o.metadata = some m₀ ∧ m₀.SameObject m := by
  have same : ∀ {s' : MetadataStore}, s'.data = s.data → s'.data.lookup k = some m →
      ∃ k₀ m₀, s.data.lookup k₀ = some m₀ ∧ m₀.SameObject m := fun data found => ⟨k, m, data ▸ found, rfl, rfl, rfl⟩
  have put : ∀ {s' : MetadataStore} {f : Bytes} {m₀ m' : FileMetadata}, m₀.SameObject m' → s'.data = s.data.insert (key f) m' →
      s'.data.lookup k = some m → (∃ k₀ m₀, s.data.lookup k₀ = some m₀ ∧ m₀.SameObject m) ∨ m₀.SameObject m := by
    intro s' f m₀ m' object data found
    rw [data, Assoc.lookup_insert_ite] at found
    split at found
    · cases found
      exact .inr object
    · exact .inl ⟨k, m, found, rfl, rfl, rfl⟩
  cases o with
  | add now f m₀ =>
      rcases added : addMetadata now f m₀ s with ⟨r, s'⟩
      simp only [StoreOp.apply, added] at found
      obtain ⟨failed, done⟩ := addMetadata_data added
      cases r with
      | error e => exact .inl (same (failed e rfl) found)
      | ok _ =>
          rcases (done rfl).2 with data | ⟨-, m', object, data⟩
          · exact .inl (same data found)
          · exact (put object data found).imp_right fun object => ⟨m₀, rfl, object⟩
  | update now f m₀ =>
      rcases updated : updateMetadata now f m₀ s with ⟨r, s'⟩
      simp only [StoreOp.apply, updated] at found
      obtain ⟨failed, done⟩ := updateMetadata_data updated
      cases r with
      | error e => exact .inl (same (failed e rfl) found)
      | ok _ =>
          obtain ⟨-, m', object, data⟩ := done rfl
          exact (put object data found).imp_right fun object => ⟨m₀, rfl, object⟩
  | remove f =>
      rcases removed : removeMetadata f s with ⟨r, s'⟩
      simp only [StoreOp.apply, removed] at found
      obtain ⟨failed, done⟩ := removeMetadata_data removed
      cases r with
      | error e => exact .inl (same (failed e rfl) found)
      | ok _ =>
          rw [(done rfl).2, Assoc.lookup_erase_ite] at found
          split at found
          · cases found
          · exact .inl ⟨k, m, found, rfl, rfl, rfl⟩
  | rename f g => exact .inl (MetadataWorker.rename_origin found)
  | makeDirectory f => exact .inl (same (makeDirectory_data (s := s) (f := f) rfl) found)
  | removeDirectory f => exact .inl (same (removeDirectory_data (s := s) (f := f) rfl) found)
  | list f => exact .inl (same (list_data (s := s) (f := f) rfl) found)
  | get f => exact .inl (same rfl found)

end MetadataStore

namespace MetadataState

open MetadataWorker MetadataStore

variable {ν : Type} [Network ν] {s : MetadataState ν} {env : Env}

omit [Network ν] in
theorem entered_healthy (env : Env) (s : MetadataState ν) (fine : env.Healthy) :
    (s.entered env).worker.store.disk.Healthy 0 := fun o mem => ⟨fine o mem, Nat.zero_le _⟩

/-- The directory stays tidy in a handler, also in one that throws. -/
theorem handle_tidy (event : ClientEvent) (mirror : Mirrored s.worker) (tidy : Tidy s.worker.store.disk.tree) (fine : env.Healthy) :
    Tidy (s.handle env event).2.worker.store.disk.tree := by
  rcases handle_operates s env event with same | ⟨o, -, same⟩
  · exact same ▸ tidy
  · rw [same]
    exact apply_tidy o (s := (s.entered env).worker.store) mirror (entered_healthy env s fine) (by decide) tidy

end MetadataState

namespace System

open MetadataStore MetadataWorker MetadataState

variable {s s' : System} {e : SystemEvent} {events : List SystemEvent}

structure Neat (s : System) : Prop where
  sturdy : s.Sturdy
  tidy : Tidy s.worker.store.disk.tree

theorem Blank.neat (blank : s.Blank) : s.Neat := ⟨blank.sturdy, blank.directory ▸ tidy_empty⟩

theorem next_neat (neat : s.Neat) (heard : e.From NodeClean) (healthy : e.Healthy) (h : s.next e = .ok s') :
    s'.Neat := by
  refine ⟨next_sturdy (e := .step e) neat.sturdy heard h, ?_⟩
  cases e with
  | request event env script =>
      have tidy := handle_tidy (s := s.scripted script) event neat.sturdy.mirrored neat.tidy healthy
      simp only [next] at h
      split at h
      · cases h
      · rename_i handled
        cases h
        rwa [handled] at tidy
  | storage acts =>
      cases h
      exact neat.tidy
  | heartbeat now sender =>
      cases h
      exact neat.tidy
  | checkTimeouts now =>
      cases h
      exact neat.tidy

/-! ## Listings -/

/-- `List` and `Stat` agree on the directory `d`. -/
structure Agrees (store : MetadataStore) (d : Bytes) : Prop where
  entries : ∀ n, PosixPath.separator ∉ n → ∀ isDirectory, ListSays store d n isDirectory ↔ StatSays store (child d n) isDirectory
  once : ∀ infos, (MetadataStore.list d store).1 = .ok (.ok infos) → (infos.map (·.path)).Nodup
  files : ∀ n, PosixPath.separator ∉ n → (ListSays store d n false ↔ (store.data.lookup (key (child d n))).isSome = true)

/-- In every state that requests lead to, listing and `Stat` agree on a directory exactly if it has no
subdirectory with the extension of a temporary file. -/
theorem list_stat_agree (blank : s.Blank) (heard : ∀ e ∈ events, e.From NodeClean) (healthy : ∀ e ∈ events, e.Healthy)
    (h : s.run events = .ok s') (env : Env) (fine : env.Healthy) (d : Bytes) (valid : validFilename d = true)
    (there : s'.worker.store.disk.tree.kind (physical d) = some .dir) :
    Agrees (s'.worker.withOutcomes env.outcomes).store d ↔
      ∀ n, s'.worker.store.disk.tree.kind (physical d ++ [n]) = some .dir → PosixPath.extensionOf n ≠ tmpExtension := by
  obtain ⟨sturdy, tidy⟩ := run_keeps (P := Neat)
    (fun _ _ e mem neat stepped => next_neat neat (heard e mem) (healthy e mem) stepped) blank.neat h
  have quiet : (s'.worker.withOutcomes env.outcomes).store.disk.Healthy 0 := fun o mem => ⟨fine o mem, Nat.zero_le _⟩
  have mirror : Mirrors (s'.worker.withOutcomes env.outcomes).store.disk.tree s'.worker.store.data := sturdy.mirrored
  refine ⟨fun agrees => (agree_iff quiet mirror tidy valid there).1 agrees.entries, fun plain =>
    ⟨(agree_iff quiet mirror tidy valid there).2 plain, fun infos read => list_once quiet valid read,
      fun n single => listSays_file quiet mirror tidy valid there single⟩⟩

/-- A file below a directory that is made on the way, with the name of a temporary file. -/
def hiddenDirectory : List SystemEvent :=
  [.request (.createFile { path := [100, 47, 97, 46, 116, 109, 112, 47, 103], context := fromClient 1 }) { first := 7 } []]

/-- `List` shows the directory `"a.tmp"` in `"d"`, and `Stat` refuses it. -/
theorem hiddenDirectory_disagrees :
    ∃ s', start.run hiddenDirectory = .ok s' ∧ validFilename [100] = true ∧
      s'.worker.store.disk.tree.kind [[100]] = some .dir ∧ ¬ Agrees s'.worker.store [100] := by
  obtain ⟨s', ran, facts⟩ := exists_ok (r := start.run hiddenDirectory)
    (f := fun s => s.worker.store.disk.tree.kind [[100]] = some .dir &&
      (MetadataStore.list [100] s.worker.store).1 = .ok (.ok [⟨[97, 46, 116, 109, 112], true⟩]) &&
      (statAnswer (child [100] [97, 46, 116, 109, 112]) s.worker.store = .ok (.inputError, noStat))) (by decide +kernel)
  simp only [Bool.and_eq_true, decide_eq_true_eq] at facts
  refine ⟨s', ran, by decide, facts.1.1, fun agrees => ?_⟩
  obtain ⟨stat, answer, -⟩ := (agrees.entries [97, 46, 116, 109, 112] (by decide) true).1 ⟨_, facts.1.2, by simp⟩
  rw [facts.2] at answer
  cases answer

/-- A file in a directory. -/
def plainDirectory : List SystemEvent :=
  [.request (.createFile { path := [100, 47, 97], context := fromClient 1 }) { first := 7 } []]

theorem list_stat_agree_plainDirectory :
    ∃ s', start.run plainDirectory = .ok s' ∧ Agrees (s'.worker.withOutcomes []).store [100] := by
  obtain ⟨s', ran, facts⟩ := exists_ok (r := start.run plainDirectory)
    (f := fun s => s.worker.store.disk.tree.kind [[100]] = some .dir && s.worker.store.disk.tree.listing [[100]] = [([97], false)])
    (by decide +kernel)
  simp only [Bool.and_eq_true, decide_eq_true_eq] at facts
  refine ⟨s', ran, (list_stat_agree ⟨⟨rfl, rfl, rfl⟩, rfl, rfl⟩ (by decide) (by decide) ran {} (by decide) [100] (by decide)
    facts.1).2 fun n there => ?_⟩
  have listed := (s'.worker.store.disk.tree.mem_listing [[100]] n true).2 ⟨_, there, rfl⟩
  rw [facts.2] at listed
  simp at listed

end System

end Dfs
