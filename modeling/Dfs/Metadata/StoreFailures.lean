import Dfs.Metadata.Recovery
import Dfs.Metadata.StoreData
import Dfs.Metadata.Writing

/-!
# What a failing store operation leaves behind

The records stay, and so does the tree, but for the two operations that write a metadata file:
these leave the parent directories they have made, and the temporary file is another matter.
-/

namespace Dfs

open Lib

namespace StoreOp

/-- The operation returns an error; an exception of a directory iterator counts as one. -/
def fails (s : MetadataStore) : StoreOp → Bool
  | add now filename metadata => !(s.addMetadata now filename metadata).1.isOk
  | update now filename metadata => !(s.updateMetadata now filename metadata).1.isOk
  | remove filename => !(s.removeMetadata filename).1.isOk
  | rename oldPath newPath => !(s.rename oldPath newPath).1.isOk
  | makeDirectory path => !(s.makeDirectory path).1.isOk
  | removeDirectory path => !(s.removeDirectory path).1.isOk
  | list path => !((s.list path).1.toOption.any Except.isOk)
  | get filename => !(s.getMetadata filename).isOk

/-- The path whose metadata file the operation writes. -/
def written : StoreOp → Option Bytes
  | add _ filename _ => some filename
  | update _ filename _ => some filename
  | _ => none

end StoreOp

namespace MetadataStore

variable {s s' : MetadataStore} {d' : Disk} {f g : Bytes} {m : FileMetadata} {now : TimePoint} {e : MetadataStoreError}

theorem not_isOk {ε α : Type} {r : Except ε α} (h : (!r.isOk) = true) : ∃ e, r = .error e := by
  cases r with
  | error e => exact ⟨e, rfl⟩
  | ok a => cases h

/-- Nothing but missing parent directories of `f` and its temporary file may differ. -/
def OnlyOnTheWay (f : Bytes) (t t' : FileTree) : Prop :=
  ∀ q, q ≠ PosixPath.appendSuffix (physical f) tmpExtension →
    t'.kind q = t.kind q ∨ q <+: (physical f).dropLast ∧ t.kind q = none ∧ t'.kind q = some .dir

theorem OnlyOnTheWay.of_same {t t' : FileTree} (same : t' = t) : OnlyOnTheWay f t t' := fun _ _ => Or.inl (by rw [same])

/-- The records and the tree are as before. -/
structure Untouched (s s' : MetadataStore) : Prop where
  data : s'.data = s.data
  tree : s'.disk.tree = s.disk.tree

theorem addMetadata_error (h : addMetadata now f m s = (.error e, s')) :
    s'.data = s.data ∧ OnlyOnTheWay f s.disk.tree s'.disk.tree := by
  refine ⟨(addMetadata_data h).1 e rfl, ?_⟩
  unfold addMetadata at h
  split at h
  · cases h
    exact .of_same rfl
  split at h
  · rename_i looked
    cases h
    exact .of_same (Disk.query_tree looked).1
  · rename_i looked
    split at h
    · cases h
      exact .of_same (Disk.query_tree looked).1
    dsimp only at h
    split at h
    · rename_i failed
      cases h
      rw [← (Disk.query_tree looked).1]
      exact writeMetadataFile_error failed
    · cases h

theorem updateMetadata_error (h : updateMetadata now f m s = (.error e, s')) :
    s'.data = s.data ∧ OnlyOnTheWay f s.disk.tree s'.disk.tree := by
  unfold updateMetadata at h
  split at h
  · cases h
    exact ⟨rfl, .of_same rfl⟩
  split at h
  · exact addMetadata_error h
  dsimp only at h
  split at h
  · rename_i failed
    cases h
    exact ⟨rfl, writeMetadataFile_error failed⟩
  · cases h

theorem removeMetadata_error (h : removeMetadata f s = (.error e, s')) : Untouched s s' := by
  refine ⟨(removeMetadata_data h).1 e rfl, ?_⟩
  unfold removeMetadata at h
  split at h
  · cases h
    rfl
  split at h
  · rename_i failed
    cases h
    exact (Disk.call_error failed).1
  · rename_i missing
    cases h
    exact FileTree.remove_false (Disk.call_ok missing).1
  · cases h

theorem makeDirectory_error (h : makeDirectory f s = (.error e, s')) : Untouched s s' := by
  refine ⟨makeDirectory_data h, ?_⟩
  unfold makeDirectory at h
  split at h
  · cases h
    rfl
  split at h
  · rename_i failed
    cases h
    exact (Disk.call_error failed).1
  · rename_i created disk made
    cases created with
    | true => cases h
    | false =>
        cases h
        exact FileTree.createDirectory_false (Disk.call_ok made).1

theorem removeDirectory_error (h : removeDirectory f s = (.error e, s')) : Untouched s s' := by
  refine ⟨removeDirectory_data h, ?_⟩
  unfold removeDirectory at h
  split at h
  · cases h
    rfl
  split at h
  · rename_i looked
    cases h
    exact (Disk.query_tree looked).1
  · rename_i looked
    cases h
    exact (Disk.query_tree looked).1
  rename_i d₁ looked
  replace looked := (Disk.query_tree looked).1
  split at h
  · rename_i looked'
    cases h
    exact (Disk.query_tree looked').1.trans looked
  · rename_i looked'
    cases h
    exact (Disk.query_tree looked').1.trans looked
  rename_i d₂ looked'
  have same : d₂.tree = s.disk.tree := (Disk.query_tree looked').1.trans looked
  rcases removed : d₂.remove (physical f) with ⟨r, d₃⟩
  rw [removed] at h
  cases r with
  | error _ =>
      cases h
      exact (Disk.call_error removed).1.trans same
  | ok gone =>
      cases gone with
      | true => cases h
      | false =>
          cases h
          exact (FileTree.remove_false (Disk.call_ok removed).1).trans same

/-- A failing operation keeps the records, and the tree but for what is on the way to the file it writes. -/
structure Spared (o : StoreOp) (s s' : MetadataStore) : Prop where
  data : s'.data = s.data
  tree : o.written = none → s'.disk.tree = s.disk.tree
  onTheWay : ∀ f, o.written = some f → OnlyOnTheWay f s.disk.tree s'.disk.tree

theorem Untouched.spared {o : StoreOp} (untouched : Untouched s s') : Spared o s s' :=
  ⟨untouched.data, fun _ => untouched.tree, fun _ _ => .of_same untouched.tree⟩

theorem apply_spared {o : StoreOp} (mirror : Mirrors s.disk.tree s.data) (fails : o.fails s = true) :
    Spared o s (o.apply s) := by
  cases o with
  | add now f m =>
      obtain ⟨e, failed⟩ := not_isOk fails
      obtain ⟨data, way⟩ := addMetadata_error (Prod.ext failed rfl : s.addMetadata now f m = (.error e, _))
      exact ⟨data, by simp [StoreOp.written], fun f' same => Option.some.inj same ▸ way⟩
  | update now f m =>
      obtain ⟨e, failed⟩ := not_isOk fails
      obtain ⟨data, way⟩ := updateMetadata_error (Prod.ext failed rfl : s.updateMetadata now f m = (.error e, _))
      exact ⟨data, by simp [StoreOp.written], fun f' same => Option.some.inj same ▸ way⟩
  | remove f =>
      obtain ⟨e, failed⟩ := not_isOk fails
      exact (removeMetadata_error (Prod.ext failed rfl)).spared
  | rename f g =>
      obtain ⟨e, failed⟩ := not_isOk fails
      obtain ⟨data, tree, -⟩ := rename_error mirror.filed (Prod.ext failed rfl : s.rename f g = (.error e, _))
      exact Untouched.spared ⟨data, tree⟩
  | makeDirectory f =>
      obtain ⟨e, failed⟩ := not_isOk fails
      exact (makeDirectory_error (Prod.ext failed rfl)).spared
  | removeDirectory f =>
      obtain ⟨e, failed⟩ := not_isOk fails
      exact (removeDirectory_error (Prod.ext failed rfl)).spared
  | list f =>
      obtain ⟨data, tree, -⟩ := list_same (rfl : s.list f = _)
      exact Untouched.spared ⟨data, tree⟩
  | get f => exact Untouched.spared ⟨rfl, rfl⟩

/-- The store whose next file calls turn out as listed. -/
def facing (s : MetadataStore) (outcomes : List Outcome) : MetadataStore :=
  { s with disk := s.disk.withOutcomes outcomes }

/-- `d/f` is added, -/
def addBelow : StoreOp :=
  .add ⟨0⟩ [100, 47, 102] { path := [100, 47, 102], size := 0, objId := [120], replicaLocations := ([], []) }

/-- and the write of its metadata file fails after three bytes. -/
def writeFails : List Outcome := [{}, {}, {}, {}, { error := some .ioError, written := 3 }]

end MetadataStore

end Dfs
