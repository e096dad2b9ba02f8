import Dfs.Metadata.Coherence
import Dfs.Metadata.Operations

/-!
# Requests and the directory

A request runs at most one store operation that changes records, so the directory shows the
records from before or from after it at every point, whether or not the handler returns.
-/

namespace Dfs

open Lib

namespace MetadataState

open MetadataWorker MetadataStore

variable {ν : Type} [Network ν] {s s' : MetadataState ν} {env : Env}

/-- The directory of a worker's store shows its records. -/
def Mirrored (w : MetadataWorker) : Prop := Mirrors w.store.disk.tree w.store.data

/-- A handler that lets an exception out has changed no record. -/
theorem handle_error {event : ClientEvent} {e : Exn} (h : s.handle env event = (.error e, s')) :
    s'.worker.store.data = s.worker.store.data := by
  cases event with
  | writeChunk req =>
      rcases handled : MetadataState.writeChunk env req { s with worker := s.worker.withOutcomes env.outcomes }
        with ⟨r, s₁⟩
      simp only [handle, handleWriteChunk, handled] at h
      cases r with
      | ok status => cases h
      | error e =>
          cases h
          unfold writeChunk at handled
          split at handled
          · cases handled
          split at handled
          · cases handled
          split at handled
          · cases handled
          dsimp only at handled
          split at handled
          · rename_i waited
            cases handled
            rw [(awaitPuts_same waited).store]
            rfl
          · cases handled
          · cases handled
  | list req =>
      rcases listed : MetadataStore.list req.path (s.worker.withOutcomes env.outcomes).store with ⟨r, store⟩
      have data := list_data listed
      simp only [handle, handleList, onStore, listed] at h
      split at h <;> cases h
      exact data
  | stat req =>
      rcases listed : MetadataStore.list req.path (s.worker.withOutcomes env.outcomes).store with ⟨r, store⟩
      have data := list_data listed
      simp only [handle, handleStat, onStore, listed] at h
      split at h
      · cases h
      · split at h <;> cases h
        exact data
      · cases h
  | _ => cases h

omit [Network ν] in
/-- The operation of a request writes clean names only. -/
theorem performs_clean {event : ClientEvent} {o : StoreOp} (clean : s.worker.AllClean) (nodes : s.worker.NodesClean)
    (performs : s.worker.Performs env event o) : o.Clean := by
  have named : ∀ {path m}, s.worker.target env path m → NamesClean m.objId m.replicaLocations := fun target =>
    All.target clean (generated_clean_unbound env) target
  cases performs with
  | createFile req => exact NamesClean.record (generated_clean_unbound env)
  | emptied req m target =>
      have clean : NamesClean m.objId m.replicaLocations := named target
      exact NamesClean.record clean
  | bound req m replicas target selected =>
      obtain ⟨-, available₁, available₂⟩ := selectReplicas_spec selected
      exact NamesClean.record ((named target).bind (nodes _ available₁) (nodes _ available₂))
  | finished req write found => exact NamesClean.record (clean _ _ (.write _ write found))
  | _ => exact trivial

/-- Whether or not the handler returns. -/
theorem handle_durable (env : Env) (event : ClientEvent) (mirror : Mirrored s.worker) (clean : s.worker.AllClean)
    (nodes : s.worker.NodesClean) :
    Durable (s.worker.withOutcomes env.outcomes).store (s.handle env event).2.worker.store := by
  have start : (s.worker.withOutcomes env.outcomes).AllClean := fun x r names => clean x r names.withOutcomes
  rcases handle_operates s env event with same | ⟨o, performs, done⟩
  · rw [same]
    exact (Quiet.refl _).durable mirror
  · rw [done]
    exact apply_durable mirror (performs_clean (s := s.entered env) start nodes performs)

end MetadataState

end Dfs
