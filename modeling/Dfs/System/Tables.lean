import Dfs.Metadata.Sessions
import Dfs.System.Cluster

/-!
# The session tables along a run

Whatever the storage nodes do, and whatever the store was loaded from.
-/

namespace Dfs

open Lib

/-- A heartbeat comes from a peer whose id the handshake takes. -/
def SystemEvent.From (taken : NodeId → Prop) : SystemEvent → Prop
  | .heartbeat _ sender => taken sender.id
  | _ => True

instance (taken : NodeId → Prop) [DecidablePred taken] (e : SystemEvent) : Decidable (e.From taken) := by
  unfold SystemEvent.From
  split <;> infer_instance

namespace System

open MetadataWorker MetadataState

variable {s s' : System} {e : SystemEvent} {events : List SystemEvent}

/-- The node has just been started, with any store. -/
structure Fresh (s : System) : Prop where
  nodes : s.worker.storageNodes = ∅
  reads : s.worker.pendingReads = ∅
  writes : s.worker.pendingWrites = ∅

/-- The sizes of every session agree, the arithmetic of its next chunk is exact, and a request
changes no session but its own. -/
structure SessionTables (s : System) : Prop where
  sound : s.worker.SessionsSound
  writes : ∀ context write, s.worker.findWrite context = some write →
    write.chunkCount.toNat = (write.fileSize.toNat + (chunkSize - 1)) / chunkSize ∧
      ChunkExact write.fileSize write.nextChunk
  reads : ∀ context read, s.worker.findRead context = some read →
    read.chunkCount.toNat = (read.fileSize.toNat + (chunkSize - 1)) / chunkSize ∧
      ChunkExact read.fileSize read.nextChunk
  others : ∀ (event : ClientEvent) (env : Env) (script : List (List Act)) (s' : System),
    s.next (.request event env script) = .ok s' → ∀ context : RequestContext,
      ¬ (context.sender.id = event.context.sender.id ∧ context.requestId = event.context.requestId) →
        s'.worker.findWrite context = s.worker.findWrite context ∧
          s'.worker.findRead context = s.worker.findRead context

/-- Every storage node that is known has come through a handshake. -/
def Known (taken : NodeId → Prop) (w : MetadataWorker) : Prop :=
  ∀ node, (w.storageNodes.lookup node).isSome = true → taken node

variable {taken : NodeId → Prop}

theorem Known.available {w : MetadataWorker} (known : Known taken w) (node : NodeId) (available : w.isAvailable node = true) :
    taken node := by
  refine known node ?_
  rw [isAvailable, Option.any_eq_true] at available
  obtain ⟨info, found, -⟩ := available
  rw [found]
  rfl

theorem next_known (known : Known taken s.worker) (heard : e.From taken) (h : s.next e = .ok s') :
    Known taken s'.worker := by
  cases e with
  | request event env script =>
      simp only [next] at h
      split at h
      · cases h
      · rename_i handled
        cases h
        exact fun node there => known node ((handle_nodes handled node).symm.trans there)
  | storage acts =>
      cases h
      exact known
  | heartbeat now sender =>
      cases h
      intro node there
      dsimp only [handleHeartbeat] at there
      rw [Assoc.lookup_insert_ite] at there
      split at there
      · rename_i here
        rw [here]
        exact heard
      · exact known node there
  | checkTimeouts now =>
      cases h
      intro node there
      rw [checkHeartbeatTimeouts, Assoc.lookup_mapValues, Option.isSome_map] at there
      exact known node there

theorem handled_sessions {event : ClientEvent} {env : Env} {script : List (List Act)} (sound : s.worker.SessionsSound)
    (known : Known (· ≠ []) s.worker) (h : s.next (.request event env script) = .ok s') :
    s'.worker.SessionsSound ∧ ∀ context : RequestContext,
      ¬ (context.sender.id = event.context.sender.id ∧ context.requestId = event.context.requestId) →
        s'.worker.findWrite context = s.worker.findWrite context ∧
          s'.worker.findRead context = s.worker.findRead context := by
  simp only [next] at h
  split at h
  · cases h
  · rename_i handled
    cases h
    exact handle_sessions (s := s.scripted script) sound known.available handled

theorem next_sessions (sound : s.worker.SessionsSound) (known : Known (· ≠ []) s.worker) (h : s.next e = .ok s') :
    s'.worker.SessionsSound := by
  cases e with
  | request event env script => exact (handled_sessions sound known h).1
  | storage acts =>
      cases h
      exact sound
  | heartbeat now sender =>
      cases h
      exact ⟨sound.writes, sound.reads, sound.writesFilled, sound.readsFilled⟩
  | checkTimeouts now =>
      cases h
      exact ⟨sound.writes, sound.reads, sound.writesFilled, sound.readsFilled⟩

theorem Fresh.sound (fresh : s.Fresh) : s.worker.SessionsSound := by
  refine ⟨fun client id write found => ?_, fun client id read found => ?_, fun client inner found => ?_,
    fun client inner found => ?_⟩
  · simp [fresh.writes] at found
  · simp [fresh.reads] at found
  · simp [fresh.writes] at found
  · simp [fresh.reads] at found

theorem Fresh.known (fresh : s.Fresh) : Known taken s.worker := fun node there => by
  simp [fresh.nodes] at there

/-- The session tables in every state that a freshly started node reaches. -/
theorem sessionTables (fresh : s.Fresh) (heard : ∀ e ∈ events, e.From (· ≠ [])) (h : s.run events = .ok s') :
    s'.SessionTables := by
  obtain ⟨sound, known⟩ := run_keeps (P := fun s => s.worker.SessionsSound ∧ Known (· ≠ []) s.worker)
    (fun _ _ e mem holds stepped => ⟨next_sessions holds.1 holds.2 stepped, next_known holds.2 (heard e mem) stepped⟩)
    ⟨fresh.sound, fresh.known⟩ h
  refine ⟨sound, fun context write found => ?_, fun context read found => ?_, fun event env script s'' stepped =>
    (handled_sessions sound known stepped).2⟩
  · have session := sound.writes _ _ write found
    exact ⟨session.chunkCount_toNat, session.exact⟩
  · have session := sound.reads _ _ read found
    exact ⟨session.chunkCount_toNat, session.exact⟩

/-- A session for a file of two chunks is open, and another client asks for a session of its own. -/
def twoWriters : List SystemEvent := joined ++
  [.request (.writeFile { path := [112], fileSize := 600000, chunkCount := 2, context := fromClient 1 }) { first := 7 } [],
    .request (.writeFile { path := [113], fileSize := 1, chunkCount := 1, context := ⟨1, ⟨[100], .client⟩⟩ })
      { first := 8 } []]

theorem sessionTables_twoWriters :
    ∃ s', start.run twoWriters = .ok s' ∧ (s'.worker.findWrite (fromClient 1)).isSome = true ∧ s'.SessionTables := by
  obtain ⟨s', ran, opened⟩ := exists_ok (r := start.run twoWriters)
    (f := fun s => (s.worker.findWrite (fromClient 1)).isSome) (by decide +kernel)
  exact ⟨s', ran, opened, sessionTables ⟨rfl, rfl, rfl⟩ (by decide) ran⟩

end System

end Dfs
