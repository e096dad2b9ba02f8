import Dfs.Metadata.Answers
import Dfs.System.Records

/-!
# Refused requests

A request that is answered with another status than `Success` leaves every record alone, in
memory and in the directory, but for a `WriteFile` whose client has a session under the same
request id already.
-/

namespace Dfs

open Lib

namespace System

open MetadataStore MetadataWorker MetadataState

variable {s₀ s s' : System} {event : ClientEvent} {env : Env} {script : List (List Act)} {events : List NodeEvent}

/-- The records in memory and the files that hold them. -/
structure SameRecords (s s' : System) : Prop where
  memory : s'.worker.store.data = s.worker.store.data
  directory : visible s'.worker.store.disk.tree = visible s.worker.store.disk.tree

/-- Whatever the storage nodes and the file calls do, the request changes no record where it is
answered with another status than `Success`. -/
def HarmlessRefusals (s : System) (event : ClientEvent) : Prop :=
  ∀ (env : Env) (script : List (List Act)) (s' : System) (status : ClientStatus) (frame : Frame),
    s.next (.request event env script) = .ok s' →
      s'.network.sent.getLast? = some (event.context.sender.id, frame) → Responds event status frame →
        status ≠ .success → SameRecords s s'

theorem next_request (h : s.next (.request event env script) = .ok s') :
    MetadataState.handle env event (s.scripted script) = (.ok (), s') := by
  simp only [next] at h
  split at h
  · cases h
  · rename_i handled
    cases h
    exact handled

/-- The run in memory and on disk, as every process leaves them. -/
theorem runNode_sturdy (blank : s₀.Blank) (heard : ∀ e ∈ events, e.From NodeClean) (h : s₀.runNode events = .ok s) :
    s.Sturdy :=
  run_keeps (P := Sturdy) (fun _ _ e mem sturdy stepped => next_sturdy sturdy (heard e mem) stepped) blank.sturdy h

theorem Sturdy.harmless (sturdy : s.Sturdy) (missed : ¬ s.worker.Overtaken event) : s.HarmlessRefusals event := by
  intro env script s' status frame stepped last responds bad
  have handled := next_request stepped
  obtain ⟨status', frame', s₁, core, responds', sent⟩ := handle_handled handled
  have same : frame' = frame := by
    rw [sent] at last
    simpa [MetadataState.send, Cluster.send_sent] using last
  rw [same] at responds'
  have bad' : status' ≠ .success := responds.status_eq responds' ▸ bad
  have memory : s'.worker.store.data = s.worker.store.data := by
    rw [sent]
    exact (core.refused sturdy.mirrored bad').resolve_right fun overtaken => missed ((overtaken_withOutcomes _).1 overtaken)
  refine ⟨memory, ?_⟩
  have mirrored := (handled_sturdy sturdy handled).mirrored
  funext k
  rw [mirrored.files, memory, sturdy.mirrored.files]

theorem Sturdy.harmful (sturdy : s.Sturdy) (overtaken : s.worker.Overtaken event) : ¬ s.HarmlessRefusals event := by
  cases event with
  | writeFile req =>
      intro harmless
      have overtakes : ((s.scripted []).entered {}).worker.Overtakes req :=
        (overtaken_withOutcomes (.writeFile req)).2 overtaken
      obtain ⟨s₁, m', run, data, bound⟩ := writeFile_overtaken {} overtakes
        (fun x r names => sturdy.clean x r names.withOutcomes) sturdy.mirrored fun o mem => (List.not_mem_nil mem).elim
      let frame := ClientProtocol.encodeWriteFileResponse req.context.requestId
        { status := .serverError, context := req.context }
      have stepped : s.next (.request (.writeFile req) {} []) = .ok (s₁.send req.context.sender.id frame) := by
        rw [entered] at run
        simp only [next, handle, handleWriteFile, run]
        rfl
      have last : (s₁.send req.context.sender.id frame).network.sent.getLast? = some (req.context.sender.id, frame) := by
        simp [MetadataState.send, Cluster.send_sent]
      have unchanged := harmless {} [] _ .serverError frame stepped last ⟨[], rfl⟩ (by simp)
      -- the record is bound now and was not before
      have here : s.worker.store.data.lookup (key req.path) = some m' := by
        have memory : s₁.worker.store.data = s.worker.store.data := unchanged.memory
        rw [← memory, data, Assoc.lookup_insert_ite, if_pos rfl]
      have unbound := overtaken.unbound m' here
      obtain ⟨apart, -⟩ := selectReplicas_spec bound.symm
      rw [unbound] at apart
      exact apart rfl
  | _ => exact overtaken.elim

/-- In every state that a node reaches, a refused request is harmless unless it overtakes. -/
theorem refused_unchanged (blank : s₀.Blank) (heard : ∀ e ∈ events, e.From NodeClean) (h : s₀.runNode events = .ok s)
    (event : ClientEvent) : s.HarmlessRefusals event ↔ ¬ s.worker.Overtaken event := by
  have sturdy := runNode_sturdy blank heard h
  exact ⟨fun harmless overtaken => sturdy.harmful overtaken harmless, sturdy.harmless⟩

/-- Client `"c"` has a session for `"p"` under its request 1. -/
def oneWriter : List NodeEvent :=
  joined.map .step ++
    [.step (.request (.writeFile { path := [112], fileSize := 1, chunkCount := 1, context := fromClient 1 }) { first := 7 } [])]

/-- Another `WriteFile` under request 1, for `"q"`. -/
def secondWriteFile : WriteFileRequest := { path := [113], fileSize := 1, chunkCount := 1, context := fromClient 1 }

theorem refused_unchanged_oneWriter :
    ∃ s, start.runNode oneWriter = .ok s ∧
      s.HarmlessRefusals (.writeFile { path := [113], fileSize := 1, chunkCount := 2, context := fromClient 1 }) := by
  obtain ⟨s, ran, -⟩ := exists_ok (r := start.runNode oneWriter) (f := fun _ => true) (by decide +kernel)
  refine ⟨s, ran, (refused_unchanged ⟨⟨rfl, rfl, rfl⟩, rfl, rfl⟩ (by decide) ran _).2 fun overtakes => ?_⟩
  exact absurd overtakes.sized (by decide)

/-- The second `WriteFile` is refused, and `"q"` exists afterwards. -/
def bindsRefused (s : System) : Bool :=
  (s.worker.store.data.lookup [[113]]).isNone &&
    (s.next (.request (.writeFile secondWriteFile) { first := 8 } [])).toOption.any fun s' =>
      s'.network.sent.getLast? = some ([99], ClientProtocol.encodeWriteFileResponse 1
        { status := .serverError, context := fromClient 1 }) && (s'.worker.store.data.lookup [[113]]).isSome

theorem refused_changed : ∃ s, start.runNode oneWriter = .ok s ∧ ¬ s.HarmlessRefusals (.writeFile secondWriteFile) := by
  obtain ⟨s, ran, binds⟩ := exists_ok (r := start.runNode oneWriter) (f := bindsRefused) (by decide +kernel)
  refine ⟨s, ran, fun harmless => ?_⟩
  simp only [bindsRefused, Bool.and_eq_true, Option.isNone_iff_eq_none] at binds
  obtain ⟨missing, after⟩ := binds
  obtain ⟨s', stepped, seen⟩ := exists_ok after
  simp only [Bool.and_eq_true, decide_eq_true_eq] at seen
  have unchanged := harmless _ _ s' .serverError _ stepped seen.1 ⟨[], rfl⟩ (by simp)
  rw [unchanged.memory, missing] at seen
  cases seen.2

end System

end Dfs
