import Dfs.Storage.StorageNode
import Mathlib.Data.List.Basic

/-!
# What a storage worker commits

A run of one worker is a list of requests and restarts, each request with what the operating
system makes of its file calls. The history keeps every answer, newest first, and the
question is what the answers before a successful final `PUT` were.
-/

namespace Dfs

open Lib

inductive WorkerStep where
  | handle (event : StorageEvent) (outcomes : List Outcome)
  | restart

/-- One request with its answer. -/
inductive Handled where
  | put (req : PutRequest) (status : StorageStatus)
  | get (req : GetRequest)
  | delete (req : DeleteRequest) (status : StorageStatus)
  | restart
  deriving DecidableEq

namespace Handled

/-- A `PUT` or a `DELETE` of object `x`. -/
def about (x : Bytes) : Handled → Bool
  | put req _ => req.objectId = x
  | delete req _ => req.objectId = x
  | _ => false

def status : Handled → StorageStatus
  | put _ status => status
  | delete _ status => status
  | _ => .success

end Handled

structure History where
  worker : StorageWorker
  /-- Newest first. -/
  log : List Handled

namespace History

def start (disk : Disk) : History := ⟨⟨disk, ∅⟩, []⟩

def next (h : History) : WorkerStep → History
  | .restart => ⟨h.worker.restart, .restart :: h.log⟩
  | .handle event outcomes =>
      let w := { h.worker with disk := h.worker.disk.withOutcomes outcomes }
      match event with
      | .put req =>
          let (response, w) := w.handlePut req
          ⟨w, .put req response.status :: h.log⟩
      | .get req => ⟨(w.handleGet req).2, .get req :: h.log⟩
      | .delete req =>
          let (response, w) := w.handleDelete req
          ⟨w, .delete req response.status :: h.log⟩

def run (h : History) (steps : List WorkerStep) : History := steps.foldl next h

/-- The `PUT`s and `DELETE`s of `x`, newest first. -/
def of (h : History) (x : Bytes) : List Handled := h.log.filter (Handled.about x)

/-- The last `PUT` or `DELETE` of `x` was answered with an error. -/
def lastFailed (h : History) (x : Bytes) : Bool :=
  (h.of x).head?.any (·.status ≠ .success)

/-- `puts` are chunks 0, 1, … of `x`, all answered `Success`, and nothing has happened to `x` since. -/
structure InOrder (h : History) (x : Bytes) (puts : List PutRequest) : Prop where
  indices : puts.map (·.chunkIndex.toNat) = List.range puts.length
  latest : (puts.map fun put => Handled.put put .success).reverse <+: h.of x

/-- If the last step was a final `PUT` answered `Success`, the requests for its object up to
it were the chunks of one complete sequence and the committed file has their data. -/
def Whole (h : History) : Prop :=
  ∀ req rest, h.log = .put req .success :: rest → req.finalChunk = true →
    ∃ puts, puts.length = req.chunkIndex.toNat + 1 ∧ h.InOrder req.objectId puts ∧
      h.worker.committed req.objectId = some (puts.flatMap (·.data))

/-- A `PUT` that continues a sequence is handled only while that sequence is intact. -/
def Continues (h : History) : WorkerStep → Prop
  | .handle (.put req) _ =>
      req.chunkIndex ≠ 0 → h.worker.nextChunks.lookup req.objectId = some req.chunkIndex →
        h.lastFailed req.objectId = false
  | _ => True

instance (h : History) (s : WorkerStep) : Decidable (h.Continues s) := by
  unfold Continues
  split <;> infer_instance

/-- Every step of the run meets `Continues` in the state in which it is taken. -/
def Unbroken : History → List WorkerStep → Prop
  | _, [] => True
  | h, s :: steps => h.Continues s ∧ (h.next s).Unbroken steps

def decideUnbroken : (h : History) → (steps : List WorkerStep) → Decidable (h.Unbroken steps)
  | _, [] => .isTrue trivial
  | h, s :: steps => @instDecidableAnd _ _ inferInstance (decideUnbroken (h.next s) steps)

instance (h : History) (steps : List WorkerStep) : Decidable (h.Unbroken steps) := decideUnbroken h steps

end History

/-- The object ids in the request have no dot. -/
def WorkerStep.Plain : WorkerStep → Prop
  | .handle (.put req) _ => PosixPath.dot ∉ req.objectId
  | .handle (.get req) _ => PosixPath.dot ∉ req.objectId
  | .handle (.delete req) _ => PosixPath.dot ∉ req.objectId
  | .restart => True

instance (s : WorkerStep) : Decidable s.Plain := by
  unfold WorkerStep.Plain
  split <;> infer_instance

namespace History

open StorageWorker

variable {h : History} {x y : Bytes} {req : PutRequest}

/-- Where the counter of an object stands, the chunks before it are on disk. -/
def Progress (h : History) : Prop :=
  ∀ x k, PosixPath.dot ∉ x → h.worker.nextChunks.lookup x = some k → k ≠ 0 → h.lastFailed x = false →
    ∃ puts, puts.length = k.toNat ∧ h.InOrder x puts ∧ h.worker.pending x = some (puts.flatMap (·.data))

/-- Objects without dots share no files. -/
theorem pending_apart (same : SameBut x h.worker w) (plain : PosixPath.dot ∉ x)
    (ne : y ≠ x) :
    w.pending y = h.worker.pending y := by
  refine same.files _ ?_ ?_
  · rw [tmpPath_eq, finalPath]
    intro e
    refine plain ?_
    rw [← List.singleton_injective e]
    simp [tmpSuffix, PosixPath.dot]
  · rw [tmpPath_eq, tmpPath_eq]
    intro e
    exact ne (List.append_cancel_right (List.singleton_injective e))

theorem lastFailed_cons (w : StorageWorker) (entry : Handled) (here : entry.about x = true) :
    (⟨w, entry :: h.log⟩ : History).lastFailed x = decide (entry.status ≠ .success) := by
  simp [lastFailed, of, here]

theorem of_cons_other (w : StorageWorker) (entry : Handled) (elsewhere : entry.about x = false) :
    (⟨w, entry :: h.log⟩ : History).of x = h.of x := by
  simp [of, elsewhere]

/-- A step that concerns another object or none. -/
theorem Progress.other {w : StorageWorker} {entry : Handled} (progress : h.Progress) (plain : PosixPath.dot ∉ x)
    (elsewhere : entry.about x = false) (next : w.nextChunks.lookup x = h.worker.nextChunks.lookup x)
    (pending : w.pending x = h.worker.pending x) {k : UInt32} (found : w.nextChunks.lookup x = some k) (pos : k ≠ 0)
    (intact : (⟨w, entry :: h.log⟩ : History).lastFailed x = false) :
    ∃ puts, puts.length = k.toNat ∧ (⟨w, entry :: h.log⟩ : History).InOrder x puts ∧
      w.pending x = some (puts.flatMap (·.data)) := by
  have same := of_cons_other (h := h) w entry elsewhere
  rw [lastFailed, same] at intact
  obtain ⟨puts, len, order, data⟩ := progress x k plain (next ▸ found) pos intact
  exact ⟨puts, len, ⟨order.indices, same ▸ order.latest⟩, pending.trans data⟩

/-- One more chunk in order, answered `Success`. -/
theorem InOrder.more {w : StorageWorker} {puts : List PutRequest} (order : h.InOrder req.objectId puts)
    (index : req.chunkIndex.toNat = puts.length) :
    (⟨w, .put req .success :: h.log⟩ : History).InOrder req.objectId (puts ++ [req]) := by
  refine ⟨?_, ?_⟩
  · rw [List.map_append, order.indices, List.length_append, List.length_singleton, List.range_succ]
    simp [index]
  · have here : Handled.about req.objectId (.put req .success) = true := by simp [Handled.about]
    rw [of, List.filter_cons_of_pos here, List.map_append, List.reverse_append]
    exact (List.prefix_cons_inj _).2 order.latest

/-- The chunk sequence that a due `PUT`, answered `Success`, completes or continues. -/
theorem sequence_of_due {w : StorageWorker} (progress : h.Progress) (plain : PosixPath.dot ∉ req.objectId)
    (due : req.chunkIndex = 0 ∨ h.worker.nextChunks.lookup req.objectId = some req.chunkIndex)
    (continues : req.chunkIndex ≠ 0 → h.worker.nextChunks.lookup req.objectId = some req.chunkIndex →
      h.lastFailed req.objectId = false) :
    ∃ puts, puts.length = req.chunkIndex.toNat + 1 ∧
      (⟨w, .put req .success :: h.log⟩ : History).InOrder req.objectId puts ∧
      h.worker.base req ++ req.data = puts.flatMap (·.data) := by
  by_cases first : req.chunkIndex = 0
  · have empty : h.InOrder req.objectId [] := ⟨rfl, List.nil_prefix⟩
    refine ⟨[req], by simp [first], empty.more (by simp [first]), by simp [base, first]⟩
  · have next := due.resolve_left first
    obtain ⟨puts, len, order, data⟩ := progress _ _ plain next first (continues first next)
    refine ⟨puts ++ [req], by simp [len], order.more len.symm, ?_⟩
    simp [base, if_neg first, data]

/-- `withOutcomes` is about calls to come. -/
theorem Progress.withOutcomes (progress : h.Progress) (outcomes : List Outcome) :
    Progress { h with worker := { h.worker with disk := h.worker.disk.withOutcomes outcomes } } := by
  intro x k plain found pos intact
  obtain ⟨puts, len, order, data⟩ := progress x k plain found pos intact
  exact ⟨puts, len, ⟨order.indices, order.latest⟩, data⟩

theorem put_step (progress : h.Progress) (plain : PosixPath.dot ∉ req.objectId) {w : StorageWorker}
    {response : PutResponse} (handled : h.worker.handlePut req = (response, w))
    (continues : req.chunkIndex ≠ 0 → h.worker.nextChunks.lookup req.objectId = some req.chunkIndex →
      h.lastFailed req.objectId = false) :
    Progress ⟨w, .put req response.status :: h.log⟩ ∧ Whole ⟨w, .put req response.status :: h.log⟩ := by
  obtain ⟨same, step, -⟩ := handlePut_step handled
  have here : ∀ status, Handled.about req.objectId (.put req status) = true := fun _ => by simp [Handled.about]
  -- the counters of the other objects are not touched
  have others : ∀ status x k, x ≠ req.objectId → PosixPath.dot ∉ x → w.nextChunks.lookup x = some k → k ≠ 0 →
      (⟨w, .put req status :: h.log⟩ : History).lastFailed x = false →
      ∃ puts, puts.length = k.toNat ∧ (⟨w, .put req status :: h.log⟩ : History).InOrder x puts ∧
        w.pending x = some (puts.flatMap (·.data)) := fun status x k ne plain' found pos intact =>
    progress.other plain' (by simp [Handled.about, Ne.symm ne]) (same.next x ne)
      (pending_apart same plain ne) found pos intact
  generalize response.status = status at step
  cases step with
  | failed _ bad kept =>
      refine ⟨fun x k plain' found pos intact => ?_, fun req' rest e _ => ?_⟩
      · by_cases target : x = req.objectId
        · subst target
          rw [lastFailed_cons _ _ (here _)] at intact
          simp [Handled.status, bad] at intact
        · exact others _ x k target plain' found pos intact
      · simp only [List.cons.injEq, Handled.put.injEq] at e
        exact absurd e.1.2 bad
  | more part due next grown kept =>
      obtain ⟨puts, len, order, data⟩ := sequence_of_due (w := w) progress plain due continues
      refine ⟨fun x k plain' found pos intact => ?_, fun req' rest e last => ?_⟩
      · by_cases target : x = req.objectId
        · subst target
          obtain rfl : req.chunkIndex + 1 = k := Option.some.inj (next.symm.trans found)
          refine ⟨puts, ?_, order, by rw [grown, data]⟩
          have small := req.chunkIndex.toNat_lt
          have : (req.chunkIndex + 1).toNat ≠ 0 := fun e => pos (UInt32.toNat_inj.1 e)
          rw [UInt32.toNat_add] at this ⊢
          simp only [UInt32.toNat_one] at this ⊢
          omega
        · exact others _ x k target plain' found pos intact
      · simp only [List.cons.injEq, Handled.put.injEq] at e
        rw [← e.1.1, part] at last
        cases last
  | commit last due next moved whole =>
      obtain ⟨puts, len, order, data⟩ := sequence_of_due (w := w) progress plain due continues
      refine ⟨fun x k plain' found pos intact => ?_, fun req' rest e _ => ?_⟩
      · by_cases target : x = req.objectId
        · subst target
          rw [next] at found
          cases found
        · exact others _ x k target plain' found pos intact
      · simp only [List.cons.injEq, Handled.put.injEq] at e
        obtain ⟨⟨rfl, -⟩, -⟩ := e
        exact ⟨puts, len, order, by rw [whole, data]⟩

theorem delete_step (progress : h.Progress) {delete : DeleteRequest} (plain : PosixPath.dot ∉ delete.objectId)
    {w : StorageWorker} {response : DeleteResponse} (handled : h.worker.handleDelete delete = (response, w)) :
    Progress ⟨w, .delete delete response.status :: h.log⟩ := by
  obtain ⟨same, cleared⟩ := handleDelete_step handled
  intro x k plain' found pos intact
  by_cases target : x = delete.objectId
  · subst target
    rw [lastFailed_cons _ _ (by simp [Handled.about])] at intact
    rw [(cleared (Classical.not_not.1 (of_decide_eq_false intact))).1] at found
    cases found
  · exact progress.other plain' (by simp [Handled.about, Ne.symm target]) (same.next x target)
      (pending_apart same plain target) found pos intact

/-- Every step keeps `Progress`, and after it `Whole` holds. -/
theorem next_step (progress : h.Progress) {s : WorkerStep} (plain : s.Plain) (continues : h.Continues s) :
    (h.next s).Progress ∧ (h.next s).Whole := by
  cases s with
  | restart =>
      refine ⟨fun x k _ found => ?_, fun req rest e => ?_⟩
      · simp [next, restart] at found
      · simp [next] at e
  | handle event outcomes =>
      cases event with
      | put req => exact put_step (progress.withOutcomes outcomes) plain rfl continues
      | get req =>
          rcases got : handleGet { h.worker with disk := h.worker.disk.withOutcomes outcomes } req with ⟨response, w⟩
          obtain ⟨counters, tree, -, -⟩ := handleGet_step got
          refine ⟨fun x k plain' found pos intact => ?_, fun req' rest e => ?_⟩
          · simp only [next, got] at found intact ⊢
            refine progress.other plain' rfl (by rw [counters]) ?_ found pos intact
            rw [pending, tree]
            rfl
          · simp [next] at e
      | delete req =>
          refine ⟨delete_step (progress.withOutcomes outcomes) plain rfl, fun req' rest e => ?_⟩
          simp [next] at e

theorem run_progress {steps : List WorkerStep} (progress : h.Progress) (whole : h.Whole)
    (plain : ∀ s ∈ steps, s.Plain) (unbroken : h.Unbroken steps) : (h.run steps).Whole := by
  induction steps generalizing h with
  | nil => exact whole
  | cons s steps ih =>
      obtain ⟨progress', whole'⟩ := next_step progress (plain s List.mem_cons_self) unbroken.1
      exact ih progress' whole' (fun s' mem => plain s' (List.mem_cons_of_mem _ mem)) unbroken.2

/-- As long as no chunk sequence is continued across a failed request for its object, every
object is committed from one complete sequence. -/
theorem committed_whole (disk : Disk) (steps : List WorkerStep) (plain : ∀ s ∈ steps, s.Plain)
    (unbroken : (start disk).Unbroken steps) : ((start disk).run steps).Whole := by
  refine run_progress (fun x k _ found => ?_) (fun req rest e => ?_) plain unbroken
  · simp [start] at found
  · simp [start] at e

/-- A `PUT` of object `"a"`. -/
def putA (chunkIndex : UInt32) (finalChunk : Bool) (data : Bytes) : WorkerStep :=
  .handle (.put { objectId := [97], chunkIndex, finalChunk, data, context := ⟨1, ⟨[109], .metadata⟩⟩ }) []

def emptyDisk : Disk := { tree := .empty, outcomes := [], trail := [], outside := fun _ => none }

theorem committed_whole_twoChunks : ((start emptyDisk).run [putA 0 false [1], putA 1 true [2]]).Whole :=
  committed_whole emptyDisk [putA 0 false [1], putA 1 true [2]] (by decide) (by decide +kernel)

/-- Chunk 5 is refused and its `abort_write` removes chunk 0, but chunk 1 is still due: it is
answered `Success` and committed alone. -/
theorem committed_not_whole :
    ¬ ∀ (disk : Disk) (steps : List WorkerStep), (∀ s ∈ steps, s.Plain) → ((start disk).run steps).Whole := by
  intro always
  have whole := always emptyDisk [putA 0 false [1], putA 5 false [9], putA 1 true [2]] (by decide)
  obtain ⟨puts, len, order, -⟩ := whole _ _ rfl rfl
  obtain ⟨older, latest⟩ := order.latest
  have log : ((start emptyDisk).run [putA 0 false [1], putA 5 false [9], putA 1 true [2]]).of [97] =
      [.put { objectId := [97], chunkIndex := 1, finalChunk := true, data := [2], context := ⟨1, ⟨[109], .metadata⟩⟩ }
          .success,
        .put { objectId := [97], chunkIndex := 5, finalChunk := false, data := [9], context := ⟨1, ⟨[109], .metadata⟩⟩ }
          .invalidRequest,
        .put { objectId := [97], chunkIndex := 0, finalChunk := false, data := [1], context := ⟨1, ⟨[109], .metadata⟩⟩ }
          .success] := by
    decide +kernel
  rw [log] at latest
  match puts, len with
  | [first, second], _ => simp at latest

end History

end Dfs
