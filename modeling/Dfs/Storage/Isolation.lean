import Dfs.Storage.Healthy
import Dfs.Lib.Footprint

/-!
# Requests for different objects

An object is its two entries in the objects directory and its counter. The handlers are
chains of actions on these, so requests for objects that share no entry do not notice each
other. The two entries are told apart by their names alone, and `valid_object_id` accepts a
name that is another object's temporary file.
-/

namespace Dfs

open Lib

namespace StorageWorker

variable {ρ : Type} {x a b : Bytes}

/-- Of a worker one sees its disk and its counters. -/
def Seen : Option Name ⊕ Bytes → Type
  | .inl p => Disk.Seen p
  | .inr _ => Option UInt32

def view (w : StorageWorker) : ∀ p, Seen p
  | .inl p => w.disk.view p
  | .inr y => w.nextChunks.lookup y

/-- The two entries of an object and its counter. -/
def area (x : Bytes) : Set (Option Name ⊕ Bytes)
  | .inl p => p ∈ Disk.entries [x, x ++ tmpSuffix]
  | .inr y => y = x

/-! ## The actions of the handlers -/

def onDisk (op : Disk → ρ × Disk) (w : StorageWorker) : ρ × StorageWorker :=
  ((op w.disk).1, { w with disk := (op w.disk).2 })

def onCounters (f : Assoc Bytes UInt32 → Assoc Bytes UInt32) (w : StorageWorker) : Unit × StorageWorker :=
  ((), { w with nextChunks := f w.nextChunks })

theorem onDisk_local {op : Disk → ρ × Disk} (h : Local Disk.view (Disk.entries [x, x ++ tmpSuffix]) op) :
    Local view (area x) (onDisk op) := by
  constructor
  · rintro w (p | y) out
    · exact h.frame w.disk p out
    · rfl
  · intro w w' agree
    obtain ⟨answer, after⟩ := h.depends w.disk w'.disk fun p here => agree (.inl p) here
    refine ⟨answer, ?_⟩
    rintro (p | y) here
    · exact after p here
    · exact agree (.inr y) here

theorem onCounters_local {f : Assoc Bytes UInt32 → Assoc Bytes UInt32} (value : Option UInt32)
    (h : ∀ next y, (f next).lookup y = if y = x then value else next.lookup y) : Local view (area x) (onCounters f) := by
  constructor
  · rintro w (p | y) out
    · rfl
    · exact (h w.nextChunks y).trans (if_neg out)
  · intro w w' agree
    refine ⟨rfl, ?_⟩
    rintro (p | y) here
    · exact agree (.inl p) here
    · show (f w.nextChunks).lookup y = (f w'.nextChunks).lookup y
      rw [h, h, if_pos (show y = x from here), if_pos (show y = x from here)]

theorem insert_local (v : UInt32) : Local view (area x) (onCounters fun next => next.insert x v) :=
  onCounters_local (some v) fun next y => Assoc.lookup_insert_ite next x y v

theorem erase_local : Local view (area x) (onCounters fun next => next.erase x) :=
  onCounters_local none fun next y => Assoc.lookup_erase_ite next x y

theorem lookup_local : Local view (area x) fun w => (w.nextChunks.lookup x, w) :=
  ⟨fun _ _ _ => rfl, fun _ _ agree => ⟨agree (.inr x) rfl, agree⟩⟩

theorem mem_final : x ∈ [x, x ++ tmpSuffix] := List.mem_cons_self

theorem mem_tmp : x ++ tmpSuffix ∈ [x, x ++ tmpSuffix] := List.mem_cons_of_mem _ List.mem_cons_self

theorem removeTmp_local : Local view (area x) (onDisk (Disk.remove (tmpPath x))) := by
  rw [tmpPath_eq]
  exact onDisk_local (Disk.call_local (FileTree.remove_within mem_tmp))

/-- `abort_write` before an answer. -/
def aborted (status : StorageStatus) (x : Bytes) : StorageWorker → StorageStatus × StorageWorker :=
  andThen (onDisk (Disk.remove (tmpPath x))) fun _ w => (status, w)

theorem aborted_local (status : StorageStatus) : Local view (area x) (aborted status x) :=
  removeTmp_local.andThen fun _ => .pure status

theorem openOutput_local (i : UInt32) :
    Local Disk.view (Disk.entries [x, x ++ tmpSuffix]) (openOutput (tmpPath x) i) := by
  rw [tmpPath_eq]
  unfold openOutput
  exact .ite (fun _ => Disk.call_local (FileTree.setFile_within mem_tmp []))
    fun _ => Disk.call_local (FileTree.openAppend_within mem_tmp)

theorem writeOut_local (data : Bytes) : Local Disk.view (Disk.entries [x, x ++ tmpSuffix]) (writeOut (tmpPath x) data) := by
  have chain : writeOut (tmpPath x) data = andThen (Disk.write (tmpPath x) data) fun written =>
      andThen Disk.settle fun flushed => andThen Disk.settle fun closed disk =>
        (written.bind fun _ => flushed.bind fun _ => closed, disk) := rfl
  rw [chain, tmpPath_eq]
  exact (Disk.write_local mem_tmp data).andThen fun _ => Disk.settle_local.andThen fun _ =>
    Disk.settle_local.andThen fun _ => .pure _

theorem commit_local : Local Disk.view (Disk.entries [x, x ++ tmpSuffix]) (Disk.rename (tmpPath x) (finalPath x)) := by
  rw [tmpPath_eq]
  exact Disk.call_local (FileTree.rename_within mem_tmp mem_final)

theorem appendChunk_chain (req : PutRequest) (w : StorageWorker) : w.appendChunk req =
    attempt (onDisk Disk.space) (aborted .writeError req.objectId) (fun available w =>
      if available.toNat < req.data.length then aborted .noSpace req.objectId w
      else
        attempt (onDisk (openOutput (tmpPath req.objectId) req.chunkIndex)) (aborted .writeError req.objectId) (fun _ =>
          attempt (onDisk (writeOut (tmpPath req.objectId) req.data)) (aborted .writeError req.objectId) fun _ =>
            andThen (onCounters fun next => next.insert req.objectId (req.chunkIndex + 1)) fun _ w =>
              if req.finalChunk = false then (.success, w)
              else
                attempt (onDisk (Disk.rename (tmpPath req.objectId) (finalPath req.objectId))) (aborted .writeError req.objectId)
                  (fun _ => andThen (onCounters fun next => next.erase req.objectId) fun _ w => (.success, w)) w) w) w := by
  unfold appendChunk attempt onDisk
  rcases w.disk.space with ⟨_ | available, disk⟩
  · rfl
  · dsimp only
    split
    · rfl
    · rcases openOutput (tmpPath req.objectId) req.chunkIndex disk with ⟨_ | _, disk⟩
      · rfl
      · dsimp only
        rcases writeOut (tmpPath req.objectId) req.data disk with ⟨_ | _, disk⟩
        · rfl
        · dsimp only [andThen, onCounters]
          split
          · rfl
          · rcases disk.rename (tmpPath req.objectId) (finalPath req.objectId) with ⟨_ | _, _⟩ <;> rfl

theorem appendChunk_local (req : PutRequest) : Local view (area req.objectId) fun w => w.appendChunk req := by
  rw [funext (appendChunk_chain req)]
  refine (onDisk_local Disk.space_local).attempt (aborted_local _) fun available => ?_
  refine .ite (fun _ => aborted_local _) fun _ => ?_
  refine (onDisk_local (openOutput_local _)).attempt (aborted_local _) fun _ => ?_
  refine (onDisk_local (writeOut_local _)).attempt (aborted_local _) fun _ => ?_
  refine (insert_local _).andThen fun _ => ?_
  refine .ite (fun _ => .pure _) fun _ => ?_
  exact (onDisk_local commit_local).attempt (aborted_local _) fun _ => erase_local.andThen fun _ => .pure _

theorem writeChunk_local (req : PutRequest) : Local view (area req.objectId) fun w => w.writeChunk req := by
  unfold writeChunk
  refine .ite (fun _ => .pure _) fun _ => ?_
  have rest : Local view (area req.objectId) (andThen (fun w => (w.nextChunks.lookup req.objectId, w)) fun due w =>
      if due ≠ some req.chunkIndex then aborted .invalidRequest req.objectId w else w.appendChunk req) :=
    lookup_local.andThen fun due => .ite (fun _ => aborted_local _) fun _ => appendChunk_local req
  by_cases first : req.chunkIndex = 0
  · simp only [if_pos first]
    exact (insert_local 0).andThen fun _ => rest
  · simp only [if_neg first]
    exact rest

theorem handlePut_local (req : PutRequest) : Local view (area req.objectId) fun w => w.handlePut req := by
  have space : Local view (area req.objectId) availableBytes := by
    have chain : availableBytes = attempt (onDisk Disk.space) (fun w => (0, w)) fun available w => (available, w) := by
      funext w
      unfold availableBytes attempt onDisk
      rcases w.disk.space with ⟨_ | _, _⟩ <;> rfl
    rw [chain]
    exact (onDisk_local Disk.space_local).attempt (.pure 0) fun available => .pure available
  exact (writeChunk_local req).andThen fun status => space.andThen fun sizeAvailable =>
    .pure ({ chunkIndex := req.chunkIndex, sizeAvailable, status } : PutResponse)

theorem readSlice_local (file : Bytes) (req : GetRequest) {names : List Name} :
    Local Disk.view (Disk.entries names) (readSlice file req) := by
  have chain : readSlice file req =
      attempt Disk.settle (fun d => ((.readError, []), d)) fun _ d =>
        if req.chunkIndex.toNat * chunkSize > file.length then ((.invalidRequest, []), d)
        else
          attempt Disk.settle (fun d => ((.readError, []), d)) (fun _ d =>
            if slice file req.chunkIndex req.byteCount = [] then ((.success, slice file req.chunkIndex req.byteCount), d)
            else
              attempt Disk.settle (fun d => ((.readError, []), d))
                (fun _ d => ((.success, slice file req.chunkIndex req.byteCount), d)) d) d := by
    funext d
    unfold readSlice attempt
    rcases d.settle with ⟨_ | _, d⟩
    · rfl
    · dsimp only
      split
      · rfl
      · rcases d.settle with ⟨_ | _, d⟩
        · rfl
        · dsimp only
          split
          · rfl
          · rcases d.settle with ⟨_ | _, _⟩ <;> rfl
  rw [chain]
  refine Disk.settle_local.attempt (.pure _) fun _ => .ite (fun _ => .pure _) fun _ => ?_
  refine Disk.settle_local.attempt (.pure _) fun _ => .ite (fun _ => .pure _) fun _ => ?_
  exact Disk.settle_local.attempt (.pure _) fun _ => .pure _

theorem handleGet_local (req : GetRequest) : Local view (area req.objectId) fun w => w.handleGet req := by
  have chain : (fun w : StorageWorker => w.handleGet req) = fun w =>
      if validObjectId req.objectId = false ∨ req.byteCount.toNat > chunkSize then
        ({ chunkIndex := req.chunkIndex, status := .invalidRequest, data := [] }, w)
      else
        attempt (onDisk (Disk.readFile (finalPath req.objectId)))
          (fun w => ({ chunkIndex := req.chunkIndex, status := .readError, data := [] }, w)) (fun file =>
            andThen (onDisk (readSlice file req)) fun result w =>
              ({ chunkIndex := req.chunkIndex, status := result.1, data := result.2 }, w)) w := by
    funext w
    unfold handleGet attempt onDisk
    split
    · rfl
    · rcases w.disk.readFile (finalPath req.objectId) with ⟨_ | _, _⟩ <;> rfl
  rw [chain]
  refine .ite (fun _ => .pure _) fun _ => ?_
  refine (onDisk_local (Disk.query_local fun t t' agree => ?_)).attempt (.pure _) fun file => ?_
  · exact agree.readFile mem_final
  · exact (onDisk_local (readSlice_local file req)).andThen fun _ => .pure _

theorem handleDelete_local (req : DeleteRequest) : Local view (area req.objectId) fun w => w.handleDelete req := by
  have chain : (fun w : StorageWorker => w.handleDelete req) = fun w =>
      if validObjectId req.objectId = false then ({ status := .invalidRequest }, w)
      else
        attempt (onDisk (Disk.remove (finalPath req.objectId))) (fun w => ({ status := .writeError }, w)) (fun _ =>
          attempt (onDisk (Disk.remove (tmpPath req.objectId))) (fun w => ({ status := .writeError }, w)) fun _ =>
            andThen (onCounters fun next => next.erase req.objectId) fun _ w => ({ status := .success }, w)) w := by
    funext w
    unfold handleDelete attempt onDisk
    split
    · rfl
    · rcases w.disk.remove (finalPath req.objectId) with ⟨_ | _, disk⟩
      · rfl
      · dsimp only
        rcases disk.remove (tmpPath req.objectId) with ⟨_ | _, _⟩ <;> rfl
  rw [chain]
  refine .ite (fun _ => .pure _) fun _ => ?_
  refine (onDisk_local (Disk.call_local (FileTree.remove_within mem_final))).attempt (.pure _) fun _ => ?_
  exact removeTmp_local.attempt (.pure _) fun _ => erase_local.andThen fun _ => .pure _

/-! ## Two objects -/

end StorageWorker

def StorageEvent.objectId : StorageEvent → Bytes
  | put req => req.objectId
  | get req => req.objectId
  | delete req => req.objectId

namespace StorageWorker

theorem handle_local (event : StorageEvent) : Local view (area event.objectId) (StorageWorker.handle event) := by
  cases event with
  | put req => exact (handlePut_local req).andThen fun response => .pure _
  | get req => exact (handleGet_local req).andThen fun response => .pure _
  | delete req => exact (handleDelete_local req).andThen fun response => .pure _

/-- The worker with what the operating system will make of its next calls. -/
def expecting (outcomes : List Outcome) (w : StorageWorker) : StorageWorker :=
  { w with disk := w.disk.withOutcomes outcomes }

/-- The reply to a request and the worker after it. -/
def answer (event : StorageEvent) (outcomes : List Outcome) (w : StorageWorker) : Frame × StorageWorker :=
  handle event (expecting outcomes w)

/-- All but the calls to come. -/
def shown : Name ⊕ Bytes → Option Name ⊕ Bytes
  | .inl n => .inl (some n)
  | .inr y => .inr y

def files (w : StorageWorker) (p : Name ⊕ Bytes) : Seen (shown p) := view w (shown p)

def own (x : Bytes) : Set (Name ⊕ Bytes) := Set.preimage shown (area x)

theorem answer_local (event : StorageEvent) (outcomes : List Outcome) :
    Local files (own event.objectId) (answer event outcomes) := by
  apply Local.hide (f := handle event) (g := expecting outcomes) (handle_local event)
  · rintro w (n | y) <;> rfl
  · rintro w w' ((_ | n) | y) here
    · exact .inr rfl
    · exact .inl ⟨.inl n, rfl⟩
    · exact .inl ⟨.inr y, rfl⟩

theorem mem_own_entry {n : Name} : (.inl n : Name ⊕ Bytes) ∈ own x ↔ n = x ∨ n = x ++ tmpSuffix := by
  show (∀ k, some n = some k → k ∈ [x, x ++ tmpSuffix]) ↔ _
  simp

theorem mem_own_counter {y : Bytes} : (.inr y : Name ⊕ Bytes) ∈ own x ↔ y = x := .rfl

/-- Neither object is the other one's temporary file. -/
def Apart (a b : Bytes) : Prop := a ≠ b ++ tmpSuffix ∧ b ≠ a ++ tmpSuffix

instance (a b : Bytes) : Decidable (Apart a b) := inferInstanceAs (Decidable (_ ∧ _))

theorem Apart.disjoint (apart : Apart a b) (ne : a ≠ b) : Disjoint (own a) (own b) := by
  rw [Set.disjoint_left]
  rintro (n | y) here there
  · rw [mem_own_entry] at here there
    rcases here with rfl | rfl <;> rcases there with same | same
    · exact ne same
    · exact apart.1 same
    · exact apart.2 same.symm
    · exact ne (List.append_cancel_right same)
  · exact ne (here.symm.trans there)

/-- The committed bytes of an object, the bytes of its upload in progress and the chunk that is due. -/
def Untouched (x : Bytes) (w w' : StorageWorker) : Prop :=
  w'.committed x = w.committed x ∧ w'.pending x = w.pending x ∧ w'.nextChunks.lookup x = w.nextChunks.lookup x

theorem untouched_of_files {w w' : StorageWorker} (same : ∀ p ∈ own x, files w' p = files w p) : Untouched x w w' := by
  have entry : ∀ n, n = x ∨ n = x ++ tmpSuffix → w'.disk.tree.content [n] = w.disk.tree.content [n] := by
    intro n mem
    have here : w'.disk.tree.kind [n] = w.disk.tree.kind [n] := congrFun (same (.inl n) (mem_own_entry.2 mem)) []
    rw [FileTree.content, FileTree.content, here]
  refine ⟨entry x (.inl rfl), ?_, same (.inr x) (mem_own_counter.2 rfl)⟩
  rw [pending, pending, tmpPath_eq]
  exact entry _ (.inr rfl)

/-- No request for `a` touches `b`. -/
def Isolated (a b : Bytes) : Prop :=
  ∀ w event outcomes, event.objectId = a → Untouched b w (answer event outcomes w).2

/-- The same entries and the same counters. -/
def SameFiles (w w' : StorageWorker) : Prop :=
  (∀ q, w.disk.tree.kind q = w'.disk.tree.kind q) ∧ ∀ y, w.nextChunks.lookup y = w'.nextChunks.lookup y

theorem sameFiles_of_files {w w' : StorageWorker} (same : ∀ p, files w p = files w' p) : SameFiles w w' := by
  refine ⟨fun q => ?_, fun y => same (.inr y)⟩
  cases q with
  | nil => rfl
  | cons n r => exact congrFun (same (.inl n)) r

/-- The order of a request for `a` and one for `b` makes no difference, neither to the replies nor to the files. -/
def Commute (a b : Bytes) : Prop :=
  ∀ w event event' outcomes outcomes', event.objectId = a → event'.objectId = b →
    (answer event' outcomes' (answer event outcomes w).2).1 = (answer event' outcomes' w).1 ∧
    (answer event outcomes (answer event' outcomes' w).2).1 = (answer event outcomes w).1 ∧
    SameFiles (answer event' outcomes' (answer event outcomes w).2).2 (answer event outcomes (answer event' outcomes' w).2).2

theorem Apart.isolated (apart : Apart a b) (ne : a ≠ b) : Isolated a b := by
  rintro w event outcomes rfl
  apply untouched_of_files
  intro p here
  exact (answer_local event outcomes).frame w p (Set.disjoint_right.1 (apart.disjoint ne) here)

theorem Apart.commute (apart : Apart a b) (ne : a ≠ b) : Commute a b := by
  rintro w event event' outcomes outcomes' rfl rfl
  obtain ⟨reply, reply', same⟩ :=
    (answer_local event outcomes).commute (answer_local event' outcomes') (apart.disjoint ne) w
  exact ⟨reply, reply', sameFiles_of_files same⟩

/-! ## A `DELETE` that touches another object -/

/-- Where nothing fails, a `DELETE` removes both files. -/
theorem handleDelete_clears {req : DeleteRequest} {w : StorageWorker} (valid : validObjectId req.objectId = true)
    (flat : w.disk.tree.Flat) (healthy : w.disk.Healthy 0) :
    (w.handleDelete req).2.committed req.objectId = none ∧ (w.handleDelete req).2.pending req.objectId = none := by
  have success : (w.handleDelete req).1.status = .success := handleDelete_healthy valid flat healthy (by decide)
  rcases handled : w.handleDelete req with ⟨response, w'⟩
  rw [handled] at success
  exact ((handleDelete_step handled).2 success).2

/-- A worker with one file in its directory. -/
def withFile (n : Name) : StorageWorker where
  disk := {
    tree := FileTree.empty.place [n] (.file []) (FileTree.flat_empty.placeable n [])
    outcomes := []
    trail := []
    outside := fun _ => none }
  nextChunks := ∅

theorem content_withFile (n : Name) : (withFile n).disk.tree.content [n] = some [] := by
  rw [withFile, FileTree.content_place, if_pos rfl]
  rfl

theorem flat_withFile (n : Name) : (withFile n).disk.tree.Flat := by
  intro q ne
  rw [withFile, FileTree.kind_place]
  split
  · simp
  · exact FileTree.flat_empty q ne

def deleteOf (x : Bytes) : StorageEvent := .delete { objectId := x, context := ⟨0, ⟨[], .metadata⟩⟩ }

/-- A `DELETE` of `a` leaves neither `a` nor `a.tmp` behind. -/
theorem deleted_withFile (n : Name) (valid : validObjectId a = true) :
    (answer (deleteOf a) [] (withFile n)).2.committed a = none ∧ (answer (deleteOf a) [] (withFile n)).2.pending a = none :=
  @handleDelete_clears { objectId := a, context := ⟨0, ⟨[], .metadata⟩⟩ } (withFile n) valid (flat_withFile n)
    fun _ mem => nomatch mem

theorem Isolated.apart (isolated : Isolated a b) (valid : validObjectId a = true) : Apart a b := by
  constructor
  · rintro rfl
    -- the committed file of `a` is the temporary file of `b`
    obtain ⟨-, kept, -⟩ := isolated (withFile (b ++ tmpSuffix)) (deleteOf (b ++ tmpSuffix)) [] rfl
    have gone := (deleted_withFile (b ++ tmpSuffix) valid).1
    rw [pending, pending, tmpPath_eq, content_withFile] at kept
    rw [committed, finalPath, kept] at gone
    cases gone
  · rintro rfl
    obtain ⟨kept, -, -⟩ := isolated (withFile (a ++ tmpSuffix)) (deleteOf a) [] rfl
    have gone := (deleted_withFile (a ++ tmpSuffix) valid).2
    rw [committed, committed, finalPath, content_withFile] at kept
    rw [pending, tmpPath_eq, kept] at gone
    cases gone

/-- Different objects are isolated from each other, and requests for them commute, exactly
when neither id is the other one followed by `.tmp`. -/
theorem isolated_iff_apart (a b : Bytes) (ne : a ≠ b) (valid : validObjectId a = true) :
    (Isolated a b ∧ Commute a b) ↔ a ≠ b ++ tmpSuffix ∧ b ≠ a ++ tmpSuffix := by
  constructor
  · intro h
    exact h.1.apart valid
  · intro apart
    exact ⟨Apart.isolated apart ne, Apart.commute apart ne⟩

/-- The ids `"a"` and `"b"`. -/
theorem isolated_letters : (Isolated [97] [98] ∧ Commute [97] [98]) ↔ [97] ≠ [98] ++ tmpSuffix ∧ [98] ≠ [97] ++ tmpSuffix :=
  isolated_iff_apart [97] [98] (by decide) (by decide)

/-- `"a.tmp"` is a valid id. -/
theorem not_isolated_tmp :
    ¬ ∀ a b : Bytes, a ≠ b → validObjectId a = true → validObjectId b = true → Isolated a b ∧ Commute a b := by
  intro always
  have isolated := (always ([97] ++ tmpSuffix) [97] (by decide) (by decide) (by decide)).1
  exact (isolated.apart (by decide)).1 rfl

end StorageWorker

end Dfs
