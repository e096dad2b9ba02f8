import Dfs.Common.Network
import Dfs.Lib.Queue

/-!
# The queue that threads share (`BlockingQueue.hpp`)

Every call holds the queue's mutex while it looks at the items, so that an interleaving of the
threads is a list of calls.
-/

namespace Dfs

open Lib

/-- The items in the queue, and what each consumer's calls of `pop_if` have returned so far. -/
structure BlockingQueue (κ T : Type) where
  queue : List T := []
  popped : List (κ × T) := []

namespace BlockingQueue

variable {κ T : Type}

/-- One call. A `pop_if` that finds nothing before its timeout changes nothing. -/
def call (s : BlockingQueue κ T) : QueueCall κ T → BlockingQueue κ T
  | .push item => { s with queue := s.queue ++ [item] }
  | .take consumer predicate =>
      match popIf predicate s.queue with
      | (item, queue) => { queue, popped := s.popped ++ item.toList.map (consumer, ·) }

def run (calls : List (QueueCall κ T)) : BlockingQueue κ T := calls.foldl call {}

/-- What the calls push. -/
def pushes (calls : List (QueueCall κ T)) : List T :=
  calls.filterMap fun
    | .push item => some item
    | .take _ _ => none

/-- What a consumer's calls have returned, in their order. -/
def poppedBy [DecidableEq κ] (s : BlockingQueue κ T) (consumer : κ) : List T :=
  (s.popped.filter fun entry => entry.1 = consumer).map (·.2)

/-- The queue without the stamps. -/
def forget (s : Served κ T) : BlockingQueue κ T where
  queue := s.queue.map (·.1)
  popped := s.taken.map fun entry => (entry.1, entry.2.1)

theorem forget_step (s : Served κ T) (c : QueueCall κ T) : forget (s.step c) = (forget s).call c := by
  cases c with
  | push item => simp [forget, Served.step, call]
  | take consumer predicate =>
      have found : (s.queue.map (·.1)).find? predicate = (s.queue.find? fun entry => predicate entry.1).map (·.1) :=
        List.find?_map
      have left : (s.queue.map (·.1)).eraseP predicate = (s.queue.eraseP fun entry => predicate entry.1).map (·.1) :=
        List.eraseP_map
      simp only [forget, Served.step, call, popIf, found, left, List.map_append]
      cases s.queue.find? fun entry => predicate entry.1 <;> rfl

theorem run_forget (calls : List (QueueCall κ T)) : run calls = forget (Served.run calls) := by
  have all : ∀ (calls : List (QueueCall κ T)) (s : Served κ T), calls.foldl call (forget s) = forget (calls.foldl Served.step s) := by
    intro calls
    induction calls with
    | nil => exact fun s => rfl
    | cons c calls ih =>
        intro s
        rw [List.foldl_cons, List.foldl_cons, ← forget_step]
        exact ih _
  exact all calls {}

theorem run_pushed (calls : List (QueueCall κ T)) : (Served.run calls).pushed = pushes calls := by
  have all : ∀ (calls : List (QueueCall κ T)) (s : Served κ T), (calls.foldl Served.step s).pushed = s.pushed ++ pushes calls := by
    intro calls
    induction calls with
    | nil => exact fun s => (List.append_nil _).symm
    | cons c calls ih =>
        intro s
        rw [List.foldl_cons, ih]
        cases c with
        | push item => simp [Served.step, pushes]
        | take consumer predicate => rfl
  exact (all calls {}).trans (List.nil_append _)

theorem poppedBy_forget [DecidableEq κ] (s : Served κ T) (consumer : κ) :
    (forget s).poppedBy consumer = (s.takenBy consumer).map (·.1) := by
  simp only [poppedBy, forget, Served.takenBy, List.filter_map, List.map_map]
  rfl

/-- What `pop_if` returns is the oldest item that satisfies the predicate, and only that item goes. -/
theorem popIf_oldest (predicate : T → Bool) (queue : List T) :
    match popIf predicate queue with
    | (some item, left) => predicate item = true ∧ ∃ before after, queue = before ++ item :: after ∧
        left = before ++ after ∧ ∀ other ∈ before, predicate other = false
    | (none, left) => left = queue ∧ ∀ item ∈ queue, predicate item = false := by
  rw [popIf]
  cases found : queue.find? predicate with
  | none => exact oldest_none found
  | some item => exact oldest_some found

/-- What satisfies the one consumer's predicate has been returned to it or is queued, in the order in which it was pushed. -/
theorem run_forwards [DecidableEq κ] {fixed : κ} {P : T → Bool} {calls : List (QueueCall κ T)}
    (uses : ∀ c ∈ calls, Served.Uses fixed P c) :
    (pushes calls).filter P = (run calls).poppedBy fixed ++ (run calls).queue.filter P := by
  have forwards := congrArg (List.map (·.1)) (Served.run_forwards uses)
  rw [run_pushed, List.map_append] at forwards
  rw [run_forget, poppedBy_forget, forget]
  have unstamped : ∀ l : List (T × Nat), (l.map (·.1)).filter P = (l.filter fun entry => P entry.1).map (·.1) := fun l =>
    List.filter_map
  rw [unstamped, ← forwards, ← unstamped, List.zipIdx_map_fst]

end BlockingQueue

end Dfs
