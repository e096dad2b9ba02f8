import Mathlib.Data.List.Perm.Basic
import Mathlib.Data.List.Infix

/-!
# A queue whose consumers choose what they take

A consumer takes the oldest item that satisfies a predicate, out of the middle of the queue if
need be. Items are stamped with their place among all that were pushed, so that equal ones can be
told apart; the predicates do not see the stamps.
-/

namespace Dfs.Lib

inductive QueueCall (κ α : Type) where
  | push (item : α)
  | take (consumer : κ) (p : α → Bool)

/-- A queue, all that was pushed to it, and what its consumers have taken from it. -/
structure Served (κ α : Type) where
  pushed : List α := []
  queue : List (α × Nat) := []
  taken : List (κ × α × Nat) := []

section Oldest

variable {α : Type} {p q : α → Bool} {queue : List α} {item : α}

/-- The oldest item that satisfies `p`, and the queue without it. -/
theorem oldest_some (found : queue.find? p = some item) :
    p item = true ∧ ∃ before after, queue = before ++ item :: after ∧ queue.eraseP p = before ++ after ∧
      ∀ a ∈ before, p a = false := by
  obtain ⟨holds, before, after, split, older⟩ := List.find?_eq_some_iff_append.1 found
  have untaken : ∀ a ∈ before, ¬ p a = true := fun a mem => by simpa using older a mem
  refine ⟨holds, before, after, split, ?_, fun a mem => by simpa using older a mem⟩
  rw [split, List.eraseP_append_right _ untaken, List.eraseP_cons_of_pos holds]

theorem oldest_none (found : queue.find? p = none) : queue.eraseP p = queue ∧ ∀ a ∈ queue, p a = false := by
  have untaken : ∀ a ∈ queue, ¬ p a = true := List.find?_eq_none.1 found
  exact ⟨List.eraseP_of_forall_not untaken, fun a mem => by simpa using untaken a mem⟩

/-- Taking by another predicate leaves the items that satisfy `p`. -/
theorem filter_eraseP_other (apart : ∀ a, p a = true → q a = false) : (queue.eraseP q).filter p = queue.filter p := by
  cases found : queue.find? q with
  | none => rw [(oldest_none found).1]
  | some item =>
      obtain ⟨holds, before, after, split, left, -⟩ := oldest_some found
      have other : ¬ p item = true := fun here => by rw [apart item here] at holds; cases holds
      rw [left, split, List.filter_append, List.filter_append, List.filter_cons_of_neg other]

/-- A predicate that implies `q` finds the same item among those that satisfy `q`. -/
theorem find?_of_filter (imp : ∀ a, p a = true → q a = true) : (queue.filter q).find? p = queue.find? p := by
  rw [List.find?_filter]
  congr 1
  funext a
  cases h : p a
  · simp
  · simp [imp a h]

theorem filter_eraseP (imp : ∀ a, p a = true → q a = true) : (queue.eraseP p).filter q = (queue.filter q).eraseP p := by
  induction queue with
  | nil => rfl
  | cons a queue ih =>
      cases h : p a
      · cases h' : q a
        · simp [h, h', ih]
        · simp [h, h', ih]
      · simp [h, imp a h]

/-- Taking the item at a place leaves what is before and behind it. -/
theorem filter_eraseIdx {i : Nat} (there : queue[i]? = some item) :
    ∃ before after, queue.filter p = before ++ ([item].filter p ++ after) ∧ (queue.eraseIdx i).filter p = before ++ after := by
  obtain ⟨below, rfl⟩ := List.getElem?_eq_some_iff.1 there
  refine ⟨(queue.take i).filter p, (queue.drop (i + 1)).filter p, ?_, ?_⟩
  · rw [← List.filter_append, ← List.filter_append, List.singleton_append, List.getElem_cons_drop, List.take_append_drop]
  · rw [List.eraseIdx_eq_take_drop_succ, List.filter_append]

theorem filter_eraseIdx_other {i : Nat} (there : queue[i]? = some item) (other : p item = false) :
    (queue.eraseIdx i).filter p = queue.filter p := by
  obtain ⟨before, after, all, rest⟩ := filter_eraseIdx (p := p) there
  rw [all, rest, List.filter_cons_of_neg (by simp [other])]
  rfl

theorem filter_eraseIdx_only {i : Nat} {only : α} (there : queue[i]? = some item) (holds : p item = true)
    (one : queue.filter p = [only]) : item = only ∧ (queue.eraseIdx i).filter p = [] := by
  obtain ⟨before, after, all, rest⟩ := filter_eraseIdx (p := p) there
  rw [one, List.filter_cons_of_pos holds, List.filter_nil, List.singleton_append] at all
  rw [rest]
  cases before with
  | nil =>
      obtain ⟨same, behind⟩ := List.cons.inj all
      exact ⟨same.symm, behind.symm⟩
  | cons first before =>
      have none := (List.cons.inj all).2
      exact absurd none (by simp)

/-- Taking by `p` takes the first of the items that satisfy it. -/
theorem filter_oldest : queue.filter p = (queue.find? p).toList ++ (queue.eraseP p).filter p := by
  cases found : queue.find? p with
  | none => rw [(oldest_none found).1]; rfl
  | some item =>
      obtain ⟨holds, before, after, split, left, older⟩ := oldest_some found
      have none : before.filter p = [] := List.filter_eq_nil_iff.2 fun a mem => by simp [older a mem]
      rw [left, split, List.filter_append, List.filter_append, List.filter_cons_of_pos holds, none]
      rfl

theorem perm_oldest : queue.Perm ((queue.find? p).toList ++ queue.eraseP p) := by
  cases found : queue.find? p with
  | none => rw [(oldest_none found).1]; rfl
  | some item =>
      obtain ⟨-, before, after, split, left, -⟩ := oldest_some found
      rw [left, split]
      exact List.perm_middle

end Oldest

namespace Served

variable {κ α : Type}

def step (s : Served κ α) : QueueCall κ α → Served κ α
  | .push item => { s with pushed := s.pushed ++ [item], queue := s.queue ++ [(item, s.pushed.length)] }
  | .take consumer p =>
      { s with
        queue := s.queue.eraseP fun entry => p entry.1
        taken := s.taken ++ (s.queue.find? fun entry => p entry.1).toList.map (consumer, ·) }

def run (calls : List (QueueCall κ α)) : Served κ α := calls.foldl step {}

variable {s : Served κ α} {P : α → Bool}

/-- What the consumer has taken, oldest first. -/
def takenBy [DecidableEq κ] (s : Served κ α) (consumer : κ) : List (α × Nat) :=
  (s.taken.filter fun entry => entry.1 = consumer).map (·.2)

/-- Nothing is lost, taken twice or moved. -/
structure Exact (s : Served κ α) : Prop where
  ordered : s.queue.Sublist s.pushed.zipIdx
  once : (s.taken.map (·.2) ++ s.queue).Perm s.pushed.zipIdx

theorem Exact.step (exact : s.Exact) (call : QueueCall κ α) : (s.step call).Exact := by
  cases call with
  | push item =>
      have stamped : (s.pushed ++ [item]).zipIdx = s.pushed.zipIdx ++ [(item, s.pushed.length)] := by
        rw [List.zipIdx_append]
        simp
      refine ⟨?_, ?_⟩
      · exact stamped ▸ exact.ordered.append (List.Sublist.refl _)
      · change (s.taken.map (·.2) ++ (s.queue ++ [(item, s.pushed.length)])).Perm (s.pushed ++ [item]).zipIdx
        rw [stamped, ← List.append_assoc]
        exact exact.once.append_right _
  | take consumer p =>
      refine ⟨List.eraseP_sublist.trans exact.ordered, List.Perm.trans ?_ exact.once⟩
      have given : ((s.queue.find? fun entry => p entry.1).toList.map (consumer, ·)).map (·.2) =
          (s.queue.find? fun entry => p entry.1).toList := by
        cases s.queue.find? fun entry => p entry.1 <;> rfl
      simp only [Served.step, List.map_append, given, List.append_assoc]
      exact (perm_oldest.symm).append_left _

theorem run_exact (calls : List (QueueCall κ α)) : (run calls).Exact :=
  List.foldlRecOn calls step ⟨List.Sublist.refl _, List.Perm.refl _⟩ fun _ exact call _ => exact.step call

variable [DecidableEq κ] {fixed : κ}

/-- The call is one of `fixed` for `P`, or one of another consumer for nothing that satisfies `P`. -/
def Uses (fixed : κ) (P : α → Bool) : QueueCall κ α → Prop
  | .push _ => True
  | .take consumer p => if consumer = fixed then p = P else ∀ a, P a = true → p a = false

/-- What satisfies `P` has been taken by the one consumer for it, or is queued, in the order it came in. -/
def Forwards (fixed : κ) (P : α → Bool) (s : Served κ α) : Prop :=
  s.pushed.zipIdx.filter (fun entry => P entry.1) = s.takenBy fixed ++ s.queue.filter fun entry => P entry.1

theorem Forwards.step {call : QueueCall κ α} (forwards : s.Forwards fixed P) (uses : Uses fixed P call) :
    (s.step call).Forwards fixed P := by
  cases call with
  | push item =>
      have stamped : (s.pushed ++ [item]).zipIdx = s.pushed.zipIdx ++ [(item, s.pushed.length)] := by
        rw [List.zipIdx_append]
        simp
      have same : (s.step (.push item)).takenBy fixed = s.takenBy fixed := rfl
      rw [Forwards, same]
      simp only [Served.step]
      rw [stamped, List.filter_append, List.filter_append, forwards, List.append_assoc]
  | take consumer p =>
      rw [Forwards]
      have same : (s.step (.take consumer p)).pushed = s.pushed := rfl
      rw [same, forwards]
      simp only [takenBy, Served.step, List.filter_append, List.map_append, List.append_assoc]
      refine congrArg _ ?_
      by_cases here : consumer = fixed
      · rw [Uses, if_pos here] at uses
        rw [uses]
        have given : (((s.queue.find? fun entry => P entry.1).toList.map (consumer, ·)).filter fun entry => entry.1 = fixed).map (·.2) =
            (s.queue.find? fun entry => P entry.1).toList := by
          cases s.queue.find? fun entry => P entry.1 <;> simp [here]
        rw [given]
        exact filter_oldest
      · rw [Uses, if_neg here] at uses
        have given : (((s.queue.find? fun entry => p entry.1).toList.map (consumer, ·)).filter fun entry => entry.1 = fixed).map (·.2) =
            [] := by
          cases s.queue.find? fun entry => p entry.1 <;> simp [here]
        rw [given]
        exact (filter_eraseP_other fun entry : α × Nat => uses entry.1).symm

theorem run_forwards {calls : List (QueueCall κ α)} (uses : ∀ call ∈ calls, Uses fixed P call) :
    (run calls).Forwards fixed P :=
  List.foldlRecOn calls step rfl fun _ forwards call mem => forwards.step (uses call mem)

end Served

end Dfs.Lib
