import Mathlib.Data.List.Sort

/-!
# The first two of a strict order

Sorting a list without repetitions by a strict total order gives one list only, whatever the order of the list and the
algorithm were. Its first two items are known by how they compare with the others.
-/

namespace Dfs.Lib

variable {α : Type} {r : α → α → Prop} {P : α → Prop} {l l' : List α} {a : α} {pair pair' : α × α}

/-! ## Sorting by a strict order -/

section Sorting

variable [IsStrictTotalOrder α r] [DecidableRel r]

theorem pairwise_orderedInsert_of_notMem (sorted : l.Pairwise r) (new : a ∉ l) : (l.orderedInsert r a).Pairwise r := by
  induction l with
  | nil => exact List.pairwise_singleton r a
  | cons b l ih =>
      rw [List.mem_cons, not_or] at new
      rw [List.pairwise_cons] at sorted
      obtain ⟨least, sorted⟩ := sorted
      rw [List.orderedInsert]
      split
      · rename_i before
        refine List.pairwise_cons.2 ⟨fun c mem => ?_, List.pairwise_cons.2 ⟨least, sorted⟩⟩
        rcases List.mem_cons.1 mem with rfl | mem
        · exact before
        · exact trans_of r before (least c mem)
      · rename_i after
        refine List.pairwise_cons.2 ⟨fun c mem => ?_, ih sorted new.2⟩
        rcases (List.mem_orderedInsert r).1 mem with rfl | mem
        · rcases trichotomous_of r c b with before | same | before
          · exact absurd before after
          · exact absurd same new.1
          · exact before
        · exact least c mem

theorem pairwise_insertionSort_of_nodup (once : l.Nodup) : (l.insertionSort r).Pairwise r := by
  induction l with
  | nil => exact List.Pairwise.nil
  | cons a l ih =>
      rw [List.nodup_cons] at once
      rw [List.insertionSort_cons]
      refine pairwise_orderedInsert_of_notMem (ih once.2) ?_
      rw [List.mem_insertionSort]
      exact once.1

/-- Any sorted list of the same items is this one. -/
theorem eq_insertionSort (once : l.Nodup) (sorted : l'.Pairwise r) (perm : l'.Perm l) : l' = l.insertionSort r := by
  refine List.Perm.eq_of_pairwise (fun a b _ _ before after => ?_) sorted (pairwise_insertionSort_of_nodup once)
    (perm.trans (List.perm_insertionSort r l).symm)
  exact absurd after (asymm_of r before)

end Sorting

/-! ## The first two -/

/-- The two items that come first among those of `P`. -/
structure Foremost (r : α → α → Prop) (P : α → Prop) (pair : α × α) : Prop where
  first : P pair.1
  second : P pair.2
  distinct : pair.1 ≠ pair.2
  order : r pair.1 pair.2
  rest : ∀ c, P c → c ≠ pair.1 → c ≠ pair.2 → r pair.2 c

theorem Foremost.congr {r' : α → α → Prop} (same : ∀ a b, P a → P b → (r a b ↔ r' a b)) (best : Foremost r P pair) :
    Foremost r' P pair :=
  ⟨best.first, best.second, best.distinct, (same _ _ best.first best.second).1 best.order,
    fun c mem other other' => (same _ _ best.second mem).1 (best.rest c mem other other')⟩

theorem Foremost.unique [IsStrictTotalOrder α r] (best : Foremost r P pair) (best' : Foremost r P pair') : pair = pair' := by
  have leads : ∀ {p p' : α × α}, Foremost r P p → Foremost r P p' → p.1 ≠ p'.1 → r p.1 p'.1 := by
    intro p p' h h' ne
    by_cases same : p'.1 = p.2
    · rw [same]
      exact h.order
    · exact trans_of r h.order (h.rest _ h'.first ne.symm same)
  have first : pair.1 = pair'.1 := by
    by_contra ne
    exact asymm_of r (leads best best' ne) (leads best' best fun same => ne same.symm)
  refine Prod.ext first ?_
  by_contra ne
  have before := best.rest _ best'.second (first ▸ best'.distinct.symm) fun same => ne same.symm
  have after := best'.rest _ best.second (first ▸ best.distinct.symm) ne
  exact asymm_of r before after

def firstTwo : List α → Option (α × α)
  | first :: second :: _ => some (first, second)
  | _ => none

theorem firstTwo_eq_none : firstTwo l = none ↔ l.length < 2 := by
  match l with
  | [] => simp [firstTwo]
  | [_] => simp [firstTwo]
  | _ :: _ :: _ => simp [firstTwo]

section FirstTwo

variable [IsStrictTotalOrder α r] [DecidableRel r]

theorem foremost_of_firstTwo (once : l.Nodup) (found : firstTwo (l.insertionSort r) = some pair) :
    Foremost r (· ∈ l) pair := by
  have sorted : (l.insertionSort r).Pairwise r := pairwise_insertionSort_of_nodup once
  have member : ∀ c, c ∈ l ↔ c ∈ l.insertionSort r := fun c => (List.mem_insertionSort r).symm
  cases ranked : l.insertionSort r with
  | nil =>
      rw [ranked] at found
      cases found
  | cons first tail =>
      cases tail with
      | nil =>
          rw [ranked] at found
          cases found
      | cons second tail =>
          rw [ranked] at found sorted member
          cases found
          obtain ⟨least, sorted⟩ := List.pairwise_cons.1 sorted
          obtain ⟨next, -⟩ := List.pairwise_cons.1 sorted
          have order : r first second := least second List.mem_cons_self
          refine ⟨(member _).2 (by simp), (member _).2 (by simp), ne_of_irrefl order, order, fun c mem other other' => ?_⟩
          rcases List.mem_cons.1 ((member c).1 mem) with same | mem
          · exact absurd same other
          rcases List.mem_cons.1 mem with same | mem
          · exact absurd same other'
          · exact next c mem

omit [IsStrictTotalOrder α r] in
/-- Among fewer than two there are no first two. -/
theorem firstTwo_none_iff (once : l.Nodup) : firstTwo (l.insertionSort r) = none ↔ ∀ a ∈ l, ∀ b ∈ l, a = b := by
  rw [firstTwo_eq_none, List.length_insertionSort]
  match l with
  | [] => simp
  | [_] => simp
  | first :: second :: _ =>
      rw [List.nodup_cons, List.mem_cons, not_or] at once
      refine ⟨fun short => ?_, fun alone => ?_⟩
      · simp only [List.length_cons] at short
        omega
      · exact absurd (alone first (by simp) second (by simp)) once.1.1

theorem firstTwo_iff (once : l.Nodup) : firstTwo (l.insertionSort r) = some pair ↔ Foremost r (· ∈ l) pair := by
  constructor
  · exact foremost_of_firstTwo once
  · intro best
    cases found : firstTwo (l.insertionSort r) with
    | none => exact absurd ((firstTwo_none_iff once).1 found _ best.first _ best.second) best.distinct
    | some pair' => rw [best.unique (foremost_of_firstTwo once found)]

end FirstTwo

end Dfs.Lib
