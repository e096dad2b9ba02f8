import Dfs.Lib.Disk
import Mathlib.Data.Set.BooleanAlgebra
import Mathlib.Order.CompletePartialOrder

/-!
# Actions on a part of the state

An action is local to an area when it changes nothing outside the area and what it does
depends on nothing outside it. Local actions on disjoint areas commute. The calls on a disk
are local to the entries of the root that they name.
-/

namespace Dfs.Lib

/-! ## Local actions -/

section Local

variable {σ ρ ρ' Place : Type} {Value : Place → Type} {view : σ → ∀ p, Value p} {area area' : Set Place}

/-- The two states look the same in `area`. -/
def AgreeOn (view : σ → ∀ p, Value p) (area : Set Place) (s s' : σ) : Prop := ∀ p ∈ area, view s p = view s' p

structure Local (view : σ → ∀ p, Value p) (area : Set Place) (f : σ → ρ × σ) : Prop where
  frame : ∀ s, ∀ p, p ∉ area → view (f s).2 p = view s p
  depends : ∀ s s', AgreeOn view area s s' → (f s).1 = (f s').1 ∧ AgreeOn view area (f s).2 (f s').2

/-- An action elsewhere is not noticed. -/
theorem Local.unnoticed {f : σ → ρ × σ} {g : σ → ρ' × σ} (hf : Local view area f) (hg : Local view area' g)
    (apart : Disjoint area area') (s : σ) :
    (g (f s).2).1 = (g s).1 ∧ AgreeOn view area' (g (f s).2).2 (g s).2 := by
  apply hg.depends
  intro p here
  exact hf.frame s p fun there => Set.disjoint_left.1 apart there here

theorem Local.commute {f : σ → ρ × σ} {g : σ → ρ' × σ} (hf : Local view area f) (hg : Local view area' g)
    (apart : Disjoint area area') (s : σ) :
    (g (f s).2).1 = (g s).1 ∧ (f (g s).2).1 = (f s).1 ∧ ∀ p, view (g (f s).2).2 p = view (f (g s).2).2 p := by
  obtain ⟨answer, same⟩ := hf.unnoticed hg apart s
  obtain ⟨answer', same'⟩ := hg.unnoticed hf apart.symm s
  refine ⟨answer, answer', fun p => ?_⟩
  by_cases here : p ∈ area
  · have there : p ∉ area' := Set.disjoint_left.1 apart here
    rw [hg.frame _ p there, same' p here]
  · rw [hf.frame _ p here]
    by_cases there : p ∈ area'
    · exact same p there
    · rw [hg.frame _ p there, hf.frame _ p here, hg.frame _ p there]

/-! One action after the other. -/

def andThen (f : σ → ρ × σ) (next : ρ → σ → ρ' × σ) : σ → ρ' × σ := fun s => next (f s).1 (f s).2

theorem Local.pure (answer : ρ) : Local view area fun s => (answer, s) := ⟨fun _ _ _ => rfl, fun _ _ agree => ⟨rfl, agree⟩⟩

theorem Local.andThen {f : σ → ρ × σ} {next : ρ → σ → ρ' × σ} (hf : Local view area f)
    (hnext : ∀ a, Local view area (next a)) : Local view area (andThen f next) := by
  constructor
  · intro s p out
    exact ((hnext _).frame _ p out).trans (hf.frame s p out)
  · intro s s' agree
    obtain ⟨answer, agree'⟩ := hf.depends s s' agree
    unfold Lib.andThen
    rw [answer]
    exact (hnext _).depends _ _ agree'

theorem Local.ite {P : Prop} [Decidable P] {f g : σ → ρ × σ} (hf : P → Local view area f) (hg : ¬ P → Local view area g) :
    Local view area fun s => if P then f s else g s := by
  by_cases h : P
  · simpa only [if_pos h] using hf h
  · simpa only [if_neg h] using hg h

/-- An action that may fail, and what is done in either case. -/
def attempt {ε α : Type} (f : σ → Except ε α × σ) (onError : σ → ρ × σ) (next : α → σ → ρ × σ) (s : σ) : ρ × σ :=
  match f s with
  | (.error _, s) => onError s
  | (.ok a, s) => next a s

theorem Local.attempt {ε α : Type} {f : σ → Except ε α × σ} {onError : σ → ρ × σ} {next : α → σ → ρ × σ}
    (hf : Local view area f) (hError : Local view area onError) (hNext : ∀ a, Local view area (next a)) :
    Local view area (attempt f onError next) := by
  have chain : Lib.attempt f onError next =
      Lib.andThen f fun answer s => answer.casesOn (fun _ => onError s) (fun a => next a s) := by
    funext s
    unfold Lib.attempt Lib.andThen
    rcases f s with ⟨_ | _, _⟩ <;> rfl
  rw [chain]
  refine hf.andThen fun answer => ?_
  cases answer with
  | error e => exact hError
  | ok a => exact hNext a

/-- What is set anew before the action is no longer part of its area. -/
theorem Local.hide {Place' : Type} {shown : Place' → Place} {g : σ → σ} {f : σ → ρ × σ} (hf : Local view area f)
    (kept : ∀ s p, view (g s) (shown p) = view s (shown p))
    (fresh : ∀ s s', ∀ p ∈ area, (∃ q, shown q = p) ∨ view (g s) p = view (g s') p) :
    Local (fun s p => view s (shown p)) (Set.preimage shown area) fun s => f (g s) := by
  constructor
  · intro s p out
    exact (hf.frame _ _ out).trans (kept s p)
  · intro s s' agree
    have agree' : AgreeOn view area (g s) (g s') := by
      intro p here
      rcases fresh s s' p here with ⟨q, rfl⟩ | same
      · rw [kept, kept]
        exact agree q here
      · exact same
    obtain ⟨answer, after⟩ := hf.depends _ _ agree'
    exact ⟨answer, fun p here => after _ here⟩

end Local

/-! ## The entries of the root -/

namespace FileTree

variable {α : Type} {t t' u u' : FileTree} {names : List Name} {n m : Name}

/-- The entries with these names are the same in both trees, and so is all that lies below them. -/
def AgreeBelow (names : List Name) (t t' : FileTree) : Prop := ∀ n ∈ names, ∀ r, t.kind (n :: r) = t'.kind (n :: r)

/-- The same result, and trees that agree where the call succeeds. -/
inductive Tally (names : List Name) : Except Errc (α × FileTree) → Except Errc (α × FileTree) → Prop where
  | ok (a : α) {u u' : FileTree} (agree : AgreeBelow names u u') : Tally names (.ok (a, u)) (.ok (a, u'))
  | error (e : Errc) : Tally names (.error e) (.error e)

/-- A call that is about the entries with these names. -/
structure Within (names : List Name) (f : FileTree → Except Errc (α × FileTree)) : Prop where
  frame : ∀ t a u, f t = .ok (a, u) → ∀ n, n ∉ names → ∀ r, u.kind (n :: r) = t.kind (n :: r)
  depends : ∀ t t', AgreeBelow names t t' → Tally names (f t) (f t')

theorem AgreeBelow.content (agree : AgreeBelow names t t') (mem : n ∈ names) : t.content [n] = t'.content [n] := by
  rw [FileTree.content, FileTree.content, agree n mem]

theorem AgreeBelow.place {v : Node} (agree : AgreeBelow names t t') (ok : t.Placeable [n] v) (ok' : t'.Placeable [n] v) :
    AgreeBelow names (t.place [n] v ok) (t'.place [n] v ok') := by
  intro k mem r
  rw [kind_place, kind_place, agree k mem]

theorem placeable_single {v : Node} : t.Placeable [n] v ↔ v = .dir ∨ t.kind [n] ≠ some .dir := by
  simp [Placeable]

theorem AgreeBelow.childless (agree : AgreeBelow names t t') (mem : n ∈ names) : t.childless [n] = t'.childless [n] := by
  rw [Bool.eq_iff_iff, childless_single, childless_single]
  exact forall_congr' fun k => by rw [agree n mem]

theorem setFile_within (mem : n ∈ names) (b : Bytes) : Within names (setFile [n] b) := by
  constructor
  · intro t a u done k out r
    apply setFile_kind done
    intro same
    rw [List.cons.injEq] at same
    exact out (same.1 ▸ mem)
  · intro t t' agree
    have top : t.kind [n] = t'.kind [n] := agree n mem []
    unfold setFile
    by_cases ok : t.Placeable [n] (.file b)
    · have ok' : t'.Placeable [n] (.file b) := by
        rw [placeable_single, ← top]
        exact placeable_single.1 ok
      rw [dif_pos ok, dif_pos ok']
      exact .ok () (agree.place ok ok')
    · have ok' : ¬ t'.Placeable [n] (.file b) := by
        rw [placeable_single, ← top]
        exact fun ok' => ok (placeable_single.2 ok')
      rw [dif_neg ok, dif_neg ok', top, List.dropLast_singleton, blocked_nil, blocked_nil]
      exact .error _

theorem openAppend_within (mem : n ∈ names) : Within names (openAppend [n]) := by
  have create := setFile_within mem []
  constructor
  · intro t a u done k out r
    unfold openAppend at done
    split at done
    · cases done
      rfl
    · exact create.frame t a u done k out r
  · intro t t' agree
    unfold openAppend
    rw [← agree n mem []]
    split
    · exact .ok () agree
    · exact create.depends t t' agree

theorem remove_within (mem : n ∈ names) : Within names (remove [n]) := by
  constructor
  · intro t a u done k out r
    apply remove_kind done
    intro same
    rw [List.cons.injEq] at same
    exact out (same.1 ▸ mem)
  · intro t t' agree
    unfold remove
    rw [← agree n mem [], List.dropLast_singleton, blocked_nil, blocked_nil]
    split
    · rw [if_neg (by simp), if_neg (by simp)]
      exact .ok _ agree
    · by_cases ok : [n] ≠ [] ∧ t.childless [n] = true
      · have ok' : [n] ≠ [] ∧ t'.childless [n] = true := by rwa [← agree.childless mem]
        rw [dif_pos ok, dif_pos ok']
        refine .ok _ fun k inside r => ?_
        rw [kind_drop, kind_drop, agree k inside]
      · have ok' : ¬ ([n] ≠ [] ∧ t'.childless [n] = true) := by rwa [← agree.childless mem]
        rw [dif_neg ok, dif_neg ok']
        exact .error _

theorem movable_single : t.Movable [n] [m] ↔ n ≠ m := by
  constructor
  · intro ok same
    exact ok.2.2.1 (same ▸ List.prefix_rfl)
  · intro ne
    refine ⟨by simp, rfl, fun pre => ne ?_, fun pre => ne ?_⟩
    · exact List.singleton_inj.1 (pre.eq_of_length rfl)
    · exact (List.singleton_inj.1 (pre.eq_of_length rfl)).symm

theorem rename_within (mem : n ∈ names) (mem' : m ∈ names) : Within names (rename [n] [m]) := by
  by_cases same : n = m
  · subst same
    constructor
    · intro t a u done k out r
      unfold rename at done
      split at done
      · cases done
      · rw [if_pos rfl] at done
        cases done
        rfl
    · intro t t' agree
      unfold rename
      rw [← agree n mem []]
      split
      · rw [List.dropLast_singleton, blocked_nil, blocked_nil]
        exact .error _
      · rw [if_pos rfl, if_pos rfl]
        exact .ok () agree
  · have ok : ∀ t : FileTree, t.Movable [n] [m] := fun t => movable_single.2 same
    have ne : ([n] : FilePath) ≠ [m] := by simpa using same
    constructor
    · intro t a u done k out r
      obtain ⟨source, ok, found, rfl, -, -⟩ := rename_ok ne done
      have outside : ∀ x : Name, x ∈ names → ¬ [x] <+: k :: r := by
        intro x inside pre
        obtain ⟨rest, same⟩ := pre
        rw [List.singleton_append, List.cons.injEq] at same
        exact out (same.1 ▸ inside)
      rw [kind_move, if_neg (outside m mem'), if_neg (outside n mem)]
    · intro t t' agree
      unfold rename
      rw [← agree n mem [], ← agree m mem' [], ← agree.content mem', ← agree.childless mem']
      split
      · rw [List.dropLast_singleton, blocked_nil, blocked_nil]
        exact .error _
      · rw [if_neg ne, if_neg ne, dif_pos (ok t), dif_pos (ok t')]
        split
        · exact .error _
        · split
          · exact .error _
          · split
            · exact .error _
            · refine .ok () fun k inside r => ?_
              rw [kind_move, kind_move]
              split
              · simpa using agree n mem _
              · split
                · rfl
                · exact agree k inside r

theorem AgreeBelow.readFile (agree : AgreeBelow names t t') (mem : n ∈ names) : readFile [n] t = readFile [n] t' := by
  unfold FileTree.readFile
  rw [agree n mem [], List.dropLast_singleton, blocked_nil, blocked_nil]

end FileTree

namespace Disk

variable {α : Type} {names : List Name} {n m : Name}

/-- Of a disk one sees the entries of its root, each with all that lies below it, and what
will become of the calls to come. -/
def Seen : Option Name → Type
  | none => List Outcome
  | some _ => FilePath → Option Node

def view (d : Disk) : ∀ p, Seen p
  | none => d.outcomes
  | some n => fun r => d.tree.kind (n :: r)

/-- The entries with these names. -/
def entries (names : List Name) : Set (Option Name) := fun p => ∀ n, p = some n → n ∈ names

theorem agreeOn_entries {d d' : Disk} :
    AgreeOn view (entries names) d d' ↔ d.outcomes = d'.outcomes ∧ FileTree.AgreeBelow names d.tree d'.tree := by
  constructor
  · intro agree
    refine ⟨agree none (fun n same => nomatch same), fun n mem r => ?_⟩
    exact congrFun (agree (some n) fun k same => Option.some.inj same ▸ mem) r
  · rintro ⟨outcomes, agree⟩ p here
    cases p with
    | none => exact outcomes
    | some n => exact funext fun r => agree n (here n rfl) r

/-- An operation that leaves the entries with other names alone. -/
theorem frame_entries {d d' : Disk} (same : ∀ n, n ∉ names → ∀ r, d'.tree.kind (n :: r) = d.tree.kind (n :: r)) :
    ∀ p, p ∉ entries names → d'.view p = d.view p := by
  intro p out
  cases p with
  | none => exact absurd (fun n same => nomatch same) out
  | some n =>
      refine funext fun r => same n (fun mem => out ?_) r
      intro k same
      exact Option.some.inj same ▸ mem

theorem call_local {f : FileTree → Except Errc (α × FileTree)} (within : FileTree.Within names f) :
    Local view (entries names) (call f) := by
  constructor
  · intro d
    apply frame_entries
    intro n out r
    rcases done : d.call f with ⟨answer, d'⟩
    cases answer with
    | error e => rw [(call_error done).1]
    | ok a => exact within.frame _ a _ (call_ok done).1 n out r
  · intro d d' agree
    obtain ⟨outcomes, below⟩ := agreeOn_entries.1 agree
    have next : d.drawn.outcomes = d'.drawn.outcomes := by rw [drawn, drawn, outcomes]
    unfold call
    rw [show d.outcome = d'.outcome by rw [outcome, outcome, outcomes]]
    split
    · exact ⟨rfl, agreeOn_entries.2 ⟨next, below⟩⟩
    · have tally := within.depends _ _ below
      generalize f d.tree = result at tally ⊢
      generalize f d'.tree = result' at tally ⊢
      cases tally with
      | ok a agree' => exact ⟨rfl, agreeOn_entries.2 ⟨next, agree'⟩⟩
      | error e => exact ⟨rfl, agreeOn_entries.2 ⟨next, below⟩⟩

theorem query_local {f : FileTree → Except Errc α}
    (same : ∀ t t', FileTree.AgreeBelow names t t' → f t = f t') : Local view (entries names) (query f) := by
  constructor
  · intro d
    apply frame_entries
    intro n _ r
    rcases looked : d.query f with ⟨answer, d'⟩
    rw [(query_tree looked).1]
  · intro d d' agree
    obtain ⟨outcomes, below⟩ := agreeOn_entries.1 agree
    have next : d.drawn.outcomes = d'.drawn.outcomes := by rw [drawn, drawn, outcomes]
    unfold query
    rw [show d.outcome = d'.outcome by rw [outcome, outcome, outcomes], same _ _ below]
    split
    · exact ⟨rfl, agreeOn_entries.2 ⟨next, below⟩⟩
    · exact ⟨rfl, agreeOn_entries.2 ⟨next, below⟩⟩

theorem space_local : Local view (entries names) space := by
  constructor
  · intro d
    apply frame_entries
    intro n _ r
    rcases looked : d.space with ⟨answer, d'⟩
    rw [(space_tree looked).1]
  · intro d d' agree
    obtain ⟨outcomes, below⟩ := agreeOn_entries.1 agree
    have next : d.drawn.outcomes = d'.drawn.outcomes := by rw [drawn, drawn, outcomes]
    unfold space
    rw [show d.outcome = d'.outcome by rw [outcome, outcome, outcomes]]
    split
    · exact ⟨rfl, agreeOn_entries.2 ⟨next, below⟩⟩
    · exact ⟨rfl, agreeOn_entries.2 ⟨next, below⟩⟩

theorem settle_local : Local view (entries names) settle :=
  query_local (f := fun _ => .ok ()) fun _ _ _ => rfl

theorem write_local (mem : n ∈ names) (data : Bytes) : Local view (entries names) (write [n] data) := by
  constructor
  · intro d
    apply frame_entries
    intro k out r
    apply write_kind rfl
    intro same
    rw [List.cons.injEq] at same
    exact out (same.1 ▸ mem)
  · intro d d' agree
    obtain ⟨outcomes, below⟩ := agreeOn_entries.1 agree
    have drawn_eq : d.outcome = d'.outcome := by rw [outcome, outcome, outcomes]
    have next : d.drawn.outcomes = d'.drawn.outcomes := by rw [drawn, drawn, outcomes]
    unfold write
    dsimp only
    rw [drawn_eq, below.content mem]
    refine ⟨rfl, agreeOn_entries.2 ⟨next, ?_⟩⟩
    dsimp only
    generalize (d'.tree.content [n]).getD [] ++ _ = bytes
    have tally := (FileTree.setFile_within mem bytes).depends _ _ below
    unfold overwritten
    generalize FileTree.setFile [n] bytes d.tree = result at tally ⊢
    generalize FileTree.setFile [n] bytes d'.tree = result' at tally ⊢
    cases tally with
    | ok a agree' => exact agree'
    | error e => exact below

end Disk

end Dfs.Lib
