import Mathlib.Data.List.Basic

/-!
# Runs of a step function that may fail

A failing step ends the run. A property of runs may refer to the state and to the events
still to come, so that an assumption about all events of a run (such as that they never
repeat a value) can be carried along it.
-/

namespace Dfs.Lib

variable {σ ε χ : Type} (step : σ → ε → Except χ σ)

def run (s : σ) : List ε → Except χ σ
  | [] => .ok s
  | e :: events =>
      match step s e with
      | .error x => .error x
      | .ok s => run s events

/-- Each event of the run satisfies `p` in the state it happens in. -/
def Along (p : σ → ε → Prop) (s : σ) : List ε → Prop
  | [] => True
  | e :: events => p s e ∧ ∀ s', step s e = .ok s' → Along p s' events

variable {step} {p : σ → ε → Prop} {s s' : σ} {e : ε} {events : List ε}

instance Along.decidable (p : σ → ε → Prop) [∀ s e, Decidable (p s e)] :
    ∀ (s : σ) (events : List ε), Decidable (Along step p s events)
  | _, [] => .isTrue trivial
  | s, e :: events =>
      match h : step s e with
      | .error x => decidable_of_iff (p s e) ⟨fun now => ⟨now, fun s' stepped => by rw [h] at stepped; cases stepped⟩, And.left⟩
      | .ok s' =>
          have : Decidable (Along step p s' events) := Along.decidable p s' events
          decidable_of_iff (p s e ∧ Along step p s' events)
            ⟨fun both => ⟨both.1, fun s₁ stepped => by cases h.symm.trans stepped; exact both.2⟩,
              fun along => ⟨along.1, along.2 s' h⟩⟩

theorem Along.mono {q : σ → ε → Prop} (imp : ∀ s e, p s e → q s e) (along : Along step p s events) :
    Along step q s events := by
  induction events generalizing s with
  | nil => trivial
  | cons e events ih => exact ⟨imp s e along.1, fun s' stepped => ih (along.2 s' stepped)⟩

theorem exists_ok {α : Type} {r : Except χ α} {f : α → Bool} (h : r.toOption.any f = true) :
    ∃ a, r = .ok a ∧ f a = true := by
  cases r with
  | ok a => exact ⟨a, rfl, h⟩
  | error x => cases h

theorem run_cons (h : run step s (e :: events) = .ok s') :
    ∃ s₁, step s e = .ok s₁ ∧ run step s₁ events = .ok s' := by
  rw [run] at h
  split at h
  · cases h
  · exact ⟨_, ‹_›, h⟩

theorem run_concat {s₁ : σ} (h : run step s events = .ok s₁) (stepped : step s₁ e = .ok s') :
    run step s (events ++ [e]) = .ok s' := by
  induction events generalizing s with
  | nil =>
      cases h
      rw [List.nil_append, run, stepped]
      rfl
  | cons e' events ih =>
      obtain ⟨s₂, stepped', rest⟩ := run_cons h
      rw [List.cons_append, run, stepped']
      exact ih rest

/-- What every step keeps, it being allowed to assume `p` of its event, holds after every run
along which `p` holds. -/
theorem run_invariant {P : σ → List ε → Prop}
    (keeps : ∀ s s' e events, P s (e :: events) → p s e → step s e = .ok s' → P s' events)
    (start : P s events) (along : Along step p s events) (h : run step s events = .ok s') : P s' [] := by
  induction events generalizing s with
  | nil =>
      cases h
      exact start
  | cons e events ih =>
      obtain ⟨s₁, stepped, rest⟩ := run_cons h
      exact ih (keeps _ _ _ _ start along.1 stepped) (along.2 _ stepped) rest

theorem along_true (s : σ) (events : List ε) : Along step (fun _ _ => True) s events := by
  induction events generalizing s with
  | nil => trivial
  | cons e events ih => exact ⟨trivial, fun s' _ => ih s'⟩

/-- What every step keeps of a state, its event being one of the run, holds after the run. -/
theorem run_keeps {P : σ → Prop} (keeps : ∀ s s' e, e ∈ events → P s → step s e = .ok s' → P s') (start : P s)
    (h : run step s events = .ok s') : P s' := by
  induction events generalizing s with
  | nil =>
      cases h
      exact start
  | cons e events ih =>
      obtain ⟨s₁, stepped, rest⟩ := run_cons h
      exact ih (fun s s' e' mem => keeps s s' e' (List.mem_cons_of_mem _ mem))
        (keeps s s₁ e List.mem_cons_self start stepped) rest

/-- A property of steps that follows from an invariant holds at every step of a run. -/
theorem Along.of_invariant {q : σ → ε → Prop} {P : σ → Prop}
    (keeps : ∀ s s' e, P s → p s e → step s e = .ok s' → P s') (gives : ∀ s e, P s → p s e → q s e) (start : P s)
    (along : Along step p s events) : Along step q s events := by
  induction events generalizing s with
  | nil => trivial
  | cons e events ih =>
      exact ⟨gives s e start along.1, fun s' stepped => ih (keeps s s' e start along.1 stepped) (along.2 s' stepped)⟩

theorem Along.of_step (h : step s e = .ok s') (now : p s e) (rest : Along step p s' events) :
    Along step p s (e :: events) :=
  ⟨now, fun s₁ stepped => by
    cases h.symm.trans stepped
    exact rest⟩

/-- Along a run with `r`: where a step keeps `Q` exactly if `p` holds of it, `p` holds along the run exactly if `Q` holds
in every state on the way. -/
theorem Along.iff {r : σ → ε → Prop} {P Q : σ → Prop} (keeps : ∀ s s' e, P s → r s e → step s e = .ok s' → P s')
    (exact : ∀ s s' e, P s → r s e → Q s → step s e = .ok s' → (Q s' ↔ p s e)) (start : P s) (holds : Q s)
    (along : Along step r s events) (h : run step s events = .ok s') :
    Along step p s events ↔ ∀ before after s₁, events = before ++ after → run step s before = .ok s₁ → Q s₁ := by
  induction events generalizing s with
  | nil =>
      refine ⟨fun _ before after s₁ split ran => ?_, fun _ => trivial⟩
      rw [(List.append_eq_nil_iff.1 split.symm).1] at ran
      cases ran
      exact holds
  | cons e events ih =>
      obtain ⟨s₁, stepped, rest⟩ := run_cons h
      have next := exact s s₁ e start along.1 holds stepped
      have start' := keeps _ _ _ start along.1 stepped
      have along' := along.2 s₁ stepped
      constructor
      · intro good before after s₂ split ran
        cases before with
        | nil =>
            cases ran
            exact holds
        | cons e' before =>
            obtain ⟨rfl, split'⟩ := List.cons.inj split
            obtain ⟨s₁', stepped', ran⟩ := run_cons ran
            cases stepped.symm.trans stepped'
            exact (ih start' (next.2 good.1) along' rest).1 (good.2 _ stepped) before after s₂ split' ran
      · intro all
        have holds' : Q s₁ := all [e] events s₁ rfl (by rw [run, stepped]; rfl)
        refine Along.of_step stepped (next.1 holds') ((ih start' holds' along' rest).2 ?_)
        intro before after s₂ split ran
        refine all (e :: before) after s₂ (congrArg (e :: ·) split) ?_
        rw [run, stepped]
        exact ran

theorem along_iff {P Q : σ → Prop} (keeps : ∀ s s' e, P s → step s e = .ok s' → P s')
    (exact : ∀ s s' e, P s → Q s → step s e = .ok s' → (Q s' ↔ p s e)) (start : P s) (holds : Q s)
    (h : run step s events = .ok s') :
    Along step p s events ↔ ∀ before after s₁, events = before ++ after → run step s before = .ok s₁ → Q s₁ :=
  Along.iff (fun s s' e here _ => keeps s s' e here) (fun s s' e here _ => exact s s' e here) start holds
    (along_true s events) h

theorem Along.last (along : Along step p s (events ++ [e])) (h : run step s events = .ok s') : p s' e := by
  induction events generalizing s with
  | nil =>
      cases h
      exact along.1
  | cons e' events ih =>
      obtain ⟨s₁, stepped, rest⟩ := run_cons h
      exact ih (along.2 s₁ stepped) rest

end Dfs.Lib
