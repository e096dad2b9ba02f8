import Mathlib.Data.List.Basic

/-!
# Cutting a stream into items

A reader takes an item off the front of a stream, waits for more of the stream, or refuses it for good. What it has
decided stays as it is when more comes, so the items can be cut off while the stream arrives.
-/

namespace Dfs.Lib

/-- What a reader makes of what has come. -/
inductive Cut (σ α ε : Type) where
  | starved
  | refused (e : ε)
  | item (a : α) (rest : List σ)

structure Cutter (σ α ε : Type) where
  cut : List σ → Cut σ α ε
  shorter : ∀ {s a rest}, cut s = .item a rest → rest.length < s.length
  item_append : ∀ {s a rest} t, cut s = .item a rest → cut (s ++ t) = .item a (rest ++ t)
  refused_append : ∀ {s e} t, cut s = .refused e → cut (s ++ t) = .refused e

namespace Cutter

variable {σ α β ε : Type} {c : Cutter σ α ε} {s : List σ}

/-- The items at the front of the stream, the reason where it is refused after them, and what is left. -/
def split (c : Cutter σ α ε) (s : List σ) : List α × Option ε × List σ :=
  match _found : c.cut s with
  | .starved => ([], none, s)
  | .refused e => ([], some e, s)
  | .item a rest =>
      let later := c.split rest
      (a :: later.1, later.2)
termination_by s.length
decreasing_by exact c.shorter _found

theorem split_starved (found : c.cut s = .starved) : c.split s = ([], none, s) := by
  rw [split]
  split <;> rename_i other <;> rw [found] at other <;> cases other

theorem split_refused {e : ε} (found : c.cut s = .refused e) : c.split s = ([], some e, s) := by
  rw [split]
  split <;> rename_i other <;> rw [found] at other <;> cases other
  rfl

theorem split_item {a : α} {rest : List σ} (found : c.cut s = .item a rest) :
    c.split s = (a :: (c.split rest).1, (c.split rest).2) := by
  rw [split]
  split <;> rename_i other <;> rw [found] at other <;> cases other
  rfl

/-- A property of a stream and its items is shown from the end of the stream. -/
theorem split_induction {P : List σ → List α × Option ε × List σ → Prop}
    (starved : ∀ s, c.cut s = .starved → P s ([], none, s))
    (refused : ∀ s e, c.cut s = .refused e → P s ([], some e, s))
    (item : ∀ s a rest, c.cut s = .item a rest → P rest (c.split rest) → P s (a :: (c.split rest).1, (c.split rest).2))
    (s : List σ) : P s (c.split s) := by
  cases found : c.cut s with
  | starved =>
      rw [split_starved found]
      exact starved s found
  | refused e =>
      rw [split_refused found]
      exact refused s e found
  | item a rest =>
      rw [split_item found]
      exact item s a rest found (split_induction starved refused item rest)
termination_by s.length
decreasing_by exact c.shorter found

/-- Where each encoding is cut off as one item, so is each of a sequence of them. -/
theorem split_encoded {encode : β → List σ} {read : β → α} (items : List β)
    (cuts : ∀ b ∈ items, ∀ t, c.cut (encode b ++ t) = .item (read b) t) (t : List σ) :
    c.split (items.flatMap encode ++ t) = (items.map read ++ (c.split t).1, (c.split t).2) := by
  induction items with
  | nil => rfl
  | cons b items ih =>
      rw [List.flatMap_cons, List.append_assoc, split_item (cuts b List.mem_cons_self _),
        ih fun b mem => cuts b (List.mem_cons_of_mem _ mem)]
      rfl

/-- Items are not taken back when more of the stream comes. -/
theorem split_prefix (c : Cutter σ α ε) (s t : List σ) : (c.split s).1 <+: (c.split (s ++ t)).1 := by
  induction s using split_induction (c := c) with
  | starved s found => exact List.nil_prefix
  | refused s e found => exact List.nil_prefix
  | item s a rest found ih =>
      rw [split_item (c.item_append t found)]
      exact List.cons_prefix_cons.2 ⟨rfl, ih⟩

/-- What is left has no item at its front. -/
theorem split_left (c : Cutter σ α ε) (s : List σ) :
    c.cut (c.split s).2.2 = ((c.split s).2.1.elim .starved .refused) := by
  induction s using split_induction (c := c) with
  | starved s found => exact found
  | refused s e found => exact found
  | item s a rest found ih => exact ih

/-- Where an item stands for the part of the stream it was cut off from, the stream can be put together again. -/
theorem split_join {encode : α → List σ} (cuts : ∀ s a rest, c.cut s = .item a rest → s = encode a ++ rest)
    (s : List σ) : s = (c.split s).1.flatMap encode ++ (c.split s).2.2 := by
  induction s using split_induction (c := c) with
  | starved s found => rfl
  | refused s e found => rfl
  | item s a rest found ih =>
      rw [cuts s a rest found, List.flatMap_cons, List.append_assoc, ← ih]

/-- What holds of an item that is cut off holds of all items. -/
theorem split_all {P : α → Prop} (cuts : ∀ s a rest, c.cut s = .item a rest → P a) (s : List σ) :
    ∀ a ∈ (c.split s).1, P a := by
  induction s using split_induction (c := c) with
  | starved s found => simp
  | refused s e found => simp
  | item s a rest found ih =>
      intro b mem
      rcases List.mem_cons.1 mem with rfl | mem
      · exact cuts s b rest found
      · exact ih b mem

end Cutter

end Dfs.Lib
