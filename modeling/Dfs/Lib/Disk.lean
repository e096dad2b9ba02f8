import Dfs.Lib.FileTree
import Mathlib.Algebra.Group.Nat.Defs
import Mathlib.Data.List.Infix

/-!
# A disk whose calls may fail

A `Disk` is a directory tree together with what the operating system will make of the calls
to come. Every call draws one `Outcome`; a call whose outcome is an error changes nothing,
except a write, which may leave a prefix of its bytes. When the outcomes run out the calls
succeed. `trail` records every tree the disk has passed through, so the states in which a
crash could leave the disk are part of the model: a crash between two calls or inside a
write finds one of them.
-/

namespace Dfs.Lib

/-- What the operating system makes of one call. -/
structure Outcome where
  error : Option Errc := none
  /-- How many bytes reach the file when a write fails. -/
  written : Nat := 0
  /-- The free space that `space` reports. -/
  available : UInt64 := 0xffffffffffffffff
  deriving DecidableEq

structure Disk where
  tree : FileTree
  outcomes : List Outcome
  trail : List FileTree
  /-- What the directories outside the tree contain. -/
  outside : FilePath → Option (List (Name × Bool))

namespace Disk

variable {α : Type} {d d' d'' : Disk} {p q old new : FilePath} {e : Errc}

def outcome (d : Disk) : Outcome := d.outcomes.headD {}

/-- The disk with its next outcome drawn. -/
def drawn (d : Disk) : Disk := { d with outcomes := d.outcomes.tail }

/-- The disk with the outcomes of the calls to come replaced. -/
def withOutcomes (d : Disk) (outcomes : List Outcome) : Disk := { d with outcomes := outcomes }

def reach (d : Disk) (t : FileTree) : Disk := { d with tree := t, trail := d.trail ++ [t] }

/-- A call that changes the tree in one step. -/
def call (f : FileTree → Except Errc (α × FileTree)) (d : Disk) : Except Errc α × Disk :=
  match d.outcome.error with
  | some e => (.error e, d.drawn)
  | none =>
      match f d.tree with
      | .error e => (.error e, d.drawn)
      | .ok (a, t) => (.ok a, d.drawn.reach t)

/-- A call that only looks. -/
def query (f : FileTree → Except Errc α) (d : Disk) : Except Errc α × Disk :=
  match d.outcome.error with
  | some e => (.error e, d.drawn)
  | none => (f d.tree, d.drawn)

def pathExists (p : FilePath) (d : Disk) : Except Errc Bool × Disk :=
  d.query fun t => .ok (t.kind p).isSome

def isDirectory (p : FilePath) (d : Disk) : Except Errc Bool × Disk :=
  d.query fun t => .ok (t.kind p = some .dir)

def isRegularFile (p : FilePath) (d : Disk) : Except Errc Bool × Disk :=
  d.query fun t => .ok (t.content p).isSome

def readFile (p : FilePath) (d : Disk) : Except Errc Bytes × Disk := d.query (FileTree.readFile p)

def createDirectory (p : FilePath) (d : Disk) : Except Errc Bool × Disk :=
  d.call (FileTree.createDirectory p)

/-- `create_directory` for each path in turn, stopping at the first error. -/
def createEach : List FilePath → Disk → Except Errc Unit × Disk
  | [], d => (.ok (), d)
  | p :: ps, d =>
      match d.createDirectory p with
      | (.error e, d) => (.error e, d)
      | (.ok _, d) => createEach ps d

/-- `create_directories`: a look at `p`, then every directory on the way that is missing. -/
def createDirectories (p : FilePath) (d : Disk) : Except Errc Unit × Disk :=
  match d.query fun t => .ok (t.kind p) with
  | (.error e, d) => (.error e, d)
  | (.ok (some .dir), d) => (.ok (), d)
  | (.ok (some (.file _)), d) => (.error .notADirectory, d)
  | (.ok none, d) =>
      match p.inits.find? fun q => (d.tree.content q).isSome with
      | some _ => (.error .notADirectory, d)
      | none => createEach (p.inits.filter fun q => d.tree.kind q = none) d

def openTruncate (p : FilePath) (d : Disk) : Except Errc Unit × Disk :=
  d.call (FileTree.setFile p [])

def openAppend (p : FilePath) (d : Disk) : Except Errc Unit × Disk :=
  d.call (FileTree.openAppend p)

/-- `p` with other bytes, where that is possible. -/
def overwritten (t : FileTree) (p : FilePath) (content : Bytes) : FileTree :=
  match FileTree.setFile p content t with
  | .ok (_, t') => t'
  | .error _ => t

/-- Append `data` to the open file `p`, byte by byte. -/
def write (p : FilePath) (data : Bytes) (d : Disk) : Except Errc Unit × Disk :=
  let before := (d.tree.content p).getD []
  let count := if d.outcome.error.isSome then min d.outcome.written data.length else data.length
  let after := fun k => overwritten d.tree p (before ++ data.take k)
  (match d.outcome.error with | some e => .error e | none => .ok (),
   { d.drawn with tree := after count, trail := d.trail ++ (List.range (count + 1)).map after })

/-- A call that changes nothing and answers nothing, such as `flush`, `close` or a seek. -/
def settle (d : Disk) : Except Errc Unit × Disk := d.query fun _ => .ok ()

def rename (old new : FilePath) (d : Disk) : Except Errc Unit × Disk :=
  d.call (FileTree.rename old new)

def remove (p : FilePath) (d : Disk) : Except Errc Bool × Disk := d.call (FileTree.remove p)

/-- `space`: the bytes that are free. -/
def space (d : Disk) : Except Errc UInt64 × Disk :=
  match d.outcome.error with
  | some e => (.error e, d.drawn)
  | none => (.ok d.outcome.available, d.drawn)

/-- The directory that `components` lead to from the root, where there is one. -/
def directoryAt (components : List Name) (d : Disk) : Option (List (Name × Bool)) :=
  match d.tree.walk [] components with
  | some (.inl p) => if d.tree.kind p = some .dir then some (d.tree.listing p) else none
  | some (.inr rest) => d.outside rest
  | none => none

theorem directoryAt_plain (d : Disk) {cs : List Name} (plain : ∀ c ∈ cs, PosixPath.PlainName c) :
    d.directoryAt cs = if d.tree.kind cs = some .dir then some (d.tree.listing cs) else none := by
  rw [directoryAt]
  rcases d.tree.walk_plain plain [] with found | ⟨stopped, missing⟩
  · rw [found]
    rfl
  · rw [stopped, if_neg (by simpa using missing)]

/-! ## What one call can do -/

theorem call_error {f : FileTree → Except Errc (α × FileTree)} (h : d.call f = (.error e, d')) :
    d'.tree = d.tree ∧ d'.trail = d.trail := by
  unfold call at h
  split at h
  · cases h
    exact ⟨rfl, rfl⟩
  · split at h <;> cases h
    exact ⟨rfl, rfl⟩

theorem call_ok {f : FileTree → Except Errc (α × FileTree)} {a : α} (h : d.call f = (.ok a, d')) :
    f d.tree = .ok (a, d'.tree) ∧ d'.trail = d.trail ++ [d'.tree] := by
  unfold call at h
  split at h
  · cases h
  · split at h <;> cases h
    rename_i found
    exact ⟨found, rfl⟩

theorem query_tree {f : FileTree → Except Errc α} {r : Except Errc α} (h : d.query f = (r, d')) :
    d'.tree = d.tree ∧ d'.trail = d.trail := by
  unfold query at h
  split at h <;> cases h <;> exact ⟨rfl, rfl⟩

theorem query_ok {f : FileTree → Except Errc α} {a : α} (h : d.query f = (.ok a, d')) :
    f d.tree = .ok a := by
  unfold query at h
  split at h
  · cases h
  · exact (Prod.mk.inj h).1

theorem space_tree {r : Except Errc UInt64} (h : d.space = (r, d')) :
    d'.tree = d.tree ∧ d'.trail = d.trail := by
  unfold space at h
  split at h <;> cases h <;> exact ⟨rfl, rfl⟩

theorem overwritten_ne (t : FileTree) {p q : FilePath} (content : Bytes) (ne : q ≠ p) :
    (overwritten t p content).content q = t.content q := by
  unfold overwritten
  split
  · rename_i found
    rw [FileTree.setFile_content found, if_neg ne]
  · rfl

theorem overwritten_file {t : FileTree} {p : FilePath} {b : Bytes} (found : t.content p = some b)
    (content : Bytes) : (overwritten t p content).content p = some content := by
  have isFile := FileTree.content_eq_some.1 found
  have ne : p ≠ [] := fun root => by rw [root] at isFile; simp at isFile
  have ok : t.Placeable p (.file content) :=
    ⟨ne, t.parent_dir isFile ne, Or.inr (by rw [isFile]; simp)⟩
  rw [overwritten, FileTree.setFile, dif_pos ok]
  simp [Node.bytes?]

theorem write_tree {data : Bytes} {r : Except Errc Unit} (h : d.write p data = (r, d')) :
    ∃ n, d'.tree = overwritten d.tree p ((d.tree.content p).getD [] ++ data.take n) ∧
      (r = .ok () → n = data.length) ∧
      d'.trail = d.trail ++ (List.range (n + 1)).map fun k =>
        overwritten d.tree p ((d.tree.content p).getD [] ++ data.take k) := by
  obtain ⟨rfl, rfl⟩ := Prod.mk.inj h
  refine ⟨_, rfl, fun ok => ?_, rfl⟩
  cases failed : d.outcome.error with
  | none => simp
  | some e => simp [failed] at ok

theorem settle_tree {r : Except Errc Unit} (h : d.settle = (r, d')) :
    d'.tree = d.tree ∧ d'.trail = d.trail :=
  query_tree h

theorem openTruncate_ok (h : d.openTruncate p = (.ok (), d')) (q : FilePath) :
    d'.tree.content q = if q = p then some [] else d.tree.content q :=
  FileTree.setFile_content (call_ok h).1 q

theorem openAppend_ok (h : d.openAppend p = (.ok (), d')) (q : FilePath) :
    d'.tree.content q = if q = p then some ((d.tree.content p).getD []) else d.tree.content q :=
  FileTree.openAppend_content (call_ok h).1 q

theorem remove_ok {gone : Bool} (h : d.remove p = (.ok gone, d')) (q : FilePath) :
    d'.tree.content q = if q = p then none else d.tree.content q :=
  FileTree.remove_content (call_ok h).1 q

theorem remove_ne {r : Except Errc Bool} (h : d.remove p = (r, d')) (ne : q ≠ p) :
    d'.tree.content q = d.tree.content q := by
  cases r with
  | error e => rw [(call_error h).1]
  | ok gone => rw [remove_ok h, if_neg ne]

theorem write_ne {data : Bytes} {r : Except Errc Unit} (h : d.write p data = (r, d')) (ne : q ≠ p) :
    d'.tree.content q = d.tree.content q := by
  obtain ⟨n, last, -, -⟩ := write_tree h
  rw [last, overwritten_ne _ _ ne]

theorem overwritten_kind (t : FileTree) {p q : FilePath} (content : Bytes) (ne : q ≠ p) :
    (overwritten t p content).kind q = t.kind q := by
  unfold overwritten
  split
  · rename_i found
    exact FileTree.setFile_kind found ne
  · rfl

theorem write_kind {data : Bytes} {r : Except Errc Unit} (h : d.write p data = (r, d')) (ne : q ≠ p) :
    d'.tree.kind q = d.tree.kind q := by
  obtain ⟨n, last, -, -⟩ := write_tree h
  rw [last, overwritten_kind _ _ ne]

theorem write_ok {data b : Bytes} (h : d.write p data = (.ok (), d')) (found : d.tree.content p = some b) :
    d'.tree.content p = some (b ++ data) := by
  obtain ⟨n, last, whole, -⟩ := write_tree h
  rw [last, overwritten_file found, found, Option.getD_some, whole rfl, List.take_length]

/-- Where nothing is about to fail, looking leaves the whole disk alone. -/
theorem query_still (still : d.outcomes = []) (f : FileTree → Except Errc α) : d.query f = (f d.tree, d) := by
  obtain ⟨tree, outcomes, trail, outside⟩ := d
  cases still
  rfl

/-- A look that did not fail is the same where nothing is about to fail. -/
theorem query_withOutcomes {f : FileTree → Except Errc α} {a : α} (h : d.query f = (.ok a, d')) :
    (d.withOutcomes []).query f = (.ok a, d'.withOutcomes []) := by
  have found := query_ok h
  have drawn : d'.withOutcomes [] = d.withOutcomes [] := by
    unfold query at h
    split at h
    · cases h
    · rw [← (Prod.mk.inj h).2]
      rfl
  rw [query_still rfl, drawn]
  exact Prod.ext found rfl

/-! ## Directories on the way to a path -/

theorem createEach_append (ps qs : List FilePath) (d : Disk) :
    createEach (ps ++ qs) d =
      match createEach ps d with
      | (.error e, d) => (.error e, d)
      | (.ok _, d) => createEach qs d := by
  induction ps generalizing d with
  | nil => rfl
  | cons p ps ih =>
      rw [List.cons_append, createEach, createEach]
      split
      · rfl
      · exact ih _

theorem createEach_kind {ps : List FilePath} {r : Except Errc Unit} (h : createEach ps d = (r, d')) (q : FilePath) :
    d'.tree.kind q = d.tree.kind q ∨ q ∈ ps ∧ d.tree.kind q = none ∧ d'.tree.kind q = some .dir := by
  induction ps generalizing d with
  | nil =>
      cases h
      exact Or.inl rfl
  | cons p ps ih =>
      rw [createEach] at h
      split at h
      · rename_i failed
        cases h
        exact Or.inl (by rw [(call_error failed).1])
      · rename_i made
        rcases ih h with same | ⟨mem, missing, dir⟩ <;>
          rcases FileTree.createDirectory_kind (call_ok made).1 q with same₁ | ⟨rfl, missing₁, dir₁⟩
        · exact Or.inl (same.trans same₁)
        · exact Or.inr ⟨List.mem_cons_self, missing₁, same.trans dir₁⟩
        · exact Or.inr ⟨List.mem_cons_of_mem _ mem, same₁ ▸ missing, dir⟩
        · exact Or.inr ⟨List.mem_cons_self, missing₁, dir⟩

/-- `create_directories` makes at most the missing directories on the way. -/
theorem createDirectories_kind {r : Except Errc Unit} (h : d.createDirectories p = (r, d')) (q : FilePath) :
    d'.tree.kind q = d.tree.kind q ∨ q <+: p ∧ d.tree.kind q = none ∧ d'.tree.kind q = some .dir := by
  unfold createDirectories at h
  split at h <;> rename_i looked
  · cases h
    exact Or.inl (by rw [(query_tree looked).1])
  · cases h
    exact Or.inl (by rw [(query_tree looked).1])
  · cases h
    exact Or.inl (by rw [(query_tree looked).1])
  · split at h
    · cases h
      exact Or.inl (by rw [(query_tree looked).1])
    · rcases createEach_kind h q with same | ⟨mem, missing, dir⟩
      · exact Or.inl (by rw [same, (query_tree looked).1])
      · exact Or.inr ⟨(List.mem_inits _ _).1 (List.mem_filter.1 mem).1, by rw [← (query_tree looked).1]; exact missing, dir⟩

/-- Where `create_directories` succeeds no file is in the way, and the path is a directory. -/
theorem createDirectories_ok (h : d.createDirectories p = (.ok (), d')) (q : FilePath) (mem : q ∈ p.inits) :
    d.tree.content q = none := by
  unfold createDirectories at h
  split at h
  · cases h
  · rename_i looked
    have dir : d.tree.kind p = some .dir := Except.ok.inj (query_ok looked)
    obtain ⟨r, rfl⟩ := (List.mem_inits _ _).1 mem
    by_cases top : r = []
    · rw [top, List.append_nil] at dir
      rw [FileTree.content, dir]
      rfl
    · rw [FileTree.content, d.tree.prefix_dir dir top]
      rfl
  · cases h
  · rename_i looked
    split at h
    · cases h
    · rename_i none
      have noFile := List.find?_eq_none.1 none q mem
      rwa [Option.not_isSome_iff_eq_none, (query_tree looked).1] at noFile

/-! ## Runs of calls through trees with a property -/

/-- Every tree passed on the way from `d` to `d'`, the last one included, satisfies `P`. -/
structure Through (P : FileTree → Prop) (d d' : Disk) : Prop where
  last : P d'.tree
  passed : ∃ ts, d'.trail = d.trail ++ ts ∧ ∀ t ∈ ts, P t

variable {P Q : FileTree → Prop}

theorem Through.of_same (same : d'.tree = d.tree ∧ d'.trail = d.trail) (h : P d.tree) :
    Through P d d' :=
  ⟨by rw [same.1]; exact h, [], by rw [same.2, List.append_nil], by simp⟩

theorem Through.trans (h : Through P d d') (h' : Through P d' d'') : Through P d d'' := by
  obtain ⟨ts, e, all⟩ := h.passed
  obtain ⟨ts', e', all'⟩ := h'.passed
  refine ⟨h'.last, ts ++ ts', by rw [e', e, List.append_assoc], fun t mem => ?_⟩
  rcases List.mem_append.1 mem with m | m
  · exact all t m
  · exact all' t m

theorem Through.after_same (same : d'.tree = d.tree ∧ d'.trail = d.trail) (h : Through P d' d'') :
    Through P d d'' :=
  ⟨h.last, by rw [← same.2]; exact h.passed⟩

theorem Through.mono (h : Through P d d') (weaker : ∀ t, P t → Q t) : Through Q d d' := by
  obtain ⟨ts, e, all⟩ := h.passed
  exact ⟨weaker _ h.last, ts, e, fun t mem => weaker t (all t mem)⟩

/-- One call: enough that its own effect satisfies `P`. -/
theorem Through.call {f : FileTree → Except Errc (α × FileTree)} {r : Except Errc α}
    (h : d.call f = (r, d')) (start : P d.tree) (step : ∀ a t, f d.tree = .ok (a, t) → P t) :
    Through P d d' := by
  cases r with
  | error e => exact .of_same (call_error h) start
  | ok a =>
      obtain ⟨done, trail⟩ := call_ok h
      have last := step a _ done
      exact ⟨last, [d'.tree], trail, by simpa using last⟩

theorem Through.query {f : FileTree → Except Errc α} {r : Except Errc α} (h : d.query f = (r, d'))
    (start : P d.tree) : Through P d d' :=
  .of_same (query_tree h) start

theorem Through.write {data : Bytes} {r : Except Errc Unit} (h : d.write p data = (r, d'))
    (step : ∀ content, P (overwritten d.tree p content)) : Through P d d' := by
  obtain ⟨n, last, -, trail⟩ := write_tree h
  refine ⟨by rw [last]; exact step _, _, trail, fun t mem => ?_⟩
  obtain ⟨k, -, rfl⟩ := List.mem_map.1 mem
  exact step _

theorem Through.createEach {ps : List FilePath} {r : Except Errc Unit}
    (h : createEach ps d = (r, d')) (start : P d.tree)
    (step : ∀ p t t' made, P t → FileTree.createDirectory p t = .ok (made, t') → P t') :
    Through P d d' := by
  induction ps generalizing d with
  | nil =>
      cases h
      exact .of_same ⟨rfl, rfl⟩ start
  | cons p ps ih =>
      rw [Disk.createEach] at h
      split at h
      · rename_i failed
        cases h
        exact .call failed start fun made t done => step p _ t made start done
      · rename_i mid made
        have first := Through.call (P := P) made start fun made t done => step p _ t made start done
        exact first.trans (ih h first.last)

theorem Through.createDirectories {r : Except Errc Unit} (h : d.createDirectories p = (r, d'))
    (start : P d.tree)
    (step : ∀ p t t' made, P t → FileTree.createDirectory p t = .ok (made, t') → P t') :
    Through P d d' := by
  unfold Disk.createDirectories at h
  split at h
  · rename_i looked
    cases h
    exact .query looked start
  · rename_i looked
    cases h
    exact .query looked start
  · rename_i looked
    cases h
    exact .query looked start
  · rename_i looked
    have first := Through.query (P := P) looked start
    split at h
    · cases h
      exact first
    · exact first.trans (.createEach h first.last step)

/-! ## Disks on which nothing fails -/

/-- Every call to come succeeds and finds room for `room` bytes. -/
def Healthy (room : Nat) (d : Disk) : Prop :=
  ∀ o ∈ d.outcomes, o.error = none ∧ room ≤ o.available.toNat

theorem Healthy.drawn {room : Nat} (h : d.Healthy room) : d.drawn.Healthy room :=
  fun o mem => h o (List.mem_of_mem_tail mem)

theorem Healthy.outcome {room : Nat} (h : d.Healthy room) (small : room < 2 ^ 64) :
    d.outcome.error = none ∧ room ≤ d.outcome.available.toNat := by
  unfold Disk.outcome
  cases e : d.outcomes with
  | nil => exact ⟨rfl, by simp; omega⟩
  | cons o rest => exact h o (by simp [e])

theorem Healthy.call {room : Nat} (h : d.Healthy room) (small : room < 2 ^ 64)
    {f : FileTree → Except Errc (α × FileTree)} {a : α} {t : FileTree} (done : f d.tree = .ok (a, t)) :
    d.call f = (.ok a, d.drawn.reach t) := by
  rw [Disk.call, (h.outcome small).1]
  simp [done]

theorem Healthy.query {room : Nat} (h : d.Healthy room) (small : room < 2 ^ 64)
    (f : FileTree → Except Errc α) : d.query f = (f d.tree, d.drawn) := by
  rw [Disk.query, (h.outcome small).1]

theorem Healthy.createEach {room : Nat} (h : d.Healthy room) (small : room < 2 ^ 64) (p : FilePath)
    (noFile : ∀ q ∈ p.inits, d.tree.content q = none) :
    ∃ d', Disk.createEach (p.inits.filter fun q => d.tree.kind q = none) d = (.ok (), d') ∧ d'.Healthy room ∧
      d'.tree.kind p = some .dir := by
  induction p using List.reverseRecOn with
  | nil => exact ⟨d, by simp [Disk.createEach], h, rfl⟩
  | append_singleton p name ih =>
      have whole : (p ++ [name]).inits = p.inits ++ [p ++ [name]] := by simp [List.inits_append]
      rw [whole] at noFile ⊢
      obtain ⟨d₁, first, healthy, parent⟩ := ih fun q mem => noFile q (List.mem_append_left _ mem)
      rw [List.filter_append, Disk.createEach_append, first]
      dsimp only
      have stays := Disk.createEach_kind first (p ++ [name])
      by_cases missing : d.tree.kind (p ++ [name]) = none
      · -- the parent is there by now
        have content : d₁.tree.content (p ++ [name]) = none := by
          rw [FileTree.content]
          rcases stays with same | ⟨-, -, dir⟩
          · rw [same, missing]
            rfl
          · rw [dir]
            rfl
        obtain ⟨made, t, done, dir⟩ :=
          FileTree.createDirectory_ok (t := d₁.tree) (p := p ++ [name]) (by rwa [List.dropLast_concat]) content
        refine ⟨d₁.drawn.reach t, ?_, healthy.drawn, dir⟩
        rw [List.filter_cons_of_pos (by simpa using missing), List.filter_nil, Disk.createEach, Disk.createDirectory,
          healthy.call small done]
        rfl
      · refine ⟨d₁, ?_, healthy, ?_⟩
        · rw [List.filter_cons_of_neg (by simpa using missing), List.filter_nil]
          rfl
        · obtain ⟨v, here⟩ := Option.ne_none_iff_exists'.1 missing
          have dir : v = .dir := by
            have content := noFile (p ++ [name]) (by simp)
            rw [FileTree.content, here] at content
            cases v with
            | dir => rfl
            | file b => cases content
          rcases stays with same | ⟨-, gone, -⟩
          · rw [same, here, dir]
          · exact absurd gone missing

theorem Healthy.createDirectories {room : Nat} (h : d.Healthy room) (small : room < 2 ^ 64) {p : FilePath}
    (noFile : ∀ q ∈ p.inits, d.tree.content q = none) :
    ∃ d', d.createDirectories p = (.ok (), d') ∧ d'.Healthy room ∧ d'.tree.kind p = some .dir := by
  have look := h.query small fun t => .ok (t.kind p)
  have here := noFile p (by simp)
  unfold Disk.createDirectories
  rw [look]
  cases kind : d.tree.kind p with
  | none =>
      dsimp only
      have clear : (p.inits.find? fun q => (d.drawn.tree.content q).isSome) = none :=
        List.find?_eq_none.2 fun q mem => by
          rw [show d.drawn.tree = d.tree from rfl, noFile q mem]
          simp
      rw [clear]
      exact h.drawn.createEach small p noFile
  | some v =>
      cases v with
      | dir => exact ⟨d.drawn, rfl, h.drawn, kind⟩
      | file b =>
          rw [FileTree.content, kind] at here
          cases here

theorem Healthy.write {room : Nat} (h : d.Healthy room) (small : room < 2 ^ 64) (data : Bytes) :
    ∃ d', d.write p data = (.ok (), d') ∧ d'.Healthy room := by
  refine ⟨_, Prod.ext ?_ rfl, h.drawn⟩
  simp only [Disk.write, (h.outcome small).1]

theorem Healthy.settle {room : Nat} (h : d.Healthy room) (small : room < 2 ^ 64) : d.settle = (.ok (), d.drawn) :=
  h.query small _

theorem Healthy.space {room : Nat} (h : d.Healthy room) (small : room < 2 ^ 64) :
    d.space = (.ok d.outcome.available, d.drawn) := by
  rw [Disk.space, (h.outcome small).1]

end Disk

end Dfs.Lib
