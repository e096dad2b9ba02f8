import Dfs.Lib.Assoc
import Dfs.Lib.PosixPath

/-!
# Directory trees and the calls that change them

A directory tree is a finite map from paths to directories and files in which the parent of
every entry is a directory; the root is a directory that is not listed. The calls follow
POSIX: each one either fails with an error code and leaves the tree alone, or has its whole
effect at once. Paths are relative to the root of the tree.
-/

namespace Dfs.Lib

inductive Node where
  | dir
  | file (content : Bytes)
  deriving DecidableEq

/-- The bytes of a file. -/
def Node.bytes? : Node → Option Bytes
  | .dir => none
  | .file content => some content

inductive Errc where
  | noSuchFile
  | notADirectory
  | isADirectory
  | fileExists
  | notEmpty
  | invalidArgument
  | ioError
  deriving DecidableEq

/-- What lies at `p`; the root is always a directory. -/
def kindIn (nodes : Assoc FilePath Node) (p : FilePath) : Option Node :=
  if p = [] then some .dir else nodes.lookup p

structure FileTree where
  nodes : Assoc FilePath Node
  rooted : ∀ p v, nodes.lookup p = some v → p ≠ [] ∧ kindIn nodes p.dropLast = some .dir

namespace FileTree

def empty : FileTree := ⟨∅, by simp⟩

def kind (t : FileTree) (p : FilePath) : Option Node := kindIn t.nodes p

@[simp] theorem kind_nil (t : FileTree) : t.kind [] = some .dir := rfl

theorem kind_of_ne_nil (t : FileTree) {p : FilePath} (h : p ≠ []) : t.kind p = t.nodes.lookup p :=
  if_neg h

theorem kind_empty (p : FilePath) : empty.kind p = if p = [] then some .dir else none := by
  simp [kind, kindIn, empty]

theorem parent_dir (t : FileTree) {p : FilePath} {v : Node} (h : t.kind p = some v) (ne : p ≠ []) :
    t.kind p.dropLast = some .dir := by
  rw [kind_of_ne_nil t ne] at h
  exact (t.rooted p v h).2

/-- Every proper prefix of a path in the tree is a directory. -/
theorem prefix_dir (t : FileTree) {p r : FilePath} {v : Node} (h : t.kind (p ++ r) = some v)
    (ne : r ≠ []) : t.kind p = some .dir := by
  induction r using List.reverseRecOn generalizing v with
  | nil => exact absurd rfl ne
  | append_singleton r name ih =>
      have parent : t.kind (p ++ r) = some .dir := by
        have := t.parent_dir h (by simp)
        rwa [← List.append_assoc, List.dropLast_concat] at this
      by_cases last : r = []
      · simpa [last] using parent
      · exact ih parent last

/-- Below a path that is no directory there is nothing. -/
theorem kind_below_none (t : FileTree) {p r : FilePath} (h : t.kind p ≠ some .dir) (ne : r ≠ []) :
    t.kind (p ++ r) = none := by
  cases found : t.kind (p ++ r) with
  | none => rfl
  | some v => exact absurd (t.prefix_dir found ne) h

/-! ## Changing one entry -/

/-- `p` may become `v`: its parent is a directory and no directory is turned into a file. -/
def Placeable (t : FileTree) (p : FilePath) (v : Node) : Prop :=
  p ≠ [] ∧ t.kind p.dropLast = some .dir ∧ (v = .dir ∨ t.kind p ≠ some .dir)

instance (t : FileTree) (p : FilePath) (v : Node) : Decidable (t.Placeable p v) :=
  inferInstanceAs (Decidable (_ ∧ _ ∧ _))

theorem kindIn_insert (nodes : Assoc FilePath Node) {p : FilePath} (v : Node) (ne : p ≠ [])
    (q : FilePath) :
    kindIn (nodes.insert p v) q = if q = p then some v else kindIn nodes q := by
  by_cases root : q = []
  · subst root
    simp [kindIn, Ne.symm ne]
  · simp [kindIn, root, Assoc.lookup_insert_ite]

def place (t : FileTree) (p : FilePath) (v : Node) (ok : t.Placeable p v) : FileTree where
  nodes := t.nodes.insert p v
  rooted := by
    obtain ⟨ne, parent, keeps⟩ := ok
    intro q w found
    have own : p.dropLast ≠ p := fun e => by
      have len := congrArg List.length e
      have pos := List.length_pos_iff.2 ne
      simp only [List.length_dropLast] at len
      omega
    rw [Assoc.lookup_insert_ite] at found
    rw [kindIn_insert _ _ ne]
    split at found
    · rename_i same
      subst same
      exact ⟨ne, by rw [if_neg own]; exact parent⟩
    · obtain ⟨qne, qparent⟩ := t.rooted q w found
      refine ⟨qne, ?_⟩
      split
      · rename_i same
        -- `p` has a child, so it is a directory and stays one
        rcases keeps with isDir | notDir
        · rw [isDir]
        · exact absurd (same ▸ qparent) notDir
      · exact qparent

@[simp] theorem kind_place (t : FileTree) {p : FilePath} {v : Node} (ok : t.Placeable p v)
    (q : FilePath) : (t.place p v ok).kind q = if q = p then some v else t.kind q :=
  kindIn_insert _ _ ok.1 q

/-- No entry has `p` as its parent. -/
def childless (t : FileTree) (p : FilePath) : Bool :=
  t.nodes.entries.all fun e => e.1.dropLast ≠ p

theorem childless_iff (t : FileTree) (p : FilePath) :
    t.childless p = true ↔ ∀ q v, t.nodes.lookup q = some v → q.dropLast ≠ p := by
  simp only [childless, List.all_eq_true, decide_eq_true_eq]
  constructor
  · intro h q v found
    exact h ⟨q, v⟩ ((Assoc.mem_entries_iff _ _ _).2 found)
  · intro h e mem
    exact h e.1 e.2 ((Assoc.mem_entries_iff _ _ _).1 mem)

theorem kindIn_erase (nodes : Assoc FilePath Node) {p : FilePath} (ne : p ≠ []) (q : FilePath) :
    kindIn (nodes.erase p) q = if q = p then none else kindIn nodes q := by
  by_cases root : q = []
  · subst root
    simp [kindIn, Ne.symm ne]
  · simp [kindIn, root, Assoc.lookup_erase_ite]

def drop (t : FileTree) (p : FilePath) (ok : p ≠ [] ∧ t.childless p = true) : FileTree where
  nodes := t.nodes.erase p
  rooted := by
    intro q w found
    rw [Assoc.lookup_erase_ite] at found
    split at found
    · cases found
    · obtain ⟨qne, qparent⟩ := t.rooted q w found
      rw [kindIn_erase _ ok.1, if_neg ((t.childless_iff p).1 ok.2 q w found)]
      exact ⟨qne, qparent⟩

@[simp] theorem kind_drop (t : FileTree) {p : FilePath} (ok : p ≠ [] ∧ t.childless p = true)
    (q : FilePath) : (t.drop p ok).kind q = if q = p then none else t.kind q :=
  kindIn_erase _ ok.1 q

/-! ## Moving a subtree -/

/-- Where a path goes when `old` becomes `new`. -/
def relocate (old new q : FilePath) : FilePath :=
  if old <+: q then new ++ q.drop old.length else q

theorem relocate_under (old new r : FilePath) : relocate old new (old ++ r) = new ++ r := by
  simp [relocate]

theorem relocate_outside {old new q : FilePath} (h : ¬ old <+: q) : relocate old new q = q :=
  if_neg h

/-- `old` may become `new`: neither contains the other and `new` has a directory to go in. -/
def Movable (t : FileTree) (old new : FilePath) : Prop :=
  new ≠ [] ∧ t.kind new.dropLast = some .dir ∧ ¬ old <+: new ∧ ¬ new <+: old

instance (t : FileTree) (old new : FilePath) : Decidable (t.Movable old new) :=
  inferInstanceAs (Decidable (_ ∧ _ ∧ _ ∧ _))

theorem relocate_inj {old new q q' : FilePath} (h : ¬ new <+: q) (h' : ¬ new <+: q')
    (same : relocate old new q = relocate old new q') : q = q' := by
  by_cases under : old <+: q <;> by_cases under' : old <+: q'
  · obtain ⟨r, rfl⟩ := under
    obtain ⟨r', rfl⟩ := under'
    rw [relocate_under, relocate_under] at same
    rw [List.append_cancel_left same]
  · obtain ⟨r, rfl⟩ := under
    rw [relocate_under, relocate_outside under'] at same
    exact absurd ⟨r, same⟩ h'
  · obtain ⟨r', rfl⟩ := under'
    rw [relocate_under, relocate_outside under] at same
    exact absurd ⟨r', same.symm⟩ h
  · rwa [relocate_outside under, relocate_outside under'] at same

/-- The entries after `old` has become `new`; whatever was at `new` is gone. -/
def movedNodes (nodes : Assoc FilePath Node) (old new : FilePath) : Assoc FilePath Node :=
  Assoc.mapKeys (Assoc.filterKeys nodes fun q => ¬ new <+: q) (relocate old new) (by
    intro k k' v v' hk hk' same
    rw [Assoc.lookup_filterKeys] at hk hk'
    split at hk <;> split at hk' <;> try (first | cases hk | cases hk')
    rename_i h h'
    exact relocate_inj (by simpa using h) (by simpa using h') same)

theorem lookup_movedNodes {nodes : Assoc FilePath Node} {old new : FilePath}
    (apart : ¬ old <+: new) (apart' : ¬ new <+: old) (q : FilePath) :
    (movedNodes nodes old new).lookup q =
      if new <+: q then nodes.lookup (old ++ q.drop new.length)
      else if old <+: q then none else nodes.lookup q := by
  have clear : ∀ r, ¬ new <+: old ++ r := by
    intro r pre
    rcases List.prefix_or_prefix_of_prefix pre (List.prefix_append old r) with h | h
    · exact apart' h
    · exact apart h
  refine Option.ext fun v => ?_
  rw [movedNodes, Assoc.lookup_mapKeys]
  simp only [Assoc.lookup_filterKeys, decide_not, Bool.not_eq_true', decide_eq_false_iff_not]
  constructor
  · rintro ⟨k, rfl, found⟩
    split at found
    · rename_i out
      by_cases under : old <+: k
      · obtain ⟨r, rfl⟩ := under
        rw [relocate_under, if_pos (List.prefix_append _ _), List.drop_left]
        exact found
      · rw [relocate_outside under, if_neg out, if_neg under]
        exact found
    · cases found
  · intro found
    split at found
    · rename_i pre
      obtain ⟨r, rfl⟩ := pre
      refine ⟨old ++ r, relocate_under .., ?_⟩
      rw [if_pos (clear r)]
      rwa [List.drop_left] at found
    · rename_i out
      split at found
      · cases found
      · rename_i under
        exact ⟨q, relocate_outside under, by rw [if_pos out]; exact found⟩

theorem kindIn_movedNodes {nodes : Assoc FilePath Node} {old new : FilePath}
    (ne : new ≠ []) (one : old ≠ []) (apart : ¬ old <+: new) (apart' : ¬ new <+: old) (q : FilePath) :
    kindIn (movedNodes nodes old new) q =
      if new <+: q then kindIn nodes (old ++ q.drop new.length)
      else if old <+: q then none else kindIn nodes q := by
  by_cases root : q = []
  · subst root
    simp [kindIn, ne, one]
  · have deeper : ∀ r, old ++ r ≠ [] := fun r h => one (List.append_eq_nil_iff.1 h).1
    simp [kindIn, root, deeper, lookup_movedNodes apart apart']

def move (t : FileTree) (old new : FilePath) (ok : t.Movable old new) : FileTree where
  nodes := movedNodes t.nodes old new
  rooted := by
    obtain ⟨ne, home, apart, apart'⟩ := ok
    have one : old ≠ [] := fun e => apart (e ▸ List.nil_prefix)
    intro q v found
    rw [kindIn_movedNodes ne one apart apart']
    rw [lookup_movedNodes apart apart'] at found
    split at found
    · rename_i pre
      obtain ⟨r, rfl⟩ := pre
      refine ⟨fun h => ne (List.append_eq_nil_iff.1 h).1, ?_⟩
      rw [List.drop_left] at found
      by_cases top : r = []
      · -- the moved entry itself: its new parent was already there
        subst top
        rw [List.append_nil]
        have short : ¬ new <+: new.dropLast := fun h => by
          have len := h.length_le
          have pos := List.length_pos_iff.2 ne
          simp only [List.length_dropLast] at len
          omega
        rw [if_neg short, if_neg fun h => apart (h.trans (List.dropLast_prefix new))]
        exact home
      · rw [List.dropLast_append_of_ne_nil top, if_pos (List.prefix_append _ _), List.drop_left]
        have parent := (t.rooted _ v found).2
        rwa [List.dropLast_append_of_ne_nil top] at parent
    · rename_i out
      split at found
      · cases found
      · rename_i under
        obtain ⟨qne, parent⟩ := t.rooted q v found
        refine ⟨qne, ?_⟩
        rw [if_neg fun h => out (h.trans (List.dropLast_prefix q)),
          if_neg fun h => under (h.trans (List.dropLast_prefix q))]
        exact parent

theorem kind_move (t : FileTree) {old new : FilePath} (ok : t.Movable old new) (q : FilePath) :
    (t.move old new ok).kind q =
      if new <+: q then t.kind (old ++ q.drop new.length)
      else if old <+: q then none else t.kind q :=
  kindIn_movedNodes ok.1 (fun e => ok.2.2.1 (by rw [e]; exact List.nil_prefix)) ok.2.2.1 ok.2.2.2 q

/-! ## The calls -/

/-- Why nothing can be created in `p`: the first missing or wrong directory on the way. -/
def blocked (t : FileTree) (p : FilePath) : Errc :=
  match p.inits.find? fun q => t.kind q ≠ some .dir with
  | some q => if t.kind q = none then .noSuchFile else .notADirectory
  | none => .noSuchFile

/-- `mkdir`; an existing directory is no error and gives `false`. -/
def createDirectory (p : FilePath) (t : FileTree) : Except Errc (Bool × FileTree) :=
  match t.kind p with
  | some .dir => .ok (false, t)
  | some (.file _) => .error .fileExists
  | none =>
      if ok : t.Placeable p .dir then .ok (true, t.place p .dir ok)
      else .error (t.blocked p.dropLast)

/-- Give the file `p` the bytes `content`, creating it when it is missing. -/
def setFile (p : FilePath) (content : Bytes) (t : FileTree) : Except Errc (Unit × FileTree) :=
  if ok : t.Placeable p (.file content) then .ok ((), t.place p (.file content) ok)
  else .error (if t.kind p = some .dir then .isADirectory else t.blocked p.dropLast)

/-- The bytes of the file at `p`. -/
def content (t : FileTree) (p : FilePath) : Option Bytes := (t.kind p).bind Node.bytes?

/-- `open` for appending: a missing file is created empty. -/
def openAppend (p : FilePath) (t : FileTree) : Except Errc (Unit × FileTree) :=
  match t.kind p with
  | some (.file _) => .ok ((), t)
  | _ => setFile p [] t

def readFile (p : FilePath) (t : FileTree) : Except Errc Bytes :=
  match t.kind p with
  | some (.file b) => .ok b
  | some .dir => .error .isADirectory
  | none => .error (t.blocked p.dropLast)

/-- `remove`: files and empty directories; a missing path is no error and gives `false`. -/
def remove (p : FilePath) (t : FileTree) : Except Errc (Bool × FileTree) :=
  match t.kind p with
  | none => if t.blocked p.dropLast = .notADirectory then .error .notADirectory else .ok (false, t)
  | some _ =>
      if ok : p ≠ [] ∧ t.childless p = true then .ok (true, t.drop p ok) else .error .notEmpty

/-- `rename`: an existing file or empty directory of the same kind is replaced. -/
def rename (old new : FilePath) (t : FileTree) : Except Errc (Unit × FileTree) :=
  match t.kind old with
  | none => .error (t.blocked old.dropLast)
  | some source =>
      if old = new then .ok ((), t)
      else if source ≠ .dir ∧ t.kind new = some .dir then .error .isADirectory
      else if source = .dir ∧ (t.content new).isSome then .error .notADirectory
      else if t.kind new = some .dir ∧ t.childless new = false then .error .notEmpty
      else if ok : t.Movable old new then .ok ((), t.move old new ok)
      else .error (if old <+: new then .invalidArgument else t.blocked new.dropLast)

/-- The names in a directory, each with whether it is a directory. -/
def listing (t : FileTree) (p : FilePath) : List (Name × Bool) :=
  (t.nodes.entries.filter fun e => e.1.dropLast = p).map fun e =>
    (e.1.getLastD [], decide (e.2 = .dir))

/-- Follow `components` from the directory `cur`; `..` may lead out of the tree, and then the
components that are left say where. -/
def walk (t : FileTree) : FilePath → List Name → Option (FilePath ⊕ List Name)
  | cur, [] => some (.inl cur)
  | cur, c :: rest =>
      if t.kind cur ≠ some .dir then none
      else if c = [] ∨ c = PosixPath.dotName then t.walk cur rest
      else if c = PosixPath.dotDotName then
        if cur = [] then some (.inr (c :: rest)) else t.walk cur.dropLast rest
      else t.walk (cur ++ [c]) rest

/-- Every path that is listed in the tree. -/
def paths (t : FileTree) : List FilePath := t.nodes.keys

/-! ## File contents after a call -/

@[simp] theorem content_place (t : FileTree) {p : FilePath} {v : Node} (ok : t.Placeable p v)
    (q : FilePath) :
    (t.place p v ok).content q = if q = p then v.bytes? else t.content q := by
  simp only [content, kind_place]
  split <;> rfl

theorem content_eq_some {t : FileTree} {p : FilePath} {b : Bytes} :
    t.content p = some b ↔ t.kind p = some (.file b) := by
  rw [content]
  cases t.kind p with
  | none => simp
  | some v => cases v <;> simp [Node.bytes?]

theorem content_of_not_listed {t : FileTree} {p : FilePath} (h : p ∉ t.paths) : t.content p = none := by
  have missing : t.nodes.lookup p = none := by
    rw [AList.lookup_eq_none]
    exact h
  rw [content, kind, kindIn]
  split
  · rfl
  · rw [missing]
    rfl

theorem createDirectory_content {t t' : FileTree} {p : FilePath} {made : Bool}
    (h : createDirectory p t = .ok (made, t')) (q : FilePath) : t'.content q = t.content q := by
  unfold createDirectory at h
  split at h
  · cases h
    rfl
  · cases h
  · rename_i missing
    split at h
    · cases h
      rw [content_place]
      split
      · rename_i same
        rw [same]
        simp [content, missing, Node.bytes?]
      · rfl
    · cases h

/-- `mkdir` makes at most the directory it is asked for. -/
theorem createDirectory_kind {t t' : FileTree} {p : FilePath} {made : Bool}
    (h : createDirectory p t = .ok (made, t')) (q : FilePath) :
    t'.kind q = t.kind q ∨ q = p ∧ t.kind q = none ∧ t'.kind q = some .dir := by
  unfold createDirectory at h
  split at h
  · cases h
    exact Or.inl rfl
  · cases h
  · rename_i missing
    split at h
    · cases h
      rw [kind_place]
      split
      · rename_i same
        exact Or.inr ⟨same, same ▸ missing, rfl⟩
      · exact Or.inl rfl
    · cases h

/-- `mkdir` below a directory makes one, unless a file is in the way. -/
theorem createDirectory_ok {t : FileTree} {p : FilePath} (parent : t.kind p.dropLast = some .dir)
    (noFile : t.content p = none) : ∃ made t', createDirectory p t = .ok (made, t') ∧ t'.kind p = some .dir := by
  unfold createDirectory
  split
  · rename_i here
    exact ⟨false, t, rfl, here⟩
  · rename_i content here
    rw [content_eq_some.2 here] at noFile
    cases noFile
  · rename_i missing
    have ne : p ≠ [] := by
      rintro rfl
      cases missing
    have ok : t.Placeable p .dir := ⟨ne, parent, Or.inl rfl⟩
    rw [dif_pos ok]
    exact ⟨true, _, rfl, by rw [kind_place, if_pos rfl]⟩

theorem setFile_content {t t' : FileTree} {p : FilePath} {b : Bytes}
    (h : setFile p b t = .ok ((), t')) (q : FilePath) :
    t'.content q = if q = p then some b else t.content q := by
  unfold setFile at h
  split at h
  · cases h
    exact content_place t _ q
  · cases h

theorem setFile_kind {t t' : FileTree} {p q : FilePath} {b : Bytes} (h : setFile p b t = .ok ((), t')) (ne : q ≠ p) :
    t'.kind q = t.kind q := by
  unfold setFile at h
  split at h
  · cases h
    rw [kind_place, if_neg ne]
  · cases h

theorem openAppend_content {t t' : FileTree} {p : FilePath} (h : openAppend p t = .ok ((), t'))
    (q : FilePath) : t'.content q = if q = p then some ((t.content p).getD []) else t.content q := by
  unfold openAppend at h
  split at h
  · rename_i b found
    cases h
    have same := content_eq_some.2 found
    split
    · rename_i e
      rw [e, same, Option.getD_some]
    · rfl
  · rename_i other
    rw [setFile_content h]
    have missing : t.content p = none :=
      Option.eq_none_iff_forall_ne_some.2 fun b found => other b (content_eq_some.1 found)
    rw [missing, Option.getD_none]

theorem remove_kind {t t' : FileTree} {p q : FilePath} {gone : Bool} (h : remove p t = .ok (gone, t')) (ne : q ≠ p) :
    t'.kind q = t.kind q := by
  unfold remove at h
  split at h
  · split at h <;> cases h
    rfl
  · split at h
    · cases h
      rw [kind_drop, if_neg ne]
    · cases h

/-- Nothing is new after a `remove`. -/
theorem remove_some {t t' : FileTree} {p q : FilePath} {gone : Bool} {v : Node} (h : remove p t = .ok (gone, t'))
    (there : t'.kind q = some v) : t.kind q = some v := by
  unfold remove at h
  split at h
  · split at h <;> cases h
    exact there
  · split at h
    · cases h
      rw [kind_drop] at there
      split at there
      · cases there
      · exact there
    · cases h

theorem remove_content {t t' : FileTree} {p : FilePath} {gone : Bool}
    (h : remove p t = .ok (gone, t')) (q : FilePath) :
    t'.content q = if q = p then none else t.content q := by
  unfold remove at h
  split at h
  · rename_i missing
    split at h
    · cases h
    · cases h
      split
      · rename_i same
        rw [same]
        simp [content, missing]
      · rfl
  · split at h
    · cases h
      simp only [content, kind_drop]
      split <;> simp
    · cases h

theorem createDirectory_false {t t' : FileTree} {p : FilePath} (h : createDirectory p t = .ok (false, t')) : t' = t := by
  unfold createDirectory at h
  split at h
  · cases h
    rfl
  · cases h
  · split at h <;> cases h

theorem remove_false {t t' : FileTree} {p : FilePath} (h : remove p t = .ok (false, t')) : t' = t := by
  unfold remove at h
  split at h
  · split at h <;> cases h
    rfl
  · split at h <;> cases h

/-- A successful `rename` to another path moved the subtree. -/
theorem rename_ok {t t' : FileTree} {old new : FilePath} (ne : old ≠ new)
    (h : rename old new t = .ok ((), t')) :
    ∃ (source : Node) (ok : t.Movable old new), t.kind old = some source ∧ t' = t.move old new ok ∧
      (source ≠ .dir → t.kind new ≠ some .dir) ∧
      (source = .dir → t.content new = none) := by
  unfold rename at h
  split at h
  · cases h
  · rename_i source found
    rw [if_neg ne] at h
    split at h
    · cases h
    · rename_i notOnto
      split at h
      · cases h
      · rename_i notOver
        split at h
        · cases h
        · split at h
          · rename_i ok
            cases h
            refine ⟨source, ok, found, rfl, fun isFile isDir => notOnto ⟨isFile, isDir⟩, fun isDir => ?_⟩
            simpa [isDir] using notOver
          · cases h

/-- A file can be renamed to a path in a directory where no directory lies. -/
theorem rename_file {t : FileTree} {old new : FilePath} {b : Bytes} (source : t.content old = some b)
    (ok : t.Movable old new) (free : t.kind new ≠ some .dir) : ∃ t', rename old new t = .ok ((), t') := by
  have ne : old ≠ new := fun same => ok.2.2.1 (same ▸ List.prefix_rfl)
  unfold rename
  rw [content_eq_some.1 source]
  dsimp only
  rw [if_neg ne, if_neg fun onto => free onto.2, if_neg fun taken => Node.noConfusion taken.1,
    if_neg fun full => free full.1, dif_pos ok]
  exact ⟨_, rfl⟩

/-- A renamed file: it is at the new path and nowhere else. -/
theorem rename_file_kind {t t' : FileTree} {old new : FilePath} {b : Bytes} (ne : old ≠ new)
    (source : t.content old = some b) (h : rename old new t = .ok ((), t')) (q : FilePath) :
    t'.kind q = if q = new then some (.file b) else if q = old then none else t.kind q := by
  obtain ⟨v, ok, found, rfl, onto, -⟩ := rename_ok ne h
  have oldFile := content_eq_some.1 source
  have isFile : v = .file b := Option.some.inj (found.symm.trans oldFile)
  have newFile : t.kind new ≠ some .dir := onto (by rw [isFile]; simp)
  have oldNotDir : t.kind old ≠ some .dir := by rw [oldFile]; simp
  have under : ∀ r, r ≠ [] → t.kind (new ++ r) = none := fun r => t.kind_below_none newFile
  have under' : ∀ r, r ≠ [] → t.kind (old ++ r) = none := fun r => t.kind_below_none oldNotDir
  rw [kind_move]
  split
  · rename_i pre
    obtain ⟨r, rfl⟩ := pre
    rw [List.drop_left]
    by_cases top : r = []
    · simp [top, oldFile]
    · have apart : new ++ r ≠ old := fun e => ok.2.2.2 ⟨r, e⟩
      simp [top, apart, under r top, under' r top]
  · rename_i out
    have ne' : q ≠ new := fun e => out (e ▸ List.prefix_rfl)
    rw [if_neg ne']
    split
    · rename_i pre
      obtain ⟨r, rfl⟩ := pre
      by_cases top : r = []
      · simp [top]
      · simp [top, under' r top]
    · rename_i out'
      have ne'' : q ≠ old := fun e => out' (e ▸ List.prefix_rfl)
      rw [if_neg ne'']

theorem rename_file_content {t t' : FileTree} {old new : FilePath} {b : Bytes} (ne : old ≠ new)
    (source : t.content old = some b) (h : rename old new t = .ok ((), t')) (q : FilePath) :
    t'.content q = if q = new then some b else if q = old then none else t.content q := by
  rw [content, rename_file_kind ne source h]
  split
  · rfl
  · split
    · rfl
    · rfl

/-- A file can be removed, as nothing lies below it. -/
theorem remove_file {t : FileTree} {p : FilePath} {b : Bytes} (source : t.content p = some b) :
    ∃ t', remove p t = .ok (true, t') ∧ t'.kind p = none := by
  have isFile := content_eq_some.1 source
  have ne : p ≠ [] := fun root => by rw [root] at isFile; simp at isFile
  have alone : t.childless p = true := by
    rw [childless_iff]
    intro q v found below
    have parent := (t.rooted q v found).2
    rw [below] at parent
    exact Node.noConfusion (Option.some.inj (isFile.symm.trans parent))
  refine ⟨t.drop p ⟨ne, alone⟩, ?_, ?_⟩
  · rw [remove, isFile]
    exact dif_pos ⟨ne, alone⟩
  · rw [kind_drop, if_pos rfl]

/-! ## Directories -/

theorem dropLast_getLastD {q : FilePath} (ne : q ≠ []) : q.dropLast ++ [q.getLastD []] = q := by
  have last : q.getLastD [] = q.getLast ne := by
    rw [List.getLastD_eq_getLast?, List.getLast?_eq_some_getLast ne, Option.getD_some]
  rw [last, List.dropLast_append_getLast]

/-- A directory lists what lies one name below it. -/
theorem mem_listing (t : FileTree) (p : FilePath) (n : Name) (isDirectory : Bool) :
    (n, isDirectory) ∈ t.listing p ↔ ∃ v, t.kind (p ++ [n]) = some v ∧ decide (v = .dir) = isDirectory := by
  have lookup : ∀ v, t.kind (p ++ [n]) = some v ↔ t.nodes.lookup (p ++ [n]) = some v := fun v => by
    rw [kind_of_ne_nil t (by simp)]
  simp only [listing, List.mem_map, List.mem_filter, decide_eq_true_eq, lookup]
  constructor
  · rintro ⟨⟨q, v⟩, ⟨mem, parent⟩, same⟩
    have found := (Assoc.mem_entries_iff _ _ _).1 mem
    obtain ⟨name, kind⟩ := Prod.mk.inj same
    have whole : q = p ++ [n] := by rw [← dropLast_getLastD (t.rooted q v found).1, parent, name]
    exact ⟨v, whole ▸ found, kind⟩
  · rintro ⟨v, found, kind⟩
    refine ⟨⟨p ++ [n], v⟩, ⟨(Assoc.mem_entries_iff _ _ _).2 found, by simp⟩, ?_⟩
    simp [kind]

/-- No name is listed twice. -/
theorem listing_nodup (t : FileTree) (p : FilePath) : ((t.listing p).map (·.1)).Nodup := by
  rw [listing, List.map_map]
  refine List.Nodup.map_on ?_ (t.nodes.nodupKeys.nodup.filter _)
  rintro ⟨k, v⟩ mem ⟨k', v'⟩ mem' same
  simp only [List.mem_filter, decide_eq_true_eq] at mem mem'
  have found := (Assoc.mem_entries_iff t.nodes k v).1 mem.1
  have found' := (Assoc.mem_entries_iff t.nodes k' v').1 mem'.1
  have name : k.getLastD [] = k'.getLastD [] := same
  have key : k = k' := by
    rw [← dropLast_getLastD (t.rooted _ _ found).1, ← dropLast_getLastD (t.rooted _ _ found').1, mem.2, mem'.2, name]
  subst key
  cases found.symm.trans found'
  rfl

/-- Plain names lead straight down, unless there is no directory at their end. -/
theorem walk_plain (t : FileTree) {cs : List Name} (plain : ∀ c ∈ cs, PosixPath.PlainName c) (cur : FilePath) :
    t.walk cur cs = some (.inl (cur ++ cs)) ∨ t.walk cur cs = none ∧ t.kind (cur ++ cs) ≠ some .dir := by
  induction cs generalizing cur with
  | nil => exact .inl (by simp [walk])
  | cons c rest ih =>
      have here := plain c List.mem_cons_self
      rw [walk]
      split
      · rename_i stop
        refine .inr ⟨rfl, ?_⟩
        rw [t.kind_below_none stop (List.cons_ne_nil c rest)]
        simp
      · rw [if_neg (not_or.2 ⟨here.nonempty, here.notDot⟩), if_neg here.notDotDot]
        simpa using ih (fun c' mem => plain c' (List.mem_cons_of_mem _ mem)) (cur ++ [c])

/-! ## Entries of the root -/

/-- The root is there. -/
theorem blocked_nil (t : FileTree) : t.blocked [] = .noSuchFile := by
  simp [blocked]

theorem childless_single {t : FileTree} {n : Name} :
    t.childless [n] = true ↔ ∀ k, t.kind [n, k] = none := by
  rw [childless_iff]
  constructor
  · intro none k
    cases found : t.kind [n, k] with
    | none => rfl
    | some v =>
        rw [kind_of_ne_nil t (by simp)] at found
        exact absurd rfl (none _ v found)
  · intro none q v found parent
    have ne := (t.rooted q v found).1
    have whole : q = [n, q.getLastD []] := by
      have := dropLast_getLastD ne
      rw [parent] at this
      exact this.symm
    have here := none (q.getLastD [])
    rw [← whole, kind_of_ne_nil t ne, found] at here
    cases here

/-! ## Trees without directories -/

/-- There is nothing but files in the root. -/
def Flat (t : FileTree) : Prop := ∀ q, q ≠ [] → t.kind q ≠ some .dir

theorem flat_empty : empty.Flat := fun q ne => by
  rw [kind_empty, if_neg ne]
  simp

section Flat

variable {t t' : FileTree} {name : Name}

theorem Flat.placeable (flat : t.Flat) (name : Name) (b : Bytes) : t.Placeable [name] (.file b) :=
  ⟨by simp, rfl, Or.inr (flat _ (by simp))⟩

theorem Flat.setFile_ok (flat : t.Flat) (name : Name) (b : Bytes) : ∃ t', setFile [name] b t = .ok ((), t') :=
  ⟨_, dif_pos (flat.placeable name b)⟩

theorem Flat.openAppend_ok (flat : t.Flat) (name : Name) : ∃ t', openAppend [name] t = .ok ((), t') := by
  unfold openAppend
  split
  · exact ⟨t, rfl⟩
  · exact flat.setFile_ok name []

theorem Flat.setFile {p : FilePath} {b : Bytes} (flat : t.Flat) (h : setFile p b t = .ok ((), t')) : t'.Flat := by
  intro q ne
  by_cases here : q = p
  · subst here
    rw [content_eq_some.1 (by rw [setFile_content h, if_pos rfl])]
    simp
  · rw [setFile_kind h here]
    exact flat q ne

theorem Flat.openAppend {p : FilePath} (flat : t.Flat) (h : openAppend p t = .ok ((), t')) : t'.Flat := by
  unfold FileTree.openAppend at h
  split at h
  · cases h
    exact flat
  · exact flat.setFile h

theorem Flat.remove {p : FilePath} {gone : Bool} (flat : t.Flat) (h : remove p t = .ok (gone, t')) : t'.Flat := by
  unfold FileTree.remove at h
  split at h
  · split at h <;> cases h
    exact flat
  · split at h
    · cases h
      intro q ne
      rw [kind_drop]
      split
      · simp
      · exact flat q ne
    · cases h

theorem Flat.remove_ok (flat : t.Flat) (name : Name) : ∃ gone t', FileTree.remove [name] t = .ok (gone, t') := by
  unfold FileTree.remove
  split
  · rw [List.dropLast_singleton, blocked_nil, if_neg (by simp)]
    exact ⟨false, t, rfl⟩
  · have bare : t.childless [name] = true :=
      childless_single.2 fun k => t.kind_below_none (r := [k]) (flat [name] (by simp)) (by simp)
    rw [dif_pos ⟨by simp, bare⟩]
    exact ⟨true, _, rfl⟩

theorem Flat.rename {old new : FilePath} (flat : t.Flat) (ne : old ≠ new) (h : rename old new t = .ok ((), t')) :
    t'.Flat := by
  obtain ⟨source, ok, found, rfl, -, -⟩ := rename_ok ne h
  intro q apart
  have deeper : ∀ r, old ++ r ≠ [] := fun r same => by
    obtain ⟨rfl, -⟩ := List.append_eq_nil_iff.1 same
    exact ok.2.2.1 List.nil_prefix
  rw [kind_move]
  split
  · exact flat _ (deeper _)
  · split
    · simp
    · exact flat q apart

/-- A file can be renamed to any name. -/
theorem Flat.rename_ok {old new : Name} {b : Bytes} (flat : t.Flat) (ne : old ≠ new) (source : t.content [old] = some b) :
    ∃ t', FileTree.rename [old] [new] t = .ok ((), t') := by
  refine rename_file source ⟨by simp, rfl, fun pre => ne ?_, fun pre => ne ?_⟩ (flat _ (by simp))
  · exact List.singleton_inj.1 (pre.eq_of_length rfl)
  · exact (List.singleton_inj.1 (pre.eq_of_length rfl)).symm

end Flat

end FileTree

end Dfs.Lib
