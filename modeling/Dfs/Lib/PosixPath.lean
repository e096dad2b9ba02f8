import Mathlib.Data.List.Induction

/-!
# Lexical paths

`std::filesystem::path` on a POSIX system, as far as a program can observe it without
touching a disk: a path is the byte string the program holds, and iteration, comparison,
file name, extension and normal form are functions of that string. Repeated separators
count as one, a trailing separator yields a last empty component, and two paths are equal
when their components are, so different strings can be the same path.
-/

namespace Dfs.Lib

/-- A C++ string or buffer. -/
abbrev Bytes := List UInt8

/-- One component of a path. -/
abbrev Name := Bytes

/-- A path below some directory, component by component. -/
abbrev FilePath := List Name

namespace PosixPath

def separator : UInt8 := 47
def dot : UInt8 := 46
def dotName : Name := [dot]
def dotDotName : Name := [dot, dot]

/-- The non-empty names between the separators. -/
def names (p : Bytes) : List Name := (p.splitOn separator).filter (· ≠ [])

def isAbsolute (p : Bytes) : Bool := p.head? = some separator

/-- The components of `p.relative_path()`. -/
def relativeComponents (p : Bytes) : List Name :=
  names p ++ if names p ≠ [] ∧ p.getLast? = some separator then [[]] else []

/-- What iterating over the path yields. -/
def components (p : Bytes) : List Name :=
  (if isAbsolute p then [[separator]] else []) ++ relativeComponents p

/-- `operator==`: component by component. -/
def samePath (p q : Bytes) : Bool := components p = components q

def filename (p : Bytes) : Name := (relativeComponents p).getLastD []

/-- The extension of one name: from its last dot on, unless that dot is its first byte. -/
def extensionOf (n : Name) : Bytes :=
  if n = dotName ∨ n = dotDotName then []
  else
    let tail := n.reverse.takeWhile (· ≠ dot)
    if n.length ≤ tail.length + 1 then [] else dot :: tail.reverse

def extension (p : Bytes) : Bytes := extensionOf (filename p)

/-- `p.parent_path()` is not empty. -/
def hasParentPath (p : Bytes) : Bool := isAbsolute p || 1 < (relativeComponents p).length

/-- `ret /= c` on components. -/
def pushComponent (ret : List Name) (c : Name) : List Name :=
  match ret.getLast? with
  | none => if c = [] then [] else [c]
  | some last =>
      if last = [] then ret.dropLast ++ [c]
      else if last = [separator] ∧ c = [] then ret
      else ret ++ [c]

/-- One component of the loop in `lexically_normal`. -/
def normalStep (ret : List Name) (c : Name) : List Name :=
  if c = dotDotName then
    match ret.getLast? with
    | none => [dotDotName]
    | some last =>
        if last = [separator] then ret
        else if last = [] then
          -- a trailing separator: look at the name before it
          let front := ret.dropLast
          if front.getLastD [] = dotDotName then front ++ [dotDotName]
          else
            let rest := front.dropLast
            if rest = [] ∨ rest = [[separator]] then rest else rest ++ [[]]
        else if last = dotDotName then pushComponent ret c
        else
          let rest := ret.dropLast
          if rest = [] ∨ rest = [[separator]] then rest else rest ++ [[]]
  else if c = dotName then pushComponent ret []
  else pushComponent ret c

/-- The components of `p.lexically_normal()`. -/
def normalComponents (p : Bytes) : List Name :=
  if p = [] then []
  else
    let ret := (components p).foldl normalStep []
    if 2 ≤ ret.length ∧ ret.getLast? = some [] ∧ ret.dropLast.getLast? = some dotDotName then
      ret.dropLast
    else if ret = [] then [dotName]
    else ret

/-- The string a list of components is written as. -/
def join (cs : List Name) : Bytes :=
  if cs.head? = some [separator] then separator :: [separator].intercalate cs.tail
  else [separator].intercalate cs

def lexicallyNormal (p : Bytes) : Bytes := join (normalComponents p)

/-- `path += suffix` on the path with components `p`. -/
def appendSuffix (p : FilePath) (suffix : Bytes) : FilePath :=
  p.dropLast ++ [p.getLastD [] ++ suffix]

/-! ## Names -/

theorem names_not_nil {p : Bytes} {n : Name} (mem : n ∈ names p) : n ≠ [] := by
  simpa using (List.mem_filter.1 mem).2

theorem separator_not_mem {p : Bytes} {n : Name} (mem : n ∈ names p) : separator ∉ n := by
  have piece : n ∈ p.splitOn separator := (List.mem_filter.1 mem).1
  clear mem
  induction p generalizing n with
  | nil =>
      rw [List.splitOn_nil, List.mem_singleton] at piece
      simp [piece]
  | cons b rest ih =>
      rw [List.splitOn_cons_eq_if_modifyHead] at piece
      split at piece
      · rcases List.mem_cons.1 piece with rfl | later
        · simp
        · exact ih later
      · rename_i ne
        obtain ⟨first, others, split⟩ := List.exists_cons_of_ne_nil (List.splitOn_ne_nil separator rest)
        rw [split, List.modifyHead_cons] at piece
        rcases List.mem_cons.1 piece with rfl | later
        · have clear := ih (by rw [split]; exact List.mem_cons_self)
          have apart : separator ≠ b := fun same => ne (by rw [same]; exact beq_self_eq_true b)
          simp [clear, apart]
        · exact ih (by rw [split]; exact List.mem_cons_of_mem _ later)

/-- A name of its own is a path of one component. -/
theorem names_name {n : Name} (ne : n ≠ []) (plain : separator ∉ n) : names n = [n] := by
  rw [names, List.splitOn_eq_singleton plain]
  simp [ne]

theorem names_append (p q : Bytes) : names (p ++ separator :: q) = names p ++ names q := by
  rw [names, List.splitOn_append_cons_self, List.filter_append]
  rfl

/-- A path with a file name does not end in a separator. -/
theorem relativeComponents_of_filename {p : Bytes} (h : filename p ≠ []) : relativeComponents p = names p := by
  rw [filename, relativeComponents] at h
  rw [relativeComponents]
  split at h
  · simp at h
  · rename_i open_
    rw [if_neg open_, List.append_nil]

theorem appendSuffix_getLast (p : FilePath) (suffix : Bytes) :
    (appendSuffix p suffix).getLastD [] = p.getLastD [] ++ suffix := by
  simp [appendSuffix]

theorem appendSuffix_dropLast (p : FilePath) (suffix : Bytes) :
    (appendSuffix p suffix).dropLast = p.dropLast := by
  simp [appendSuffix]

theorem appendSuffix_ne_nil (p : FilePath) (suffix : Bytes) : appendSuffix p suffix ≠ [] := by
  simp [appendSuffix]

/-- A name that leads one directory down. -/
structure PlainName (n : Name) : Prop where
  nonempty : n ≠ []
  single : separator ∉ n
  notDot : n ≠ dotName
  notDotDot : n ≠ dotDotName

theorem PlainName.ne_separator {n : Name} (plain : PlainName n) : n ≠ [separator] := fun same =>
  plain.single (same ▸ List.mem_singleton_self separator)

/-! ## Joined names -/

theorem join_plain {cs : List Name} (plain : ∀ c ∈ cs, PlainName c) : join cs = [separator].intercalate cs := by
  rw [join, if_neg]
  intro head
  exact (plain _ (List.mem_of_head? head)).ne_separator rfl

theorem names_join {cs : List Name} (plain : ∀ c ∈ cs, PlainName c) : names (join cs) = cs := by
  rw [join_plain plain]
  by_cases none : cs = []
  · subst none
    rfl
  · rw [names, List.splitOn_intercalate separator (fun c mem => (plain c mem).single) none, List.filter_eq_self]
    intro c mem
    simpa using (plain c mem).nonempty

/-- Joined names end in the last of them. -/
theorem join_getLast {cs : List Name} (plain : ∀ c ∈ cs, PlainName c) (ne : cs ≠ []) :
    (join cs).getLast? ≠ some separator ∧ join cs ≠ [] := by
  have last : ∃ front n, PlainName n ∧ join cs = front ++ n := by
    rw [join_plain plain]
    induction cs with
    | nil => exact absurd rfl ne
    | cons c rest ih =>
        by_cases only : rest = []
        · subst only
          exact ⟨[], c, plain c List.mem_cons_self, by simp [List.intercalate]⟩
        · obtain ⟨front, n, plainName, whole⟩ := ih (fun c' mem => plain c' (List.mem_cons_of_mem c mem)) only
          refine ⟨c ++ separator :: front, n, plainName, ?_⟩
          rw [List.intercalate_cons_of_ne_nil only, whole]
          simp
  obtain ⟨front, n, plainName, whole⟩ := last
  rw [whole]
  constructor
  · intro here
    have own := List.getLast?_eq_some_getLast plainName.nonempty
    rw [List.getLast?_append, own, Option.some_or, ← own] at here
    exact plainName.single (List.mem_of_getLast? here)
  · intro empty
    exact plainName.nonempty (List.append_eq_nil_iff.1 empty).2

/-- A path with plain names below it. -/
theorem components_append_join {p : Bytes} {cs : List Name} (relative : isAbsolute p = false) (ne : p ≠ [])
    (plain : ∀ c ∈ cs, PlainName c) (some : cs ≠ []) : components (p ++ separator :: join cs) = names p ++ cs := by
  obtain ⟨open_, nonempty⟩ := join_getLast plain some
  have head : isAbsolute (p ++ separator :: join cs) = false := by
    obtain ⟨b, bytes, rfl⟩ := List.exists_cons_of_ne_nil ne
    exact relative
  have last : (p ++ separator :: join cs).getLast? = (join cs).getLast? := by
    rw [List.append_cons, List.getLast?_append, List.getLast?_eq_some_getLast nonempty, Option.some_or]
  rw [components, head, if_neg (by simp), relativeComponents, last, if_neg fun h => open_ h.2, names_append, names_join plain]
  simp

/-- Joined plain names are the path with these components. -/
theorem components_join {cs : List Name} (plain : ∀ c ∈ cs, PlainName c) : components (join cs) = cs := by
  by_cases none : cs = []
  · subst none
    rfl
  · have head : isAbsolute (join cs) = false := by
      obtain ⟨c, rest, rfl⟩ := List.exists_cons_of_ne_nil none
      have here := plain c List.mem_cons_self
      obtain ⟨b, bytes, rfl⟩ := List.exists_cons_of_ne_nil here.nonempty
      rw [join_plain plain, isAbsolute, decide_eq_false_iff_not]
      intro same
      have first : b = separator := by
        cases rest <;> simpa [List.intercalate] using same
      exact here.single (first ▸ List.mem_cons_self)
    rw [components, head, if_neg (by simp), relativeComponents, if_neg fun h => (join_getLast plain none).1 h.2,
      names_join plain]
    simp

/-- Plain names are pushed one after the other. -/
theorem foldl_normalStep {cs ret : List Name} (plain : ∀ c ∈ cs, PlainName c) (full : [] ∉ ret) :
    cs.foldl normalStep ret = ret ++ cs := by
  induction cs generalizing ret with
  | nil => simp
  | cons c rest ih =>
      have here := plain c List.mem_cons_self
      have pushed : normalStep ret c = ret ++ [c] := by
        rw [normalStep, if_neg here.notDotDot, if_neg here.notDot, pushComponent]
        cases last : ret.getLast? with
        | none =>
            rw [List.getLast?_eq_none_iff] at last
            dsimp only
            rw [if_neg here.nonempty, last]
            rfl
        | some before =>
            have nonempty : before ≠ [] := fun empty => full (empty ▸ List.mem_of_getLast? last)
            dsimp only
            rw [if_neg nonempty, if_neg fun both => here.nonempty both.2]
      have full' : [] ∉ ret ++ [c] := by
        rw [List.mem_append, List.mem_singleton, not_or]
        exact ⟨full, fun empty => here.nonempty empty.symm⟩
      rw [List.foldl_cons, pushed, ih (fun c' mem => plain c' (List.mem_cons_of_mem c mem)) full', List.append_assoc,
        List.singleton_append]

theorem names_plain {p : Bytes} (undotted : ∀ c ∈ components p, c ≠ dotName ∧ c ≠ dotDotName) : ∀ c ∈ names p, PlainName c := by
  intro c mem
  have dots := undotted c (by
    rw [components, relativeComponents]
    exact List.mem_append_right _ (List.mem_append_left _ mem))
  exact ⟨names_not_nil mem, separator_not_mem mem, dots.1, dots.2⟩

/-- A path without `.` and `..` is in normal form, be it absolute or with a separator at its end. -/
theorem normalComponents_undotted {p : Bytes} (some : components p ≠ [])
    (undotted : ∀ c ∈ components p, c ≠ dotName ∧ c ≠ dotDotName) : normalComponents p = components p := by
  have ne : p ≠ [] := by
    rintro rfl
    exact some rfl
  have plain := names_plain undotted
  let root : List Name := if isAbsolute p then [[separator]] else []
  have started : root.foldl normalStep [] = root := by
    by_cases absolute : isAbsolute p = true
    · simp only [root, if_pos absolute]
      rfl
    · simp only [root, if_neg absolute]
      rfl
  have full : [] ∉ root := by
    by_cases absolute : isAbsolute p = true
    · simp [root, if_pos absolute]
    · simp [root, if_neg absolute]
  have full' : [] ∉ root ++ names p := by
    rw [List.mem_append, not_or]
    exact ⟨full, fun mem => names_not_nil mem rfl⟩
  have folded : (components p).foldl normalStep [] = components p := by
    rw [components, relativeComponents, List.foldl_append, started, List.foldl_append, foldl_normalStep plain full]
    split
    · rename_i trailing
      obtain ⟨n, last⟩ : ∃ n, (names p).getLast? = Option.some n := by
        rw [List.getLast?_eq_some_getLast trailing.1]
        exact ⟨_, rfl⟩
      have named := plain n (List.mem_of_getLast? last)
      have pushed : normalStep (root ++ names p) [] = root ++ names p ++ [[]] := by
        rw [normalStep, if_neg (by decide), if_neg (by decide), pushComponent, List.getLast?_append, last, Option.some_or]
        dsimp only
        rw [if_neg named.nonempty, if_neg fun both => named.ne_separator both.1]
      rw [List.foldl_cons, List.foldl_nil, pushed, List.append_assoc]
    · rw [List.foldl_nil, List.append_nil]
  rw [normalComponents, if_neg ne]
  dsimp only
  rw [folded, if_neg, if_neg some]
  rintro ⟨-, -, last⟩
  exact (undotted dotDotName (List.dropLast_subset _ (List.mem_of_getLast? last))).2 rfl

/-- A path of plain names is in normal form. -/
theorem normalComponents_plain {p : Bytes} (some : components p ≠ []) (plain : ∀ c ∈ components p, PlainName c) :
    normalComponents p = components p :=
  normalComponents_undotted some fun c mem => ⟨(plain c mem).notDot, (plain c mem).notDotDot⟩

/-- What joined components end in. -/
theorem join_trailing {cs : List Name} (some : cs ≠ []) : (join (cs ++ [[]])).getLast? = Option.some separator := by
  have last : ∀ cs : List Name, cs ≠ [] → ([separator].intercalate (cs ++ [[]])).getLast? = Option.some separator := by
    intro cs some
    induction cs with
    | nil => exact absurd rfl some
    | cons c rest ih =>
        rw [List.cons_append, List.intercalate_cons_of_ne_nil (by simp)]
        by_cases none : rest = []
        · rw [none]
          simp [List.intercalate]
        · rw [List.getLast?_append, List.getLast?_append, ih none]
          simp
  rw [join]
  split
  · rename_i head
    cases cs with
    | nil => exact absurd rfl some
    | cons c rest =>
        by_cases none : rest = []
        · rw [none]
          simp [List.intercalate]
        · rw [List.cons_append, List.tail_cons, List.getLast?_cons, last rest none]
          rfl
  · exact last cs some

/-- A path that ends in a separator has no file name. -/
theorem filename_trailing {p : Bytes} (last : p.getLast? = some separator) : filename p = [] := by
  rw [filename, relativeComponents]
  by_cases none : names p = []
  · simp [none]
  · rw [if_pos ⟨none, last⟩]
    simp

/-- A suffix that starts with its only dot is the extension of the longer name. -/
theorem extensionOf_append {n tail : Bytes} (nonempty : n ≠ []) (plain : dot ∉ tail)
    (some : tail ≠ []) : extensionOf (n ++ dot :: tail) = dot :: tail := by
  have short : (n ++ dot :: tail).length ≠ 1 ∧ (n ++ dot :: tail).length ≠ 2 := by
    have h1 := List.length_pos_iff.2 nonempty
    have h2 := List.length_pos_iff.2 some
    simp only [List.length_append, List.length_cons]
    omega
  have notDots : ¬ (n ++ dot :: tail = dotName ∨ n ++ dot :: tail = dotDotName) := by
    rintro (h | h)
    · exact short.1 (by rw [h]; rfl)
    · exact short.2 (by rw [h]; rfl)
  have taken : ((n ++ dot :: tail).reverse.takeWhile (· ≠ dot)) = tail.reverse := by
    rw [List.reverse_append, List.reverse_cons, List.append_assoc]
    rw [List.takeWhile_append_of_pos]
    · simp
    · intro b mem
      have : b ≠ dot := fun e => plain (by simpa [e] using mem)
      simpa using this
  rw [extensionOf, if_neg notDots]
  simp only [taken, List.reverse_reverse]
  rw [if_neg]
  have h1 := List.length_pos_iff.2 nonempty
  simp only [List.length_append, List.length_cons, List.length_reverse]
  omega

/-! ## Where a path leads -/

/-- One component, from a directory given by its names from the root; `..` at the root stays there. -/
def follow (dir : FilePath) (c : Name) : FilePath :=
  if c = [] ∨ c = dotName then dir else if c = dotDotName then dir.dropLast else dir ++ [c]

/-- Where `cs` lead from `dir`, symbolic links aside. -/
def resolve (dir : FilePath) (cs : List Name) : FilePath := cs.foldl follow dir

def fromRoot (cs : List Name) : FilePath := resolve [] cs

/-- The components behind the root of `dir / p`, for a `dir` with the components `dir`. -/
def append (dir : List Name) (p : Bytes) : List Name :=
  if isAbsolute p then relativeComponents p else dir ++ relativeComponents p

/-- A relative path whose steps back are undone: first so many steps up, then names. -/
structure Climb where
  ups : Nat
  rest : List Name
  deriving DecidableEq

def climbStep (climb : Climb) (c : Name) : Climb :=
  if c = [] ∨ c = dotName then climb
  else if c = dotDotName then
    if climb.rest = [] then { climb with ups := climb.ups + 1 } else { climb with rest := climb.rest.dropLast }
  else { climb with rest := climb.rest ++ [c] }

def climb (cs : List Name) : Climb := cs.foldl climbStep ⟨0, []⟩

/-- Where a climb ends. -/
def Climb.from (c : Climb) (dir : FilePath) : FilePath := dir.take (dir.length - c.ups) ++ c.rest

theorem Climb.from_step (c : Climb) (dir : FilePath) (n : Name) : follow (c.from dir) n = (climbStep c n).from dir := by
  unfold follow climbStep
  split
  · rfl
  split
  · split
    · rename_i top
      rw [Climb.from, Climb.from, top, List.append_nil, List.append_nil, List.dropLast_eq_take, List.take_take,
        List.length_take]
      congr 1
      dsimp only
      omega
    · rename_i below
      rw [Climb.from, Climb.from, List.dropLast_append_of_ne_nil below]
  · rw [Climb.from, Climb.from, List.append_assoc]

theorem resolve_climb (dir : FilePath) (cs : List Name) : resolve dir cs = (climb cs).from dir := by
  have general : ∀ c : Climb, cs.foldl follow (c.from dir) = (cs.foldl climbStep c).from dir := by
    induction cs with
    | nil => exact fun c => rfl
    | cons n cs ih => exact fun c => by rw [List.foldl_cons, List.foldl_cons, Climb.from_step, ih]
  have start := general ⟨0, []⟩
  rwa [Climb.from, Nat.sub_zero, List.take_length, List.append_nil] at start

/-- A path leads to `dir` or below it exactly if the names behind its steps up begin with those
that the steps have left. -/
theorem prefix_resolve {dir : FilePath} {cs : List Name} :
    dir <+: resolve dir cs ↔ dir.drop (dir.length - (climb cs).ups) <+: (climb cs).rest := by
  have split := List.take_append_drop (dir.length - (climb cs).ups) dir
  rw [resolve_climb, Climb.from]
  constructor
  · intro inside
    refine (List.prefix_append_right_inj (dir.take (dir.length - (climb cs).ups))).1 ?_
    rwa [split]
  · intro inside
    have longer := (List.prefix_append_right_inj (dir.take (dir.length - (climb cs).ups))).2 inside
    rwa [split] at longer

theorem resolve_append (dir : FilePath) (cs ds : List Name) : resolve dir (cs ++ ds) = resolve (resolve dir cs) ds :=
  List.foldl_append

/-- Without dots a path leads nowhere else than down. -/
theorem prefix_resolve_names {dir : FilePath} {cs : List Name} (plain : ∀ c ∈ cs, c ≠ dotDotName) :
    dir <+: resolve dir cs := by
  induction cs generalizing dir with
  | nil => exact List.prefix_rfl
  | cons c cs ih =>
      refine List.IsPrefix.trans ?_ (ih fun c' mem => plain c' (List.mem_cons_of_mem c mem))
      unfold follow
      split
      · exact List.prefix_rfl
      · rw [if_neg (plain c List.mem_cons_self)]
        exact List.prefix_append _ _

end PosixPath

end Dfs.Lib
