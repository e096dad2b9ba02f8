import Dfs.Metadata.Mirror

/-!
# The store's operations and its directory

Each operation is followed call by call: a failing one leaves the visible files alone, a
successful one changes them in the single call that renames, removes or moves.
-/

namespace Dfs

open Lib

namespace MetadataStore

open Disk (Through)

variable {s s' : MetadataStore} {t t' : FileTree} {d d' : Disk} {f g : Bytes} {m : FileMetadata}

theorem valid_filename (valid : validFilename f = true) :
    key f = physical f ∧ (physical f).getLastD [] ≠ [] ∧
      PosixPath.extensionOf ((physical f).getLastD []) ≠ tmpExtension := by
  unfold validFilename at valid
  split at valid
  · cases valid
  · rename_i ok
    simp only [not_or] at ok
    obtain ⟨-, relative, name, extension, -⟩ := ok
    have components := PosixPath.relativeComponents_of_filename name
    refine ⟨?_, ?_, ?_⟩
    · rw [key, PosixPath.components, if_neg relative, components]
      rfl
    · rwa [PosixPath.filename, components] at name
    · rwa [PosixPath.extension, PosixPath.filename, components] at extension

theorem physical_ne_nil (valid : validFilename f = true) : physical f ≠ [] := by
  intro e
  have name := (valid_filename valid).2.1
  rw [e] at name
  exact name rfl

theorem getLastD_append {p r : FilePath} (ne : r ≠ []) : (p ++ r).getLastD [] = r.getLastD [] := by
  obtain ⟨front, last, rfl⟩ := List.eq_nil_or_concat r |>.resolve_left ne
  simp [← List.append_assoc]

/-! ## The visible files -/

theorem visible_congr {k : FilePath} (same : t'.content k = t.content k) : visible t' k = visible t k := by
  rw [visible, visible, same]

/-- A temporary file is not visible. -/
theorem visible_temporary {p : FilePath} (name : p.getLastD [] ≠ []) :
    visible t (PosixPath.appendSuffix p tmpExtension) = none := by
  rw [visible, if_pos]
  rw [PosixPath.appendSuffix_getLast]
  exact PosixPath.extensionOf_append name (by decide) (by decide)

theorem visible_of_temporary {p : FilePath} (name : p.getLastD [] ≠ [])
    (same : ∀ q, q ≠ PosixPath.appendSuffix p tmpExtension → t'.content q = t.content q) : visible t' = visible t := by
  funext q
  by_cases tmp : q = PosixPath.appendSuffix p tmpExtension
  · rw [tmp, visible_temporary name, visible_temporary name]
  · exact visible_congr (same q tmp)

/-- The visible files depend on the files only. -/
theorem visible_of_content (same : ∀ q, t'.content q = t.content q) : visible t' = visible t :=
  funext fun q => visible_congr (same q)

/-! ## Writing a metadata file -/

theorem temporary_ne (final : FilePath) : PosixPath.appendSuffix final tmpExtension ≠ final := by
  intro e
  have lengths := congrArg (fun p => (p.getLastD []).length) e
  simp [PosixPath.appendSuffix, tmpExtension] at lengths

section Replace

variable {final : FilePath} {data : Bytes} (name : final.getLastD [] ≠ [])

include name

/-- Everything before the final rename concerns the temporary file only. -/
theorem replaceFile_step {r : Except MetadataStoreError Unit} (h : replaceFile final data d = (r, d'))
    (small : data.length < 2 ^ 32) (plain : PosixPath.extensionOf (final.getLastD []) ≠ tmpExtension) :
    (∀ e, r = .error e → Through (fun t => visible t = visible d.tree) d d') ∧
    (r = .ok () → Through (fun t => visible t = visible d.tree ∨
        visible t = Function.update (visible d.tree) final (some data)) d d' ∧
      visible d'.tree = Function.update (visible d.tree) final (some data)) := by
  unfold replaceFile at h
  dsimp only at h
  have whole : data.take (UInt32.ofNat data.length).toNat = data := by
    rw [UInt32.toNat_ofNat_of_lt' small, List.take_length]
  rw [whole] at h
  split at h
  · rename_i failed
    cases h
    exact ⟨fun _ _ => .of_same (Disk.call_error failed) rfl, by simp⟩
  rename_i d₁ opened
  have first : Through (fun t => visible t = visible d.tree) d d₁ :=
    .call opened rfl fun _ t done =>
      visible_of_temporary name fun q ne => by rw [FileTree.setFile_content done, if_neg ne]
  have empty : d₁.tree.content (PosixPath.appendSuffix final tmpExtension) = some [] := by
    rw [Disk.openTruncate_ok opened, if_pos rfl]
  have writing : ∀ {r d₂}, d₁.write (PosixPath.appendSuffix final tmpExtension) data = (r, d₂) →
      Through (fun t => visible t = visible d.tree) d d₂ := fun wrote =>
    first.trans (.write wrote fun content =>
      (visible_of_temporary name fun q ne => Disk.overwritten_ne _ _ ne).trans first.last)
  split at h
  · rename_i failed
    cases h
    exact ⟨fun _ _ => writing failed, by simp⟩
  rename_i d₂ wrote
  have second := writing wrote
  have full := Disk.write_ok wrote empty
  split at h
  · rename_i failed
    cases h
    exact ⟨fun _ _ => second.trans (.query failed second.last), by simp⟩
  rename_i d₃ flushed
  have third := second.trans (.query flushed second.last)
  split at h
  · rename_i failed
    cases h
    exact ⟨fun _ _ => third.trans (.query failed third.last), by simp⟩
  rename_i d₄ closed
  have fourth := third.trans (.query closed third.last)
  have source : d₄.tree.content (PosixPath.appendSuffix final tmpExtension) = some data := by
    rw [(Disk.settle_tree closed).1, (Disk.settle_tree flushed).1, full, List.nil_append]
  split at h
  · rename_i d₅ failed
    cases h
    have fifth := fourth.trans (.of_same (Disk.call_error failed) fourth.last)
    refine ⟨fun _ _ => fifth.trans (.call rfl fifth.last fun _ t done => ?_), by simp⟩
    refine (visible_of_temporary name fun q ne => ?_).trans fifth.last
    rw [FileTree.remove_content done, if_neg ne]
  · rename_i d₅ renamed
    cases h
    have replaced : ∀ t, FileTree.rename (PosixPath.appendSuffix final tmpExtension) final d₄.tree = .ok ((), t) →
        visible t = Function.update (visible d.tree) final (some data) := by
      intro t done
      have moved := FileTree.rename_file_content (temporary_ne final) source done
      funext q
      by_cases here : q = final
      · rw [here, Function.update_self, visible, if_neg plain, moved, if_pos rfl]
      · rw [Function.update_of_ne here, ← fourth.last]
        by_cases tmp : q = PosixPath.appendSuffix final tmpExtension
        · rw [tmp, visible_temporary name, visible_temporary name]
        · exact visible_congr (by rw [moved, if_neg here, if_neg tmp])
    refine ⟨by simp, fun _ => ⟨?_, replaced _ (Disk.call_ok renamed).1⟩⟩
    exact (fourth.mono fun t same => Or.inl same).trans
      (.call renamed (Or.inl fourth.last) fun _ t done => Or.inr (replaced t done))

end Replace

theorem writeMetadataFile_step (valid : validFilename f = true) (clean : m.Clean)
    {r : Except MetadataStoreError Unit} (h : writeMetadataFile f m d = (r, d')) :
    (∀ e, r = .error e → Through (fun t => visible t = visible d.tree) d d') ∧
    (r = .ok () → Through (fun t => visible t = visible d.tree ∨
        visible t = Function.update (visible d.tree) (key f) (some (encodeMetadata m))) d d' ∧
      visible d'.tree = Function.update (visible d.tree) (key f) (some (encodeMetadata m))) := by
  obtain ⟨same, name, plain⟩ := valid_filename valid
  have directories : ∀ {r d₁}, d.createDirectories (physical f).dropLast = (r, d₁) →
      Through (fun t => visible t = visible d.tree) d d₁ := fun made =>
    .createDirectories made rfl fun p t t' made seen done =>
      (visible_of_content (FileTree.createDirectory_content done)).trans seen
  unfold writeMetadataFile at h
  split at h
  · rename_i failed
    cases h
    exact ⟨fun _ _ => directories failed, by simp⟩
  · rename_i d₁ made
    have first := directories made
    have small : (encodeMetadata m).length < 2 ^ 32 := by
      have := clean.small
      rw [encodeMetadata_length]
      omega
    obtain ⟨failing, succeeding⟩ := replaceFile_step name h small plain
    rw [first.last] at failing succeeding
    rw [same]
    refine ⟨fun e bad => first.trans (failing e bad), fun ok => ?_⟩
    obtain ⟨between, last⟩ := succeeding ok
    exact ⟨(first.mono fun t seen => Or.inl seen).trans between, last⟩

/-! ## One operation -/

/-- An operation that kept the relation, through trees that show the files from before it or
from after it. -/
structure Durable (s s' : MetadataStore) : Prop where
  mirrors : Mirrors s'.disk.tree s'.data
  between : Through (fun t => visible t = visible s.disk.tree ∨ visible t = visible s'.disk.tree) s.disk s'.disk

/-- An operation that changed no record and no visible file. -/
structure Quiet (s s' : MetadataStore) : Prop where
  data : s'.data = s.data
  through : Through (fun t => visible t = visible s.disk.tree) s.disk s'.disk

theorem Quiet.durable (mirror : Mirrors s.disk.tree s.data) (quiet : Quiet s s') : Durable s s' :=
  ⟨⟨fun k => by rw [quiet.through.last, quiet.data, mirror.files], by rw [quiet.data]; exact mirror.clean⟩,
    quiet.through.mono fun _ same => Or.inl same⟩

theorem Quiet.refl (s : MetadataStore) : Quiet s s := ⟨rfl, .of_same ⟨rfl, rfl⟩ rfl⟩

/-- The store after a call that only looked. -/
theorem Quiet.looked (same : d'.tree = s.disk.tree ∧ d'.trail = s.disk.trail) : Quiet s { s with disk := d' } :=
  ⟨rfl, .of_same same rfl⟩

theorem Quiet.after_look (same : d'.tree = s.disk.tree ∧ d'.trail = s.disk.trail)
    (quiet : Quiet { s with disk := d' } s') : Quiet s s' := by
  refine ⟨quiet.data, .after_same same ?_⟩
  have through := quiet.through
  simpa only [same.1] using through

theorem Durable.after_look (same : d'.tree = s.disk.tree ∧ d'.trail = s.disk.trail)
    (durable : Durable { s with disk := d' } s') : Durable s s' := by
  refine ⟨durable.mirrors, .after_same same ?_⟩
  have between := durable.between
  simpa only [same.1] using between

/-- A record written at `key f`. -/
theorem durable_write (mirror : Mirrors s.disk.tree s.data) (valid : validFilename f = true) (clean : m.Clean)
    (h : writeMetadataFile f m s.disk = (.ok (), d')) :
    Durable s { disk := d', data := s.data.insert (key f) m } := by
  obtain ⟨between, last⟩ := (writeMetadataFile_step valid clean h).2 rfl
  refine ⟨⟨fun k => ?_, fun k m' found => ?_⟩, between.mono fun t same => ?_⟩
  · rw [last, Assoc.lookup_insert_ite]
    by_cases here : k = key f
    · rw [here, Function.update_self, if_pos rfl, Option.map_some]
    · rw [Function.update_of_ne here, if_neg here, mirror.files]
  · rw [Assoc.lookup_insert_ite] at found
    split at found
    · exact Option.some.inj found ▸ clean
    · exact mirror.clean k m' found
  · rwa [last]

theorem quiet_write (valid : validFilename f = true) (clean : m.Clean) {e : MetadataStoreError}
    (h : writeMetadataFile f m s.disk = (.error e, d')) : Quiet s { s with disk := d' } :=
  ⟨rfl, (writeMetadataFile_step valid clean h).1 e rfl⟩

theorem addMetadata_durable {now : TimePoint} {r : Except MetadataStoreError Unit}
    (mirror : Mirrors s.disk.tree s.data) (clean : m.Clean) (h : addMetadata now f m s = (r, s')) : Durable s s' := by
  unfold addMetadata at h
  split at h
  · cases h
    exact (Quiet.refl s).durable mirror
  rename_i valid
  replace valid : validFilename f = true := by simpa using valid
  have clean' : FileMetadata.Clean { m with path := f, createdAt := now, modifiedAt := now } :=
    ⟨clean.objId, clean.first, clean.second, clean.small⟩
  split at h
  · rename_i looked
    cases h
    exact (Quiet.looked (Disk.query_tree looked)).durable mirror
  · rename_i d₁ looked
    have same := Disk.query_tree looked
    have present := Disk.query_ok looked
    split at h
    · cases h
      exact (Quiet.looked same).durable mirror
    · rename_i absent
      dsimp only at h
      split at h
      · rename_i failed
        cases h
        exact ((quiet_write (s := { s with disk := d₁ }) valid clean' failed).after_look same).durable mirror
      · rename_i d₂ written
        cases h
        -- nothing lies at the path, so no record does
        have new : s.data.lookup (key f) = none := by
          obtain ⟨components, name, plain⟩ := valid_filename valid
          rw [mirror.missing (components ▸ plain), components, FileTree.content]
          have gone := (Except.ok.inj present).trans (by simpa using absent)
          rw [Option.isSome_eq_false_iff, Option.isNone_iff_eq_none] at gone
          rw [gone]
          rfl
        rw [new]
        have mirror' : Mirrors d₁.tree s.data := same.1 ▸ mirror
        exact (durable_write (s := { s with disk := d₁ }) mirror' valid clean' written).after_look same

theorem updateMetadata_durable {now : TimePoint} {r : Except MetadataStoreError Unit}
    (mirror : Mirrors s.disk.tree s.data) (clean : m.Clean) (h : updateMetadata now f m s = (r, s')) :
    Durable s s' := by
  unfold updateMetadata at h
  split at h
  · cases h
    exact (Quiet.refl s).durable mirror
  rename_i valid
  replace valid : validFilename f = true := by simpa using valid
  split at h
  · exact addMetadata_durable mirror clean h
  · rename_i existing found
    have clean' : FileMetadata.Clean { m with path := f, createdAt := existing.createdAt, modifiedAt := now } :=
      ⟨clean.objId, clean.first, clean.second, clean.small⟩
    dsimp only at h
    split at h
    · rename_i failed
      cases h
      exact (quiet_write valid clean' failed).durable mirror
    · rename_i written
      cases h
      exact durable_write mirror valid clean' written

theorem removeMetadata_durable {r : Except MetadataStoreError Unit} (mirror : Mirrors s.disk.tree s.data)
    (h : removeMetadata f s = (r, s')) : Durable s s' := by
  unfold removeMetadata at h
  split at h
  · cases h
    exact (Quiet.refl s).durable mirror
  rename_i valid
  replace valid : validFilename f = true := by simpa using valid
  obtain ⟨components, -, -⟩ := valid_filename valid
  split at h
  · rename_i failed
    cases h
    exact (Quiet.looked (Disk.call_error failed)).durable mirror
  · rename_i disk removed
    cases h
    have absent : s.disk.tree.content (physical f) = none := by
      have done := (Disk.call_ok removed).1
      unfold FileTree.remove at done
      split at done
      · rename_i missing
        rw [FileTree.content, missing]
        rfl
      · split at done <;> cases done
    refine Quiet.durable mirror ⟨rfl, .call removed rfl fun _ t done => visible_of_content fun q => ?_⟩
    rw [FileTree.remove_content done]
    split
    · rename_i here
      rw [here, absent]
    · rfl
  · rename_i disk removed
    cases h
    have gone : ∀ a t, FileTree.remove (physical f) s.disk.tree = .ok (a, t) →
        visible t = Function.update (visible s.disk.tree) (key f) none := by
      intro a t done
      funext q
      by_cases here : q = key f
      · rw [here, Function.update_self, visible, components, FileTree.remove_content done, if_pos rfl, ite_self]
      · rw [Function.update_of_ne here]
        exact visible_congr (by rw [FileTree.remove_content done, if_neg (components ▸ here)])
    have last := gone _ _ (Disk.call_ok removed).1
    refine ⟨⟨fun k => ?_, fun k m found => ?_⟩, .call removed (Or.inl rfl) fun a t done => Or.inr ?_⟩
    · rw [last, Assoc.lookup_erase_ite]
      by_cases here : k = key f
      · rw [here, Function.update_self, if_pos rfl, Option.map_none]
      · rw [Function.update_of_ne here, if_neg here, mirror.files]
    · rw [Assoc.lookup_erase_ite] at found
      split at found
      · cases found
      · exact mirror.clean k m found
    · rw [gone a t done, last]

theorem makeDirectory_durable {r : Except MetadataStoreError Unit} (mirror : Mirrors s.disk.tree s.data)
    (h : makeDirectory f s = (r, s')) : Durable s s' := by
  have made : ∀ {r d₁}, s.disk.createDirectory (physical f) = (r, d₁) → Quiet s { s with disk := d₁ } :=
    fun created => ⟨rfl, .call created rfl fun _ t done => visible_of_content (FileTree.createDirectory_content done)⟩
  unfold makeDirectory at h
  split at h
  · cases h
    exact (Quiet.refl s).durable mirror
  · split at h <;> rename_i created <;> cases h <;> exact (made created).durable mirror

theorem removeDirectory_durable {r : Except MetadataStoreError Unit} (mirror : Mirrors s.disk.tree s.data)
    (h : removeDirectory f s = (r, s')) : Durable s s' := by
  unfold removeDirectory at h
  split at h
  · cases h
    exact (Quiet.refl s).durable mirror
  split at h
  · rename_i looked
    cases h
    exact (Quiet.looked (Disk.query_tree looked)).durable mirror
  · rename_i looked
    cases h
    exact (Quiet.looked (Disk.query_tree looked)).durable mirror
  · rename_i d₁ looked
    have same := Disk.query_tree looked
    split at h
    · rename_i looked'
      cases h
      exact ((Quiet.looked (s := { s with disk := d₁ }) (Disk.query_tree looked')).after_look same).durable mirror
    · rename_i looked'
      cases h
      exact ((Quiet.looked (s := { s with disk := d₁ }) (Disk.query_tree looked')).after_look same).durable mirror
    · rename_i d₂ looked'
      have same' := Disk.query_tree looked'
      -- the path is a directory, so no file goes
      have directory : d₂.tree.content (physical f) = none := by
        have kind := Disk.query_ok looked'
        simp only [Except.ok.injEq, decide_eq_true_eq] at kind
        rw [same'.1, FileTree.content, kind]
        rfl
      have removing : ∀ {r d₃}, d₂.remove (physical f) = (r, d₃) →
          Quiet ({ s with disk := d₂ } : MetadataStore) { s with disk := d₃ } :=
        fun removed => ⟨rfl, .call removed rfl fun _ t done => visible_of_content fun q => by
          rw [FileTree.remove_content done]
          split
          · rename_i here
            rw [here]
            exact directory.symm
          · rfl⟩
      refine Quiet.durable mirror (.after_look same (.after_look same' ?_))
      split at h <;> rename_i removed <;> cases h <;> exact removing removed

theorem iterate_same : ∀ {entries : List (Name × Bool)} {d d' : Disk} {r : Except Exn (List FileInfo)},
    iterate entries d = (r, d') → d'.tree = d.tree ∧ d'.trail = d.trail := by
  intro entries
  induction entries with
  | nil =>
      intro d d' r h
      cases h
      exact ⟨rfl, rfl⟩
  | cons entry entries ih =>
      intro d d' r h
      unfold iterate at h
      split at h
      · rename_i stepped
        cases h
        exact Disk.settle_tree stepped
      · rename_i d₁ stepped
        have same := Disk.settle_tree stepped
        split at h <;> rename_i iterated <;> cases h
        · exact ⟨(ih iterated).1.trans same.1, (ih iterated).2.trans same.2⟩
        · exact ⟨(ih iterated).1.trans same.1, (ih iterated).2.trans same.2⟩

theorem list_same {r : Except Exn (Except MetadataStoreError (List FileInfo))} (h : list f s = (r, s')) :
    s'.data = s.data ∧ s'.disk.tree = s.disk.tree ∧ s'.disk.trail = s.disk.trail := by
  unfold list at h
  split at h
  · rename_i looked
    cases h
    exact ⟨rfl, Disk.settle_tree looked⟩
  rename_i d₁ looked
  obtain ⟨tree₁, trail₁⟩ := Disk.settle_tree looked
  split at h
  · rename_i looked'
    cases h
    obtain ⟨tree₂, trail₂⟩ := Disk.settle_tree looked'
    exact ⟨rfl, tree₂.trans tree₁, trail₂.trans trail₁⟩
  rename_i d₂ looked'
  obtain ⟨tree₂, trail₂⟩ := Disk.settle_tree looked'
  split at h
  · cases h
    exact ⟨rfl, tree₂.trans tree₁, trail₂.trans trail₁⟩
  split at h
  · rename_i opened
    cases h
    obtain ⟨tree₃, trail₃⟩ := Disk.settle_tree opened
    exact ⟨rfl, tree₃.trans (tree₂.trans tree₁), trail₃.trans (trail₂.trans trail₁)⟩
  rename_i d₃ opened
  obtain ⟨tree₃, trail₃⟩ := Disk.settle_tree opened
  split at h <;> rename_i iterated <;> cases h <;> obtain ⟨tree₄, trail₄⟩ := iterate_same iterated
  · exact ⟨rfl, tree₄.trans (tree₃.trans (tree₂.trans tree₁)), trail₄.trans (trail₃.trans (trail₂.trans trail₁))⟩
  · exact ⟨rfl, tree₄.trans (tree₃.trans (tree₂.trans tree₁)), trail₄.trans (trail₃.trans (trail₂.trans trail₁))⟩

theorem list_quiet {r : Except Exn (Except MetadataStoreError (List FileInfo))} (h : list f s = (r, s')) :
    Quiet s s' := by
  obtain ⟨data, same⟩ := list_same h
  exact ⟨data, .of_same same rfl⟩

/-! ## Renaming -/

section Move

variable {entries : List RenamedEntry} {data : Assoc FilePath FileMetadata}

/-- Moving entries with distinct keys to distinct free keys. -/
theorem moveEntries_ok (found : ∀ e ∈ entries, (data.lookup e.oldEntry).isSome = true)
    (olds : (entries.map (·.oldEntry)).Nodup) (news : (entries.map (·.newEntry)).Nodup)
    (free : ∀ e ∈ entries, data.lookup e.newEntry = none) :
    ∃ data', moveEntries entries data = (.ok (), data') ∧
      (∀ e ∈ entries, data'.lookup e.newEntry =
        (data.lookup e.oldEntry).map fun m => { m with path := e.newPath }) ∧
      ∀ q, (∀ e ∈ entries, e.newEntry ≠ q) →
        data'.lookup q = if ∃ e ∈ entries, e.oldEntry = q then none else data.lookup q := by
  induction entries generalizing data with
  | nil => exact ⟨data, rfl, by simp, by simp⟩
  | cons e rest ih =>
      obtain ⟨m, here⟩ := Option.isSome_iff_exists.1 (found e List.mem_cons_self)
      have freeHere := free e List.mem_cons_self
      rw [List.map_cons, List.nodup_cons] at olds news
      have notOld : ∀ e' ∈ rest, e'.oldEntry ≠ e.oldEntry := fun e' mem same =>
        olds.1 (same ▸ List.mem_map_of_mem mem)
      have notNew : ∀ e' ∈ rest, e'.newEntry ≠ e.newEntry := fun e' mem same =>
        news.1 (same ▸ List.mem_map_of_mem mem)
      have apart : ∀ e' ∈ rest, e'.oldEntry ≠ e.newEntry := fun e' mem same => by
        have some := found e' (List.mem_cons_of_mem _ mem)
        rw [same, freeHere] at some
        cases some
      have lookup : ∀ q, ((data.erase e.oldEntry).insert e.newEntry { m with path := e.newPath }).lookup q =
          if q = e.newEntry then some { m with path := e.newPath } else if q = e.oldEntry then none
          else data.lookup q := fun q => by rw [Assoc.lookup_insert_ite, Assoc.lookup_erase_ite]
      obtain ⟨data', run, moved, others⟩ :=
        @ih ((data.erase e.oldEntry).insert e.newEntry { m with path := e.newPath })
          (fun e' mem => by
            rw [lookup, if_neg (apart e' mem), if_neg (notOld e' mem)]
            exact found e' (List.mem_cons_of_mem _ mem))
          olds.2 news.2
          (fun e' mem => by
            rw [lookup, if_neg (notNew e' mem), free e' (List.mem_cons_of_mem _ mem), ite_self])
      refine ⟨data', ?_, fun e' mem => ?_, fun q away => ?_⟩
      · rw [moveEntries, here]
        dsimp only
        rw [if_neg, run]
        rw [Assoc.lookup_erase_ite, freeHere, ite_self]
        simp
      · rcases List.mem_cons.1 mem with rfl | mem
        · rw [others _ notNew, if_neg, lookup, if_pos rfl, here, Option.map_some]
          rintro ⟨e'', mem', same⟩
          exact apart e'' mem' same
        · rw [moved e' mem, lookup, if_neg (apart e' mem), if_neg (notOld e' mem)]
      · rw [others q fun e' mem' => away e' (List.mem_cons_of_mem _ mem'), lookup,
          if_neg (Ne.symm (away e List.mem_cons_self))]
        by_cases old : q = e.oldEntry
        · rw [if_pos old, ite_self, if_pos ⟨e, List.mem_cons_self, old.symm⟩]
        · rw [if_neg old]
          refine if_congr ?_ rfl rfl
          simp only [List.mem_cons, exists_eq_or_imp, Ne.symm old, false_or]

end Move

/-- The visible files after a file or a directory was moved. -/
theorem visible_move {old new : FilePath} (ok : t.Movable old new)
    (plainOld : PosixPath.extensionOf (old.getLastD []) ≠ tmpExtension)
    (plainNew : PosixPath.extensionOf (new.getLastD []) ≠ tmpExtension) (q : FilePath) :
    visible (t.move old new ok) q =
      if new <+: q then visible t (old ++ q.drop new.length) else if old <+: q then none else visible t q := by
  simp only [visible, FileTree.content, FileTree.kind_move]
  by_cases pre : new <+: q
  · obtain ⟨r, rfl⟩ := pre
    rw [if_pos (List.prefix_append _ _), if_pos (List.prefix_append _ _), List.drop_left]
    by_cases top : r = []
    · subst top
      rw [List.append_nil, List.append_nil, if_neg plainNew, if_neg plainOld]
    · rw [getLastD_append top, getLastD_append top]
  · rw [if_neg pre, if_neg pre]
    by_cases under : old <+: q
    · rw [if_pos under, if_pos under, Option.bind_none, ite_self]
    · rw [if_neg under, if_neg under]

/-- `entries` says where `new` takes the records at and below `old`. -/
structure Covers (data : Assoc FilePath FileMetadata) (old new : FilePath) (entries : List RenamedEntry) : Prop where
  olds : (entries.map (·.oldEntry)).Nodup
  sound : ∀ e ∈ entries, (data.lookup e.oldEntry).isSome = true ∧ ∃ r, e.oldEntry = old ++ r ∧ e.newEntry = new ++ r
  complete : ∀ r, (data.lookup (old ++ r)).isSome = true → ∃ e ∈ entries, e.oldEntry = old ++ r

/-- Every record has its file. -/
def Filed (t : FileTree) (data : Assoc FilePath FileMetadata) : Prop :=
  ∀ k, (data.lookup k).isSome = true → (t.content k).isSome = true

theorem Mirrors.filed {data : Assoc FilePath FileMetadata} (mirror : Mirrors t data) : Filed t data := by
  intro k some
  obtain ⟨m, found⟩ := Option.isSome_iff_exists.1 some
  rw [(mirror.found found).1]
  rfl

section Rename

variable {entries : List RenamedEntry}

/-- No record lies where nothing lies. -/
theorem Filed.none_below {data : Assoc FilePath FileMetadata} {p : FilePath} (filed : Filed t data) (free : t.kind p = none)
    (r : FilePath) : data.lookup (p ++ r) = none := by
  rw [← Option.not_isSome_iff_eq_none]
  intro some
  have gone : t.kind (p ++ r) = none := by
    by_cases top : r = []
    · rw [top, List.append_nil, free]
    · exact t.kind_below_none (by rw [free]; simp) top
  have file := filed _ some
  rw [FileTree.content, gone] at file
  cases file

theorem Covers.news {data : Assoc FilePath FileMetadata} {old new : FilePath} (covers : Covers data old new entries) :
    (entries.map (·.newEntry)).Nodup := by
  rw [List.nodup_map_iff_inj_on (List.Nodup.of_map _ covers.olds)]
  intro e mem e' mem' same
  obtain ⟨-, r, old₁, new₁⟩ := covers.sound e mem
  obtain ⟨-, r', old₂, new₂⟩ := covers.sound e' mem'
  have r_eq : r = r' := List.append_cancel_left (new₁.symm.trans (same.trans new₂))
  exact List.inj_on_of_nodup_map covers.olds mem mem' (by rw [old₁, old₂, r_eq])

/-- Entries whose new paths are unused can be moved. -/
theorem Covers.moveEntries_ok {data : Assoc FilePath FileMetadata} {old new : FilePath}
    (covers : Covers data old new entries)
    (unused : ¬ (entries.any fun entry => (data.lookup entry.newEntry).isSome) = true) :
    ∃ data', moveEntries entries data = (.ok (), data') ∧
      (∀ e ∈ entries, data'.lookup e.newEntry =
        (data.lookup e.oldEntry).map fun m => { m with path := e.newPath }) ∧
      ∀ q, (∀ e ∈ entries, e.newEntry ≠ q) →
        data'.lookup q = if ∃ e ∈ entries, e.oldEntry = q then none else data.lookup q := by
  refine MetadataStore.moveEntries_ok (fun e mem => (covers.sound e mem).1) covers.olds covers.news fun e mem => ?_
  rw [← Option.not_isSome_iff_eq_none]
  exact fun taken => unused (List.any_eq_true.2 ⟨e, mem, taken⟩)

/-- Where the records are after the entries were moved to paths at which there was nothing. -/
structure Moved (old new : FilePath) (entries : List RenamedEntry) (data data' : Assoc FilePath FileMetadata) : Prop where
  under : ∀ r m, data.lookup (old ++ r) = some m →
    ∃ e ∈ entries, e.newEntry = new ++ r ∧ data'.lookup (new ++ r) = some { m with path := e.newPath }
  missing : ∀ r, data.lookup (old ++ r) = none → data'.lookup (new ++ r) = none
  others : ∀ q, ¬ new <+: q → data'.lookup q = if old <+: q then none else data.lookup q

theorem Covers.moved {data : Assoc FilePath FileMetadata} {old new : FilePath} (covers : Covers data old new entries)
    (empty : ∀ r, data.lookup (new ++ r) = none) :
    ∃ data', moveEntries entries data = (.ok (), data') ∧ Moved old new entries data data' := by
  have unused : ¬ (entries.any fun entry => (data.lookup entry.newEntry).isSome) = true := by
    intro taken
    obtain ⟨e, mem, taken⟩ := List.any_eq_true.1 taken
    obtain ⟨-, r, -, target⟩ := covers.sound e mem
    rw [target, empty] at taken
    cases taken
  obtain ⟨data', run, moved, others⟩ := covers.moveEntries_ok unused
  refine ⟨data', run, fun r m found => ?_, fun r missing => ?_, fun q out => ?_⟩
  · obtain ⟨e, mem, source⟩ := covers.complete r (by rw [found]; rfl)
    obtain ⟨-, r', source', target⟩ := covers.sound e mem
    obtain rfl : r' = r := List.append_cancel_left (source'.symm.trans source)
    have there := moved e mem
    rw [target, source, found] at there
    exact ⟨e, mem, target, there⟩
  · rw [others, empty, ite_self]
    intro e mem same
    obtain ⟨some, r', source, target⟩ := covers.sound e mem
    obtain rfl : r' = r := List.append_cancel_left (target.symm.trans same)
    rw [source, missing] at some
    cases some
  · rw [others]
    · by_cases below : old <+: q
      · obtain ⟨r, rfl⟩ := below
        rw [if_pos (List.prefix_append _ _)]
        split
        · rfl
        · rename_i unlisted
          rw [← Option.not_isSome_iff_eq_none]
          exact fun some => unlisted (covers.complete r some)
      · rw [if_neg below, if_neg]
        rintro ⟨e, mem, rfl⟩
        obtain ⟨-, r', source, -⟩ := covers.sound e mem
        exact below (source ▸ List.prefix_append _ _)
    · intro e mem same
      obtain ⟨-, r', -, target⟩ := covers.sound e mem
      exact out (same ▸ target ▸ List.prefix_append _ _)

theorem renameEntries_durable {r : Except MetadataStoreError Unit} (mirror : Mirrors s.disk.tree s.data)
    (validOld : validFilename f = true) (validNew : validFilename g = true) (ne : key f ≠ key g)
    (free : s.disk.tree.kind (key g) = none) (covers : Covers s.data (key f) (key g) entries)
    (h : renameEntries f g entries s = (r, s')) : Durable s s' := by
  obtain ⟨componentsOld, -, plainOld⟩ := valid_filename validOld
  obtain ⟨componentsNew, -, plainNew⟩ := valid_filename validNew
  rw [← componentsOld] at plainOld
  rw [← componentsNew] at plainNew
  unfold renameEntries at h
  split at h
  · cases h
    exact (Quiet.refl s).durable mirror
  rename_i unused
  split at h
  · rename_i failed
    cases h
    exact (Quiet.looked (Disk.call_error failed)).durable mirror
  · rename_i disk renamed
    rw [← componentsOld, ← componentsNew] at renamed
    obtain ⟨data', run, moved⟩ := covers.moved (mirror.filed.none_below free)
    rw [run] at h
    cases h
    have shown : ∀ a t, FileTree.rename (key f) (key g) s.disk.tree = .ok (a, t) → ∀ q,
        visible t q =
          if key g <+: q then visible s.disk.tree (key f ++ q.drop (key g).length)
          else if key f <+: q then none else visible s.disk.tree q := by
      intro a t done q
      obtain ⟨-, ok, -, rfl, -, -⟩ := FileTree.rename_ok ne done
      exact visible_move ok plainOld plainNew q
    have last := shown _ _ (Disk.call_ok renamed).1
    refine ⟨⟨fun k => ?_, fun k m found => ?_⟩, .call renamed (Or.inl rfl) fun a t done => Or.inr (funext fun q => ?_)⟩
    · rw [last k]
      by_cases under : key g <+: k
      · obtain ⟨r, rfl⟩ := under
        rw [if_pos (List.prefix_append _ _), List.drop_left, mirror.files]
        cases found : s.data.lookup (key f ++ r) with
        | some m =>
            obtain ⟨e, -, -, there⟩ := moved.under r m found
            rw [there]
            rfl
        | none =>
            rw [moved.missing r found]
      · rw [if_neg under, moved.others k under]
        split
        · rfl
        · exact mirror.files k
    · by_cases under : key g <+: k
      · obtain ⟨r, rfl⟩ := under
        cases source : s.data.lookup (key f ++ r) with
        | some m₀ =>
            obtain ⟨e, -, -, there⟩ := moved.under r m₀ source
            obtain rfl := Option.some.inj (there.symm.trans found)
            have clean := mirror.clean _ _ source
            exact ⟨clean.objId, clean.first, clean.second, clean.small⟩
        | none =>
            rw [moved.missing r source] at found
            cases found
      · rw [moved.others k under] at found
        split at found
        · cases found
        · exact mirror.clean k m found
    · rw [shown a t done q, last q]

theorem covers_file (filed : Filed s.disk.tree s.data) (file : (s.disk.tree.content (key f)).isSome = true)
    (known : (s.data.lookup (key f)).isSome = true) :
    Covers s.data (key f) (key g) [{ oldEntry := key f, newEntry := key g, newPath := g }] := by
  refine ⟨by simp, ?_, fun r some => ?_⟩
  · intro e mem
    obtain rfl := List.mem_singleton.1 mem
    exact ⟨known, [], by simp, by simp⟩
  · by_cases top : r = []
    · exact ⟨_, List.mem_singleton_self _, by rw [top, List.append_nil]⟩
    · -- nothing lies below a file
      obtain ⟨b, isFile⟩ := Option.isSome_iff_exists.1 file
      have content := filed _ some
      rw [FileTree.content, s.disk.tree.kind_below_none (by rw [FileTree.content_eq_some.1 isFile]; simp) top] at content
      cases content

theorem covers_directory (unlisted : s.data.lookup (key f) = none) :
    Covers s.data (key f) (key g) (renamedEntries f g s.data) := by
  have listed : ∀ e ∈ renamedEntries f g s.data, ∃ k ∈ s.data.keys, key f <+: k ∧ renamedEntry f g k = e := by
    intro e mem
    obtain ⟨k, mem', rfl⟩ := List.mem_map.1 mem
    rw [List.mem_filter] at mem'
    exact ⟨k, mem'.1, by simpa using mem'.2, rfl⟩
  have known : ∀ k ∈ s.data.keys, (s.data.lookup k).isSome = true := fun k mem =>
    AList.lookup_isSome.2 mem
  refine ⟨?_, fun e mem => ?_, fun r some => ?_⟩
  · rw [renamedEntries, List.map_map]
    have same : ((fun e : RenamedEntry => e.oldEntry) ∘ renamedEntry f g) = id := rfl
    rw [same, List.map_id]
    exact s.data.keys_nodup.filter _
  · obtain ⟨k, mem', ⟨r, rfl⟩, rfl⟩ := listed e mem
    refine ⟨known _ mem', r, rfl, ?_⟩
    have below : r ≠ [] := by
      rintro rfl
      have some := known _ mem'
      rw [List.append_nil, unlisted] at some
      cases some
    simp [renamedEntry, below]
  · refine ⟨renamedEntry f g (key f ++ r), List.mem_map_of_mem (List.mem_filter.2 ⟨?_, ?_⟩), rfl⟩
    · exact AList.lookup_isSome.1 some
    · simp

/-- A `rename` stops after looks that change nothing, or moves entries that cover what it renames. -/
theorem rename_cases {r : Except MetadataStoreError Unit} (filed : Filed s.disk.tree s.data)
    (h : rename f g s = (r, s')) :
    (s'.data = s.data ∧ s'.disk.tree = s.disk.tree ∧ s'.disk.trail = s.disk.trail ∧ (r = .ok () → key f = key g)) ∨
      ∃ d entries, d.tree = s.disk.tree ∧ d.trail = s.disk.trail ∧ validFilename f = true ∧ validFilename g = true ∧
        key f ≠ key g ∧ d.tree.kind (key g) = none ∧ Covers s.data (key f) (key g) entries ∧
        (entries = [{ oldEntry := key f, newEntry := key g, newPath := g }] ∨ entries = renamedEntries f g s.data) ∧
        renameEntries f g entries { s with disk := d } = (r, s') := by
  unfold rename at h
  split at h
  · cases h
    exact Or.inl ⟨rfl, rfl, rfl, by simp⟩
  rename_i valid
  simp only [not_or, Bool.not_eq_false] at valid
  obtain ⟨validOld, validNew⟩ := valid
  split at h
  · rename_i looked
    cases h
    exact Or.inl ⟨rfl, (Disk.query_tree looked).1, (Disk.query_tree looked).2, by simp⟩
  · rename_i looked
    cases h
    exact Or.inl ⟨rfl, (Disk.query_tree looked).1, (Disk.query_tree looked).2, by simp⟩
  rename_i d₁ looked₁
  obtain ⟨tree₁, trail₁⟩ := Disk.query_tree looked₁
  split at h
  · cases h
    rename_i same
    exact Or.inl ⟨rfl, tree₁, trail₁, fun _ => same⟩
  rename_i ne
  split at h
  · rename_i looked
    cases h
    obtain ⟨tree, trail⟩ := Disk.query_tree looked
    exact Or.inl ⟨rfl, tree.trans tree₁, trail.trans trail₁, by simp⟩
  rename_i exists' d₂ looked₂
  obtain ⟨tree₂, trail₂⟩ := Disk.query_tree looked₂
  replace trail₂ := trail₂.trans trail₁
  split at h
  · cases h
    exact Or.inl ⟨rfl, tree₂.trans tree₁, trail₂, by simp⟩
  rename_i available
  simp only [Bool.or_eq_true, not_or, Bool.not_eq_true] at available
  split at h
  · rename_i looked
    cases h
    obtain ⟨tree, trail⟩ := Disk.query_tree looked
    exact Or.inl ⟨rfl, tree.trans (tree₂.trans tree₁), trail.trans trail₂, by simp⟩
  rename_i isDirectory d₃ looked₃
  obtain ⟨tree₃, trail₃⟩ := Disk.query_tree looked₃
  replace trail₃ := trail₃.trans trail₂
  split at h
  · rename_i looked
    cases h
    obtain ⟨tree, trail⟩ := Disk.query_tree looked
    exact Or.inl ⟨rfl, tree.trans (tree₃.trans (tree₂.trans tree₁)), trail.trans trail₃, by simp⟩
  rename_i isFile d₄ looked₄
  obtain ⟨tree₄, trail₄⟩ := Disk.query_tree looked₄
  replace trail₄ := trail₄.trans trail₃
  have tree : d₄.tree = s.disk.tree := tree₄.trans (tree₃.trans (tree₂.trans tree₁))
  have componentsOld := (valid_filename validOld).1
  have componentsNew := (valid_filename validNew).1
  -- what the looks have found out about the tree, which none of them changed
  have file := Disk.query_ok looked₄
  rw [← tree₄, ← componentsOld, Except.ok.injEq] at file
  have free : d₄.tree.kind (key g) = none := by
    have absent := Disk.query_ok looked₂
    rw [Except.ok.injEq, available.1] at absent
    rw [Option.isSome_eq_false_iff, Option.isNone_iff_eq_none, ← tree₂, ← tree₃, ← tree₄] at absent
    rw [componentsNew, absent]
  replace filed : Filed d₄.tree s.data := tree ▸ filed
  split at h
  · cases h
    exact Or.inl ⟨rfl, tree, trail₄, by simp⟩
  rename_i kinds
  split at h
  · rename_i isFile'
    split at h
    · cases h
      exact Or.inl ⟨rfl, tree, trail₄, by simp⟩
    · rename_i known
      refine Or.inr ⟨d₄, _, tree, trail₄, validOld, validNew, ne, free, ?_, Or.inl rfl, h⟩
      refine covers_file (s := { s with disk := d₄ }) filed (file.trans isFile') ?_
      simpa [Option.isSome_iff_ne_none] using known
  · rename_i notFile
    refine Or.inr ⟨d₄, _, tree, trail₄, validOld, validNew, ne, free, ?_, Or.inr rfl, h⟩
    refine covers_directory (s := { s with disk := d₄ }) ?_
    rw [← Option.not_isSome_iff_eq_none]
    intro known
    have there := filed _ known
    rw [file] at there
    exact notFile there

theorem rename_durable {r : Except MetadataStoreError Unit} (mirror : Mirrors s.disk.tree s.data)
    (h : rename f g s = (r, s')) : Durable s s' := by
  rcases rename_cases mirror.filed h with ⟨data, sameTree, sameTrail, -⟩ | ⟨d, entries, tree, trail, validOld, validNew, ne, free, covers, -, run⟩
  · exact Quiet.durable mirror ⟨data, .of_same ⟨sameTree, sameTrail⟩ rfl⟩
  · replace mirror : Mirrors d.tree s.data := tree ▸ mirror
    exact (renameEntries_durable (s := { s with disk := d }) mirror validOld validNew ne free covers run).after_look
      ⟨tree, trail⟩

/-- A `rename` that fails has changed nothing. -/
theorem rename_error {e : MetadataStoreError} (filed : Filed s.disk.tree s.data)
    (h : rename f g s = (.error e, s')) :
    s'.data = s.data ∧ s'.disk.tree = s.disk.tree ∧ s'.disk.trail = s.disk.trail := by
  rcases rename_cases filed h with ⟨data, tree, trail, -⟩ | ⟨d, entries, tree, trail, -, -, -, -, covers, -, run⟩
  · exact ⟨data, tree, trail⟩
  unfold renameEntries at run
  split at run
  · cases run
    exact ⟨rfl, tree, trail⟩
  rename_i unused
  split at run
  · rename_i failed
    cases run
    exact ⟨rfl, (Disk.call_error failed).1.trans tree, (Disk.call_error failed).2.trans trail⟩
  · -- the entries can all be moved once the file call has succeeded
    obtain ⟨data', moved, -⟩ := covers.moveEntries_ok unused
    rw [moved] at run
    cases run

end Rename

end MetadataStore

end Dfs
