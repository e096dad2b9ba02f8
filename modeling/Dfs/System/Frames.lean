import Dfs.Metadata.FrameSizes
import Dfs.System.Orderly

/-!
# Frames along a run

Object ids stay short along every run, also across restarts, so the only frames that may be too
large for their connection are the two responses of `MetadataWorker.Overflows`. Clients that do
nothing unusual can fill a directory until its listing is one of them.
-/

namespace Dfs

open Lib

namespace System

open MetadataStore MetadataWorker MetadataState

variable {s s' : System} {e : NodeEvent} {events : List NodeEvent}

/-- What every step keeps, also one that ends the process. -/
structure Terse (s : System) : Prop where
  sturdy : s.Sturdy
  short : s.worker.All ShortId

theorem allows_short (env : Env) (w : MetadataWorker) : w.Allows env ShortId :=
  ⟨ObjectId.length_generate.le, fun _ _ _ short _ _ => short⟩

theorem handled_short {event : ClientEvent} {env : Env} {script : List (List Act)} (terse : s.Terse)
    (h : MetadataState.handle env event (s.scripted script) = (.ok (), s')) : s'.worker.All ShortId :=
  handle_all (s := s.scripted script) terse.short (allows_short env _).admits h

theorem next_terse (terse : s.Terse) (heard : e.From NodeClean) (h : s.nextNode e = .ok s') : s'.Terse := by
  refine ⟨next_sturdy terse.sturdy heard h, ?_⟩
  have restart : ∀ {w : MetadataWorker}, Restarted w.store.data s' → w.All ShortId → s'.worker.All ShortId :=
    fun restarted short x r names => short x r (restarted.names names)
  have same : s'.worker.store.data = s.worker.store.data → s'.worker.pendingWrites = s.worker.pendingWrites →
      s'.worker.pendingReads = s.worker.pendingReads → s'.worker.All ShortId :=
    fun data writes reads x r names => terse.short x r (names.same data writes reads)
  cases e with
  | step e =>
      cases e with
      | request event env script =>
          simp only [nextNode, next] at h
          split at h
          · cases h
          · rename_i s₁ handled
            cases h
            exact handled_short terse handled
      | storage acts =>
          cases h
          exact terse.short
      | heartbeat now sender =>
          cases h
          exact same rfl rfl rfl
      | checkTimeouts now =>
          cases h
          exact same rfl rfl rfl
  | restart outcomes => exact restart (restarted_spec terse.sturdy.mirrored h) terse.short
  | crash event env script point outcomes =>
      rcases terse.sturdy.passed (passed_getD_mem _ _ point) with mirror | ⟨s₁, handled, mirror⟩
      · exact restart (restarted_spec mirror h) terse.short
      · exact restart (restarted_spec mirror h) (handled_short terse handled)

theorem Blank.terse (blank : s.Blank) : s.Terse := by
  refine ⟨blank.sturdy, fun x r names => ?_⟩
  obtain ⟨k, m, found, -, -⟩ := blank.fresh.names names
  simp [blank.records] at found

/-- In every state that a run with restarts leads to, all that a handler sends fits in a frame exactly
if its response is neither too long a listing nor too long a `FileStat`. What storage nodes
answer always fits. -/
theorem frames_fit (blank : s.Blank) (heard : ∀ e ∈ events, e.From NodeClean) (h : s.runNode events = .ok s') :
    (∀ (ν : Type) [Network ν] (n : ν) (env : Env) (event : ClientEvent),
      AllFit env event s'.worker n ↔ ¬ (s'.worker.withOutcomes env.outcomes).Overflows event) ∧
    ∀ (w : StorageWorker) (event : StorageEvent), (w.handle event).1.Fits := by
  have terse := run_keeps (P := Terse) (fun _ _ e mem terse stepped => next_terse terse (heard e mem) stepped) blank.terse h
  exact ⟨fun ν _ n env event => allFit_iff terse.short, fun w event => w.handle_fits event⟩

/-! ## A directory with many files -/

/-- One of `2 ^ 200` names of 200 letters. -/
def entryName (i : Nat) : Name := (List.range 200).map fun j => if i.testBit j then 98 else 97

/-- A client creates a file in the root. -/
def createEntry (i : Nat) : SystemEvent :=
  .request (.createFile { path := entryName i, context := fromClient i.toUInt64 }) { first := i.toUInt64 } []

/-- The record of a new file. -/
def emptyEntry (i : Nat) : FileMetadata :=
  { path := entryName i, size := 0, objId := ObjectId.generate i.toUInt64 0, replicaLocations := ([], []) }

def crowd (k : Nat) : List NodeEvent := (List.range k).map fun i => .step (createEntry i)

theorem entryName_length (i : Nat) : (entryName i).length = 200 := by simp [entryName]

theorem entryName_letters {i : Nat} {b : UInt8} (mem : b ∈ entryName i) : b = 98 ∨ b = 97 := by
  obtain ⟨j, -, rfl⟩ := List.mem_map.1 mem
  split
  · exact .inl rfl
  · exact .inr rfl

theorem entryName_plain (i : Nat) : PosixPath.PlainName (entryName i) := by
  have length := entryName_length i
  refine ⟨?_, fun mem => ?_, ?_, ?_⟩
  · intro empty
    simp [empty] at length
  · rcases entryName_letters mem with same | same <;> cases same
  · intro same
    simp [same, PosixPath.dotName] at length
  · intro same
    simp [same, PosixPath.dotDotName] at length

theorem entryName_extension (i : Nat) : PosixPath.extensionOf (entryName i) ≠ tmpExtension := by
  have noDot : (entryName i).reverse.takeWhile (· ≠ PosixPath.dot) = (entryName i).reverse := by
    rw [List.takeWhile_eq_self_iff]
    intro b mem
    rcases entryName_letters (List.mem_reverse.1 mem) with rfl | rfl <;> decide
  have plain := entryName_plain i
  rw [PosixPath.extensionOf, if_neg (not_or.2 ⟨plain.notDot, plain.notDotDot⟩)]
  dsimp only
  rw [noDot, if_pos (by simp)]
  decide

theorem entryName_inj {i j : Nat} (smallI : i < 2 ^ 200) (smallJ : j < 2 ^ 200) (same : entryName i = entryName j) : i = j := by
  refine Nat.eq_of_testBit_eq fun b => ?_
  by_cases small : b < 200
  · have each := List.map_inj_left.1 same b (List.mem_range.2 small)
    cases here : i.testBit b <;> cases there : j.testBit b <;> simp [here, there] at each ⊢
  · have large : 2 ^ 200 ≤ 2 ^ b := Nat.pow_le_pow_right (by decide) (by omega)
    rw [Nat.testBit_lt_two_pow (smallI.trans_le large), Nat.testBit_lt_two_pow (smallJ.trans_le large)]

/-- The root holds the first `k` files and nothing else. -/
structure Crowded (s : System) (k : Nat) : Prop where
  neat : s.Neat
  known : ∀ j < k, (s.worker.store.data.lookup [entryName j]).isSome = true
  only : ∀ q v, s.worker.store.disk.tree.kind q = some v → q = [] ∨ ∃ j < k, q = [entryName j]

theorem Crowded.absent {k : Nat} (crowded : s.Crowded k) (small : k < 2 ^ 200) :
    s.worker.store.disk.tree.kind [entryName k] = none := by
  by_contra there
  obtain ⟨v, there⟩ := Option.ne_none_iff_exists'.1 there
  rcases crowded.only _ v there with empty | ⟨j, below, same⟩
  · cases empty
  · have equal := entryName_inj small (below.trans small) (List.head_eq_of_cons_eq same)
    omega

theorem Crowded.writable {k : Nat} (crowded : s.Crowded k) (small : k < 2 ^ 200) :
    Writable s.worker.store.disk.tree [entryName k] := by
  refine ⟨fun q mem => ?_, by simp [crowded.absent small], fun dir => ?_⟩
  · rw [List.prefix_nil.1 ((List.mem_inits q []).1 mem)]
    rfl
  · rcases crowded.only _ _ dir with empty | ⟨j, -, same⟩
    · cases empty
    · have length := congrArg List.length (List.head_eq_of_cons_eq same)
      simp [entryName_length, tmpExtension] at length

theorem crowded_next {k : Nat} (crowded : s.Crowded k) (small : k < 2 ^ 200) :
    ∃ s', s.next (createEntry k) = .ok s' ∧ s'.Crowded (k + 1) := by
  have plain := entryName_plain k
  have valid := valid_name plain (entryName_extension k)
  have physical := physical_name plain
  have key : key (entryName k) = [entryName k] := (valid_filename valid).1.trans physical
  have quiet : (s.worker.withOutcomes []).store.disk.Healthy 0 := nofun
  obtain ⟨store, added, here⟩ := addMetadata_healthy (s := (s.worker.withOutcomes []).store)
    (m := emptyEntry k) ⟨0⟩ valid quiet (by decide) (physical ▸ crowded.absent small) (physical ▸ crowded.writable small)
  obtain ⟨s', stepped, stored⟩ : ∃ s', s.next (createEntry k) = .ok s' ∧ s'.worker.store = store :=
    ⟨_, rfl, congrArg Prod.snd added⟩
  refine ⟨s', stepped, next_neat crowded.neat (e := createEntry k) trivial nofun stepped, ?_, ?_⟩
  · intro j below
    rw [stored]
    by_cases same : j = k
    · rwa [same, ← key]
    have before := crowded.known j (by omega)
    rcases ((addMetadata_data added).2 rfl).2 with data | ⟨-, m, -, data⟩
    · rwa [data]
    · rw [data, Assoc.lookup_insert_ite]
      split
      · rfl
      · exact before
  · intro q v there
    rw [stored] at there
    have origin := addMetadata_origin (o := .add ⟨0⟩ (entryName k) (emptyEntry k)) quiet (by decide) rfl added there
    cases origin with
    | kept _ before => exact (crowded.only q v before).imp_right fun ⟨j, below, same⟩ => ⟨j, by omega, same⟩
    | file _ f written valid here isFile =>
        cases written
        exact .inr ⟨k, by omega, here.trans physical⟩
    | opened _ f written valid opens dir =>
        cases written
        have under := opens.under
        rw [physical] at under
        exact .inl (List.prefix_nil.1 under)

theorem crowd_run (k : Nat) (small : k < 2 ^ 200) : ∃ s', start.runNode (crowd k) = .ok s' ∧ s'.Crowded k := by
  induction k with
  | zero =>
      have blank : start.Blank := ⟨⟨rfl, rfl, rfl⟩, rfl, rfl⟩
      refine ⟨start, rfl, blank.neat, nofun, fun q v there => .inl ?_⟩
      rw [blank.directory, FileTree.kind_empty] at there
      by_contra ne
      rw [if_neg ne] at there
      cases there
  | succ k ih =>
      obtain ⟨s, ran, crowded⟩ := ih (by omega)
      obtain ⟨s', stepped, crowded'⟩ := crowded_next crowded (by omega)
      refine ⟨s', ?_, crowded'⟩
      rw [crowd, List.range_succ, List.map_append]
      exact run_concat ran stepped

theorem Crowded.listing {k : Nat} (crowded : s.Crowded k) (small : k < 2 ^ 200) :
    15 + 202 * k ≤ listLength (s.worker.store.disk.tree.listing []) := by
  have listed : ((List.range k).map fun j => (entryName j, false)) ⊆ s.worker.store.disk.tree.listing [] := by
    intro entry mem
    obtain ⟨j, below, rfl⟩ := List.mem_map.1 mem
    obtain ⟨m, found⟩ := Option.isSome_iff_exists.1 (crowded.known j (List.mem_range.1 below))
    have file := FileTree.content_eq_some.1 (crowded.neat.sturdy.mirrored.found found).1
    exact (FileTree.mem_listing _ _ _ _).2 ⟨_, file, rfl⟩
  have once : ((List.range k).map fun j => (entryName j, false)).Nodup := by
    refine List.nodup_range.map_on fun i mem j mem' same => ?_
    exact entryName_inj ((List.mem_range.1 mem).trans small) ((List.mem_range.1 mem').trans small) (Prod.mk.inj same).1
  refine le_trans ?_ (listLength_le (List.subperm_of_subset once listed))
  simp [listLength, entryName_length, Function.comp_def]
  omega

/-- Requests to create 5200 files with names of 200 bytes fit in frames, and so does the request to list
their directory, but not its response. -/
theorem crowd_overflows :
    ∃ s', start.runNode (crowd 5200) = .ok s' ∧
      (∀ id i context, (ClientProtocol.encodeCreateFileRequest id { path := entryName i, context }).Fits) ∧
      (∀ id context, (ClientProtocol.encodeListRequest id { path := [], context }).Fits) ∧
      ∀ (ν : Type) [Network ν] (n : ν), ¬ AllFit {} (.list { path := [], context := fromClient 0 }) s'.worker n := by
  have small : 5200 < 2 ^ 200 := by decide
  obtain ⟨s', ran, crowded⟩ := crowd_run 5200 small
  refine ⟨s', ran, fun id i context => ?_, fun id context => ?_, fun ν _ n all => ?_⟩
  · rw [Frame.fits_iff, ClientProtocol.encodeCreateFileRequest, Rpc.makeFrame_length]
    simp [write, entryName_length, maxMessageSize]
  · rw [Frame.fits_iff, ClientProtocol.encodeListRequest, Rpc.makeFrame_length]
    simp [write, maxMessageSize]
  · have quiet : (s'.worker.withOutcomes []).store.disk.Healthy 0 := fun _ mem => absurd mem List.not_mem_nil
    have long := crowded.listing small
    have lists : (s'.worker.withOutcomes []).store.Lists [] (s'.worker.store.disk.tree.listing []) :=
      ⟨rfl, fun i _ => not_fails quiet i⟩
    have overflows : (s'.worker.withOutcomes []).Overflows (.list { path := [], context := fromClient 0 }) :=
      ⟨_, lists, by rw [maxMessageSize]; omega⟩
    obtain ⟨entry, sent, large⟩ := overflows_sent n (show (s'.worker.withOutcomes ({} : Env).outcomes).Overflows _ from overflows)
    exact large (all entry sent)

theorem frames_fit_crowd : ∃ s', start.runNode (crowd 1) = .ok s' ∧
    AllFit {} (.createFile { path := [102], context := fromClient 1 }) s'.worker s'.network := by
  obtain ⟨s', ran, -⟩ := crowd_run 1 (by decide)
  exact ⟨s', ran, ((frames_fit ⟨⟨rfl, rfl, rfl⟩, rfl, rfl⟩ (by decide) ran).1 _ s'.network {} _).2 id⟩

end System

end Dfs
