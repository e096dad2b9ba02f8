import Dfs.Storage.Isolation

/-!
# Generated ids as names of objects

The ids that the metadata node draws name objects that storage nodes accept, and the objects
of two draws are told apart by every bit that the generator does not fix.
-/

namespace Dfs

open Lib

namespace StorageWorker

theorem generated_generate (first second : UInt64) : Generated (ObjectId.generate first second) := ⟨first, second, rfl⟩

/-- The ids are accepted, hold neither NUL nor `.`, and keep every bit of the outputs but six. -/
theorem generated_usable (first second first' second' : UInt64) :
    validObjectId (ObjectId.generate first second) = true ∧
      (0 : UInt8) ∉ ObjectId.generate first second ∧ (46 : UInt8) ∉ ObjectId.generate first second ∧
      (ObjectId.generate first second = ObjectId.generate first' second' ↔
        ∀ k < 128, k ∉ ObjectId.fixedBits → ObjectId.outputBit first second k = ObjectId.outputBit first' second' k) := by
  have generated := generated_generate first second
  refine ⟨valid_generated generated, generated.nulFree, ?_, ObjectId.generate_inj⟩
  apply ObjectId.not_mem_generate
  simp [ObjectId.Plain]

/-- No generated id is the name of a temporary file. -/
theorem apart_generated {a b : Bytes} (here : Generated a) (there : Generated b) : Apart a b := by
  have longer : ∀ {x y : Bytes}, Generated x → Generated y → x ≠ y ++ tmpSuffix := by
    intro x y hx hy same
    have length := congrArg List.length same
    rw [List.length_append, hx.length, hy.length] at length
    simp [tmpSuffix] at length
  exact ⟨longer here there, longer there here⟩

/-- Outputs that differ in a bit that is kept name objects whose requests do not touch each other. -/
theorem isolated_generated {first second first' second' : UInt64} {k : Nat} (within : k < 128)
    (free : k ∉ ObjectId.fixedBits) (differ : ObjectId.outputBit first second k ≠ ObjectId.outputBit first' second' k) :
    Isolated (ObjectId.generate first second) (ObjectId.generate first' second') ∧
      Commute (ObjectId.generate first second) (ObjectId.generate first' second') := by
  have apart := apart_generated (generated_generate first second) (generated_generate first' second')
  have ne : ObjectId.generate first second ≠ ObjectId.generate first' second' := fun same =>
    differ (ObjectId.generate_inj.1 same k within free)
  exact ⟨apart.isolated ne, apart.commute ne⟩

end StorageWorker

end Dfs
