import Std.Data.HashMap

/-!
# Factbase.Store.Index

Hashed indexes: the positions filed under each key, in the order in which they were filed.
-/

namespace Factbase.Store

/-- The positions filed under each key. -/
structure Index (κ : Type) [BEq κ] [Hashable κ] where
  buckets : Std.HashMap κ (Array Nat)

namespace Index

variable {κ : Type} [BEq κ] [Hashable κ]

def empty : Index κ := ⟨{}⟩

def positions (index : Index κ) (key : κ) : Array Nat :=
  index.buckets.getD key #[]

/-- Files one more position under a key. -/
def file (index : Index κ) (key : κ) (position : Nat) : Index κ :=
  ⟨index.buckets.insert key ((index.positions key).push position)⟩

@[simp] theorem positions_empty (key : κ) : (empty : Index κ).positions key = #[] := by
  simp [positions, empty]

variable [EquivBEq κ] [LawfulHashable κ]

theorem positions_file (index : Index κ) (key other : κ) (position : Nat) :
    (index.file key position).positions other =
      if key == other then (index.positions key).push position else index.positions other := by
  simp [positions, file, Std.HashMap.getD_insert]

end Index

end Factbase.Store
