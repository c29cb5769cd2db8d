import Factbase.Proofs.Cell
import Factbase.Store.Index

/-!
# Factbase.Proofs.Equality

Equality of values as a key. Two values are equal when they are the same, bit for bit, or are an
integer and a reference of one number. Equality, hashing and the search of a table tell
values apart alike: an index finds under a value what was filed under equal ones, and two values
that fit a cell are equal exactly when one has a tag that the other looks for, and both have the
same cell.
-/

namespace Factbase

/-! ### Equality -/

namespace Value

/-- The number of an integer or of a reference. -/
def number? : Value → Option Int
  | int n => some n.toInt
  | ref e => some e
  | _ => none

theorem beq_iff {x y : Value} :
    (x == y) = true ↔ x = y ∨ ∃ n, x.number? = some n ∧ y.number? = some n := by
  rw [beq_iff_key_eq]
  cases x <;> cases y <;> simp [key, number?, eq_comm, Int64.toInt_inj]

theorem equivalence_beq : Equivalence fun x y : Value => (x == y) = true where
  refl _ := BEq.rfl
  symm := BEq.symm
  trans := BEq.trans

end Value

/-! ### Filing -/

namespace Store.Index

variable {κ : Type} [BEq κ] [Hashable κ]

/-- Files entries one after another. -/
def fileAll (index : Index κ) (entries : List (κ × Nat)) : Index κ :=
  entries.foldl (fun index (key, position) => index.file key position) index

variable [EquivBEq κ] [LawfulHashable κ]

theorem positions_congr (index : Index κ) {key other : κ} (same : (key == other) = true) :
    index.positions key = index.positions other :=
  Std.HashMap.getD_congr same

/-- Under a key, what is filed under equal keys comes behind what was there. -/
theorem positions_fileAll (index : Index κ) (entries : List (κ × Nat)) (key : κ) :
    ((index.fileAll entries).positions key).toList =
      (index.positions key).toList ++ (entries.filter (·.1 == key)).map (·.2) := by
  induction entries generalizing index with
  | nil => simp [fileAll]
  | cons entry rest ih =>
    show (((index.file entry.1 entry.2).fileAll rest).positions key).toList = _
    rw [ih, positions_file, List.filter_cons]
    split
    next same => simp [positions_congr index same]
    next => rfl

end Store.Index

/-! ### Searching -/

namespace Value

/-- Values that fit are equal exactly when their tags match and they have the same cell. -/
theorem beq_iff_cell {x y : Value} (hx : x.Writable) (hy : y.Writable) :
    (x == y) = true ↔ y.tag ∈ x.matchingTags ∧ x.cell = y.cell := by
  refine ⟨fun same => ⟨List.contains_iff_mem.mp (tag_of_beq same), cell_congr same⟩, ?_⟩
  rintro ⟨tags, cells⟩
  rw [beq_iff_key_eq]
  cases x <;> cases y
  case text.text s t => rw [Cell.text.inj cells]
  case int.int n m => rw [Cell.int.inj cells]
  case int.ref n e =>
    have number : n = Int64.ofNat e := Cell.int.inj cells
    rw [key, key, number, Cell.toInt_ofNat hy]
  case ref.int e n =>
    have number : Int64.ofNat e = n := Cell.int.inj cells
    rw [key, key, ← number, Cell.toInt_ofNat hx]
  case ref.ref d e =>
    have number : Int64.ofNat d = Int64.ofNat e := Cell.int.inj cells
    rw [key, key, ← Cell.toInt_ofNat hx, number, Cell.toInt_ofNat hy]
  case float.float x y => rw [Cell.real.inj cells]
  case bool.bool b c => cases b <;> cases c <;> simp [cell] at cells ⊢
  case bytes.bytes as bs => rw [Cell.blob.inj cells]
  -- a truth value has the cell of a number too, but their tags do not match
  all_goals simp [matchingTags, tag, Tag.text, Tag.int, Tag.float, Tag.bool, Tag.bytes, Tag.ref]
    at tags

end Value

/-! ### Equality as a key -/

/-- Values are equal when they are the same or have the same number, which is an equivalence. Equal
values feed the same key to the hash, so an index finds under a value exactly what was filed under
equal ones. Those that fit a cell are equal exactly when the tag of one is among the tags that the
other looks for, and the same is written for both, or written for the one and looked for in place
of the other. -/
theorem Value.beq_lawful :
    (∀ x y : Value, (x == y) = true ↔
      x = y ∨ ∃ n, x.number? = some n ∧ y.number? = some n) ∧
    (Equivalence fun x y : Value => (x == y) = true) ∧
    (∀ x y : Value, (x == y) = true → x.key = y.key ∧ hash x = hash y) ∧
    (∀ (entries : List (Value × Nat)) (x : Value),
      ((Store.Index.empty.fileAll entries).positions x).toList =
        (entries.filter (·.1 == x)).map (·.2)) ∧
    ∀ x y : Value, x.Writable → y.Writable →
      ((x == y) = true ↔ y.tag ∈ x.matchingTags ∧ Cell.toWrite x = Cell.toWrite y) ∧
      ((x == y) = true ↔ y.tag ∈ x.matchingTags ∧ Cell.toFind x = Cell.toWrite y) := by
  refine ⟨fun x y => beq_iff, equivalence_beq, fun x y same => ?_, fun entries x => ?_,
    fun x y hx hy => ?_⟩
  · exact ⟨beq_iff_key_eq.mp same, hash_eq same⟩
  · rw [Store.Index.positions_fileAll, Store.Index.positions_empty]
    rfl
  · have written : Cell.toWrite x = .ok x.cell := Cell.toWrite_eq_ok.mpr ⟨hx, rfl⟩
    have written' : Cell.toWrite y = .ok y.cell := Cell.toWrite_eq_ok.mpr ⟨hy, rfl⟩
    rw [Cell.toFind_eq hx, written, written', Except.ok.injEq]
    exact ⟨beq_iff_cell hx hy, beq_iff_cell hx hy⟩

/-- An integer finds what was filed under itself and under the reference of its number, and looks
in a table for what is written for the reference. -/
theorem Value.beq_lawful_seven :
    (int 7 == ref 7) = true ∧ hash (int 7) = hash (ref 7) ∧
      ((Store.Index.empty.fileAll [(ref 7, 0), (float (Binary64.ofInt 7), 1), (int 7, 2)]).positions
        (int 7)).toList = [0, 2] ∧
      Cell.toFind (int 7) = Cell.toWrite (ref 7) := by
  obtain ⟨equal, _, keyed, filed, stored⟩ := beq_lawful
  have same : (int 7 == ref 7) = true := (equal _ _).mpr (.inr ⟨7, rfl, rfl⟩)
  have fits : (ref 7).Writable := show 7 ≤ maxCellInt by decide
  refine ⟨same, (keyed _ _ same).2, ?_, ((stored (int 7) (ref 7) trivial fits).2.mp same).2⟩
  rw [filed]
  rfl

end Factbase
