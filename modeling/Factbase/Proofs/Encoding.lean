import Factbase.Proofs.Cell

/-!
# Factbase.Proofs.Encoding

Cells and tags are a lossless code for values. What is written for a value is also what is looked
for, and both refuse the same values; its tag reads it back from there. A tag reads more than was
ever written under it, since an integer is taken for a double or a truth value too. But what it
reads has the tag, and is written as a cell that reads the same.
-/

namespace Factbase

theorem Value.not_writable_iff {v : Value} : ¬ v.Writable ↔ ∃ e, v = .ref e ∧ maxCellInt < e := by
  cases v <;> simp [Writable]

namespace Cell

/-! ### The two encoders -/

/-- A value is written and looked for as its cell, or refused by both encoders. -/
theorem encoded_or_refused (v : Value) :
    (v.Writable ∧ toWrite v = .ok v.cell ∧ toFind v = .ok v.cell) ∨
      ∃ e, v = .ref e ∧ maxCellInt < e ∧ toWrite v = .error .tooLarge ∧
        toFind v = .error (.outOfRange e) := by
  by_cases writable : v.Writable
  · exact .inl ⟨writable, toWrite_eq_ok.mpr ⟨writable, rfl⟩, toFind_eq writable⟩
  · obtain ⟨e, rfl, large⟩ := Value.not_writable_iff.mp writable
    refine .inr ⟨e, rfl, large, ?_, ?_⟩
    · rw [toWrite, ofValue?, intOfEntity?, if_neg (Nat.not_le.mpr large)]
      rfl
    · rw [toFind, entityToFind, if_neg (Nat.not_le.mpr large)]
      rfl

/-- What is looked for is what is written. -/
theorem toFind_eq_ok {v : Value} {cell : Cell} : toFind v = .ok cell ↔ toWrite v = .ok cell := by
  obtain ⟨_, written, sought⟩ | ⟨e, rfl, _, unwritten, unsought⟩ := encoded_or_refused v
  · rw [written, sought]
  · simp [unwritten, unsought]

theorem toWrite_eq_error {v : Value} {fault : StorageFault} :
    toWrite v = .error fault ↔ ∃ e, v = .ref e ∧ maxCellInt < e ∧ fault = .tooLarge := by
  obtain ⟨writable, written, _⟩ | ⟨e, rfl, large, unwritten, _⟩ := encoded_or_refused v
  · rw [written]
    refine ⟨nofun, ?_⟩
    rintro ⟨e, rfl, large, _⟩
    exact absurd writable (Nat.not_le.mpr large)
  · simp [unwritten, large, eq_comm]

theorem toFind_eq_error {v : Value} {fault : StorageFault} :
    toFind v = .error fault ↔ ∃ e, v = .ref e ∧ maxCellInt < e ∧ fault = .outOfRange e := by
  obtain ⟨writable, _, sought⟩ | ⟨e, rfl, large, _, unsought⟩ := encoded_or_refused v
  · rw [sought]
    refine ⟨nofun, ?_⟩
    rintro ⟨e, rfl, large, _⟩
    exact absurd writable (Nat.not_le.mpr large)
  · simp [unsought, large, eq_comm]

/-! ### The decoder -/

/-- What a cell can be read as: the value that it is written for or, where it is an integer, the
double nearest to it, or whether it differs from zero. -/
inductive Shows : Cell → Value → Prop
  | written {v : Value} (writable : v.Writable) : v.cell.Shows v
  | rounded (n : Int64) : (int n).Shows (.float (Binary64.ofInt n.toInt))
  | truth (n : Int64) : (int n).Shows (.bool (n != 0))

theorem Shows.writable {cell : Cell} {v : Value} (shown : cell.Shows v) : v.Writable := by
  cases shown with
  | written writable => exact writable
  | rounded n => exact trivial
  | truth n => exact trivial

theorem shows_of_toValue {cell : Cell} {tag : Value.Tag} {v : Value}
    (read : cell.toValue tag = .ok v) : v.tag = tag ∧ cell.Shows v := by
  unfold toValue at read
  -- one tag after another, each with the cells that it can read
  split at read
  next text =>
    cases cell with
    | text s => cases read; exact ⟨text.symm, .written (v := .text s) trivial⟩
    | _ => cases read
  split at read
  next int =>
    cases cell with
    | int n => cases read; exact ⟨int.symm, .written (v := .int n) trivial⟩
    | _ => cases read
  split at read
  next float =>
    cases cell with
    | real x => cases read; exact ⟨float.symm, .written (v := .float x) trivial⟩
    | int n => cases read; exact ⟨float.symm, .rounded n⟩
    | _ => cases read
  split at read
  next bool =>
    cases cell with
    | int n => cases read; exact ⟨bool.symm, .truth n⟩
    | _ => cases read
  split at read
  next bytes =>
    cases cell with
    | blob bs => cases read; exact ⟨bytes.symm, .written (v := .bytes bs) trivial⟩
    | _ => cases read
  split at read
  next ref =>
    cases cell with
    | int n =>
      obtain ⟨e, named, rfl⟩ : ∃ e, Value.entityOfInt? n = some e ∧ v = .ref e := by
        cases named : Value.entityOfInt? n <;> simp_all
      have number : (Value.ref e).cell = .int n :=
        congrArg Cell.int (Value.ofNat_of_toInt (Value.entityOfInt?_eq_some.mp named))
      exact ⟨ref.symm, number ▸ .written (v := .ref e) (Value.entityOfInt?_le named)⟩
    | _ => cases read
  next => cases read

/-- A tag reads from a cell what the cell shows of the kind of the tag. -/
theorem toValue_eq_ok {cell : Cell} {tag : Value.Tag} {v : Value} :
    cell.toValue tag = .ok v ↔ v.tag = tag ∧ cell.Shows v := by
  refine ⟨shows_of_toValue, ?_⟩
  rintro ⟨rfl, shown⟩
  cases shown with
  | written writable => exact toValue_cell writable
  | rounded n => rfl
  | truth n => rfl

/-! ### There and back -/

/-- Only a reference beyond the integers of cells is refused, by both encoders, which agree
otherwise; and the tag of a value reads it back from its cell. Whatever a tag reads from a cell has
that tag, and is written as a cell from which the tag reads the same. -/
theorem toValue_inverts_toWrite :
    (∀ v : Value,
      (∀ fault, toWrite v = .error fault ↔
        ∃ e, v = .ref e ∧ maxCellInt < e ∧ fault = .tooLarge) ∧
      (∀ fault, toFind v = .error fault ↔
        ∃ e, v = .ref e ∧ maxCellInt < e ∧ fault = .outOfRange e) ∧
      (∀ cell, toFind v = .ok cell ↔ toWrite v = .ok cell) ∧
      ∀ cell, toWrite v = .ok cell → cell.toValue v.tag = .ok v) ∧
    ∀ (cell : Cell) (tag : Value.Tag) (v : Value), cell.toValue tag = .ok v →
      v.tag = tag ∧ ∃ again, toWrite v = .ok again ∧ again.toValue tag = .ok v := by
  refine ⟨fun v => ⟨fun fault => toWrite_eq_error, fun fault => toFind_eq_error,
    fun cell => toFind_eq_ok, fun cell written => ?_⟩, fun cell tag v read => ?_⟩
  · obtain ⟨writable, rfl⟩ := toWrite_eq_ok.mp written
    exact toValue_cell writable
  · obtain ⟨rfl, shown⟩ := toValue_eq_ok.mp read
    exact ⟨rfl, v.cell, toWrite_eq_ok.mpr ⟨shown.writable, rfl⟩, toValue_cell shown.writable⟩

/-- The integer 7 under the tag of truth values: it reads as true, which is written as 1. -/
theorem toValue_inverts_toWrite_seven :
    (int 7).toValue Value.Tag.bool = .ok (.bool true) ∧ toWrite (.bool true) = .ok (int 1) ∧
      toFind (.bool true) = .ok (int 1) ∧ (int 1).toValue Value.Tag.bool = .ok (.bool true) := by
  obtain ⟨encoded, decoded⟩ := toValue_inverts_toWrite
  obtain ⟨_, _, same, back⟩ := encoded (.bool true)
  obtain ⟨_, again, written, _⟩ := decoded (int 7) Value.Tag.bool (.bool true) rfl
  obtain rfl : int 1 = again := Except.ok.inj written
  exact ⟨rfl, written, (same _).mpr written, back _ written⟩

end Cell

end Factbase
