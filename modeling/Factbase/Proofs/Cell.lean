import Factbase.Proofs.Binary64
import Factbase.Value.Cell

/-!
# Factbase.Proofs.Cell

Values in cells. A value is writable when its cell holds it and storable when the cell also gives
it back and finds it again: storable values can be read, and are equal when their cells answer one
another under tags that match.
-/

namespace Factbase

/-- The cell of a value, if its number fits one. -/
def Value.cell : Value → Cell
  | .text s => .text s
  | .int n => .int n
  | .float x => .real x
  | .bool b => .int (if b then 1 else 0)
  | .bytes bs => .blob bs
  | .ref e => .int (Int64.ofNat e)

/-- A value that fits a cell. -/
def Value.Writable : Value → Prop
  | .ref e => e ≤ maxCellInt
  | _ => True

/-- A value that a cell keeps as it is: references fit, and a double is a number other than the
negative zero. -/
def Value.Storable : Value → Prop
  | .ref e => e ≤ maxCellInt
  | .float x => x.isNaN = false ∧ x ≠ Binary64.zero true
  | _ => True

instance : DecidablePred Value.Storable
  | .ref e => inferInstanceAs (Decidable (e ≤ maxCellInt))
  | .float x => inferInstanceAs (Decidable (x.isNaN = false ∧ x ≠ Binary64.zero true))
  | .text _ | .int _ | .bool _ | .bytes _ => isTrue trivial

theorem Value.Storable.writable {v : Value} (storable : v.Storable) : v.Writable := by
  cases v <;> first | exact storable | exact trivial

/-- Whether a value is a double that is no number. -/
def Value.isNaN : Value → Bool
  | .float x => x.isNaN
  | _ => false

theorem Value.Storable.isNaN {v : Value} (storable : v.Storable) : v.isNaN = false := by
  cases v <;> first | exact storable.1 | rfl

/-! ### Numbers of entities -/

/-- An integer names the entity of the same number, and none if it is negative. -/
theorem Value.entityOfInt?_eq_some {n : Int64} {e : EntityId} :
    entityOfInt? n = some e ↔ n.toInt = e := by
  have positive : (0 : Int) ≤ e := Int.natCast_nonneg e
  unfold entityOfInt?
  split
  next negative =>
    simp only [reduceCtorEq, false_iff]
    omega
  next =>
    rw [Option.some.injEq, ← Int.natCast_inj, Int.toNat_of_nonneg (by omega)]

theorem Value.entityOfInt?_le {n : Int64} {e : EntityId} (read : entityOfInt? n = some e) :
    e ≤ maxCellInt := by
  have number : n.toInt = e := entityOfInt?_eq_some.mp read
  have bound : (e : Int) < 0x8000000000000000 := number ▸ n.toInt_lt
  exact Nat.le_of_lt_succ (Int.ofNat_lt.mp bound)

/-- An integer and a reference of the same number have the same cell. -/
theorem Value.ofNat_of_toInt {n : Int64} {e : EntityId} (same : n.toInt = e) :
    Int64.ofNat e = n := by
  rw [← Int64.ofInt_eq_ofNat, ← same, Int64.ofInt_toInt]

namespace Cell

/-! ### Writing and reading -/

theorem ofValue?_eq_some {v : Value} {cell : Cell} :
    ofValue? v = some cell ↔ v.Writable ∧ cell = v.cell := by
  cases v
  case ref e =>
    by_cases fits : e ≤ maxCellInt
    · simp [ofValue?, intOfEntity?, Value.Writable, Value.cell, fits, eq_comm]
    · simp [ofValue?, intOfEntity?, Value.Writable, fits]
  all_goals simp [ofValue?, Value.Writable, Value.cell, eq_comm]

/-- Writing a value succeeds exactly when it fits, and writes its cell. -/
theorem toWrite_eq_ok {v : Value} {cell : Cell} :
    toWrite v = .ok cell ↔ v.Writable ∧ cell = v.cell := by
  rw [← ofValue?_eq_some, toWrite]
  split <;> simp_all

theorem toFind_eq {v : Value} (writable : v.Writable) : toFind v = .ok v.cell := by
  cases v
  case ref e =>
    rw [toFind, entityToFind, if_pos (show e ≤ maxCellInt from writable)]
    rfl
  all_goals rfl

theorem toInt_ofNat {e : EntityId} (fits : e ≤ maxCellInt) : (Int64.ofNat e).toInt = e := by
  apply Int64.toInt_ofNat_of_lt
  exact Nat.lt_of_le_of_lt fits (by decide)

theorem entityOfInt?_ofNat {e : EntityId} (fits : e ≤ maxCellInt) :
    Value.entityOfInt? (Int64.ofNat e) = some e :=
  Value.entityOfInt?_eq_some.mpr (toInt_ofNat fits)

/-- A value comes back from its tag and its cell. -/
theorem toValue_cell {v : Value} (writable : v.Writable) : v.cell.toValue v.tag = .ok v := by
  cases v
  case ref e =>
    have back := entityOfInt?_ofNat writable
    simp [Value.cell, Value.tag, toValue, Value.Tag.text, Value.Tag.int, Value.Tag.float,
      Value.Tag.bool, Value.Tag.bytes, Value.Tag.ref, back]
  case bool b => cases b <;> rfl
  all_goals rfl

theorem kept_of_number {v : Value} (number : v.isNaN = false) : v.cell.kept = v.cell := by
  cases v
  case float x =>
    replace number : x.isNaN = false := number
    simp [Value.cell, kept, number]
  all_goals rfl

theorem kept_cell {v : Value} (storable : v.Storable) : v.cell.kept = v.cell :=
  kept_of_number storable.isNaN

/-- A value comes back from its tag and what is kept of its cell, unless it is no number, of which
nothing is kept. -/
theorem toValue_kept {v : Value} (writable : v.Writable) :
    v.cell.kept.toValue v.tag =
      if v.isNaN then .error (.mismatch .null Value.Tag.float) else .ok v := by
  cases nan : v.isNaN with
  | false => rw [kept_of_number nan, toValue_cell writable]; rfl
  | true =>
    cases v <;> simp only [Value.isNaN, Bool.false_eq_true] at nan
    case float x =>
      simp [Value.cell, kept, Value.tag, toValue, Value.Tag.text, Value.Tag.int, Value.Tag.float,
        nan]

/-! ### Searching -/

theorem order_int_eq {m n : Int64} : ((int m).order (int n) == .eq) = (m.toInt == n.toInt) := by
  have scale : (Binary64.unitsPerOne : Int) ≠ 0 :=
    Int.natCast_ne_zero.mpr Binary64.unitsPerOne_pos.ne'
  simp only [order, units?]
  rw [Bool.eq_iff_iff, beq_iff_eq, beq_iff_eq, Std.LawfulEqOrd.compare_eq_iff_eq,
    mul_left_inj' scale]

/-- Real cells of storable doubles compare equal only if they are the same. -/
theorem order_real_eq {x y : Binary64} (hx : x ≠ Binary64.zero true)
    (hy : y ≠ Binary64.zero true) : ((real x).order (real y) == .eq) = (x == y) := by
  simp only [order, units?]
  rw [Bool.eq_iff_iff, beq_iff_eq, beq_iff_eq, Std.LawfulEqOrd.compare_eq_iff_eq,
    Binary64.signedUnits_inj hx hy]

/-- Under tags that match, the cell of a storable value answers a search for another exactly when
the two values are equal. -/
theorem answers_cell {v sought : Value} (hv : v.Storable) (hs : sought.Storable) :
    (v.cell.answers sought.cell && sought.matchingTags.contains v.tag) = (sought == v) := by
  rw [BEq.comm, answers, kept_cell hv, kept_cell hs, Bool.eq_iff_iff, Bool.and_eq_true,
    Value.beq_iff_key_eq]
  cases v <;> cases sought <;>
    simp only [Value.cell, order_int_eq, Value.matchingTags, Value.tag, Value.key,
      Value.Tag.text, Value.Tag.int, Value.Tag.float, Value.Tag.bool, Value.Tag.bytes,
      Value.Tag.ref, List.contains_cons, List.contains_nil, reduceCtorEq]
  case text.text s t => simp [order]
  case int.ref n e => simp [toInt_ofNat hs]
  case ref.int e n => simp [toInt_ofNat hv]
  case ref.ref d e => simp [toInt_ofNat hv, toInt_ofNat hs]
  case float.float x y => simp [order_real_eq hv.2 hs.2]
  case bool.bool b c => cases b <;> cases c <;> simp
  case bytes.bytes as bs => simp [order]
  -- values of other kinds never equal one another, and their tags do not match
  all_goals simp

end Cell

/-! ### Equal values -/

theorem Value.cell_congr {v w : Value} (same : (v == w) = true) : v.cell = w.cell := by
  have keys := beq_iff_key_eq.mp same
  cases v <;> cases w <;> simp only [key, Key.text.injEq, Key.number.injEq, Key.float.injEq,
    Key.bool.injEq, Key.bytes.injEq, reduceCtorEq] at keys
  case int.int n m => rw [Int64.toInt_inj.mp keys]
  case int.ref n e => rw [cell, cell, ofNat_of_toInt keys]
  case ref.int e n => rw [cell, cell, ofNat_of_toInt keys.symm]
  case ref.ref d e => rw [Int.natCast_inj.mp keys]
  all_goals rw [keys]

theorem Value.tag_of_beq {v w : Value} (same : (v == w) = true) :
    v.matchingTags.contains w.tag = true := by
  have keys := beq_iff_key_eq.mp same
  cases v <;> cases w <;> simp only [key, reduceCtorEq] at keys <;> rfl

theorem Cell.order_self (cell : Cell) : cell.order cell = .eq := by
  cases cell <;> simp [order, units?, rank]

theorem Cell.kept_kept (cell : Cell) : cell.kept.kept = cell.kept := by
  cases cell with
  | real x => by_cases nan : x.isNaN = true <;> simp [kept, nan]
  | _ => rfl

theorem Cell.answers_iff {cell sought : Cell} : cell.answers sought = true ↔
    cell.kept ≠ .null ∧ sought.kept ≠ .null ∧ cell.kept.order sought.kept = .eq := by
  unfold answers
  cases cell.kept <;> cases sought.kept <;> simp

/-- A cell that is the answer to any search for a value is sought by every equal value. -/
theorem Cell.answers_of_beq {v w : Value} {other : Cell} (answered : other.answers v.cell = true)
    (same : (v == w) = true) : w.cell.kept.answers v.cell = true := by
  obtain ⟨_, something, _⟩ := answers_iff.mp answered
  rw [answers_iff, kept_kept, ← Value.cell_congr same]
  exact ⟨something, something, order_self _⟩

end Factbase
