import Factbase.Proofs.Holds

/-!
# Factbase.Proofs.ValueOrder

Listings sorted by value. An indexed store compares numbers as doubles and a table compares them
exactly. Rounding keeps order, so the two differ only about numbers that round to one double: those
are equal to the one, and not to the other.
-/

namespace Factbase

/-! ### Numbers -/

namespace Value

/-- Different numbers that the same double is nearest to. -/
def Merged (v w : Value) : Prop :=
  v.approx? = w.approx? ∧ v.cell.units? ≠ w.cell.units?

instance (v w : Value) : Decidable (v.Merged w) := instDecidableAnd

/-- The double of a number stands where the exact number is rounded to. -/
theorem orderKey_approx {v : Value} (storable : v.Storable) :
    v.approx?.map Binary64.orderKey = v.cell.units?.map Binary64.nearestKey := by
  cases v
  case text s => rfl
  case bytes bs => rfl
  case float x =>
    simp only [approx?, cell, Cell.units?, Option.map_some,
      Binary64.orderKey_eq storable.1 storable.2]
  case int n => simp only [approx?, cell, Cell.units?, Option.map_some, Binary64.orderKey_ofInt]
  case ref e =>
    have exact : (Int64.ofNat e).toInt = e := Cell.toInt_ofNat storable
    simp only [approx?, cell, Cell.units?, Option.map_some, Binary64.orderKey_ofInt, exact]
  case bool b =>
    simp only [approx?, cell, Cell.units?, Option.map_some, Binary64.orderKey_ofInt]
    cases b <;> rfl

/-- A value whose number, if it is an integer or a reference, is within the integers that doubles
count one by one. -/
def Small : Value → Prop
  | int n => n.toInt.natAbs ≤ 2 ^ 53
  | ref e => e ≤ 2 ^ 53
  | _ => True

/-- Small numbers lose nothing when they become doubles. -/
theorem units?_of_small {v : Value} (small : v.Small) :
    v.cell.units? = v.approx?.map Binary64.signedUnits := by
  cases v
  case text s => rfl
  case bytes bs => rfl
  case float x => rfl
  case int n =>
    simp only [approx?, cell, Cell.units?, Option.map_some, Binary64.signedUnits_ofInt small]
  case ref e =>
    have within : (e : Int).natAbs ≤ 2 ^ 53 := small
    have exact : (Int64.ofNat e).toInt = e := Cell.toInt_ofNat (Nat.le_trans small (by decide))
    simp only [approx?, cell, Cell.units?, Option.map_some, Binary64.signedUnits_ofInt within,
      exact]
  case bool b =>
    have within : (if b then 1 else 0 : Int).natAbs ≤ 2 ^ 53 := by cases b <;> decide
    simp only [approx?, cell, Cell.units?, Option.map_some, Binary64.signedUnits_ofInt within]
    cases b <;> rfl

theorem not_merged_of_small {v w : Value} (hv : v.Small) (hw : w.Small) : ¬ v.Merged w := by
  rintro ⟨same, differ⟩
  apply differ
  rw [units?_of_small hv, units?_of_small hw, same]

/-- Texts and bytes are in the same order as their cells, and so is a number beside them. -/
theorem order_of_not_number {v w : Value} (other : v.approx? = none ∨ w.approx? = none) :
    v.order w = v.cell.order w.cell := by
  rcases other with other | other
  · cases v <;> simp only [approx?, reduceCtorEq] at other
    all_goals cases w <;> rfl
  · cases w <;> simp only [approx?, reduceCtorEq] at other
    all_goals cases v <;> rfl

theorem order_numbers {v w : Value} {a b : Binary64} (left : v.approx? = some a)
    (right : w.approx? = some b) : v.order w = compare a.orderKey b.orderKey := by
  unfold order
  split
  · cases left
  · cases left
  · rw [left, right]

end Value

theorem Cell.order_numbers {x y : Cell} {m n : Int} (left : x.units? = some m)
    (right : y.units? = some n) : x.order y = compare m n := by
  unfold order
  split
  · cases left
  · cases left
  · rw [left, right]

/-! ### The two orders -/

theorem compare_eq_compare_iff {f : Int → Int} (mono : Monotone f) {m n : Int} :
    compare (f m) (f n) = compare m n ↔ (f m = f n → m = n) := by
  -- a monotone map may make different numbers equal, but it never exchanges them
  rcases lt_trichotomy m n with less | rfl | greater
  · have le := mono less.le
    rw [compare_lt_iff_lt.mpr less, compare_lt_iff_lt]
    omega
  · simp
  · have le := mono greater.le
    rw [compare_gt_iff_gt.mpr greater, compare_gt_iff_gt]
    omega

/-- The order of two values is the one of their cells, but for different numbers that round to one
double. -/
theorem Value.order_eq_iff {v w : Value} (hv : v.Storable) (hw : w.Storable) :
    v.order w = v.cell.order w.cell ↔ ¬ v.Merged w := by
  have left := orderKey_approx hv
  have right := orderKey_approx hw
  by_cases numbers : v.approx? = none ∨ w.approx? = none
  · -- then only two values without number have the same double, which is none
    have apart : ¬ v.Merged w := by
      rintro ⟨same, differ⟩
      have none_left : v.approx? = none := numbers.elim id fun other => same.trans other
      rw [← same, none_left] at right
      rw [none_left] at left
      exact differ ((Option.map_eq_none_iff.mp left.symm).trans
        (Option.map_eq_none_iff.mp right.symm).symm)
    exact iff_of_true (order_of_not_number numbers) apart
  · obtain ⟨number, number'⟩ := not_or.mp numbers
    obtain ⟨a, double⟩ := Option.ne_none_iff_exists'.mp number
    obtain ⟨b, double'⟩ := Option.ne_none_iff_exists'.mp number'
    rw [double, Option.map_some] at left
    rw [double', Option.map_some] at right
    obtain ⟨m, exact, key⟩ := Option.map_eq_some_iff.mp left.symm
    obtain ⟨n, exact', key'⟩ := Option.map_eq_some_iff.mp right.symm
    -- doubles are the same exactly when their keys are
    have merged : v.Merged w ↔ ¬ (Binary64.nearestKey m = Binary64.nearestKey n → m = n) := by
      rw [Merged, double, double', exact, exact', key, key', Binary64.orderKey_inj,
        Classical.not_imp]
      simp only [Option.some.injEq, ne_eq]
    rw [order_numbers double double', Cell.order_numbers exact exact', ← key, ← key',
      compare_eq_compare_iff Binary64.nearestKey_mono, merged, not_not]

/-! ### Listings -/

namespace Store

/-- Facts whose values do not merge are in the same order as their rows. -/
theorem rowOrder_eq_of_apart {fs : List Fact} (storable : ∀ f ∈ fs, f.Storable)
    (apart : ∀ f ∈ fs, ∀ g ∈ fs, ¬ f.value.Merged g.value) (column : Column) :
    ∀ f ∈ fs, ∀ g ∈ fs, Fact.rowOrder column f g = Fact.order column f g := by
  intro f left g right
  by_cases value : column = .value
  · subst value
    have kept := Cell.kept_cell (storable f left).value
    have kept' := Cell.kept_cell (storable g right).value
    show f.value.cell.kept.order g.value.cell.kept = f.value.order g.value
    rw [kept, kept']
    exact ((Value.order_eq_iff (storable f left).value (storable g right).value).mpr
      (apart f left g right)).symm
  · exact Fact.rowOrder_eq value f g

/-- Of the values that stores hold, any two are in the same order as their cells unless they merge,
and small ones do not. If no two merge, both stores show the same listings, sorted by exact value or
by any other column, in either direction and with any offset and limit. -/
theorem sorted_alike_unless_merged {left right : Store} {fs : List Fact} (holds : left.Holds fs)
    (holds' : right.Holds fs) (storable : ∀ f ∈ fs, f.Storable) (room : fs.length ≤ maxCellInt) :
    (∀ f ∈ fs, ∀ g ∈ fs,
      f.value.order g.value = f.value.cell.order g.value.cell ↔ ¬ f.value.Merged g.value) ∧
    ((∀ f ∈ fs, f.value.Small) → ∀ f ∈ fs, ∀ g ∈ fs, ¬ f.value.Merged g.value) ∧
    ((∀ f ∈ fs, ∀ g ∈ fs, ¬ f.value.Merged g.value) → ∀ listing : Listing,
      left.list listing = .ok (listing.arrange Fact.rowOrder fs) ∧
      right.list listing = .ok (listing.arrange Fact.rowOrder fs)) := by
  refine ⟨?_, ?_, ?_⟩
  · intro f left g right
    exact Value.order_eq_iff (storable f left).value (storable g right).value
  · intro small f left g right
    exact Value.not_merged_of_small (small f left) (small g right)
  · intro apart listing
    have same : ∀ column ∈ listing.sort, ∀ f ∈ fs, ∀ g ∈ fs,
        Fact.rowOrder column f g = Fact.order column f g := fun column _ =>
      rowOrder_eq_of_apart storable apart column
    rw [Table.arrange_congr same]
    exact ⟨holds.list_of_rowOrder storable same room, holds'.list_of_rowOrder storable same room⟩

/-- Facts about values of every kind, two of them about the same number. -/
def mixed : List Fact :=
  [⟨1, 0, .text "b", 4, 2⟩, ⟨2, 0, .bytes [7], 4, 2⟩, ⟨3, 0, .float ⟨0x3fe0000000000000⟩, 4, 2⟩,
    ⟨4, 0, .ref 3, 4, 2⟩, ⟨5, 0, .int 3, 4, 2⟩, ⟨6, 0, .bool true, 4, 2⟩, ⟨7, 0, .text "a", 4, 2⟩]

/-- Sorted down by value, the mixed facts have a text after the bytes, and the reference and the
integer of one number stay in the order they were written in. -/
theorem sorted_alike_mixed :
    (∀ f ∈ mixed, f.Storable) ∧ mixed.length ≤ maxCellInt ∧
    (∀ f ∈ mixed, ∀ g ∈ mixed, ¬ f.value.Merged g.value) ∧
    ∃ left right : Store, left.backend = .indexed ∧ right.backend = .table ∧
      left.Holds mixed ∧ right.Holds mixed ∧
      ∀ store ∈ [left, right], store.list ⟨some .value, some .descending, some 1, some 4⟩ =
        .ok [⟨1, 0, .text "b", 4, 2⟩, ⟨7, 0, .text "a", 4, 2⟩, ⟨4, 0, .ref 3, 4, 2⟩,
          ⟨5, 0, .int 3, 4, 2⟩] := by
  have storable : ∀ f ∈ mixed, f.Storable := by decide +kernel
  have room : mixed.length ≤ maxCellInt := by decide
  have apart : ∀ f ∈ mixed, ∀ g ∈ mixed, ¬ f.value.Merged g.value := by decide +kernel
  have sorted : (Listing.mk (some .value) (some .descending) (some 1) (some 4)).arrange
      Fact.rowOrder mixed = [⟨1, 0, .text "b", 4, 2⟩, ⟨7, 0, .text "a", 4, 2⟩,
        ⟨4, 0, .ref 3, 4, 2⟩, ⟨5, 0, .int 3, 4, 2⟩] := by cbv
  obtain ⟨left, left_ok, (holds : left.Holds mixed)⟩ :=
    (holds_empty .indexed).exists_insertAll storable
  obtain ⟨right, right_ok, (holds' : right.Holds mixed)⟩ :=
    (holds_empty .table).exists_insertAll storable
  obtain ⟨_, _, alike⟩ := sorted_alike_unless_merged holds holds' storable room
  obtain ⟨shown, shown'⟩ := alike apart ⟨some .value, some .descending, some 1, some 4⟩
  rw [sorted] at shown shown'
  refine ⟨storable, room, apart, left, right, backend_insertAll left_ok, backend_insertAll right_ok,
    holds, holds', ?_⟩
  exact List.forall_mem_cons.mpr ⟨shown, List.forall_mem_singleton.mpr shown'⟩

/-- Two facts about neighbouring integers that round to one double, the greater one first. -/
def merging : List Fact :=
  [⟨5, 3, .int 9007199254740993, 4, 2⟩, ⟨6, 3, .int 9007199254740992, 4, 2⟩]

/-- Stores that hold the same facts do not always sort them by value alike: an indexed store leaves
neighbouring integers beyond `2 ^ 53` as they were written, and a table sorts them. -/
theorem not_always_sorted_alike :
    ¬ ∀ (fs : List Fact) (left right : Store), (∀ f ∈ fs, f.Storable) → fs.length ≤ maxCellInt →
      left.Holds fs → right.Holds fs → ∀ direction offset limit,
        left.list ⟨some .value, direction, offset, limit⟩ =
          right.list ⟨some .value, direction, offset, limit⟩ := by
  intro alike
  have storable : ∀ f ∈ merging, f.Storable := by decide +kernel
  have room : merging.length ≤ maxCellInt := by decide
  have coherent : (Indexed.empty.insertAll merging).Coherent :=
    Indexed.coherent_empty.insertAll merging
  have holds : Table.Holds ⟨merging.map Fact.row⟩ merging :=
    ⟨fun f member => (storable f member).writable, rfl⟩
  have same := alike merging (indexed (Indexed.empty.insertAll merging))
    (table ⟨merging.map Fact.row⟩) storable room ⟨coherent, Indexed.facts_insertAll ..⟩ holds
    none none none
  have tied : (Listing.mk (some .value) none none none).arrange Fact.order merging = merging :=
    List.mergeSort_of_pairwise (by decide +kernel)
  have rows : (Listing.mk (some .value) none none none).arrange Fact.rowOrder merging =
      merging.reverse := by cbv
  rw [list, Indexed.list, Indexed.facts_insertAll, Indexed.facts_empty, List.nil_append, tied, list,
    holds.list_storable storable room, rows, ofStorage] at same
  have first := congrArg (List.map Fact.entity) (Except.ok.inj same)
  exact absurd first (by decide)

end Store

end Factbase
