import Factbase.Proofs.ValueOrder

/-!
# Factbase.Proofs.Sorting

Listings of facts in order. The order of values puts numbers before texts and texts before bytes,
and compares within each of these three; so it is a total preorder, in which equal values are on a
par. Sorting by any column then keeps facts that are on a par as they were written, in either
direction, and the pages of a listing follow one another without gap or overlap.
-/

namespace Factbase

/-! ### The order of values -/

namespace Value

/-- Where a value stands among the numbers, if it is one. -/
def numberKey (v : Value) : Int := (v.approx?.map Binary64.orderKey).getD 0

def textKey : Value → String
  | text s => s
  | _ => ""

def bytesKey : Value → List UInt8
  | bytes bs => bs
  | _ => []

theorem keys_of_number {v : Value} {a : Binary64} (number : v.approx? = some a) :
    v.rank = 0 ∧ v.numberKey = a.orderKey ∧ v.textKey = "" ∧ v.bytesKey = [] := by
  refine ⟨?_, by rw [numberKey, number]; rfl, ?_, ?_⟩
  all_goals cases v <;> first | rfl | cases number

/-- Values are in the order of their ranks. Those of one rank differ in the one thing that is
compared for it. -/
theorem order_eq (v w : Value) :
    v.order w = compareLex (compareOn rank) (compareLex (compareOn numberKey)
      (compareLex (compareOn textKey) (compareOn bytesKey))) v w := by
  have same_text : compare "" "" = .eq := Std.ReflOrd.compare_self
  have same_bytes : compare ([] : List UInt8) [] = .eq := rfl
  simp only [compareLex, compareOn]
  cases left : v.approx? with
  | some a =>
    obtain ⟨rank, number, text, bytes⟩ := keys_of_number left
    cases right : w.approx? with
    | some b =>
      obtain ⟨rank', number', text', bytes'⟩ := keys_of_number right
      -- all numbers have one rank, and neither a text nor bytes to be told apart by
      rw [order_numbers left right, rank, rank', number, number', text, text', bytes, bytes',
        same_text, same_bytes]
      simp
    | none =>
      cases w <;> simp only [approx?, reduceCtorEq] at right
      all_goals cases v <;> first | rfl | cases left
  | none =>
    cases v <;> simp only [approx?, reduceCtorEq] at left
    case text s =>
      cases w
      case text t => simp [order, rank, numberKey, approx?, textKey, bytesKey]
      all_goals rfl
    case bytes bs => cases w <;> rfl

instance : Std.TransCmp order := by
  have lexicographic : order = compareLex (compareOn rank) (compareLex (compareOn numberKey)
      (compareLex (compareOn textKey) (compareOn bytesKey))) := by
    funext v w
    exact order_eq v w
  rw [lexicographic]
  infer_instance

theorem keys_of_beq {v w : Value} (equal : (v == w) = true) :
    v.rank = w.rank ∧ v.approx? = w.approx? ∧ v.textKey = w.textKey ∧ v.bytesKey = w.bytesKey := by
  have same := beq_iff_key_eq.mp equal
  cases v <;> cases w <;> simp only [key, reduceCtorEq, Key.text.injEq, Key.number.injEq,
    Key.float.injEq, Key.bool.injEq, Key.bytes.injEq] at same
  all_goals simp only [rank, approx?, textKey, bytesKey, same, and_self]

/-- Equal values are on a par, an integer and the reference of the same number among them. -/
theorem order_of_beq {v w : Value} (equal : (v == w) = true) : v.order w = .eq := by
  obtain ⟨rank, number, text, bytes⟩ := keys_of_beq equal
  simp [order_eq, compareLex, compareOn, numberKey, rank, number, text, bytes]

end Value

/-! ### The order of facts -/

namespace Fact

instance : Std.TransCmp (fun f g : Fact => f.value.order g.value) where
  eq_swap {_ _} := Std.OrientedCmp.eq_swap
  isLE_trans {_ _ _} := Std.TransCmp.isLE_trans

instance (column : Column) : Std.TransCmp (order column) := by
  cases column
  case value => exact inferInstanceAs (Std.TransCmp fun f g : Fact => f.value.order g.value)
  all_goals exact inferInstanceAs (Std.TransCmp (compareOn _))

end Fact

/-! ### Sorting -/

namespace Listing

section

variable {α : Type} (order : α → α → Ordering) [Std.TransCmp order]

theorem before_trans (direction : Direction) (x y z : α)
    (first : before direction order x y = true) (second : before direction order y z = true) :
    before direction order x z = true := by
  cases direction with
  | ascending =>
    simp only [before, bne_iff_ne, ← Ordering.isLE_iff_ne_gt] at first second ⊢
    exact Std.TransCmp.isLE_trans first second
  | descending =>
    simp only [before, bne_iff_ne, ← Ordering.isLE_iff_ne_gt] at first second ⊢
    exact Std.TransCmp.isLE_trans second first

theorem before_total (direction : Direction) (x y : α) :
    (before direction order x y || before direction order y x) = true := by
  have swapped : order y x = (order x y).swap := Std.OrientedCmp.eq_swap
  cases direction <;> cases first : order x y <;> simp [before, swapped, first]

/-- Things that are on a par stay in the order they were given in, whatever the direction. -/
theorem filter_mergeSort (direction : Direction) (x : α) (xs : List α) :
    (xs.mergeSort (before direction order)).filter (fun y => decide (order x y = .eq)) =
      xs.filter fun y => decide (order x y = .eq) := by
  -- what is on a par with `x` is in order as it is given, so sorting keeps it as a sublist; and it
  -- is all that the sorted list has of it
  have tied : (xs.filter fun y => decide (order x y = .eq)).Pairwise
      fun y z => before direction order y z = true := by
    rw [List.pairwise_filter]
    refine List.pairwise_of_forall fun y z with_y with_z => ?_
    have par : order y z = .eq := by
      rw [← Std.TransCmp.congr_left (of_decide_eq_true with_y)]
      exact of_decide_eq_true with_z
    have par' : order z y = .eq := Std.OrientedCmp.eq_symm par
    cases direction <;> simp [before, par, par']
  have kept : (xs.filter fun y => decide (order x y = .eq)).Sublist
      (xs.mergeSort (before direction order)) :=
    List.sublist_mergeSort (before_trans order direction) (before_total order direction) tied
      List.filter_sublist
  have inside := kept.filter fun y => decide (order x y = .eq)
  rw [List.filter_filter] at inside
  simp only [Bool.and_self] at inside
  exact (inside.eq_of_length ((List.mergeSort_perm ..).filter _).length_eq.symm).symm

end

/-! ### Pages -/

/-- The same listing as a whole. -/
def whole (listing : Listing) : Listing :=
  { listing with offset := none, limit := none }

/-- The page of a listing with the given number, where pages have `n` places. -/
def numbered (listing : Listing) (n i : Nat) : Listing :=
  { listing with offset := some (i * n), limit := some n }

theorem arrange_numbered {α : Type} (listing : Listing) (n i : Nat)
    (order : Column → α → α → Ordering) (xs : List α) :
    (listing.numbered n i).arrange order xs
      = ((listing.whole.arrange order xs).drop (i * n)).take n := by
  cases sort : listing.sort <;> simp [arrange, numbered, whole, page, sort]

theorem length_arrange_whole {α : Type} (listing : Listing) (order : Column → α → α → Ordering)
    (xs : List α) : (listing.whole.arrange order xs).length = xs.length := by
  cases sort : listing.sort <;> simp [arrange, whole, page, sort]

theorem flatMap_pages {α : Type} (xs : List α) (n pages : Nat) :
    ((List.range pages).flatMap fun i => (xs.drop (i * n)).take n) = xs.take (pages * n) := by
  induction pages with
  | zero => simp
  | succ pages ih =>
    rw [List.range_succ, List.flatMap_append, ih, Nat.succ_mul, List.take_add]
    simp

end Listing

/-! ### Listings -/

/-- A list of facts in the order of one of their columns. Facts that are on a par stand as they did
in the given list. -/
structure Fact.Arranged (column : Column) (direction : Direction) (fs sorted : List Fact) :
    Prop where
  perm : sorted.Perm fs
  ascending : direction = .ascending → sorted.Pairwise fun f g => order column f g ≠ .gt
  descending : direction = .descending → sorted.Pairwise fun f g => order column f g ≠ .lt
  stable : ∀ f, sorted.filter (fun g => decide (order column f g = .eq)) =
    fs.filter fun g => decide (order column f g = .eq)

theorem Listing.arranged_mergeSort (column : Column) (direction : Direction) (fs : List Fact) :
    Fact.Arranged column direction fs (fs.mergeSort (before direction (Fact.order column))) := by
  have sorted := List.pairwise_mergeSort (before_trans (Fact.order column) direction)
    (before_total (Fact.order column) direction) fs
  refine ⟨List.mergeSort_perm .., ?_, ?_, fun f => filter_mergeSort _ direction f fs⟩
  · rintro rfl
    exact sorted.imp fun first => by simpa [before] using first
  · rintro rfl
    refine sorted.imp ?_
    -- descending, the comparison is asked the other way round
    intro f g first less
    have swapped : Fact.order column g f = .gt := Std.OrientedCmp.gt_of_lt less
    simp [before, swapped] at first

/-- Values are in a total preorder in which equal ones are on a par. A listing by a column shows all
facts in the order of the column, those that are on a par as they were written, in either direction.
Pages of a listing, one after another, make up the whole of it. -/
theorem Listing.arrange_sorts :
    ((∀ v w : Value, w.order v = (v.order w).swap) ∧
      (∀ u v w : Value, u.order v ≠ .gt → v.order w ≠ .gt → u.order w ≠ .gt) ∧
      ∀ v w : Value, (v == w) = true → v.order w = .eq) ∧
    (∀ (fs : List Fact) (column : Column) (direction : Option Direction),
      Fact.Arranged column (direction.getD .ascending) fs
        (arrange ⟨some column, direction, none, none⟩ Fact.order fs)) ∧
    ∀ (fs : List Fact) (listing : Listing) (n : Nat), 1 ≤ n →
      ∀ pages, fs.length ≤ pages * n →
        ((List.range pages).flatMap fun i => (listing.numbered n i).arrange Fact.order fs) =
          listing.whole.arrange Fact.order fs := by
  refine ⟨⟨?_, ?_, fun v w => Value.order_of_beq⟩, ?_, ?_⟩
  · exact fun v w => Std.OrientedCmp.eq_swap
  · intro u v w first second
    exact Ordering.isLE_iff_ne_gt.mp (Std.TransCmp.isLE_trans
      (Ordering.isLE_iff_ne_gt.mpr first) (Ordering.isLE_iff_ne_gt.mpr second))
  · exact fun fs column direction => arranged_mergeSort column _ fs
  · intro fs listing n _ pages enough
    simp only [arrange_numbered]
    rw [flatMap_pages, List.take_of_length_le]
    rwa [length_arrange_whole]

/-- Two facts about a text and one about bytes. -/
def tied : List Fact :=
  [⟨5, 3, .text "a", 4, 2⟩, ⟨6, 3, .bytes [7], 4, 2⟩, ⟨7, 3, .text "a", 4, 2⟩]

/-- Sorted down by value, the texts come behind the bytes as they were written; two pages show all
three facts. -/
theorem Listing.arrange_sorts_tied : ∃ sorted, Fact.Arranged .value .descending tied sorted ∧
    sorted.map Fact.entity = [6, 5, 7] ∧ ((List.range 2).flatMap fun i =>
      (numbered ⟨some .value, some .descending, none, none⟩ 2 i).arrange Fact.order tied) =
        sorted := by
  obtain ⟨_, sorts, pages⟩ := arrange_sorts
  refine ⟨_, sorts tied .value (some .descending), ?_, ?_⟩
  · cbv
  · exact pages tied ⟨some .value, some .descending, none, none⟩ 2 (by decide) 2 (by decide)

end Factbase
