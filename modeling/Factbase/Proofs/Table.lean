import Factbase.Proofs.Cell
import Factbase.Proofs.Log
import Factbase.Proofs.Outcome
import Factbase.Store.Write

/-!
# Factbase.Proofs.Table

The table is its log too. `Table.Holds` says which facts were written to a table; every read that
looks at numbers and names alone tells what those facts tell, and if they are storable, so does
every search and every listing by a column of numbers.
-/

namespace Factbase

/-- The row of a fact, if its numbers fit one. -/
def Fact.row (f : Fact) : Store.Row :=
  ⟨f.entity, f.attr, f.value.cell.kept, f.value.tag, f.tx, f.op⟩

/-- The order of facts as rows. -/
def Fact.rowOrder (column : Column) (f g : Fact) : Ordering :=
  Store.Row.order column f.row g.row

theorem Fact.rowOrder_eq {column : Column} (numbers : column ≠ .value) (f g : Fact) :
    rowOrder column f g = order column f g := by
  cases column
  case value => exact absurd rfl numbers
  all_goals rfl

structure Fact.Writable (f : Fact) : Prop where
  entity : f.entity ≤ maxCellInt
  attr : f.attr ≤ maxCellInt
  value : f.value.Writable
  tx : f.tx ≤ maxCellInt
  op : f.op ≤ maxCellInt

/-- A fact that a row keeps as it is. -/
structure Fact.Storable (f : Fact) : Prop where
  entity : f.entity ≤ maxCellInt
  attr : f.attr ≤ maxCellInt
  value : f.value.Storable
  tx : f.tx ≤ maxCellInt
  op : f.op ≤ maxCellInt

instance (f : Fact) : Decidable f.Storable :=
  decidable_of_iff (f.entity ≤ maxCellInt ∧ f.attr ≤ maxCellInt ∧ f.value.Storable ∧
      f.tx ≤ maxCellInt ∧ f.op ≤ maxCellInt)
    ⟨fun ⟨entity, attr, value, tx, op⟩ => ⟨entity, attr, value, tx, op⟩,
      fun ⟨entity, attr, value, tx, op⟩ => ⟨entity, attr, value, tx, op⟩⟩

/-- A pattern whose places can all be searched for. -/
structure Pattern.Storable (p : Pattern) : Prop where
  entity : ∀ e ∈ p.entity, e ≤ maxCellInt
  attr : ∀ e ∈ p.attr, e ≤ maxCellInt
  value : ∀ v ∈ p.value, v.Storable
  tx : ∀ e ∈ p.tx, e ≤ maxCellInt
  op : ∀ e ∈ p.op, e ≤ maxCellInt

theorem Fact.Storable.writable {f : Fact} (storable : f.Storable) : f.Writable where
  entity := storable.entity
  attr := storable.attr
  value := storable.value.writable
  tx := storable.tx
  op := storable.op

/-- Two facts that differ at most in their values. -/
structure Fact.SamePlace (f g : Fact) : Prop where
  entity : f.entity = g.entity
  attr : f.attr = g.attr
  tx : f.tx = g.tx
  op : f.op = g.op

theorem Fact.SamePlace.refl (f : Fact) : f.SamePlace f := ⟨rfl, rfl, rfl, rfl⟩

namespace Store

/-! ### Rows -/

namespace Row

theorem entityToWrite_eq_ok {e d : EntityId} :
    entityToWrite e = .ok d ↔ e ≤ maxCellInt ∧ d = e := by
  by_cases fits : e ≤ maxCellInt <;> simp [entityToWrite, fits, eq_comm]

/-- Writing a fact succeeds exactly when it fits a row, and writes its row. -/
theorem ofFact_eq_ok {f : Fact} {r : Row} : ofFact f = .ok r ↔ f.Writable ∧ r = f.row := by
  simp only [ofFact, Outcome.bind_eq_ok, Outcome.pure_eq_ok, entityToWrite_eq_ok,
    Cell.toWrite_eq_ok]
  constructor
  · rintro ⟨_, ⟨entity, rfl⟩, _, ⟨attr, rfl⟩, _, ⟨value, rfl⟩, _, ⟨tx, rfl⟩, _, ⟨op, rfl⟩, rfl⟩
    exact ⟨⟨entity, attr, value, tx, op⟩, rfl⟩
  · rintro ⟨fits, rfl⟩
    exact ⟨_, ⟨fits.entity, rfl⟩, _, ⟨fits.attr, rfl⟩, _, ⟨fits.value, rfl⟩, _, ⟨fits.tx, rfl⟩, _,
      ⟨fits.op, rfl⟩, rfl⟩

theorem mapM_ofFact_eq_ok {fs : List Fact} {rows : List Row} :
    fs.mapM ofFact = .ok rows ↔ (∀ f ∈ fs, f.Writable) ∧ rows = fs.map Fact.row := by
  simp only [Outcome.mapM_eq_ok, ofFact_eq_ok]
  constructor
  · intro written
    induction written with
    | nil => simp
    | cons first _ ih =>
      obtain ⟨fits, rfl⟩ := first
      obtain ⟨others, rfl⟩ := ih
      exact ⟨List.forall_mem_cons.mpr ⟨fits, others⟩, rfl⟩
  · rintro ⟨fits, rfl⟩
    rw [List.forall₂_map_right_iff]
    exact List.forall₂_same.mpr fun f member => ⟨fits f member, rfl⟩

theorem name?_row (f : Fact) : f.row.name? = f.name? := by
  by_cases naming : f.attr = nameAttribute
  · cases value : f.value <;>
      simp [name?, Fact.name?, Fact.row, naming, value, Value.tag, Value.cell, Cell.kept,
        Value.asText?, Value.Tag.text, Value.Tag.int, Value.Tag.float, Value.Tag.bool,
        Value.Tag.bytes, Value.Tag.ref]
  · simp [name?, Fact.name?, Fact.row, naming]

theorem toFact_row {f : Fact} (writable : f.Writable) :
    f.row.toFact =
      if f.value.isNaN then .error (.mismatch .null Value.Tag.float) else .ok f := by
  have value : f.row.cell.toValue f.row.tag = _ := Cell.toValue_kept writable.value
  rw [toFact, value]
  cases f.value.isNaN <;> rfl

end Row

/-! ### What a table holds -/

namespace Table

/-- The facts that were written to a table, in insertion order. -/
structure Holds (t : Table) (fs : List Fact) : Prop where
  writable : ∀ f ∈ fs, f.Writable
  rows : t.rows = fs.map Fact.row

theorem holds_empty : empty.Holds [] := ⟨by simp, rfl⟩

/-- All facts are written, if all of them fit, or none. -/
theorem insertAll_eq_ok {t t' : Table} {fs : List Fact} :
    t.insertAll fs = .ok t' ↔ (∀ f ∈ fs, f.Writable) ∧ t'.rows = t.rows ++ fs.map Fact.row := by
  simp only [insertAll, Outcome.bind_eq_ok, Outcome.pure_eq_ok, Row.mapM_ofFact_eq_ok]
  constructor
  · rintro ⟨rows, ⟨fits, rfl⟩, rfl⟩
    exact ⟨fits, rfl⟩
  · rintro ⟨fits, rows⟩
    exact ⟨_, ⟨fits, rfl⟩, by rw [← rows]⟩

theorem Holds.insertAll {t t' : Table} {fs gs : List Fact} (holds : t.Holds fs)
    (written : t.insertAll gs = .ok t') : t'.Holds (fs ++ gs) := by
  obtain ⟨fits, rows⟩ := insertAll_eq_ok.mp written
  constructor
  · intro f member
    rcases List.mem_append.mp member with old | new
    · exact holds.writable f old
    · exact fits f new
  · rw [rows, holds.rows, List.map_append]

/-! ### Reads -/

section

variable {t : Table} {fs : List Fact} (holds : t.Holds fs)

include holds

theorem Holds.lastEntity_eq : t.lastEntity = Log.lastEntity fs := by
  rw [lastEntity, greatest, holds.rows, List.map_map]
  rfl

theorem Holds.lastTx_eq : t.lastTx = Log.lastTx fs := by
  rw [lastTx, greatest, holds.rows, List.map_map]
  rfl

theorem Holds.size_eq : t.size = fs.length := by
  rw [size, holds.rows, List.length_map]

theorem Holds.nameOf_eq (e : EntityId) : t.nameOf e = Log.nameOf fs e := by
  rw [nameOf, holds.rows, List.findSome?_map]
  simp only [Function.comp_def, Row.name?_row]
  rfl

theorem Holds.entityOf_eq (name : String) : t.entityOf name = Log.entityOf fs name := by
  rw [entityOf, holds.rows, List.find?_map, Option.map_map]
  simp only [Function.comp_def, Row.name?_row]
  rfl

theorem Holds.count_eq (e : EntityId) : t.count e = Log.count fs e := by
  rw [count, holds.rows, List.countP_map]
  rfl

theorem Holds.identities_eq : t.identities = Log.identities fs := by
  rw [identities, holds.rows, List.filterMap_map]
  simp only [Function.comp_def, Row.name?_row]
  rfl

end

/-! ### Searches -/

theorem entityToFind_eq {e : EntityId} (fits : e ≤ maxCellInt) :
    Cell.entityToFind e = .ok e :=
  if_pos fits

theorem mapM_entityToFind {place : Option EntityId} (fits : ∀ e ∈ place, e ≤ maxCellInt) :
    place.mapM Cell.entityToFind = .ok place := by
  cases place with
  | none => rfl
  | some e => simp [Option.mapM, entityToFind_eq (fits e rfl), Functor.map, Except.map]

theorem mapM_valueToFind {place : Option Value} (fits : ∀ v ∈ place, v.Storable) :
    place.mapM Search.valueToFind = .ok (place.map fun v => (v.cell, v.matchingTags)) := by
  cases place with
  | none => rfl
  | some v =>
    have found := Cell.toFind_eq (fits v rfl).writable
    simp [Option.mapM, Search.valueToFind, found, Functor.map, Except.map, bind, Except.bind, pure,
      Except.pure]

def searchOf (p : Pattern) (asOf : EntityId) : Search :=
  ⟨asOf, p.entity, p.attr, p.tx, p.op, p.value.map fun v => (v.cell, v.matchingTags)⟩

theorem ofPattern_eq {p : Pattern} (storable : p.Storable) {asOf : EntityId}
    (bound : asOf ≤ maxCellInt) : Search.ofPattern p asOf = .ok (searchOf p asOf) := by
  simp only [Search.ofPattern, entityToFind_eq bound, mapM_entityToFind storable.entity,
    mapM_entityToFind storable.attr, mapM_entityToFind storable.tx,
    mapM_entityToFind storable.op, mapM_valueToFind storable.value]
  rfl

/-- A search finds the row of a storable fact exactly when the fact matches. -/
theorem isMatch_row {p : Pattern} (storable : p.Storable) {asOf : EntityId} {f : Fact}
    (kept : f.Storable) :
    (searchOf p asOf).isMatch f.row = (decide (f.tx ≤ asOf) && p.isMatch f) := by
  rw [Search.isMatch, Pattern.isMatch]
  -- the two sides test the same places in a different order
  cases place : p.value with
  | none =>
    simp only [searchOf, Fact.row, place, Option.map_none, Pattern.fits, Bool.and_true]
    ac_rfl
  | some v =>
    have answered : (f.row.cell.answers v.cell && v.matchingTags.contains f.row.tag)
        = Pattern.fits (some v) f.value := by
      simp only [Fact.row, Cell.kept_cell kept.value, Pattern.fits]
      exact Cell.answers_cell kept.value (storable.value v place)
    simp only [searchOf, place, Option.map_some, answered]
    simp only [Fact.row]
    ac_rfl

/-- Facts as a table gives them back. One whose value is no number cannot be read, nor can any
others together with it. -/
def readBack (fs : List Fact) : Except StorageFault (List Fact) :=
  if fs.any (·.value.isNaN) then .error (.mismatch .null Value.Tag.float) else .ok fs

theorem readBack_cases (fs : List Fact) :
    readBack fs = .ok fs ∨ readBack fs = .error (.mismatch .null Value.Tag.float) := by
  unfold readBack
  split
  · exact .inr rfl
  · exact .inl rfl

/-- Rows are read as the facts that were written to them. -/
theorem readAll_row {fs : List Fact} (writable : ∀ f ∈ fs, f.Writable) :
    readAll (fs.map Fact.row) = readBack fs := by
  induction fs with
  | nil => rfl
  | cons f rest ih =>
    obtain ⟨first, others⟩ := List.forall_mem_cons.mp writable
    rw [readAll, List.map_cons, List.mapM_cons, Row.toFact_row first]
    cases nan : f.value.isNaN with
    | true => simp [readBack, nan]
    | false =>
      have tail : (rest.map Fact.row).mapM Row.toFact = readBack rest := ih others
      simp only [Bool.false_eq_true, if_false, Outcome.ok_bind, tail, readBack, List.any_cons, nan,
        Bool.false_or]
      cases rest.any (·.value.isNaN) <;> rfl

theorem readBack_storable {fs : List Fact} (kept : ∀ f ∈ fs, f.Storable) :
    readBack fs = .ok fs := by
  apply if_neg
  rw [Bool.not_eq_true, List.any_eq_false]
  intro f member
  rw [(kept f member).value.isNaN]
  exact Bool.false_ne_true

/-- A search finds what a scan of the facts finds. -/
theorem Holds.lookup_eq {t : Table} {fs : List Fact} (holds : t.Holds fs)
    (kept : ∀ f ∈ fs, f.Storable) {p : Pattern} (storable : p.Storable) {asOf : EntityId}
    (bound : asOf ≤ maxCellInt) : t.lookup p asOf = .ok (Log.lookup fs p asOf) := by
  have found : t.rows.filter (searchOf p asOf).isMatch = (Log.lookup fs p asOf).map Fact.row := by
    rw [holds.rows, List.filter_map, Log.lookup]
    congr 1
    apply List.filter_congr
    intro f member
    exact isMatch_row storable (kept f member)
  have read : readAll ((Log.lookup fs p asOf).map Fact.row) = .ok (Log.lookup fs p asOf) := by
    have found_kept : ∀ f ∈ Log.lookup fs p asOf, f.Storable := fun f member =>
      kept f (List.mem_of_mem_filter member)
    rw [readAll_row fun f member => (found_kept f member).writable, readBack_storable found_kept]
  rw [lookup, ofPattern_eq storable bound]
  show readAll (t.rows.filter (searchOf p asOf).isMatch) = _
  rw [found, read]

theorem entityToFind_eq_ok {e d : EntityId} (ok : Cell.entityToFind e = .ok d) : d = e := by
  unfold Cell.entityToFind at ok
  split at ok
  · exact (Except.ok.inj ok).symm
  · cases ok

theorem mapM_eq_ok_of {α β : Type} {read : α → Except StorageFault β} {f : α → β}
    (reads : ∀ x y, read x = .ok y → y = f x) {place : Option α} {found : Option β}
    (ok : place.mapM read = .ok found) : found = place.map f := by
  cases place with
  | none => exact (Except.ok.inj ok).symm
  | some x =>
    cases result : read x with
    | error fault => simp [Option.mapM, Functor.map, Except.map, result] at ok
    | ok y =>
      rw [Option.map_some, ← reads x y result]
      simpa [Option.mapM, Functor.map, Except.map, result, eq_comm] using ok

theorem valueToFind_eq_ok {v : Value} {found : Cell × List Value.Tag}
    (ok : Search.valueToFind v = .ok found) : found = (v.cell, v.matchingTags) := by
  obtain ⟨cell, cell_ok, ok⟩ := Outcome.bind_eq_ok.mp ok
  obtain rfl := Outcome.pure_eq_ok.mp ok
  cases v
  case ref e =>
    obtain ⟨d, fits, rfl⟩ := Outcome.map_eq_ok.mp cell_ok
    rw [entityToFind_eq_ok fits]
    rfl
  all_goals
    obtain rfl := Except.ok.inj cell_ok
    rfl

/-- A search that can be made looks for the pattern as it is. -/
theorem ofPattern_eq_ok {p : Pattern} {asOf : EntityId} {search : Search}
    (ok : Search.ofPattern p asOf = .ok search) : search = searchOf p asOf := by
  simp only [Search.ofPattern, Outcome.bind_eq_ok, Outcome.pure_eq_ok] at ok
  obtain ⟨bound, bound_ok, entity, entity_ok, attr, attr_ok, tx, tx_ok, op, op_ok, value, value_ok,
    rfl⟩ := ok
  have same : ∀ {place found : Option EntityId}, place.mapM Cell.entityToFind = .ok found →
      found = place := by
    intro place found ok
    rw [mapM_eq_ok_of (fun _ _ => entityToFind_eq_ok) ok]
    exact Option.map_id'
  rw [entityToFind_eq_ok bound_ok, same entity_ok, same attr_ok, same tx_ok, same op_ok,
    mapM_eq_ok_of (fun _ _ => valueToFind_eq_ok) value_ok]
  rfl

/-- What a search finds are the written facts whose rows match, as far as a row tells them. -/
theorem Holds.lookup_related {t : Table} {fs : List Fact} (holds : t.Holds fs) {p : Pattern}
    {asOf : EntityId} {facts : List Fact} (found : t.lookup p asOf = .ok facts) :
    List.Forall₂ Fact.SamePlace (fs.filter fun f => (searchOf p asOf).isMatch f.row) facts := by
  obtain ⟨search, searched, read⟩ := Outcome.bind_eq_ok.mp found
  obtain rfl := ofPattern_eq_ok searched
  rw [readAll, holds.rows, List.filter_map, Outcome.mapM_eq_ok, List.forall₂_map_left_iff] at read
  refine read.imp ?_
  intro g f back
  obtain ⟨value, _, same⟩ := Outcome.bind_eq_ok.mp back
  obtain rfl := Outcome.pure_eq_ok.mp same
  exact ⟨rfl, rfl, rfl, rfl⟩

/-! ### Listings -/

/-- No more than a whole list is left out or shown, so a bound above its length changes nothing. -/
theorem page_atMost {α : Type} {bound : Nat} {xs : List α} (room : xs.length ≤ bound)
    (listing : Listing) : (listing.atMost bound).page xs = listing.page xs := by
  have rest : xs.drop ((listing.offset.map (min bound)).getD 0)
      = xs.drop (listing.offset.getD 0) := by
    cases listing.offset with
    | none => rfl
    | some n =>
      by_cases small : n ≤ bound
      · simp [Nat.min_eq_right small]
      · have large : bound ≤ n := Nat.le_of_not_le small
        simp [Nat.min_eq_left large, List.drop_eq_nil_of_le, room, Nat.le_trans room large]
  simp only [Listing.page, Listing.atMost, rest]
  cases listing.limit with
  | none => rfl
  | some n =>
    have left : (xs.drop (listing.offset.getD 0)).length ≤ bound :=
      List.length_drop ▸ Nat.le_trans (Nat.sub_le ..) room
    by_cases small : n ≤ bound
    · simp [Nat.min_eq_right small]
    · have large : bound ≤ n := Nat.le_of_not_le small
      simp only [Option.map_some, Nat.min_eq_left large]
      rw [List.take_of_length_le left, List.take_of_length_le (Nat.le_trans left large)]

theorem page_map {α β : Type} (g : α → β) (listing : Listing) (xs : List α) :
    listing.page (xs.map g) = (listing.page xs).map g := by
  cases limit : listing.limit <;> simp [Listing.page, limit, List.map_drop, List.map_take]

/-- Listings look at nothing but the order of the items. -/
theorem arrange_congr {α : Type} {listing : Listing} {order other : Column → α → α → Ordering}
    {xs : List α} (same : ∀ column ∈ listing.sort, ∀ x ∈ xs, ∀ y ∈ xs,
      order column x y = other column x y) :
    listing.arrange order xs = listing.arrange other xs := by
  unfold Listing.arrange
  cases sort : listing.sort with
  | none => rfl
  | some column =>
    -- sorting commutes with a map that keeps the order, here with none
    have sorted : ∀ direction, xs.mergeSort (Listing.before direction (order column))
        = xs.mergeSort (Listing.before direction (other column)) := by
      intro direction
      have mapped := List.map_mergeSort (f := id) (l := xs)
        (r := Listing.before direction (order column))
        (s := Listing.before direction (other column)) ?_
      · simpa using mapped
      · intro x x_member y y_member
        have forth := same column sort x x_member y y_member
        have back := same column sort y y_member x x_member
        cases direction <;> simp [Listing.before, forth, back]
    simp only [sorted]

theorem arrange_map {α β : Type} (g : α → β) (order : Column → β → β → Ordering)
    (listing : Listing) (xs : List α) :
    listing.arrange order (xs.map g)
      = (listing.arrange (fun column x y => order column (g x) (g y)) xs).map g := by
  cases sort : listing.sort with
  | none => simp only [Listing.arrange, sort, page_map]
  | some column =>
    simp only [Listing.arrange, sort]
    rw [← page_map, List.map_mergeSort]
    intro x _ y _
    cases listing.direction.getD .ascending <;> rfl

/-- Listing a page keeps to the facts of the list. -/
theorem mem_of_mem_arrange {listing : Listing} {order : Column → Fact → Fact → Ordering}
    {fs : List Fact} {f : Fact} (member : f ∈ listing.arrange order fs) : f ∈ fs := by
  have mem_of_mem_page : ∀ {xs : List Fact}, f ∈ listing.page xs → f ∈ xs := by
    intro xs shown
    unfold Listing.page at shown
    split at shown
    · exact List.mem_of_mem_drop shown
    · exact List.mem_of_mem_drop (List.mem_of_mem_take shown)
  unfold Listing.arrange at member
  split at member
  · exact mem_of_mem_page member
  · exact List.mem_mergeSort.mp (mem_of_mem_page member)

/-- Sorting does not change how many items there are, so a bound above that changes nothing. -/
theorem arrange_atMost {α : Type} {bound : Nat} {xs : List α} (room : xs.length ≤ bound)
    (listing : Listing) (order : Column → α → α → Ordering) :
    (listing.atMost bound).arrange order xs = listing.arrange order xs := by
  have sort : (listing.atMost bound).sort = listing.sort := rfl
  have direction : (listing.atMost bound).direction = listing.direction := rfl
  unfold Listing.arrange
  rw [sort, direction]
  split
  · exact page_atMost room listing
  · apply page_atMost
    rw [List.length_mergeSort]
    exact room

section

variable {t : Table} {fs : List Fact} (holds : t.Holds fs)

include holds

/-- A listing reads back the facts whose rows it shows. -/
theorem Holds.list_readBack (listing : Listing) :
    t.list listing = readBack ((listing.atMost maxCellInt).arrange Fact.rowOrder fs) := by
  rw [list, holds.rows, arrange_map]
  apply readAll_row
  intro f member
  exact holds.writable f (mem_of_mem_arrange member)

/-- A listing shows storable facts as they are, in the order of their rows. -/
theorem Holds.list_storable (kept : ∀ f ∈ fs, f.Storable) (room : fs.length ≤ maxCellInt)
    (listing : Listing) : t.list listing = .ok (listing.arrange Fact.rowOrder fs) := by
  rw [holds.list_readBack, arrange_atMost room]
  apply readBack_storable
  intro f member
  exact kept f (mem_of_mem_arrange member)

end

end Table

end Store

end Factbase
