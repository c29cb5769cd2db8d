import Factbase.Proofs.Indexed
import Factbase.Proofs.Table
import Factbase.Store

/-!
# Factbase.Proofs.Holds

What a store holds. `Store.Holds` says which facts were written to a store since it was empty, in
either way of keeping them; whatever reads numbers and names alone tells what those facts tell.
-/

namespace Factbase.Store

theorem ofStorage_eq_ok {α : Type} {step : Except StorageFault α} {x : α} :
    ofStorage step = .ok x ↔ step = .ok x := by
  cases step <;> simp [ofStorage]

/-- The facts that were written to a store since it was empty, in insertion order. -/
def Holds : Store → List Fact → Prop
  | indexed s, fs => s.Coherent ∧ s.facts = fs
  | table t, fs => t.Holds fs

theorem holds_empty (backend : Backend) : (empty backend).Holds [] := by
  cases backend with
  | indexed => exact ⟨Indexed.coherent_empty, rfl⟩
  | table => exact Table.holds_empty

/-- Facts that are written come behind the ones the store holds. -/
theorem Holds.insertAll {s s' : Store} {fs gs : List Fact} (holds : s.Holds fs)
    (written : s.insertAll gs = .ok s') : s'.Holds (fs ++ gs) := by
  cases s with
  | indexed s =>
    obtain rfl := Except.ok.inj written
    refine ⟨holds.1.insertAll gs, ?_⟩
    rw [Indexed.facts_insertAll, holds.2]
  | table t =>
    rw [Store.insertAll, Outcome.map_eq_ok] at written
    obtain ⟨t', kept, rfl⟩ := written
    exact Table.Holds.insertAll holds (ofStorage_eq_ok.mp kept)

theorem backend_insertAll {s s' : Store} {fs : List Fact} (written : s.insertAll fs = .ok s') :
    s'.backend = s.backend := by
  cases s with
  | indexed s => obtain rfl := Except.ok.inj written; rfl
  | table t =>
    rw [Store.insertAll, Outcome.map_eq_ok] at written
    obtain ⟨t', _, rfl⟩ := written
    rfl

/-! ### Reads -/

/-- Anything can be asked about an entity, unless a table cannot hold its number. -/
theorem askable_eq (s : Store) {e : EntityId} (fits : e ≤ maxCellInt) : s.askable e = .ok e := by
  cases s with
  | indexed s => rfl
  | table t =>
    have written : Row.entityToWrite e = .ok e := if_pos fits
    rw [askable, written]
    rfl

variable {s : Store} {fs : List Fact} (holds : s.Holds fs)

include holds

theorem Holds.lastEntity_eq : s.lastEntity = Log.lastEntity fs := by
  cases s with
  | indexed s => exact holds.2 ▸ holds.1.lastEntity
  | table t => exact Table.Holds.lastEntity_eq holds

theorem Holds.lastTx_eq : s.lastTx = Log.lastTx fs := by
  cases s with
  | indexed s => exact holds.2 ▸ holds.1.lastTx
  | table t => exact Table.Holds.lastTx_eq holds

theorem Holds.size_eq : s.size = fs.length := by
  cases s with
  | indexed s => exact holds.2 ▸ Indexed.size_eq s
  | table t => exact Table.Holds.size_eq holds

theorem Holds.firstName_eq (e : EntityId) : s.firstName e = Log.nameOf fs e := by
  cases s with
  | indexed s => exact holds.2 ▸ holds.1.nameOf_eq e
  | table t => exact Table.Holds.nameOf_eq holds e

theorem Holds.entityOf?_eq (name : String) : s.entityOf? name = Log.entityOf fs name := by
  cases s with
  | indexed s => exact holds.2 ▸ holds.1.entityOf_eq name
  | table t => exact Table.Holds.entityOf_eq holds name

theorem Holds.identities_eq : s.identities = Log.identities fs := by
  cases s with
  | indexed s => exact holds.2 ▸ holds.1.identities_eq
  | table t => exact Table.Holds.identities_eq holds

/-- A name is found exactly when the log gives it to an entity. -/
theorem Holds.entityOf_eq_ok {name : String} {e : EntityId} :
    s.entityOf name = .ok e ↔ Log.entityOf fs name = some e := by
  rw [entityOf, holds.entityOf?_eq]
  cases Log.entityOf fs name <;> simp

theorem Holds.count_eq {e : EntityId} (fits : e ≤ maxCellInt) :
    s.count e = .ok (Log.count fs e) := by
  rw [count, askable_eq s fits]
  cases s with
  | indexed s => exact congrArg Except.ok (holds.2 ▸ holds.1.count_eq e)
  | table t => exact congrArg Except.ok (Table.Holds.count_eq holds e)

theorem Holds.nameOf_eq {e : EntityId} (fits : e ≤ maxCellInt) :
    s.nameOf e = .ok (Log.nameOf fs e) := by
  rw [nameOf, askable_eq s fits]
  exact congrArg Except.ok (holds.firstName_eq e)

/-- A search for a storable pattern finds what a scan of the log finds. -/
theorem Holds.lookup_eq (storable : ∀ f ∈ fs, f.Storable) {p : Pattern} (within : p.Storable)
    {asOf : EntityId} (bound : asOf ≤ maxCellInt) :
    s.lookup p asOf = .ok (Log.lookup fs p asOf) := by
  cases s with
  | indexed s =>
    obtain ⟨coherent, rfl⟩ := holds
    exact congrArg Except.ok (coherent.lookup_eq p asOf)
  | table t =>
    rw [lookup, Table.Holds.lookup_eq holds storable within bound]
    rfl

/-- What a search finds was written, but for its value as far as a row tells it. -/
theorem Holds.written_of_lookup {p : Pattern} {asOf : EntityId} {facts : List Fact}
    (found : s.lookup p asOf = .ok facts) : ∀ f ∈ facts, ∃ g ∈ fs, g.SamePlace f := by
  intro f member
  cases s with
  | indexed s =>
    obtain ⟨coherent, rfl⟩ := holds
    obtain rfl := Except.ok.inj found
    rw [coherent.lookup_eq] at member
    exact ⟨f, List.mem_of_mem_filter member, .refl f⟩
  | table t =>
    have related := Table.Holds.lookup_related holds (ofStorage_eq_ok.mp found)
    obtain ⟨g, g_member, same⟩ := Outcome.exists_left_of_mem related member
    exact ⟨g, List.mem_of_mem_filter g_member, same⟩

/-- A search for anything finds the whole log up to a transaction, but for values that a row does not
tell. -/
theorem Holds.lookup_any {asOf : EntityId} {facts : List Fact}
    (found : s.lookup .any asOf = .ok facts) :
    List.Forall₂ Fact.SamePlace (fs.filter fun f => decide (f.tx ≤ asOf)) facts := by
  cases s with
  | indexed s =>
    obtain ⟨coherent, rfl⟩ := holds
    obtain rfl := Except.ok.inj found
    rw [coherent.lookup_eq]
    have all : Log.lookup s.facts .any asOf = s.facts.filter fun f => decide (f.tx ≤ asOf) := by
      simp [Log.lookup, Pattern.isMatch, Pattern.any, Pattern.fits]
    rw [all]
    exact List.forall₂_same.mpr fun f _ => .refl f
  | table t =>
    have early : ∀ f : Fact, (Table.searchOf .any asOf).isMatch f.row = decide (f.tx ≤ asOf) := by
      intro f
      rw [Bool.eq_iff_iff, Table.Search.isMatch]
      simp only [Bool.and_eq_true, decide_eq_true_eq]
      simp [Table.searchOf, Pattern.any, Pattern.fits, Fact.row]
    have related := Table.Holds.lookup_related holds (ofStorage_eq_ok.mp found)
    simp only [early] at related
    exact related

/-- A listing shows the log, in the order of its facts where their rows are in that order. -/
theorem Holds.list_of_rowOrder (storable : ∀ f ∈ fs, f.Storable) {listing : Listing}
    (same : ∀ column ∈ listing.sort, ∀ f ∈ fs, ∀ g ∈ fs,
      Fact.rowOrder column f g = Fact.order column f g)
    (room : fs.length ≤ maxCellInt) : s.list listing = .ok (listing.arrange Fact.order fs) := by
  cases s with
  | indexed s =>
    obtain ⟨coherent, rfl⟩ := holds
    rfl
  | table t =>
    rw [list, Table.Holds.list_storable holds storable room, Table.arrange_congr same]
    rfl

/-- A listing that is not sorted by value shows the log. -/
theorem Holds.list_eq (storable : ∀ f ∈ fs, f.Storable) {listing : Listing}
    (numbers : listing.sort ≠ some .value) (room : fs.length ≤ maxCellInt) :
    s.list listing = .ok (listing.arrange Fact.order fs) := by
  refine holds.list_of_rowOrder storable ?_ room
  intro column sorted f _ g _
  exact Fact.rowOrder_eq (fun value => numbers (value ▸ sorted)) f g

theorem Holds.exists_insertAll {gs : List Fact} (storable : ∀ g ∈ gs, g.Storable) :
    ∃ s', s.insertAll gs = .ok s' ∧ s'.Holds (fs ++ gs) := by
  -- only a table can refuse facts, and only those that do not fit its rows
  have written : ∃ s', s.insertAll gs = .ok s' := by
    cases s with
    | indexed s => exact ⟨_, rfl⟩
    | table t =>
      have fits : ∀ g ∈ gs, g.Writable := fun g member => (storable g member).writable
      have kept : t.insertAll gs = .ok ⟨t.rows ++ gs.map Fact.row⟩ :=
        Table.insertAll_eq_ok.mpr ⟨fits, rfl⟩
      rw [Store.insertAll, kept]
      exact ⟨_, rfl⟩
  obtain ⟨s', ok⟩ := written
  exact ⟨s', ok, holds.insertAll ok⟩

end Factbase.Store
