import Factbase.Proofs.Indexed
import Factbase.Store.Write

/-!
# Factbase.Proofs.FullScan

Indexes only save work. Whatever was written to an indexed store, it answers every read as a scan
of its whole log does, from the first fact to the last, and any index that a pattern offers would
have done for a lookup.
-/

namespace Factbase

/-! ### Matching -/

/-- A fact that fills every bound place of a pattern. A value fills the place of an equal one. -/
structure Pattern.Matches (p : Pattern) (f : Fact) : Prop where
  entity : ∀ e ∈ p.entity, f.entity = e
  attr : ∀ a ∈ p.attr, f.attr = a
  value : ∀ v ∈ p.value, (v == f.value) = true
  tx : ∀ t ∈ p.tx, f.tx = t
  op : ∀ o ∈ p.op, f.op = o

theorem Pattern.fits_iff {α : Type} [BEq α] {place : Option α} {x : α} :
    fits place x = true ↔ ∀ y ∈ place, (y == x) = true := by
  cases place <;> simp [fits]

theorem Pattern.fits_iff_eq {α : Type} [BEq α] [LawfulBEq α] {place : Option α} {x : α} :
    fits place x = true ↔ ∀ y ∈ place, x = y := by
  rw [fits_iff]
  refine forall₂_congr fun y _ => ?_
  rw [beq_iff_eq, eq_comm]

theorem Pattern.isMatch_iff {p : Pattern} {f : Fact} : p.isMatch f = true ↔ p.Matches f := by
  have entity : fits p.entity f.entity = true ↔ _ := fits_iff_eq
  have attr : fits p.attr f.attr = true ↔ _ := fits_iff_eq
  have value : fits p.value f.value = true ↔ _ := fits_iff
  have tx : fits p.tx f.tx = true ↔ _ := fits_iff_eq
  have op : fits p.op f.op = true ↔ _ := fits_iff_eq
  simp only [isMatch, Bool.and_eq_true, entity, attr, value, tx, op]
  constructor
  · rintro ⟨⟨⟨⟨entity, attr⟩, value⟩, tx⟩, op⟩
    exact ⟨entity, attr, value, tx, op⟩
  · rintro ⟨entity, attr, value, tx, op⟩
    exact ⟨⟨⟨⟨entity, attr⟩, value⟩, tx⟩, op⟩

instance (p : Pattern) (f : Fact) : Decidable (p.Matches f) :=
  decidable_of_iff _ Pattern.isMatch_iff

/-- The facts that a scan of a log finds for a pattern as of a transaction. -/
def Log.scan (fs : List Fact) (p : Pattern) (asOf : EntityId) : List Fact :=
  fs.filter fun f => decide (f.tx ≤ asOf ∧ p.Matches f)

theorem Log.lookup_eq_scan (fs : List Fact) (p : Pattern) (asOf : EntityId) :
    lookup fs p asOf = scan fs p asOf := by
  apply List.filter_congr
  intro f _
  rw [Bool.eq_iff_iff, Bool.and_eq_true, decide_eq_true_eq, decide_eq_true_eq,
    Pattern.isMatch_iff]

/-- Whether a fact gives its entity a name. -/
def Fact.names (f : Fact) (name : String) : Bool :=
  f.attr == nameAttribute && f.value.asText? == some name

theorem Fact.name?_eq_some {f : Fact} {name : String} :
    (f.name? == some name) = f.names name := by
  by_cases naming : f.attr = nameAttribute <;> simp [name?, names, naming]

namespace Store

/-! ### Writes -/

/-- The log after a change. -/
def Write.log (fs : List Fact) : Write → List Fact
  | .insert f => fs ++ [f]
  | .insertAll gs => fs ++ gs
  | .reset => []

/-- What a run of changes to an empty store has written since the last time it was emptied. -/
def Write.logOf (ws : List Write) : List Fact := ws.foldl Write.log []

namespace Indexed

/-- No change fails on an indexed store, and none makes it incoherent. -/
theorem Coherent.write {s : Indexed} (coherent : s.Coherent) (w : Write) :
    ∃ s' : Indexed, (indexed s).write w = (.ok (), indexed s') ∧ s'.Coherent ∧
      s'.facts = w.log s.facts := by
  cases w with
  | insert f => exact ⟨s.insertAll [f], rfl, coherent.insertAll [f], facts_insertAll s [f]⟩
  | insertAll fs => exact ⟨s.insertAll fs, rfl, coherent.insertAll fs, facts_insertAll s fs⟩
  | reset => exact ⟨empty, rfl, coherent_empty, facts_empty⟩

theorem Coherent.writeAll {s : Indexed} (coherent : s.Coherent) (ws : List Write) :
    ∃ s' : Indexed, (indexed s).writeAll ws = (ws.map fun _ => .ok (), indexed s') ∧
      s'.Coherent ∧ s'.facts = ws.foldl Write.log s.facts := by
  -- each change hands a coherent store to the next
  induction ws generalizing s with
  | nil => exact ⟨s, rfl, coherent, rfl⟩
  | cons w rest ih =>
    obtain ⟨between, written, coherent', facts'⟩ := coherent.write w
    obtain ⟨last, others, coherent'', facts''⟩ := ih coherent'
    refine ⟨last, ?_, coherent'', ?_⟩
    · simp only [Store.writeAll, written, others, List.map_cons]
    · rw [facts'', facts', List.foldl_cons]

/-! ### Reads -/

/-- Every offer of positions leads to the same facts, once they are tested. -/
theorem Coherent.walk_eq {s : Indexed} (coherent : s.Coherent) {p : Pattern}
    {positions : Array Nat} (offered : positions ∈ s.offers p) (asOf : EntityId) :
    Log.scan (positions.toList.filterMap (s.log[·]?)) p asOf = Log.scan s.facts p asOf := by
  obtain ⟨q, shown, kept⟩ := coherent.offers_show offered
  have walk : positions.toList.filterMap (s.log[·]?) = s.facts.filter q := by
    rw [← shown]
    simp only [facts, Array.getElem?_toList]
  rw [walk, Log.scan, List.filter_filter, Log.scan]
  apply List.filter_congr
  intro f _
  by_cases matched : p.Matches f
  · simp [kept f (Pattern.isMatch_iff.mpr matched)]
  · simp [matched]

/-- An indexed store that answers all reads as scans of a log do. -/
structure Scans (s : Indexed) (fs : List Fact) : Prop where
  lookup : ∀ p asOf, (indexed s).lookup p asOf = .ok (Log.scan fs p asOf)
  /-- Walking any index that a pattern offers, and testing what it shows, does for a lookup. -/
  walk : ∀ p asOf, ∀ positions ∈ s.offers p,
    Log.scan (positions.toList.filterMap (s.log[·]?)) p asOf = Log.scan fs p asOf
  /-- The first name that a fact gives an entity. -/
  nameOf : ∀ e, (indexed s).nameOf e = .ok (fs.findSome? fun f =>
    if f.entity = e ∧ f.attr = nameAttribute then f.value.asText? else none)
  /-- The entity of the first fact that gives a name. -/
  entityOf : ∀ name, (indexed s).entityOf name =
    (fs.find? (·.names name)).elim (.error (.unknownName name)) fun f => .ok f.entity
  count : ∀ e, (indexed s).count e = .ok (fs.countP fun f => decide (f.entity = e))
  lastEntity : (indexed s).lastEntity = (fs.map Fact.entity).max?
  lastTx : (indexed s).lastTx = (fs.map Fact.tx).max?

theorem Coherent.scans {s : Indexed} (coherent : s.Coherent) : s.Scans s.facts where
  lookup p asOf := by
    rw [Store.lookup, coherent.lookup_eq, Log.lookup_eq_scan]
  walk p asOf positions offered := coherent.walk_eq offered asOf
  nameOf e := by
    show Except.ok (s.nameOf e) = _
    rw [coherent.nameOf_eq, Log.nameOf]
    congr 2
    funext f
    by_cases same : f.entity = e <;> simp [same, Fact.name?]
  entityOf name := by
    rw [Store.entityOf, Store.entityOf?, coherent.entityOf_eq, Log.entityOf]
    simp only [Fact.name?_eq_some]
    cases s.facts.find? (·.names name) <;> rfl
  count e := congrArg Except.ok (coherent.count_eq e)
  lastEntity := coherent.lastEntity
  lastTx := coherent.lastTx

end Indexed

/-- Whatever changes were made to an empty indexed store, all have succeeded, and it now answers
every read as a scan of what they have written. -/
theorem indexed_scans_log (ws : List Write) :
    ∃ s : Indexed, (empty .indexed).writeAll ws = (ws.map fun _ => .ok (), indexed s) ∧
      s.facts = Write.logOf ws ∧ s.Scans (Write.logOf ws) := by
  obtain ⟨s, written, coherent, facts⟩ := Indexed.coherent_empty.writeAll ws
  have log : s.facts = Write.logOf ws := by rw [facts, Indexed.facts_empty, Write.logOf]
  exact ⟨s, written, log, log ▸ coherent.scans⟩

end Store

end Factbase
