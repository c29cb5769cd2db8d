import Factbase.Proofs.FullScan
import Factbase.Proofs.Holds
import Factbase.Proofs.Retraction

/-!
# Factbase.Proofs.Visibility

What a search sees of a log, and when. A search finds facts, and the retractions among them hide
others of them; `Log.Seen` says for each fact by itself whether it is seen. A fact is seen from its
own transaction up to the earliest one that retracts it later, and never again afterwards, in
whatever order the facts of the log were recorded.
-/

namespace Factbase

namespace Log

/-- A fact of a log that is seen as of a transaction when the log is searched for a pattern. -/
structure Seen (fs : List Fact) (p : Pattern) (retract asOf : EntityId) (f : Fact) : Prop where
  sought : p.Matches f
  recorded : f.tx ≤ asOf
  asserted : f.op ≠ retract
  unhidden : ¬ ∃ g ∈ fs, p.Matches g ∧ g.Hides retract f ∧ g.tx ≤ asOf

instance (fs : List Fact) (p : Pattern) (retract asOf : EntityId) (f : Fact) :
    Decidable (Seen fs p retract asOf f) :=
  decidable_of_iff (p.Matches f ∧ f.tx ≤ asOf ∧ f.op ≠ retract ∧
      ¬ ∃ g ∈ fs, p.Matches g ∧ g.Hides retract f ∧ g.tx ≤ asOf)
    ⟨fun ⟨sought, recorded, asserted, unhidden⟩ => ⟨sought, recorded, asserted, unhidden⟩,
      fun ⟨sought, recorded, asserted, unhidden⟩ => ⟨sought, recorded, asserted, unhidden⟩⟩

/-- The transaction of the earliest retraction among the facts sought that hides a fact. -/
def hiddenFrom (fs : List Fact) (p : Pattern) (retract : EntityId) (f : Fact) : Option EntityId :=
  ((fs.filter fun g => decide (p.Matches g ∧ g.Hides retract f)).map Fact.tx).min?

variable {fs : List Fact} {p : Pattern} {retract asOf : EntityId} {f : Fact}

theorem mem_lookup : f ∈ lookup fs p asOf ↔ f ∈ fs ∧ f.tx ≤ asOf ∧ p.Matches f := by
  simp [lookup, Pattern.isMatch_iff]

/-- What stands among the facts that a search finds are the facts of the log that are seen. -/
theorem standing_lookup (fs : List Fact) (p : Pattern) (retract asOf : EntityId) :
    Fact.standing retract (lookup fs p asOf)
      = fs.filter fun f => decide (Seen fs p retract asOf f) := by
  rw [Fact.standing]
  nth_rewrite 2 [lookup]
  rw [List.filter_filter]
  apply List.filter_congr
  intro f _
  rw [Bool.eq_iff_iff, Bool.and_eq_true, Bool.and_eq_true, Fact.stands_iff, decide_eq_true_eq,
    decide_eq_true_eq, Pattern.isMatch_iff]
  constructor
  · rintro ⟨⟨asserted, unhidden⟩, recorded, sought⟩
    refine ⟨sought, recorded, asserted, ?_⟩
    rintro ⟨g, member, found, hides, early⟩
    exact unhidden g (mem_lookup.mpr ⟨member, early, found⟩) hides
  · rintro ⟨sought, recorded, asserted, unhidden⟩
    refine ⟨⟨asserted, ?_⟩, recorded, sought⟩
    intro g inside hides
    obtain ⟨member, early, found⟩ := mem_lookup.mp inside
    exact unhidden ⟨g, member, found, hides, early⟩

/-! ### Times -/

theorem hiddenFrom_eq_some {t : EntityId} :
    hiddenFrom fs p retract f = some t ↔
      (∃ g ∈ fs, p.Matches g ∧ g.Hides retract f ∧ g.tx = t) ∧
        ∀ g ∈ fs, p.Matches g → g.Hides retract f → t ≤ g.tx := by
  rw [hiddenFrom, List.min?_eq_some_iff]
  simp only [List.mem_map, List.mem_filter, decide_eq_true_eq, and_assoc, forall_exists_index,
    and_imp]
  refine and_congr_right fun _ => ?_
  constructor
  · intro first g member found hides
    exact first g.tx g member found hides rfl
  · rintro first _ g member found hides rfl
    exact first g member found hides

theorem hiddenFrom_eq_none :
    hiddenFrom fs p retract f = none ↔ ∀ g ∈ fs, p.Matches g → ¬ g.Hides retract f := by
  simp [hiddenFrom]

/-- Only a later transaction hides a fact. -/
theorem tx_lt_of_hiddenFrom {t : EntityId} (hidden : hiddenFrom fs p retract f = some t) :
    f.tx < t := by
  obtain ⟨⟨g, _, _, hides, rfl⟩, _⟩ := hiddenFrom_eq_some.mp hidden
  exact hides.2.2.2

/-- A fact is seen from its own transaction on, up to the earliest one that hides it. -/
theorem seen_iff_between (sought : p.Matches f) (asserted : f.op ≠ retract) :
    Seen fs p retract asOf f ↔ f.tx ≤ asOf ∧ ∀ t ∈ hiddenFrom fs p retract f, asOf < t := by
  constructor
  · rintro ⟨_, recorded, _, unhidden⟩
    refine ⟨recorded, ?_⟩
    intro t hidden
    obtain ⟨⟨g, member, found, hides, rfl⟩, _⟩ := hiddenFrom_eq_some.mp hidden
    by_contra late
    exact unhidden ⟨g, member, found, hides, Nat.le_of_not_lt late⟩
  · rintro ⟨recorded, before⟩
    refine ⟨sought, recorded, asserted, ?_⟩
    rintro ⟨g, member, found, hides, early⟩
    cases earliest : hiddenFrom fs p retract f with
    | none => exact hiddenFrom_eq_none.mp earliest g member found hides
    | some t =>
      have first : t ≤ g.tx := (hiddenFrom_eq_some.mp earliest).2 g member found hides
      exact absurd early (Nat.not_le.mpr (Nat.lt_of_lt_of_le (before t earliest) first))

/-- A fact that was hidden at some time is not seen at any later one. -/
theorem Seen.earlier {later : EntityId} (seen : Seen fs p retract later f) (le : asOf ≤ later)
    (recorded : f.tx ≤ asOf) : Seen fs p retract asOf f := by
  have between := (seen_iff_between seen.sought seen.asserted).mp seen
  rw [seen_iff_between seen.sought seen.asserted]
  exact ⟨recorded, fun t hidden => Nat.lt_of_le_of_lt le (between.2 t hidden)⟩

end Log

/-! ### Stores -/

namespace Store

/-- A search without loss: any search where facts are indexed, in a table one for what its rows keep
as it is. -/
def Searchable (fs : List Fact) (p : Pattern) (asOf : EntityId) : Store → Prop
  | indexed _ => True
  | table _ => (∀ f ∈ fs, f.Storable) ∧ p.Storable ∧ asOf ≤ maxCellInt

theorem Holds.lookup_searchable {s : Store} {fs : List Fact} (holds : s.Holds fs) {p : Pattern}
    {asOf : EntityId} (searchable : s.Searchable fs p asOf) :
    s.lookup p asOf = .ok (Log.lookup fs p asOf) := by
  cases s with
  | indexed s =>
    obtain ⟨coherent, rfl⟩ := holds
    exact congrArg Except.ok (coherent.lookup_eq p asOf)
  | table t =>
    obtain ⟨storable, within, bound⟩ := searchable
    exact holds.lookup_eq storable within bound

/-- What a search shows of a store once retractions have hidden what they hide, and when. -/
theorem Holds.sees {s : Store} {fs : List Fact} (holds : s.Holds fs) (p : Pattern)
    (retract : EntityId) :
    (∀ asOf, s.Searchable fs p asOf → ∃ found, s.lookup p asOf = .ok found ∧
      Fact.standing retract found = fs.filter fun f => decide (Log.Seen fs p retract asOf f)) ∧
    ∀ f, p.Matches f → f.op ≠ retract →
      (∀ asOf, Log.Seen fs p retract asOf f ↔
        f.tx ≤ asOf ∧ ∀ t ∈ Log.hiddenFrom fs p retract f, asOf < t) ∧
      (∀ t ∈ Log.hiddenFrom fs p retract f, f.tx < t) ∧
      ∀ asOf later, asOf ≤ later → f.tx ≤ asOf → ¬ Log.Seen fs p retract asOf f →
        ¬ Log.Seen fs p retract later f := by
  constructor
  · intro asOf searchable
    exact ⟨_, holds.lookup_searchable searchable, Log.standing_lookup fs p retract asOf⟩
  · intro f sought asserted
    refine ⟨fun asOf => Log.seen_iff_between sought asserted, ?_, ?_⟩
    · intro t hidden
      exact Log.tx_lt_of_hiddenFrom hidden
    · intro asOf later le recorded hidden seen
      exact hidden (seen.earlier le recorded)

/-- Five facts that were not recorded in the order of their transactions. -/
def unordered : List Fact :=
  [⟨10, 3, .text "b", 6, 30⟩, ⟨12, 3, .text "c", 2, 29⟩, ⟨11, 3, .text "d", 4, 30⟩,
    ⟨11, 3, .text "d", 4, 29⟩, ⟨10, 3, .text "a", 5, 29⟩]

/-- Of the facts of a table one is seen throughout, one until it is retracted, and one although it is
retracted in its own transaction. -/
theorem Holds.sees_unordered :
    (table ⟨unordered.map Fact.row⟩).Holds unordered ∧
      (∀ asOf ≤ 9, (table ⟨unordered.map Fact.row⟩).Searchable unordered .any asOf) ∧
      ∃ early late, (table ⟨unordered.map Fact.row⟩).lookup .any 5 = .ok early ∧
        (table ⟨unordered.map Fact.row⟩).lookup .any 6 = .ok late ∧
        (Fact.standing 30 early).map Fact.entity = [12, 11, 10] ∧
        (Fact.standing 30 late).map Fact.entity = [12, 11] := by
  have storable : ∀ f ∈ unordered, f.Storable := by decide
  have holds : (table ⟨unordered.map Fact.row⟩).Holds unordered :=
    ⟨fun f member => (storable f member).writable, rfl⟩
  have searchable : ∀ asOf ≤ 9,
      (table ⟨unordered.map Fact.row⟩).Searchable unordered .any asOf := by
    intro asOf bound
    refine ⟨storable, ?_, Nat.le_trans bound (by decide)⟩
    constructor <;> simp [Pattern.any]
  obtain ⟨sees, _⟩ := holds.sees .any 30
  obtain ⟨early, found, shown⟩ := sees 5 (searchable 5 (by decide))
  obtain ⟨late, found', shown'⟩ := sees 6 (searchable 6 (by decide))
  refine ⟨holds, searchable, early, late, found, found', ?_, ?_⟩
  · rw [shown]
    decide
  · rw [shown']
    decide

end Store

end Factbase
