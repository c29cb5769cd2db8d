import Mathlib
import Factbase.Fact.Listing

/-!
# Factbase.Proofs.Log

What a log of facts says by itself, without an index and without a table. Every read of a store is
compared with the function of the same name here.
-/

namespace Factbase.Log

def lastEntity (fs : List Fact) : Option EntityId := (fs.map Fact.entity).max?

def lastTx (fs : List Fact) : Option EntityId := (fs.map Fact.tx).max?

def nameOf (fs : List Fact) (e : EntityId) : Option String :=
  fs.findSome? fun f => if f.entity = e then f.name? else none

def entityOf (fs : List Fact) (name : String) : Option EntityId :=
  (fs.find? fun f => f.name? == some name).map Fact.entity

def count (fs : List Fact) (e : EntityId) : Nat := fs.countP (·.entity == e)

def identities (fs : List Fact) : List (EntityId × String) :=
  fs.filterMap fun f => f.name?.map (f.entity, ·)

/-- The facts of a log that match a pattern and were recorded by a transaction, or before it. -/
def lookup (fs : List Fact) (p : Pattern) (asOf : EntityId) : List Fact :=
  fs.filter fun f => decide (f.tx ≤ asOf) && p.isMatch f

/-! ### Greatest numbers -/

theorem max?_snoc (ns : List Nat) (n : Nat) :
    (ns ++ [n]).max? = some (max (ns.max?.getD n) n) := by
  cases ns with
  | nil => simp
  | cons m rest =>
    rw [List.cons_append, List.max?_cons', List.max?_cons', List.foldl_append]
    rfl

theorem max?_eq_some {ns : List Nat} {n : Nat} :
    ns.max? = some n ↔ n ∈ ns ∧ ∀ m ∈ ns, m ≤ n :=
  List.max?_eq_some_iff

theorem lastEntity_snoc (fs : List Fact) (f : Fact) :
    lastEntity (fs ++ [f]) = some (max ((lastEntity fs).getD f.entity) f.entity) := by
  simp only [lastEntity, List.map_append, List.map_cons, List.map_nil, max?_snoc]

theorem lastTx_snoc (fs : List Fact) (f : Fact) :
    lastTx (fs ++ [f]) = some (max ((lastTx fs).getD f.tx) f.tx) := by
  simp only [lastTx, List.map_append, List.map_cons, List.map_nil, max?_snoc]

theorem lastEntity_eq_some {fs : List Fact} {last : EntityId} :
    lastEntity fs = some last ↔ (∃ f ∈ fs, f.entity = last) ∧ ∀ f ∈ fs, f.entity ≤ last := by
  rw [lastEntity, max?_eq_some]
  simp only [List.mem_map, forall_exists_index, and_imp, forall_apply_eq_imp_iff₂]

theorem lastTx_eq_some {fs : List Fact} {last : EntityId} :
    lastTx fs = some last ↔ (∃ f ∈ fs, f.tx = last) ∧ ∀ f ∈ fs, f.tx ≤ last := by
  rw [lastTx, max?_eq_some]
  simp only [List.mem_map, forall_exists_index, and_imp, forall_apply_eq_imp_iff₂]

/-! ### Names -/

theorem nameOf_append (fs gs : List Fact) (e : EntityId) :
    nameOf (fs ++ gs) e = (nameOf fs e).or (nameOf gs e) := by
  simp only [nameOf, List.findSome?_append]

theorem nameOf_singleton (f : Fact) (e : EntityId) :
    nameOf [f] e = if f.entity = e then f.name? else none := by
  simp only [nameOf, List.findSome?_cons, List.findSome?_nil]
  split <;> simp_all

theorem entityOf_append (fs gs : List Fact) (name : String) :
    entityOf (fs ++ gs) name = (entityOf fs name).or (entityOf gs name) := by
  simp only [entityOf, List.find?_append, Option.map_or]

theorem entityOf_singleton (f : Fact) (name : String) :
    entityOf [f] name = if f.name? = some name then some f.entity else none := by
  by_cases same : f.name? = some name <;> simp [entityOf, same]

/-- An entity has a name when a fact of the log gives it one. -/
theorem nameOf_isSome {fs : List Fact} {e : EntityId} :
    (nameOf fs e).isSome ↔ ∃ f ∈ fs, f.entity = e ∧ f.name?.isSome := by
  simp only [nameOf, List.findSome?_isSome_iff]
  constructor
  · rintro ⟨f, member, named⟩
    split at named
    next same => exact ⟨f, member, same, named⟩
    next => simp at named
  · rintro ⟨f, member, same, named⟩
    exact ⟨f, member, by rw [if_pos same]; exact named⟩

/-- The entity of a name is one that a fact of the log gives that name. -/
theorem mem_of_entityOf {fs : List Fact} {name : String} {e : EntityId}
    (found : entityOf fs name = some e) : ∃ f ∈ fs, f.entity = e ∧ f.name? = some name := by
  obtain ⟨f, first, rfl⟩ := Option.map_eq_some_iff.mp found
  have named : f.name? = some name := by simpa using List.find?_some first
  exact ⟨f, List.mem_of_find?_eq_some first, rfl, named⟩

theorem mem_of_nameOf {fs : List Fact} {e : EntityId} {name : String}
    (named : nameOf fs e = some name) : ∃ f ∈ fs, f.entity = e ∧ f.name? = some name := by
  obtain ⟨f, member, named⟩ := List.exists_of_findSome?_eq_some named
  rw [Option.ite_none_right_eq_some] at named
  exact ⟨f, member, named⟩

/-- A name that stands for an entity keeps standing for it as the log grows. -/
theorem entityOf_grow {fs : List Fact} {name : String} {e : EntityId}
    (found : entityOf fs name = some e) (gs : List Fact) :
    entityOf (fs ++ gs) name = some e := by
  rw [entityOf_append, found, Option.some_or]

/-- An entity that has a name keeps it as the log grows. -/
theorem nameOf_grow {fs : List Fact} {e : EntityId} (named : (nameOf fs e).isSome)
    (gs : List Fact) : nameOf (fs ++ gs) e = nameOf fs e := by
  obtain ⟨name, eq⟩ := Option.isSome_iff_exists.mp named
  rw [nameOf_append, eq, Option.some_or]

/-! ### Growing logs -/

/-- Facts of later transactions stay out of sight. -/
theorem lookup_append_later {fs gs : List Fact} {p : Pattern} {asOf : EntityId}
    (later : ∀ g ∈ gs, asOf < g.tx) : lookup (fs ++ gs) p asOf = lookup fs p asOf := by
  -- none of the facts that were added passes the test of the time
  have none_seen : gs.filter (fun f => decide (f.tx ≤ asOf) && p.isMatch f) = [] := by
    apply List.filter_eq_nil_iff.mpr
    intro g member seen
    simp only [Bool.and_eq_true, decide_eq_true_eq] at seen
    exact absurd seen.1 (Nat.not_le.mpr (later g member))
  rw [lookup, List.filter_append, none_seen, List.append_nil, lookup]

/-- From its last transaction on, a log looks the same at any time. -/
theorem lookup_congr {fs : List Fact} {p : Pattern} {asOf later : EntityId}
    (all : ∀ f ∈ fs, f.tx ≤ asOf) (le : asOf ≤ later) : lookup fs p later = lookup fs p asOf := by
  apply List.filter_congr
  intro f member
  have early := all f member
  simp [early, Nat.le_trans early le]

end Factbase.Log
