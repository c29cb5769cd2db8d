import Factbase.Proofs.History
import Factbase.Proofs.Opening
import Factbase.Proofs.TimeTravel

/-!
# Factbase.Proofs.Permanence

Names are for good. The first fact that gives a name decides what the name stands for, and the
first fact that names an entity decides what the entity is called. Calls only add facts behind
these, whatever they say about the same names and entities, so nothing that a name stands for ever
changes.
-/

namespace Factbase

namespace Store

/-- Whether an entity can be asked about depends only on the way in which facts are kept. -/
theorem askable_congr {s s' : Store} (same : s'.backend = s.backend) (e : EntityId) :
    s'.askable e = s.askable e := by
  cases s <;> cases s' <;> first | rfl | cases same

variable {s s' : Store} {fs gs : List Fact}

/-- The name of an entity is its name in every longer log. -/
theorem Holds.nameOf_later (holds : s.Holds fs) (grown : s'.Holds (fs ++ gs))
    (same : s'.backend = s.backend) {e : EntityId} {name : String}
    (named : s.nameOf e = .ok (some name)) : s'.nameOf e = .ok (some name) := by
  rw [nameOf, Outcome.map_eq_ok] at named ⊢
  obtain ⟨asked, askable, named⟩ := named
  refine ⟨asked, by rw [askable_congr same, askable], ?_⟩
  rw [holds.firstName_eq] at named
  rw [grown.firstName_eq, Log.nameOf_grow (by simp [named]), named]

end Store

namespace Database

variable {db : Database} {fs : List Fact}

/-- Whatever a database holds, calls at most add facts behind it. -/
theorem run_holds (holds : db.store.Holds fs) (calls : List Call) :
    ∃ new, (db.run calls).store.Holds (fs ++ new) := by
  obtain ⟨parts, _, ran⟩ := run_records holds calls
  exact ⟨parts.flatten, ran⟩

theorem resolve_run (holds : db.store.Holds fs) (calls : List Call) {name : String} {e : EntityId}
    (found : db.resolve name = .ok e) : (db.run calls).resolve name = .ok e := by
  obtain ⟨new, grown⟩ := run_holds holds calls
  exact holds.entityOf_later grown name e found

theorem nameOf_run (holds : db.store.Holds fs) (calls : List Call) {e : EntityId} {name : String}
    (named : db.nameOf e = .ok (some name)) : (db.run calls).nameOf e = .ok (some name) := by
  obtain ⟨new, grown⟩ := run_holds holds calls
  unfold nameOf at named ⊢
  -- the name of the naming attribute comes from the vocabulary, all others from the log
  split at named
  next naming => rw [if_pos naming, vocabulary_run, named]
  next other => rw [if_neg other, holds.nameOf_later grown (backend_run db calls) named]

/-! ### The system's own names -/

/-- A new database is one that was founded in a name space with a colon. -/
theorem ofStore_empty_founded {backend : Backend} {v : Vocabulary} {founding : Founding}
    (opened : ofStore (Store.empty backend) v founding = .ok db) :
    v.Keyed ∧ db.Founded v founding := by
  have empty := Store.holds_empty backend
  have keyed : v.Keyed := by
    by_contra unkeyed
    obtain ⟨_, s', _, failed, _⟩ := empty.found_unkeyed unkeyed founding
    have founded := (ofStore_empty_eq_ok opened).1
    rw [failed] at founded
    cases founded
  obtain ⟨⟨db', opened', founded⟩, _⟩ := ofStore_founded empty keyed founding
  obtain rfl : db' = db := Except.ok.inj (opened'.symm.trans opened)
  exact ⟨keyed, founded⟩

/-- The names that a database was founded with stand for the same entities at any time of its life,
and the entities are called by them. -/
theorem Reachable.roster (reachable : db.Reachable) :
    ∀ entry ∈ roster db.vocabulary,
      db.resolve entry.2 = .ok entry.1 ∧ db.nameOf entry.1 = .ok (some entry.2) := by
  obtain ⟨backend, v, founding, first, calls, opened, rfl⟩ := reachable
  obtain ⟨_, founded⟩ := ofStore_empty_founded opened
  obtain ⟨fs, _, keeps⟩ := ofStore_keeps opened
  rw [vocabulary_run, founded.vocabulary]
  intro entry member
  exact ⟨resolve_run keeps.holds calls (founded.resolve entry member),
    nameOf_run keeps.holds calls (founded.nameOf entry member)⟩

theorem Reachable.run (reachable : db.Reachable) (calls : List Call) : (db.run calls).Reachable := by
  obtain ⟨backend, v, founding, first, earlier, opened, rfl⟩ := reachable
  exact ⟨backend, v, founding, first, earlier ++ calls, opened, (run_append first earlier calls).symm⟩

/-- The steps of a run are taken by databases that runs have made, in the same vocabulary. -/
theorem Reachable.before_of_mem_steps (reachable : db.Reachable) {calls : List Call} {step : Step}
    (member : step ∈ db.steps calls) :
    step.before.Reachable ∧ step.before.vocabulary = db.vocabulary := by
  obtain ⟨earlier, _, made⟩ := Database.before_of_mem_steps member
  rw [made]
  exact ⟨reachable.run earlier, vocabulary_run db earlier⟩

/-! ### All names -/

/-- Whatever is called on a database, its names keep standing for their entities and its entities
keep their names; among these are the names that it was founded with. -/
theorem names_permanent (reachable : db.Reachable) (calls : List Call) :
    (∀ name e, db.resolve name = .ok e → (db.run calls).resolve name = .ok e) ∧
    (∀ e name, db.nameOf e = .ok (some name) → (db.run calls).nameOf e = .ok (some name)) ∧
    ∀ entry ∈ Database.roster db.vocabulary, (db.run calls).resolve entry.2 = .ok entry.1 ∧
      (db.run calls).nameOf entry.1 = .ok (some entry.2) := by
  obtain ⟨fs, last, keeps⟩ := reachable.keeps
  refine ⟨?_, ?_, ?_⟩
  · exact fun name e found => resolve_run keeps.holds calls found
  · exact fun e name named => nameOf_run keeps.holds calls named
  · rw [← vocabulary_run db calls]
    exact (reachable.run calls).roster

/-- The request that names a new entity. -/
def nameRequest (name : String) : Form :=
  .map [(.keyword "tx-data", .map [(.keyword "db/identity", .text name)])]

/-- The request that takes a name back from an entity. -/
def unnameRequest (e : Int64) (name : String) : Form :=
  .map [(.keyword "tx-data", .list [.keyword "db.operation/retract", .int e,
    .keyword "db/identity", .text name])]

/-- Calls that give a name to a second entity, take it back from the first, and take it from the
operation that takes names back. -/
def nameCalls : List Call :=
  [.transact 6 (nameRequest "a"), .transact 7 (unnameRequest 44 "a"),
    .transact 8 (unnameRequest 30 "a")]

/-- Whatever these calls say about a name of a table, it stands for the entity that had it first. -/
theorem names_permanent_nameCalls :
    ∃ db : Database, db.Reachable ∧ db.resolve "a" = .ok 44 ∧ db.nameOf 44 = .ok (some "a") ∧
      (db.store.size, (db.run nameCalls).store.size) = (116, 122) ∧
      (db.run nameCalls).resolve "a" = .ok 44 ∧
      (db.run nameCalls).nameOf 44 = .ok (some "a") ∧
      (db.run nameCalls).resolve ":db.operation/retract" = .ok 30 := by
  -- the names before and the facts afterwards are computed, the rest follows
  have computed : ((ofStore (Store.empty .table) .standard ⟨"", 0, 0, 0⟩).toOption.map fun first =>
      let db := first.run [.transact 5 (nameRequest "a")]
      ((db.resolve "a").toOption, (db.nameOf 44).toOption, db.store.size,
        (db.run nameCalls).store.size)) = some (some 44, some (some "a"), 116, 122) := by
    decide +kernel
  obtain ⟨first, opened, computed⟩ := Option.map_eq_some_iff.mp computed
  obtain ⟨found, computed⟩ := Prod.mk.inj computed
  obtain ⟨named, sizes⟩ := Prod.mk.inj computed
  have opened := Outcome.toOption_eq_some.mp opened
  have found := Outcome.toOption_eq_some.mp found
  have named := Outcome.toOption_eq_some.mp named
  have reachable : (first.run [.transact 5 (nameRequest "a")]).Reachable :=
    ⟨.table, .standard, ⟨"", 0, 0, 0⟩, first, _, opened, rfl⟩
  obtain ⟨resolves, names, system⟩ := names_permanent reachable nameCalls
  have vocabulary : (first.run [.transact 5 (nameRequest "a")]).vocabulary = .standard := by
    rw [vocabulary_run, (ofStore_empty_eq_ok opened).2]
  have retract : (30, ":db.operation/retract") ∈ roster .standard := by decide
  rw [vocabulary] at system
  exact ⟨_, reachable, found, named, sizes, resolves "a" 44 found, names 44 "a" named,
    (system _ retract).1⟩

end Database

end Factbase
