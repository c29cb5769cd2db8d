import Factbase.Proofs.Answer
import Factbase.Proofs.Retraction
import Factbase.Proofs.Run

/-!
# Factbase.Proofs.Hiding

What retractions hide from a clause. A clause looks up the facts that match its constants, and
only the retractions among them hide anything. A retraction agrees with the facts that it is about
in entity and attribute, so it is found with them unless the value of the clause is a constant: then
a retraction of another value is overlooked, and hides nothing.
-/

namespace Factbase

namespace Store

/-! ### Lookups -/

/-- With a fact, a lookup that asks for no transaction and no operation finds every fact of the
same entity and attribute whose value it asks for. -/
theorem Holds.lookup_beside {s : Store} {fs : List Fact} (holds : s.Holds fs) {p : Pattern}
    (any_tx : p.tx = none) (any_op : p.op = none) {asOf : EntityId} {facts : List Fact}
    (found : s.lookup p asOf = .ok facts) {f g : Fact} (member : f ∈ facts) (written : g ∈ fs)
    (entity : g.entity = f.entity) (attr : g.attr = f.attr) (early : g.tx ≤ asOf)
    (asked : ∀ value ∈ p.value, (value == g.value) = true) : ∃ h ∈ facts, g.SamePlace h := by
  cases s with
  | indexed s =>
    obtain ⟨coherent, rfl⟩ := holds
    obtain rfl := Except.ok.inj found
    rw [coherent.lookup_eq, Log.lookup] at member ⊢
    refine ⟨g, List.mem_filter.mpr ⟨written, ?_⟩, .refl g⟩
    have matched : p.isMatch f = true := by
      have seen := (List.mem_filter.mp member).2
      simp only [Bool.and_eq_true] at seen
      exact seen.2
    have value : Pattern.fits p.value g.value = true := by
      cases place : p.value with
      | none => rfl
      | some value => exact asked value place
    simp only [Pattern.isMatch, Bool.and_eq_true] at matched ⊢
    rw [any_tx, any_op, entity, attr]
    exact ⟨decide_eq_true early, ⟨⟨⟨matched.1.1.1, value⟩, rfl⟩, rfl⟩⟩
  | table t =>
    have related := Table.Holds.lookup_related holds (ofStorage_eq_ok.mp found)
    obtain ⟨f', f'_member, same⟩ := Outcome.exists_left_of_mem related member
    have matched := (List.mem_filter.mp f'_member).2
    refine Outcome.exists_right_of_mem related (List.mem_filter.mpr ⟨written, ?_⟩)
    simp only [Table.Search.isMatch, Table.searchOf, Fact.row, any_tx, any_op, Pattern.fits,
      Bool.and_eq_true, Bool.and_true, same.entity, same.attr] at matched ⊢
    rw [entity, attr]
    refine ⟨⟨⟨decide_eq_true early, matched.1.1.2⟩, matched.1.2⟩, ?_⟩
    -- the row of the fact has shown that the value can be looked for
    cases place : p.value with
    | none => rfl
    | some value =>
      have answered := matched.2
      rw [place] at answered
      simp only [Option.map_some, Bool.and_eq_true] at answered ⊢
      have equal := asked value place
      exact ⟨Cell.answers_of_beq answered.1 equal, Value.tag_of_beq equal⟩

end Store

/-! ### Clauses -/

namespace Query

/-- Whether a fact yields a row of a clause: it is found for the constants of the clause, stands
among the facts found with it, and binds the variables of the clause. -/
def Contributes (v : Vocabulary) (s : Store) (retract asOf : EntityId) (c : Compiled) (f : Fact) :
    Prop :=
  ∃ p facts, c.2 = some p ∧ s.lookup p asOf = .ok facts ∧ f ∈ Fact.standing retract facts ∧
    (c.1.bindings v s f).isSome

/-- The rows of a clause are the bindings of the facts that contribute to it. -/
theorem mem_rows {v : Vocabulary} {s : Store} {retract asOf : EntityId} {c : Compiled}
    {found : List Bindings} (ok : rows v s retract asOf c = .ok found) {row : Bindings} :
    row ∈ found ↔ ∃ f, Contributes v s retract asOf c f ∧ c.1.bindings v s f = some row := by
  unfold rows at ok
  cases pattern : c.2 with
  | none =>
    rw [pattern] at ok
    obtain rfl := Except.ok.inj ok
    simp [Contributes, pattern]
  | some p =>
    rw [pattern] at ok
    obtain ⟨facts, looked, ok⟩ := Outcome.bind_eq_ok.mp ok
    obtain rfl := Outcome.pure_eq_ok.mp ok
    rw [List.mem_filterMap]
    constructor
    · rintro ⟨f, member, bound⟩
      exact ⟨f, ⟨p, facts, pattern, looked, member, bound ▸ rfl⟩, bound⟩
    · rintro ⟨f, ⟨p', facts', pattern', looked', member, _⟩, bound⟩
      obtain rfl := Option.some.inj (pattern.symm.trans pattern')
      obtain rfl := Except.ok.inj (looked.symm.trans looked')
      exact ⟨f, member, bound⟩

theorem Clause.place_eq_none {α : Type} {read : Form → Option α} {term : Term}
    {found : Option α} (made : place read term = some found)
    (unbound : ∀ form, term ≠ .constant form) : found = none := by
  cases term with
  | constant form => exact absurd rfl (unbound form)
  | _ => exact (Option.some.inj made).symm

theorem Clause.place_eq_some {α : Type} {read : Form → Option α} {term : Term} {x : α}
    (made : place read term = some (some x)) :
    ∃ form, term = .constant form ∧ read form = some x := by
  cases term with
  | constant form =>
    obtain ⟨y, found, same⟩ := Option.map_eq_some_iff.mp made
    exact ⟨form, rfl, Option.some.inj same ▸ found⟩
  | _ => cases made

/-- The pattern of a compiled clause, place by place. -/
theorem pattern_of_compile {s : Store} {ps : Parameters} {forms : List Form} {c : Compiled}
    (compiled : compile s ps forms = .ok c) {p : Pattern} (made : c.2 = some p) :
    Clause.place Form.toValue? c.1.value = some p.value ∧
      Clause.place Clause.entityOf? c.1.tx = some p.tx ∧
      Clause.place Clause.entityOf? c.1.op = some p.op := by
  simp only [compile, Clause.pattern, Outcome.bind_eq_ok, Outcome.pure_eq_ok] at compiled
  obtain ⟨_, ⟨_, _, rfl⟩, rfl⟩ := compiled
  simp only [Option.bind_eq_bind, Option.bind_eq_some_iff, Option.pure_def, Option.some.injEq]
    at made
  obtain ⟨_, _, _, _, value, value_ok, tx, tx_ok, op, op_ok, rfl⟩ := made
  exact ⟨value_ok, tx_ok, op_ok⟩

end Query

namespace Database

/-- A clause that asks for no transaction and no operation shows no fact behind whose back it was
retracted, unless the clause asks for a value and the retraction carries another one. -/
theorem retraction_hides_but_by_value {db : Database} {fs : List Fact} (holds : db.store.Holds fs)
    {q : Query} (asOf : Option EntityId) {params : List Form} {retract : EntityId}
    {forms : List Form} {c : Query.Compiled}
    (compiled : Query.compile db.store (q.parameters params) forms = .ok c)
    (any_tx : ∀ form, c.1.tx ≠ .constant form) (any_op : ∀ form, c.1.op ≠ .constant form)
    {f : Fact} (contributes : Query.Contributes db.vocabulary db.store retract
      (Query.effectiveTx db.store asOf) c f) {g : Fact} (written : g ∈ fs)
    (hides : g.Hides retract f) (early : g.tx ≤ Query.effectiveTx db.store asOf) :
    ∃ form value, c.1.value = .constant form ∧ form.toValue? = some value ∧
      (value == g.value) = false := by
  obtain ⟨p, facts, pattern, found, standing, _⟩ := contributes
  obtain ⟨member, _, unhidden⟩ := Fact.mem_standing.mp standing
  obtain ⟨value_place, tx_place, op_place⟩ := Query.pattern_of_compile compiled pattern
  obtain ⟨op, entity, attr, later⟩ := hides
  by_contra otherwise
  -- otherwise the retraction is found with the fact, and hides it
  have asked : ∀ value ∈ p.value, (value == g.value) = true := by
    intro value place
    rw [Option.mem_def.mp place] at value_place
    obtain ⟨form, constant, read⟩ := Query.Clause.place_eq_some value_place
    by_contra other
    exact otherwise ⟨form, value, constant, read, by simpa using other⟩
  obtain ⟨h, h_member, same⟩ := holds.lookup_beside (Query.Clause.place_eq_none tx_place any_tx)
    (Query.Clause.place_eq_none op_place any_op) found member written entity attr early asked
  exact unhidden h h_member
    ⟨same.op ▸ op, same.entity ▸ entity, same.attr ▸ attr, same.tx ▸ later⟩

/-- The clause asks for the value `"a"` of an entity, of which the value `"b"` was retracted. -/
theorem exists_overlooked : ∃ (db : Database) (fs : List Fact) (c : Query.Compiled)
    (retract : EntityId) (f g : Fact),
    db.Reachable ∧ db.store.Holds fs ∧
    db.store.entityOf db.vocabulary.retractOperation = .ok retract ∧
    Query.compile db.store (Query.parameters ⟨["?e"], [], none⟩ [])
      [.symbol "?e", .keyword "db/documentation", .text "a"] = .ok c ∧
    Query.Contributes db.vocabulary db.store retract (Query.effectiveTx db.store none) c f ∧
    g ∈ fs ∧ g.Hides retract f ∧ g.tx ≤ Query.effectiveTx db.store none := by
  have evaluated : (((ofStore (Store.empty .table) .standard ⟨"", 0, 0, 0⟩).toOption.map
      (·.run [
        .transact 5 (.map [(.keyword "tx-data", .map [(.keyword "db/documentation", .text "a")])]),
        .transact 6 (.map [(.keyword "tx-data", .list [.keyword "db.operation/retract", .int 44,
          .keyword "db/documentation", .text "b"])])])).bind fun db =>
      (db.store.entityOf db.vocabulary.retractOperation).toOption.bind fun retract =>
      (Query.compile db.store (Query.parameters ⟨["?e"], [], none⟩ [])
        [.symbol "?e", .keyword "db/documentation", .text "a"]).toOption.bind fun c =>
      c.2.bind fun p =>
      (db.store.lookup p (Query.effectiveTx db.store none)).toOption.bind fun facts =>
      (db.store.lookup .any (Query.effectiveTx db.store none)).toOption.bind fun all =>
      (facts.find? fun f => (c.1.bindings db.vocabulary db.store f).isSome &&
        decide (f.op ≠ retract ∧ ∀ g ∈ facts, ¬ g.Hides retract f)).bind fun f =>
      (all.find? fun g => decide (g.Hides retract f ∧
        g.tx ≤ Query.effectiveTx db.store none)).map Fact.tx) = some 45 := by
    decide +kernel
  obtain ⟨db, ran, evaluated⟩ := Option.bind_eq_some_iff.mp evaluated
  obtain ⟨retract, resolved, evaluated⟩ := Option.bind_eq_some_iff.mp evaluated
  obtain ⟨c, compiled, evaluated⟩ := Option.bind_eq_some_iff.mp evaluated
  obtain ⟨p, pattern, evaluated⟩ := Option.bind_eq_some_iff.mp evaluated
  obtain ⟨facts, found, evaluated⟩ := Option.bind_eq_some_iff.mp evaluated
  obtain ⟨all, found_all, evaluated⟩ := Option.bind_eq_some_iff.mp evaluated
  obtain ⟨f, shown, evaluated⟩ := Option.bind_eq_some_iff.mp evaluated
  obtain ⟨g, later, _⟩ := Option.map_eq_some_iff.mp evaluated
  obtain ⟨first, opened, run⟩ := Option.map_eq_some_iff.mp ran
  have reachable : db.Reachable :=
    ⟨.table, .standard, ⟨"", 0, 0, 0⟩, first, _, Outcome.toOption_eq_some.mp opened, run.symm⟩
  obtain ⟨fs, last, keeps⟩ := reachable.keeps
  have found := Outcome.toOption_eq_some.mp found
  have found_all := Outcome.toOption_eq_some.mp found_all
  -- the fact stands, for among the facts found with it there is no retraction
  have passed := List.find?_some shown
  simp only [Bool.and_eq_true, decide_eq_true_eq] at passed
  obtain ⟨bound, asserted, unhidden⟩ := passed
  have standing : f ∈ Fact.standing retract facts :=
    Fact.mem_standing.mpr ⟨List.mem_of_find?_eq_some shown, asserted, unhidden⟩
  -- but there is one in the log
  have overlooked := List.find?_some later
  simp only [decide_eq_true_eq] at overlooked
  obtain ⟨⟨op, entity, attr, after⟩, early⟩ := overlooked
  obtain ⟨h, written, same⟩ :=
    keeps.holds.written_of_lookup found_all g (List.mem_of_find?_eq_some later)
  exact ⟨db, fs, c, retract, f, h, reachable, keeps.holds, Outcome.toOption_eq_some.mp resolved,
    Outcome.toOption_eq_some.mp compiled, ⟨p, facts, pattern, found, standing, bound⟩, written,
    ⟨same.op.trans op, same.entity.trans entity, same.attr.trans attr, same.tx ▸ after⟩,
    same.tx ▸ early⟩

theorem retraction_hides_but_by_value_overlooked : ∃ (db : Database) (fs : List Fact)
    (c : Query.Compiled) (g : Fact), db.Reachable ∧ db.store.Holds fs ∧
    Query.compile db.store (Query.parameters ⟨["?e"], [], none⟩ [])
      [.symbol "?e", .keyword "db/documentation", .text "a"] = .ok c ∧ g ∈ fs ∧
    ∃ form value, c.1.value = .constant form ∧ form.toValue? = some value ∧
      (value == g.value) = false := by
  obtain ⟨db, fs, c, retract, f, g, reachable, holds, _, compiled, contributes, written, hides,
    early⟩ := exists_overlooked
  obtain ⟨_, _, clause⟩ := Outcome.bind_eq_ok.mp compiled
  have shape := congrArg Prod.fst (Outcome.pure_eq_ok.mp clause)
  refine ⟨db, fs, c, g, reachable, holds, compiled, written, ?_⟩
  apply retraction_hides_but_by_value holds none compiled ?_ ?_ contributes written hides early
  · intro form constant
    rw [← shape] at constant
    cases constant
  · intro form constant
    rw [← shape] at constant
    cases constant

/-- It is not so that a retraction hides every earlier fact from every clause. -/
theorem retraction_hides_not_always : ¬ ∀ (db : Database), db.Reachable → ∀ fs,
    db.store.Holds fs → ∀ (q : Query) (asOf : Option EntityId) (params : List Form)
    (retract : EntityId), db.store.entityOf db.vocabulary.retractOperation = .ok retract →
    ∀ (forms : List Form) (c : Query.Compiled),
    Query.compile db.store (q.parameters params) forms = .ok c →
    (∀ form, c.1.tx ≠ .constant form) → (∀ form, c.1.op ≠ .constant form) →
    ∀ f, Query.Contributes db.vocabulary db.store retract (Query.effectiveTx db.store asOf) c f →
    ∀ g ∈ fs, g.tx ≤ Query.effectiveTx db.store asOf → ¬ g.Hides retract f := by
  intro always
  obtain ⟨db, fs, c, retract, f, g, reachable, holds, resolved, compiled, contributes, written,
    hides, early⟩ := exists_overlooked
  obtain ⟨_, _, clause⟩ := Outcome.bind_eq_ok.mp compiled
  have shape := congrArg Prod.fst (Outcome.pure_eq_ok.mp clause)
  refine always db reachable fs holds ⟨["?e"], [], none⟩ none [] retract resolved _ c compiled
    ?_ ?_ f contributes g written early hides
  · intro form constant
    rw [← shape] at constant
    cases constant
  · intro form constant
    rw [← shape] at constant
    cases constant

end Database

end Factbase
