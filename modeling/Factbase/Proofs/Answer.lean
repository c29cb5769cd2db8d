import Factbase.Proofs.Holds
import Factbase.Query.Answer

/-!
# Factbase.Proofs.Answer

What an answer depends on. Two stores answer a query alike when they find the same entities for its
names, the same facts for its clauses, and the same names for the attributes of those facts.
-/

namespace Factbase.Query

variable {v : Vocabulary} {s s' : Store}

/-- The bindings of a clause at a fact look at the store for the name of its attribute only. -/
theorem bindings_congr {f : Fact} (named : attrName v s f.attr = attrName v s' f.attr)
    (c : Clause) : c.bindings v s f = c.bindings v s' f := by
  unfold Clause.bindings Clause.entries
  rw [named]

/-- Clauses have the same rows on stores that find the same facts for them, and the same names for
the attributes of these facts. -/
theorem rows_congr {retract asOf asOf' : EntityId} {c : Compiled}
    (found : ∀ p ∈ c.2, s.lookup p asOf = s'.lookup p asOf')
    (named : ∀ p ∈ c.2, ∀ facts, s.lookup p asOf = .ok facts →
      ∀ f ∈ facts, attrName v s f.attr = attrName v s' f.attr) :
    rows v s retract asOf c = rows v s' retract asOf' c := by
  unfold rows
  cases pattern : c.2 with
  | none => rfl
  | some p =>
    dsimp only
    rw [← found p pattern]
    cases looked : s.lookup p asOf with
    | error fault => rfl
    | ok facts =>
      -- a fact that stands was found, so its attribute is called the same on both stores
      have same : (Fact.standing retract facts).filterMap (c.1.bindings v s)
          = (Fact.standing retract facts).filterMap (c.1.bindings v s') := by
        apply List.filterMap_congr
        intro f member
        have inside : f ∈ facts := List.mem_of_mem_filter member
        exact bindings_congr (named p pattern facts looked f inside) c.1
      rw [Outcome.ok_bind, Outcome.ok_bind, same]

theorem joinAll_congr {evaluate other : Compiled → Except Fault (List Bindings)}
    {cs : List Compiled} (same : ∀ c ∈ cs, evaluate c = other c) (joined : List Bindings) :
    joinAll evaluate cs joined = joinAll other cs joined := by
  -- the rows joined so far grow from clause to clause, so the claim is about all of them
  induction cs generalizing joined with
  | nil => rfl
  | cons c rest ih =>
    have others : ∀ d ∈ rest, evaluate d = other d := fun d member =>
      same d (List.mem_cons_of_mem c member)
    unfold joinAll
    rw [same c List.mem_cons_self]
    simp only [ih others]

theorem attrPlace_of_ok {term : Term} {place : Option (Option EntityId)}
    (same : ∀ name e, s.entityOf name = .ok e → s'.entityOf name = .ok e)
    (ok : Clause.attrPlace s term = .ok place) : Clause.attrPlace s' term = .ok place := by
  cases term with
  | constant form =>
    simp only [Clause.attrPlace] at ok ⊢
    split at ok
    next name _ =>
      obtain ⟨e, found, rfl⟩ := Outcome.map_eq_ok.mp ok
      rw [same name e found]
      rfl
    next => exact ok
  | _ => exact ok

/-- A clause that can be compiled is compiled to the same wherever its names stand for the same
entities. -/
theorem compile_of_ok {ps : Parameters} {forms : List Form} {c : Compiled}
    (same : ∀ name e, s.entityOf name = .ok e → s'.entityOf name = .ok e)
    (ok : compile s ps forms = .ok c) : compile s' ps forms = .ok c := by
  simp only [compile, Clause.pattern, Outcome.bind_eq_ok, Outcome.pure_eq_ok] at ok ⊢
  obtain ⟨pattern, ⟨place, attr, shaped⟩, rfl⟩ := ok
  exact ⟨pattern, ⟨place, attrPlace_of_ok same attr, shaped⟩, rfl⟩

theorem compile_congr {s s' : Store} (names : ∀ name, s.entityOf name = s'.entityOf name) :
    compile s = compile s' := by
  funext ps forms
  unfold compile Clause.pattern Clause.attrPlace
  simp only [names]

end Factbase.Query

namespace Factbase

/-- Stores answer a query alike if they find the same entities for names, call attributes the same,
and find the same facts for the clauses of the query, as of the same transaction. -/
theorem Store.answer_congr {v : Vocabulary} {s s' : Store} {q : Query} {asOf : Option EntityId}
    {params : List Form} (names : ∀ name, s.entityOf name = s'.entityOf name)
    (attrs : ∀ attr, Query.attrName v s attr = Query.attrName v s' attr)
    (time : Query.effectiveTx s asOf = Query.effectiveTx s' asOf)
    (found : ∀ clauses ∈ q.clauses, ∀ forms ∈ clauses, ∀ c,
      Query.compile s' (q.parameters params) forms = .ok c → ∀ p ∈ c.2,
      s.lookup p (Query.effectiveTx s' asOf) = s'.lookup p (Query.effectiveTx s' asOf)) :
    s.answer v q asOf params = s'.answer v q asOf params := by
  unfold Store.answer
  cases clauses : q.clauses with
  | none => rfl
  | some clauses' =>
  simp only [names, Query.compile_congr names, time]
  cases s'.entityOf v.retractOperation with
  | error fault => rfl
  | ok retract =>
  cases compiled : clauses'.mapM (Query.compile s' (q.parameters params)) with
  | error fault => rfl
  | ok cs =>
  simp only [Outcome.ok_bind]
  split
  · rfl
  · have same : ∀ c ∈ cs, Query.rows v s retract (Query.effectiveTx s' asOf) c
        = Query.rows v s' retract (Query.effectiveTx s' asOf) c := by
      intro c member
      obtain ⟨forms, written, made⟩ :=
        Outcome.exists_left_of_mem (Outcome.mapM_eq_ok.mp compiled) member
      apply Query.rows_congr
      · exact found clauses' clauses forms written c made
      · intro p _ facts _ f _
        exact attrs f.attr
    rw [Query.joinAll_congr same]

end Factbase
