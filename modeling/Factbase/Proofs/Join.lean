import Factbase.Proofs.Answer
import Factbase.Proofs.Bindings
import Factbase.Proofs.Retraction

/-!
# Factbase.Proofs.Join

Answers as the join that they stand for. All tuples of facts, one for each clause, are gone through
in order; those in which every variable stands for one value are kept, and each yields a row. The
evaluation from left to right comes to the same.
-/

namespace Factbase

namespace Query

/-- Every way to take one item of each list. Earlier items come first, and those of the first list
before all. -/
def tuples {α : Type} : List (List α) → List (List α)
  | [] => [[]]
  | xs :: rest => xs.flatMap fun x => (tuples rest).map (x :: ·)

theorem tuples_cons {α : Type} (xs : List α) (rest : List (List α)) :
    tuples (xs :: rest) = xs.flatMap fun x => (tuples rest).map (x :: ·) := rfl

/-- What the variables of some clauses stand for in a tuple of facts, one for each clause. -/
def occurrences (v : Vocabulary) (s : Store) (cs : List Clause) (tuple : List Fact) :
    List (String × Value) :=
  (List.zipWith (Clause.entries v s) cs tuple).flatten

/-- The facts of a log that a clause is about as of a transaction: those that match its constants
and that no retraction among them hides. A clause that no fact can match is about none. -/
def selected (s : Store) (fs : List Fact) (ps : Parameters) (retract asOf : EntityId)
    (forms : List Form) : List Fact :=
  match (Clause.ofForms ps forms).pattern s with
  | .ok (some p) => Fact.standing retract (Log.lookup fs p asOf)
  | _ => []

/-- What a clause is about stands in the order of the log. -/
theorem selected_sublist (s : Store) (fs : List Fact) (ps : Parameters) (retract asOf : EntityId)
    (forms : List Form) : (selected s fs ps retract asOf forms).Sublist fs := by
  unfold selected
  split
  · exact List.filter_sublist.trans List.filter_sublist
  · exact List.nil_sublist fs

/-- The answer to a query by all tuples of facts of a log: a row for each one in which every
variable stands for equal values, with the values to find at their first occurrences. -/
def solutions (v : Vocabulary) (s : Store) (fs : List Fact) (q : Query) (params : List Form)
    (retract asOf : EntityId) (clauses : List (List Form)) : List AnswerRow :=
  let ps := q.parameters params
  let bound := occurrences v s (clauses.map (Clause.ofForms ps))
  let kept := (tuples (clauses.map (selected s fs ps retract asOf))).filter
    fun tuple => decide (Consistent (bound tuple))
  kept.map fun tuple => q.find.map fun name => (bound tuple).lookup name

/-! ### Joining -/

theorem flatMap_filterMap {α β γ : Type} (g : α → Option β) (h : β → List γ) (xs : List α) :
    (xs.filterMap g).flatMap h = xs.flatMap fun x => ((g x).map h).getD [] := by
  induction xs with
  | nil => rfl
  | cons x rest ih =>
    rw [List.filterMap_cons, List.flatMap_cons, ← ih]
    cases g x <;> rfl

/-- The rows of one more clause join each row with every fact that agrees with it. -/
theorem join_bindings (v : Vocabulary) (s : Store) (c : Clause) (facts : List Fact)
    (joined : List Bindings) :
    Bindings.join joined (facts.filterMap (c.bindings v s))
      = joined.flatMap fun l => facts.filterMap fun f => Bindings.merge l (c.entries v s f) := by
  unfold Bindings.join
  congr 1
  funext l
  rw [List.filterMap_filterMap]
  congr 1
  funext f
  exact Bindings.merge_row l (c.entries v s f)

/-- Joining clauses from left to right goes through all tuples of their facts, and merges what the
variables stand for in each of them. -/
theorem joinAll_eq {v : Vocabulary} {s : Store} {evaluate : Compiled → Except Fault (List Bindings)}
    {facts : Compiled → List Fact} {cs : List Compiled}
    (rows : ∀ c ∈ cs, evaluate c = .ok ((facts c).filterMap (c.1.bindings v s)))
    (joined : List Bindings) :
    joinAll evaluate cs joined = .ok (joined.flatMap fun l =>
      (tuples (cs.map facts)).filterMap fun t =>
        Bindings.merge l (occurrences v s (cs.map Prod.fst) t)) := by
  -- the clauses still to come go through their tuples for each row joined so far
  induction cs generalizing joined with
  | nil =>
    have whole : (joined.flatMap fun l => [l]) = joined := List.flatMap_singleton' joined
    rw [joinAll]
    exact congrArg Except.ok whole.symm
  | cons c rest ih =>
    have others : ∀ d ∈ rest, evaluate d = .ok ((facts d).filterMap (d.1.bindings v s)) :=
      fun d member => rows d (List.mem_cons_of_mem c member)
    rw [joinAll]
    split
    next none =>
      rw [List.isEmpty_iff.mp none]
      rfl
    next =>
      rw [rows c List.mem_cons_self, Outcome.ok_bind, ih others, join_bindings,
        List.flatMap_assoc]
      congr 2
      funext l
      rw [flatMap_filterMap, List.map_cons, List.map_cons, tuples_cons,
        List.filterMap_flatMap]
      congr 1
      funext f
      rw [List.filterMap_map]
      -- what the first fact says is merged before the rest of the tuple
      have step : ∀ t, Bindings.merge l (occurrences v s (c.1 :: rest.map Prod.fst) (f :: t))
          = (Bindings.merge l (c.1.entries v s f)).bind
              (Bindings.merge · (occurrences v s (rest.map Prod.fst) t)) := by
        intro t
        exact Bindings.merge_append l _ _
      simp only [Function.comp_def, step]
      cases Bindings.merge l (c.1.entries v s f) with
      | none => simp
      | some together => rfl

/-- From no bindings at all, a tuple yields a row exactly when it is consistent, and the row shows
each variable at its first occurrence. -/
theorem map_filterMap_merge {α : Type} (bound : α → List (String × Value)) (find : List String)
    (ts : List α) :
    (ts.filterMap fun t => Bindings.merge [] (bound t)).map
        (fun row => find.map fun name => row.lookup name)
      = (ts.filter fun t => decide (Consistent (bound t))).map
        fun t => find.map fun name => (bound t).lookup name := by
  induction ts with
  | nil => rfl
  | cons t rest ih =>
    rw [List.filterMap_cons, List.filter_cons]
    cases merged : Bindings.merge [] (bound t) with
    | none =>
      have inconsistent : ¬ Consistent (bound t) := by
        rw [← Bindings.isSome_merge_nil, merged]
        simp
      rw [if_neg (by simpa using inconsistent)]
      exact ih
    | some row =>
      have consistent : Consistent (bound t) := by
        rw [← Bindings.isSome_merge_nil, merged]
        rfl
      have shown : (find.map fun name => row.lookup name)
          = find.map fun name => (bound t).lookup name := by
        simp only [Bindings.lookup_merge merged, List.nil_append]
      rw [if_pos (by simpa using consistent), List.map_cons, List.map_cons, ih, shown]

/-! ### Clauses -/

/-- An attribute term whose name, if it has one, is known makes a place. -/
theorem exists_attrPlace {s : Store} {term : Term}
    (known : ∀ form name, term = .constant form → Clause.attrName? form = some name →
      ∃ e, s.entityOf name = .ok e) : ∃ place, Clause.attrPlace s term = .ok place := by
  cases term with
  | constant form =>
    rw [Clause.attrPlace]
    split
    next name named =>
      obtain ⟨e, found⟩ := known form name rfl named
      rw [found]
      exact ⟨_, rfl⟩
    next => exact ⟨_, rfl⟩
  | _ => exact ⟨_, rfl⟩

/-- A clause with the pattern of its constants; none also if its attribute is unknown. -/
def compiled (s : Store) (ps : Parameters) (forms : List Form) : Compiled :=
  (Clause.ofForms ps forms, ((Clause.ofForms ps forms).pattern s).toOption.join)

/-- A clause whose attribute is known can be compiled. -/
theorem compile_eq {s : Store} {ps : Parameters} {forms : List Form}
    (known : ∀ form name, (Clause.ofForms ps forms).attr = .constant form →
      Clause.attrName? form = some name → ∃ e, s.entityOf name = .ok e) :
    compile s ps forms = .ok (compiled s ps forms) := by
  obtain ⟨place, found⟩ := exists_attrPlace known
  rw [compile, compiled, Clause.pattern, found]
  rfl

def Compiled.facts (fs : List Fact) (retract asOf : EntityId) (c : Compiled) : List Fact :=
  match c.2 with
  | none => []
  | some p => Fact.standing retract (Log.lookup fs p asOf)

theorem facts_compiled (s : Store) (fs : List Fact) (ps : Parameters) (retract asOf : EntityId)
    (forms : List Form) :
    (compiled s ps forms).facts fs retract asOf = selected s fs ps retract asOf forms := by
  unfold Compiled.facts compiled selected
  cases (Clause.ofForms ps forms).pattern s with
  | error fault => rfl
  | ok pattern => cases pattern <;> rfl

/-- The rows of a clause come from the facts that it is about. -/
theorem rows_eq {v : Vocabulary} {s : Store} {fs : List Fact} {retract asOf : EntityId}
    (found : ∀ p, s.lookup p asOf = .ok (Log.lookup fs p asOf)) (c : Compiled) :
    rows v s retract asOf c
      = .ok ((Compiled.facts fs retract asOf c).filterMap (c.1.bindings v s)) := by
  unfold rows Compiled.facts
  cases c.2 with
  | none => rfl
  | some p =>
    dsimp only
    rw [found]
    rfl

end Query

namespace Store

def ofLog (fs : List Fact) : Store := indexed (Indexed.empty.insertAll fs)

theorem ofLog_holds (fs : List Fact) : (ofLog fs).Holds fs :=
  ⟨Indexed.coherent_ofLog fs, Indexed.facts_ofLog fs⟩

theorem lookup_ofLog (fs : List Fact) (p : Pattern) (asOf : EntityId) :
    (ofLog fs).lookup p asOf = .ok (Log.lookup fs p asOf) := by
  rw [ofLog, lookup, (Indexed.coherent_ofLog fs).lookup_eq, Indexed.facts_ofLog]

/-- On an indexed store whose facts name the retract operation, a query whose attributes are all
known, and that has clauses, is answered by its solutions, with the facts of each clause in the
order of the log. -/
theorem answer_eq_solutions (fs : List Fact) (v : Vocabulary) (q : Query)
    (asOf : Option EntityId) (params : List Form) {clauses : List (List Form)}
    (written : q.clauses = some clauses) (nonempty : clauses ≠ []) {retract : EntityId}
    (resolved : (ofLog fs).entityOf v.retractOperation = .ok retract)
    (known : ∀ forms ∈ clauses, ∀ form name,
      (Query.Clause.ofForms (q.parameters params) forms).attr = .constant form →
      Query.Clause.attrName? form = some name → ∃ e, (ofLog fs).entityOf name = .ok e) :
    (ofLog fs).answer v q asOf params
      = .ok (some (Query.solutions v (ofLog fs) fs q params retract
          (Query.effectiveTx (ofLog fs) asOf) clauses)) ∧
    ∀ forms ∈ clauses, (Query.selected (ofLog fs) fs (q.parameters params) retract
      (Query.effectiveTx (ofLog fs) asOf) forms).Sublist fs := by
  refine ⟨?_, fun forms _ => Query.selected_sublist ..⟩
  have found := lookup_ofLog fs
  -- from here on only the lookups of the store matter, not how it is built
  generalize ofLog fs = s at *
  have compiled : clauses.mapM (Query.compile s (q.parameters params))
      = .ok (clauses.map (Query.compiled s (q.parameters params))) :=
    Outcome.mapM_of_ok fun forms member => Query.compile_eq (known forms member)
  have some_left : (clauses.map (Query.compiled s (q.parameters params))).isEmpty = false := by
    simpa using nonempty
  have rows : ∀ c, Query.rows v s retract (Query.effectiveTx s asOf) c
      = .ok ((Query.Compiled.facts fs retract (Query.effectiveTx s asOf) c).filterMap
          (c.1.bindings v s)) :=
    Query.rows_eq fun p => found p (Query.effectiveTx s asOf)
  have names : (clauses.map (Query.compiled s (q.parameters params))).map Prod.fst
      = clauses.map (Query.Clause.ofForms (q.parameters params)) := by
    rw [List.map_map]
    rfl
  have facts : (clauses.map (Query.compiled s (q.parameters params))).map
        (Query.Compiled.facts fs retract (Query.effectiveTx s asOf))
      = clauses.map (Query.selected s fs (q.parameters params) retract
          (Query.effectiveTx s asOf)) := by
    rw [List.map_map]
    exact List.map_congr_left fun forms _ => Query.facts_compiled s fs _ retract _ forms
  unfold Store.answer
  rw [written]
  dsimp only
  rw [resolved, Outcome.ok_bind, compiled, Outcome.ok_bind, some_left, if_neg Bool.false_ne_true,
    Query.joinAll_eq (fun c _ => rows c) [[]], Outcome.ok_bind, Outcome.pure_eq,
    List.flatMap_singleton, Query.map_filterMap_merge, names, facts]
  rfl

/-- Two clauses that share a variable, where one entity likes another by reference and is liked by
number: both tuples in which the variable stands for one entity are shown. -/
theorem answer_eq_solutions_likes :
    let fs : List Fact := [⟨2, 0, .text ":db.operation/retract", 1, 1⟩,
      ⟨7, 0, .text ":likes", 1, 1⟩, ⟨8, 7, .ref 9, 1, 1⟩, ⟨9, 7, .int 8, 1, 1⟩]
    let clauses : List (List Form) := [[.symbol "?x", .keyword "likes", .symbol "?y"],
      [.symbol "?y", .keyword "likes", .symbol "?z"]]
    (ofLog fs).answer .standard ⟨["?x", "?z"], [], some clauses⟩ none []
      = .ok (some [[some (.ref 8), some (.int 8)], [some (.ref 9), some (.ref 9)]]) := by
  intro fs clauses
  have holds := ofLog_holds fs
  have resolved : (ofLog fs).entityOf Vocabulary.standard.retractOperation = .ok 2 :=
    holds.entityOf_eq_ok.mpr (by decide +kernel)
  have likes : (ofLog fs).entityOf ":likes" = .ok 7 :=
    holds.entityOf_eq_ok.mpr (by decide +kernel)
  have known : ∀ forms ∈ clauses, ∀ form name,
      (Query.Clause.ofForms [] forms).attr = .constant form →
      Query.Clause.attrName? form = some name → ∃ e, (ofLog fs).entityOf name = .ok e := by
    intro forms member form name attr named
    have constant : form = .keyword "likes" := by
      simp only [clauses, List.mem_cons, List.not_mem_nil, or_false] at member
      rcases member with rfl | rfl
      · exact (Query.Term.constant.inj attr).symm
      · exact (Query.Term.constant.inj attr).symm
    subst constant
    obtain rfl : ":" ++ "likes" = name := Option.some.inj named
    exact ⟨7, likes⟩
  obtain ⟨answered, _⟩ := answer_eq_solutions fs .standard ⟨["?x", "?z"], [], some clauses⟩ none []
    rfl (by simp [clauses]) resolved known
  have last : Query.effectiveTx (ofLog fs) none = 1 := by
    rw [Query.effectiveTx, holds.lastTx_eq]
    rfl
  -- both clauses are about the two facts of the attribute
  have selected : clauses.map (Query.selected (ofLog fs) fs [] 2 1)
      = clauses.map fun _ => [⟨8, 7, .ref 9, 1, 1⟩, ⟨9, 7, .int 8, 1, 1⟩] := by
    apply List.map_congr_left
    intro forms member
    have pattern : (Query.Clause.ofForms [] forms).pattern (ofLog fs)
        = .ok (some ⟨none, some 7, none, none, none⟩) := by
      simp only [clauses, List.mem_cons, List.not_mem_nil, or_false] at member
      rcases member with rfl | rfl
      all_goals
        show ((ofLog fs).entityOf ":likes").map _ >>= _ = _
        rw [likes]
        rfl
    rw [Query.selected, pattern, Fact.standing_eq]
    rfl
  rw [answered, last]
  show Except.ok (some (List.map _ (List.filter _
    (Query.tuples (clauses.map (Query.selected (ofLog fs) fs [] 2 1)))))) = _
  rw [selected]
  rfl

end Store

end Factbase
