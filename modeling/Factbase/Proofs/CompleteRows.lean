import Factbase.Proofs.Hiding
import Factbase.Proofs.Join
import Factbase.Proofs.Permanence

/-!
# Factbase.Proofs.CompleteRows

The rows of an answer are complete. A row comes from a tuple of facts, one for each clause, and no
binding is lost on the way, so it has a value for every variable that stands in a clause. An
attribute could only be left out if it had no name, but in a database that was opened and used in
the ordinary way every attribute of a fact was given one before.
-/

namespace Factbase

namespace Query

/-! ### Variables -/

/-- A variable stands at a place of a clause, and no parameter takes its place. -/
structure VariableAt (q : Query) (params forms : List Form) (i : Nat) (name : String) : Prop where
  written : forms[i]? = some (.symbol name)
  marked : name.toList.head? = some '?'
  free : ¬(q.inputs.length = params.length ∧ name ∈ q.inputs)

/-- A variable that stands at one of the five places of some clause. -/
def Occurs (q : Query) (params : List Form) (name : String) : Prop :=
  ∃ clauses ∈ q.clauses, ∃ forms ∈ clauses, ∃ i < 5, q.VariableAt params forms i name

theorem lookup_parameters_eq_none {q : Query} {params : List Form} {name : String} :
    (q.parameters params).lookup name = none ↔
      ¬(q.inputs.length = params.length ∧ name ∈ q.inputs) := by
  unfold parameters
  split
  next used =>
    have keys : (q.inputs.zip params).map Prod.fst = q.inputs :=
      List.map_fst_zip (Nat.le_of_eq used)
    have listed : name ∈ q.inputs ↔ ∃ form, (name, form) ∈ q.inputs.zip params := by
      conv_lhs => rw [← keys]
      simp
    rw [Outcome.lookup_eq_none, and_iff_right used, listed]
  next unused => simp [unused]

theorem termAt_eq_variable {q : Query} {params forms : List Form} {i : Nat} {name : String} :
    Clause.termAt (q.parameters params) forms i = .variable name ↔
      q.VariableAt params forms i name := by
  constructor
  · intro stands
    unfold Clause.termAt at stands
    split at stands
    next form written =>
      cases form with
      | symbol other =>
        rw [Term.ofForm] at stands
        split_ifs at stands with marked
        · simp only [Term.substitute] at stands
          split at stands
          next => cases stands
          next unfilled =>
            cases stands
            exact ⟨written, marked, lookup_parameters_eq_none.mp unfilled⟩
        all_goals cases stands
      | _ => cases stands
    next => cases stands
  · rintro ⟨written, marked, free⟩
    rw [Clause.termAt, written]
    simp [Term.ofForm, marked, Term.substitute, lookup_parameters_eq_none.mpr free]

/-- The five terms of a clause. -/
def Clause.terms (c : Clause) : List Term := [c.entity, c.attr, c.value, c.tx, c.op]

theorem variable_mem_terms {q : Query} {params forms : List Form} {name : String} :
    .variable name ∈ (Clause.ofForms (q.parameters params) forms).terms ↔
      ∃ i < 5, q.VariableAt params forms i name := by
  have places : (Clause.ofForms (q.parameters params) forms).terms
      = (List.range 5).map (Clause.termAt (q.parameters params) forms) := rfl
  simp only [places, List.mem_map, List.mem_range, termAt_eq_variable]

theorem occurs_iff {q : Query} {params : List Form} {name : String} {clauses : List (List Form)}
    (written : q.clauses = some clauses) :
    q.Occurs params name ↔ ∃ c ∈ clauses.map (Clause.ofForms (q.parameters params)),
      .variable name ∈ c.terms := by
  simp [Occurs, written, variable_mem_terms]

theorem Term.entry_eq_some {term : Term} {value : Option Value} {name : String} {x : Value} :
    term.entry value = some (name, x) ↔ term = .variable name ∧ value = some x := by
  cases term <;> cases value <;> simp [Term.entry]

end Query

theorem Value.eq_text_of_beq {x : Value} {text : String} (equal : (x == .text text) = true) :
    x = .text text := by
  cases x <;> simp_all [Value.beq_iff_key_eq, Value.key]

namespace Query

variable {v : Vocabulary} {s : Store}

theorem mem_entries {c : Clause} {f : Fact} {name : String} {x : Value} :
    (name, x) ∈ c.entries v s f ↔
      c.entity = .variable name ∧ .ref f.entity = x ∨
      c.attr = .variable name ∧ (attrName v s f.attr).map .text = some x ∨
      c.value = .variable name ∧ f.value = x ∨
      c.tx = .variable name ∧ .ref f.tx = x ∨
      c.op = .variable name ∧ .ref f.op = x := by
  simp only [Clause.entries, List.mem_filterMap, id, exists_eq_right, List.mem_cons,
    List.not_mem_nil, or_false, @eq_comm _ (some (name, x)), Term.entry_eq_some, Option.some.injEq]

/-- A fact whose attribute has a name gives a value to every variable of a clause. -/
theorem exists_entry {c : Clause} {f : Fact} {n : String} (named : attrName v s f.attr = some n)
    {name : String} : (∃ x, (name, x) ∈ c.entries v s f) ↔ .variable name ∈ c.terms := by
  simp [mem_entries, Clause.terms, named, exists_or, @eq_comm _ (Term.variable name)]

/-! ### Rows and tuples -/

theorem occurrences_cons (v : Vocabulary) (s : Store) (c : Clause) (cs : List Clause) (f : Fact)
    (tuple : List Fact) :
    occurrences v s (c :: cs) (f :: tuple) = c.entries v s f ++ occurrences v s cs tuple := rfl

/-- A row that is joined merges what the variables stand for in a tuple of facts, each of which
contributes to its clause. -/
theorem exists_tuple {retract asOf : EntityId} {cs : List Compiled} {joined result : List Bindings}
    (ok : joinAll (rows v s retract asOf) cs joined = .ok result) {row : Bindings}
    (member : row ∈ result) :
    ∃ l ∈ joined, ∃ tuple, List.Forall₂ (Contributes v s retract asOf) cs tuple ∧
      Bindings.merge l (occurrences v s (cs.map Prod.fst) tuple) = some row := by
  induction cs generalizing joined with
  | nil =>
    obtain rfl := Except.ok.inj ok
    exact ⟨row, member, [], .nil, rfl⟩
  | cons c rest ih =>
    rw [joinAll] at ok
    split at ok
    next =>
      obtain rfl := Except.ok.inj ok
      cases member
    next =>
      obtain ⟨next, found, ok⟩ := Outcome.bind_eq_ok.mp ok
      obtain ⟨l', l'_member, tuple, contribute, merged⟩ := ih ok
      obtain ⟨l, l_member, r, r_member, both⟩ : ∃ l ∈ joined, ∃ r ∈ next,
          Bindings.merge l r = some l' := by
        simpa [Bindings.join] using l'_member
      obtain ⟨f, contributes, bound⟩ := (mem_rows found).mp r_member
      -- the row of the fact is merged as its occurrences are
      have first : Bindings.merge l (c.1.entries v s f) = some l' := by
        rw [← Bindings.merge_row, ← Clause.bindings, bound]
        exact both
      refine ⟨l, l_member, f :: tuple, .cons contributes contribute, ?_⟩
      rw [List.map_cons, occurrences_cons, Bindings.merge_append, first]
      exact merged

/-- A tuple of facts whose attributes have names gives a value to every variable of the clauses. -/
theorem exists_occurrence {cs : List Clause} {tuple : List Fact} {name : String}
    (named : List.Forall₂ (fun _ f => ∃ n, attrName v s f.attr = some n) cs tuple) :
    (∃ x, (name, x) ∈ occurrences v s cs tuple) ↔ ∃ c ∈ cs, .variable name ∈ c.terms := by
  induction named with
  | nil => simp [occurrences]
  | cons first _ ih =>
    obtain ⟨n, first⟩ := first
    simp only [occurrences_cons, List.mem_append, exists_or, ih, exists_entry first,
      List.mem_cons, or_and_right, exists_eq_left]

theorem entries_subset_occurrences {cs : List Clause} {tuple : List Fact}
    (same : cs.length = tuple.length) :
    List.Forall₂ (fun c f => c.entries v s f ⊆ occurrences v s cs tuple) cs tuple := by
  induction cs generalizing tuple with
  | nil =>
    obtain rfl := List.length_eq_zero_iff.mp same.symm
    exact .nil
  | cons c rest ih =>
    obtain ⟨f, others, rfl⟩ := List.exists_cons_of_length_eq_add_one same.symm
    refine .cons (List.subset_append_left ..) ((ih (Nat.succ.inj same)).imp fun d g within => ?_)
    exact fun entry member => List.mem_append_right _ (within member)

/-- Where the attribute of a clause is a variable, a row binds it to the name of the attribute. -/
theorem lookup_attr {occurrences : List (String × Value)} {row : Bindings}
    (merged : Bindings.merge [] occurrences = some row) {c : Clause} {f : Fact}
    (within : c.entries v s f ⊆ occurrences) {name : String} (stands : c.attr = .variable name)
    {n : String} (named : attrName v s f.attr = some n) : row.lookup name = some (.text n) := by
  have here : (name, .text n) ∈ occurrences :=
    within (mem_entries.mpr (.inr (.inl ⟨stands, by rw [named]; rfl⟩)))
  have consistent : Consistent occurrences := by
    rw [← Bindings.isSome_merge_nil, merged]
    rfl
  have some_first : (occurrences.lookup name).isSome := by
    rw [List.lookup_isSome_iff]
    exact ⟨_, here, BEq.rfl⟩
  obtain ⟨first, bound⟩ := Option.isSome_iff_exists.mp some_first
  -- the first value of the variable equals the name, and only a text equals a text
  have equal : (first == .text n) = true :=
    consistent _ (Outcome.mem_of_lookup bound) _ here rfl
  rw [Bindings.lookup_merge merged, List.nil_append, bound, Value.eq_text_of_beq equal]

/-! ### Answers -/

theorem compiled_of_compile {ps : Parameters} {forms : List Form} {c : Compiled}
    (ok : compile s ps forms = .ok c) : compiled s ps forms = c := by
  obtain ⟨pattern, found, made⟩ := Outcome.bind_eq_ok.mp ok
  obtain rfl := Outcome.pure_eq_ok.mp made
  rw [compiled, found]
  rfl

/-- Rows are an answer to clauses that could all be compiled, and come from the join of their
rows. -/
theorem answer_cases {q : Query} {asOf : Option EntityId} {params : List Form}
    {shown : List AnswerRow} (answered : s.answer v q asOf params = .ok (some shown)) :
    ∃ clauses retract joined, q.clauses = some clauses ∧
      s.entityOf v.retractOperation = .ok retract ∧
      (∀ forms ∈ clauses, compile s (q.parameters params) forms
        = .ok (compiled s (q.parameters params) forms)) ∧
      joinAll (rows v s retract (effectiveTx s asOf))
        (clauses.map (compiled s (q.parameters params))) [[]] = .ok joined ∧
      shown = joined.map fun row => q.find.map fun name => row.lookup name := by
  unfold Store.answer at answered
  split at answered
  next => cases answered
  next clauses written =>
    obtain ⟨retract, resolved, answered⟩ := Outcome.bind_eq_ok.mp answered
    obtain ⟨cs, compiles, answered⟩ := Outcome.bind_eq_ok.mp answered
    have each := Outcome.mapM_eq_ok.mp compiles
    have same : clauses.map (compiled s (q.parameters params)) = cs := by
      rw [← List.forall₂_eq_eq_eq, List.forall₂_map_left_iff]
      exact each.imp fun forms c ok => compiled_of_compile ok
    subst same
    rw [List.forall₂_map_right_iff, List.forall₂_same] at each
    split at answered
    next => cases answered
    next =>
      obtain ⟨joined, ok, answered⟩ := Outcome.bind_eq_ok.mp answered
      cases answered
      exact ⟨clauses, retract, joined, written, resolved, each, ok, rfl⟩

/-- A row of an answer merges what the variables stand for in a tuple of facts, one for each
clause. -/
theorem answer_tuple {q : Query} {asOf : Option EntityId} {params : List Form}
    {shown : List AnswerRow} (answered : s.answer v q asOf params = .ok (some shown))
    {row : AnswerRow} (member : row ∈ shown) :
    ∃ clauses retract tuple bindings, q.clauses = some clauses ∧
      s.entityOf v.retractOperation = .ok retract ∧
      List.Forall₂ (fun forms f => ∃ c, compile s (q.parameters params) forms = .ok c ∧
        Contributes v s retract (effectiveTx s asOf) c f) clauses tuple ∧
      Bindings.merge [] (occurrences v s (clauses.map (Clause.ofForms (q.parameters params))) tuple)
        = some bindings ∧
      row = q.find.map fun name => bindings.lookup name := by
  obtain ⟨clauses, retract, joined, written, resolved, compiles, ok, rfl⟩ := answer_cases answered
  obtain ⟨bindings, joins, rfl⟩ := List.mem_map.mp member
  obtain ⟨l, l_member, tuple, contribute, merged⟩ := exists_tuple ok joins
  obtain rfl := List.mem_singleton.mp l_member
  rw [List.forall₂_map_left_iff] at contribute
  rw [List.map_map] at merged
  refine ⟨clauses, retract, tuple, bindings, written, resolved, ?_, merged, rfl⟩
  refine ((List.forall₂_and_left clauses tuple).mpr ⟨compiles, contribute⟩).imp ?_
  rintro forms f ⟨ok, contributes⟩
  exact ⟨_, ok, contributes⟩

end Query

/-! ### Names of attributes -/

namespace Database

variable {db : Database} {fs : List Fact}

/-- In a database that was opened and used in the ordinary way, every attribute of a fact that is
found has a name, and some fact gives it that name. -/
theorem Reachable.exists_attrName (reachable : db.Reachable) (holds : db.store.Holds fs)
    {p : Pattern} {asOf : EntityId} {facts : List Fact}
    (found : db.store.lookup p asOf = .ok facts) {f : Fact} (member : f ∈ facts) :
    ∃ n, Query.attrName db.vocabulary db.store f.attr = some n ∧
      ∃ g ∈ fs, g.entity = f.attr ∧ g.name? = some n := by
  unfold Query.attrName
  split
  next naming =>
    -- the naming attribute was named when the database was founded
    have first : (f.attr, db.vocabulary.identity) ∈ Database.roster db.vocabulary := by
      rw [naming]
      exact List.mem_append_left _ (Schema.mem_roster.mpr rfl)
    obtain ⟨resolved, _⟩ := reachable.roster _ first
    exact ⟨_, rfl, Log.mem_of_entityOf (holds.entityOf_eq_ok.mp resolved)⟩
  next =>
    obtain ⟨fs', last, keeps⟩ := reachable.keeps
    obtain ⟨g, written, same⟩ := keeps.holds.written_of_lookup found f member
    have named := keeps.regular.named g written
    rw [same.attr, ← keeps.holds.firstName_eq] at named
    obtain ⟨n, named⟩ := Option.isSome_iff_exists.mp named
    exact ⟨n, named, Log.mem_of_nameOf (holds.firstName_eq _ ▸ named)⟩

/-- What a row of an answer takes for a clause: a fact that contributes to it. Where the attribute
of the clause is a variable, the row shows a name of the attribute wherever it shows the
variable. -/
structure Takes (db : Database) (fs : List Fact) (q : Query) (asOf : Option EntityId)
    (params : List Form) (row : Query.AnswerRow) (forms : List Form) (f : Fact) : Prop where
  contributes : ∃ retract c, db.store.entityOf db.vocabulary.retractOperation = .ok retract ∧
    Query.compile db.store (q.parameters params) forms = .ok c ∧
    Query.Contributes db.vocabulary db.store retract (Query.effectiveTx db.store asOf) c f
  attr : ∀ name, q.VariableAt params forms 1 name →
    ∃ n, (∃ g ∈ fs, g.entity = f.attr ∧ g.name? = some n) ∧
      ∀ i : Nat, q.find[i]? = some name → row[i]? = some (some (.text n))

/-- In a database that was opened and used in the ordinary way, a row of an answer has a value for
each variable to find that stands in a clause, and for no other. It takes a fact for each clause,
and shows a variable for an attribute as the name of the attribute. -/
theorem query_complete (reachable : db.Reachable) (holds : db.store.Holds fs) {q : Query}
    {asOf : Option EntityId} {params : List Form} {rows : List Query.AnswerRow}
    (answered : db.query q asOf params = .ok (some rows)) :
    ∀ row ∈ rows,
      List.Forall₂ (fun name value => value = none ↔ ¬q.Occurs params name) q.find row ∧
      ∃ clauses tuple, q.clauses = some clauses ∧
        List.Forall₂ (db.Takes fs q asOf params row) clauses tuple := by
  intro row member
  obtain ⟨clauses, retract, tuple, bindings, written, resolved, contribute, merged, rfl⟩ :=
    Query.answer_tuple answered member
  -- each fact of the tuple was found, so its attribute has a name
  have named : List.Forall₂ (fun _ f => ∃ n,
      Query.attrName db.vocabulary db.store f.attr = some n ∧
        ∃ g ∈ fs, g.entity = f.attr ∧ g.name? = some n) clauses tuple := by
    refine contribute.imp ?_
    rintro forms f ⟨c, _, p, facts, _, found, standing, _⟩
    exact reachable.exists_attrName holds found (List.mem_of_mem_filter standing)
  have known : List.Forall₂ (fun _ f => ∃ n,
      Query.attrName db.vocabulary db.store f.attr = some n)
      (clauses.map (Query.Clause.ofForms (q.parameters params))) tuple := by
    rw [List.forall₂_map_left_iff]
    exact named.imp fun _ _ ⟨n, called, _⟩ => ⟨n, called⟩
  constructor
  · rw [List.forall₂_map_right_iff, List.forall₂_same]
    intro name _
    rw [Query.Bindings.lookup_merge merged, List.nil_append, Query.occurs_iff written,
      ← Query.exists_occurrence known, Outcome.lookup_eq_none]
  · have within := Query.entries_subset_occurrences (v := db.vocabulary) (s := db.store)
      known.length_eq
    rw [List.forall₂_map_left_iff] at within
    have each := List.Forall₂.mp (fun _ _ => And.intro) named contribute
    refine ⟨clauses, tuple, written, List.Forall₂.mp ?_ within each⟩
    rintro forms f inside ⟨⟨n, called, g, g_member, about, g_named⟩, c, compiles, contributes⟩
    refine ⟨⟨retract, c, resolved, compiles, contributes⟩, ?_⟩
    intro name stands
    have shown : bindings.lookup name = some (.text n) :=
      Query.lookup_attr merged inside (Query.termAt_eq_variable.mpr stands) called
    refine ⟨n, ⟨g, g_member, about, g_named⟩, fun i place => ?_⟩
    rw [List.getElem?_map, place, Option.map_some, shown]

/-- A fact that contributes to the only clause of a query makes a row. -/
theorem exists_row {q : Query} {asOf : Option EntityId} {params forms : List Form}
    (written : q.clauses = some [forms]) {retract : EntityId}
    (resolved : db.store.entityOf db.vocabulary.retractOperation = .ok retract) {c : Query.Compiled}
    (compiles : Query.compile db.store (q.parameters params) forms = .ok c) {f : Fact}
    (contributes : Query.Contributes db.vocabulary db.store retract
      (Query.effectiveTx db.store asOf) c f) :
    ∃ rows row, db.query q asOf params = .ok (some rows) ∧ row ∈ rows := by
  obtain ⟨p, facts, pattern, looked, standing, bound⟩ := contributes
  obtain ⟨row, bound⟩ := Option.isSome_iff_exists.mp bound
  have found : Query.rows db.vocabulary db.store retract (Query.effectiveTx db.store asOf) c
      = .ok ((Fact.standing retract facts).filterMap
          (c.1.bindings db.vocabulary db.store)) := by
    simp only [Query.rows, pattern, looked, Outcome.ok_bind, Outcome.pure_eq]
  have member : row ∈ (Fact.standing retract facts).filterMap
      (c.1.bindings db.vocabulary db.store) := List.mem_filterMap.mpr ⟨f, standing, bound⟩
  -- a row that is merged with nothing stays what it is
  have alone : Query.Bindings.merge [] row = some row := by
    have again := Query.Bindings.merge_row [] (c.1.entries db.vocabulary db.store f)
    rw [← Query.Clause.bindings, bound] at again
    exact again
  have joins : row ∈ Query.Bindings.join [[]] ((Fact.standing retract facts).filterMap
      (c.1.bindings db.vocabulary db.store)) := by
    rw [Query.Bindings.join, List.flatMap_singleton]
    exact List.mem_filterMap.mpr ⟨row, member, alone⟩
  have shown := List.mem_map_of_mem (f := fun row => q.find.map fun name => row.lookup name) joins
  refine ⟨_, _, ?_, shown⟩
  simp [query, Store.answer, written, resolved, compiles, Query.joinAll, found]

/-- Which attribute has the value `"a"` is shown by name, beside a variable that stands nowhere. -/
theorem query_complete_names : ∃ (db : Database) (fs : List Fact) (rows : List Query.AnswerRow),
    db.Reachable ∧ db.store.Holds fs ∧
    db.query ⟨["?a", "?b"], [], some [[.symbol "_", .symbol "?a", .text "a"]]⟩ none []
      = .ok (some rows) ∧
    ∃ row ∈ rows, ∃ g ∈ fs, ∃ n, g.name? = some n ∧ row = [some (.text n), none] := by
  have evaluated : (((ofStore (Store.empty .table) .standard ⟨"", 0, 0, 0⟩).toOption.map
      (·.run [.transact 5 (.map [(.keyword "tx-data",
        .map [(.keyword "db/documentation", .text "a")])])])).bind fun db =>
      (db.store.entityOf db.vocabulary.retractOperation).toOption.bind fun retract =>
      (Query.compile db.store [] [.symbol "_", .symbol "?a", .text "a"]).toOption.bind fun c =>
      c.2.bind fun p =>
      (db.store.lookup p (Query.effectiveTx db.store none)).toOption.bind fun facts =>
      (facts.find? fun f => (c.1.bindings db.vocabulary db.store f).isSome &&
        decide (f.op ≠ retract ∧ ∀ g ∈ facts, ¬ g.Hides retract f)).map Fact.tx) = some 43 := by
    decide +kernel
  obtain ⟨db, ran, evaluated⟩ := Option.bind_eq_some_iff.mp evaluated
  obtain ⟨retract, resolved, evaluated⟩ := Option.bind_eq_some_iff.mp evaluated
  obtain ⟨c, compiled, evaluated⟩ := Option.bind_eq_some_iff.mp evaluated
  obtain ⟨p, pattern, evaluated⟩ := Option.bind_eq_some_iff.mp evaluated
  obtain ⟨facts, found, evaluated⟩ := Option.bind_eq_some_iff.mp evaluated
  obtain ⟨f, shown, _⟩ := Option.map_eq_some_iff.mp evaluated
  obtain ⟨first, opened, run⟩ := Option.map_eq_some_iff.mp ran
  have reachable : db.Reachable :=
    ⟨.table, .standard, ⟨"", 0, 0, 0⟩, first, _, Outcome.toOption_eq_some.mp opened, run.symm⟩
  obtain ⟨fs, last, keeps⟩ := reachable.keeps
  -- the fact was found and stands, so it makes a row
  have passed := List.find?_some shown
  simp only [Bool.and_eq_true, decide_eq_true_eq] at passed
  obtain ⟨bound, asserted, unhidden⟩ := passed
  have standing : f ∈ Fact.standing retract facts :=
    Fact.mem_standing.mpr ⟨List.mem_of_find?_eq_some shown, asserted, unhidden⟩
  have shows_row : ∃ rows row, db.query
      ⟨["?a", "?b"], [], some [[.symbol "_", .symbol "?a", .text "a"]]⟩ none []
        = .ok (some rows) ∧ row ∈ rows :=
    exists_row rfl (Outcome.toOption_eq_some.mp resolved) (Outcome.toOption_eq_some.mp compiled)
      ⟨p, facts, pattern, Outcome.toOption_eq_some.mp found, standing, bound⟩
  obtain ⟨rows, row, answered, member⟩ := shows_row
  refine ⟨db, fs, rows, reachable, keeps.holds, answered, row, member, ?_⟩
  obtain ⟨shows, clauses, tuple, written, takes⟩ :=
    query_complete reachable keeps.holds answered row member
  cases written
  cases takes with
  | cons takes =>
    obtain ⟨n, ⟨g, g_member, _, named⟩, named_row⟩ := takes.attr "?a" ⟨rfl, rfl, by simp⟩
    obtain ⟨first, _, _, rest, rfl⟩ := List.forall₂_cons_left_iff.mp shows
    obtain ⟨second, _, absent, none_left, rfl⟩ := List.forall₂_cons_left_iff.mp rest
    obtain rfl := List.forall₂_nil_left_iff.mp none_left
    have bound : first = some (.text n) := Option.some.inj (named_row 0 rfl)
    have nowhere : second = none := by
      refine absent.mpr ?_
      rw [Query.occurs_iff rfl]
      simp [Query.Clause.terms, Query.Clause.ofForms, Query.Clause.termAt, Query.Term.ofForm,
        Query.Term.substitute, Query.parameters]
    exact ⟨g, g_member, n, named, by rw [bound, nowhere]⟩

end Database

end Factbase
