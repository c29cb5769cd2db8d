import Factbase.Proofs.ClauseOrder

/-!
# Factbase.Proofs.UnknownAttribute

When a query fails. All attributes are looked up before any clause is evaluated, and nothing but a
name that stands for no entity can fail there; evaluation on an indexed store never fails. So a
query fails exactly if some clause gives its attribute by an unknown name, in the clause itself or
by a parameter, and the first such name is the one at fault, whatever facts there are.
-/

namespace Factbase

namespace Query

/-! ### Attributes that are given -/

/-- The constant that stands for the attribute of a clause once parameters are in the places of
inputs. A parameter is a constant, whatever it looks like; of what the clause itself says, variables
and wildcards are none. -/
inductive AttrConstant (q : Query) (params : List Form) : List Form → Form → Prop where
  | written {entity form : Form} {rest : List Form}
      (constant : ∀ name, form = .symbol name → name.toList.head? ≠ some '?' ∧ name ≠ "_") :
      AttrConstant q params (entity :: form :: rest) form
  | parameter {entity form : Form} {rest : List Form} {name : String} {i : Nat}
      (input : name.toList.head? = some '?') (used : q.inputs.length = params.length)
      (first : q.inputs.idxOf? name = some i) (given : params[i]? = some form) :
      AttrConstant q params (entity :: .symbol name :: rest) form

/-- The name that a clause gives its attribute by: its constant is a keyword, a text or a symbol. -/
inductive AttrNamed (q : Query) (params forms : List Form) : String → Prop where
  | keyword {name : String} (constant : AttrConstant q params forms (.keyword name)) :
      AttrNamed q params forms (":" ++ name)
  | text {name : String} (constant : AttrConstant q params forms (.text name)) :
      AttrNamed q params forms name
  | symbol {name : String} (constant : AttrConstant q params forms (.symbol name)) :
      AttrNamed q params forms name

/-- The parameter for a variable is the one at the place of the first input with its name. -/
theorem lookup_zip_eq_some {inputs : List String} {params : List Form} {name : String}
    {form : Form} : (inputs.zip params).lookup name = some form ↔
      ∃ i, inputs.idxOf? name = some i ∧ params[i]? = some form := by
  induction inputs generalizing params with
  | nil => simp
  | cons input rest ih =>
    cases params with
    | nil => simp
    | cons param others =>
      rw [List.zip_cons_cons, List.lookup_cons, List.idxOf?_cons]
      by_cases same : input = name
      · subst same
        simp
      · have differ : (name == input) = false := by simpa using Ne.symm same
        have differ' : (input == name) = false := by simpa using same
        simp [differ, differ', ih]

theorem lookup_parameters {q : Query} {params : List Form} {name : String} {form : Form} :
    (q.parameters params).lookup name = some form ↔ q.inputs.length = params.length ∧
      ∃ i, q.inputs.idxOf? name = some i ∧ params[i]? = some form := by
  unfold parameters
  split_ifs with used
  · simp [lookup_zip_eq_some, used]
  · simp [used]

/-- The attribute term of a clause is a constant exactly if one is given for the attribute. -/
theorem attr_ofForms {q : Query} {params forms : List Form} {form : Form} :
    (Clause.ofForms (q.parameters params) forms).attr = .constant form ↔
      AttrConstant q params forms form := by
  constructor
  · intro constant
    -- a clause of fewer than two terms leaves its attribute open
    rcases forms with _ | ⟨entity, _ | ⟨told, rest⟩⟩
    · cases constant
    · cases constant
    change (Term.ofForm told).substitute (q.parameters params) = .constant form at constant
    cases told with
    | symbol name =>
      rw [Term.ofForm] at constant
      split_ifs at constant with input wildcard
      · -- a variable has become a constant, so it is an input
        simp only [Term.substitute] at constant
        split at constant
        next given found =>
          obtain rfl := Term.constant.inj constant
          obtain ⟨used, i, first, at_⟩ := lookup_parameters.mp found
          exact .parameter input used first at_
        next => cases constant
      · cases constant
      · obtain rfl := Term.constant.inj constant
        refine .written ?_
        rintro _ ⟨rfl⟩
        exact ⟨input, wildcard⟩
    | _ =>
      obtain rfl := Term.constant.inj constant
      exact .written nofun
  · intro constant
    cases constant with
    | @written entity _ rest constant =>
      show (Term.ofForm form).substitute (q.parameters params) = .constant form
      cases form with
      | symbol name =>
        obtain ⟨input, wildcard⟩ := constant name rfl
        rw [Term.ofForm, if_neg input, if_neg wildcard]
        rfl
      | _ => rfl
    | @parameter entity _ rest name i input used first given =>
      show (Term.ofForm (.symbol name)).substitute (q.parameters params) = .constant form
      have found := lookup_parameters.mpr ⟨used, i, first, given⟩
      rw [Term.ofForm, if_pos input, Term.substitute, found]

theorem attrNamed_iff {q : Query} {params forms : List Form} {name : String} :
    AttrNamed q params forms name ↔
      ∃ form, (Clause.ofForms (q.parameters params) forms).attr = .constant form ∧
        Clause.attrName? form = some name := by
  simp only [attr_ofForms]
  constructor
  · rintro (constant | constant | constant) <;> exact ⟨_, constant, rfl⟩
  · rintro ⟨form, constant, named⟩
    cases form <;> cases named
    · exact .text constant
    · exact .keyword constant
    · exact .symbol constant

/-! ### Clauses that cannot be compiled -/

/-- A clause fails to be compiled exactly if it gives its attribute by a name that is unknown. -/
theorem compile_eq_error {s : Store} {q : Query} {params forms : List Form} {fault : Fault} :
    compile s (q.parameters params) forms = .error fault ↔
      ∃ name, AttrNamed q params forms name ∧ s.entityOf? name = none ∧
        fault = .unknownName name := by
  simp only [attrNamed_iff]
  constructor
  · intro failed
    -- only the place of the attribute is looked up in the store
    have place : Clause.attrPlace s (Clause.ofForms (q.parameters params) forms).attr
        = .error fault := by
      cases looked : Clause.attrPlace s (Clause.ofForms (q.parameters params) forms).attr with
      | error fault' => simpa [compile, Clause.pattern, looked] using failed
      | ok place => simp [compile, Clause.pattern, looked] at failed
    cases given : (Clause.ofForms (q.parameters params) forms).attr with
    | constant form =>
      rw [given, Clause.attrPlace] at place
      split at place
      next name named =>
        unfold Store.entityOf at place
        split at place
        next => cases place
        next unknown => exact ⟨name, ⟨form, rfl, named⟩, unknown, (Except.error.inj place).symm⟩
      next => cases place
    | _ =>
      rw [given] at place
      cases place
  · rintro ⟨name, ⟨form, constant, named⟩, unknown, rfl⟩
    have missing : s.entityOf name = .error (.unknownName name) := by
      rw [Store.entityOf, unknown]
    simp only [compile, Clause.pattern, constant, Clause.attrPlace, named, missing]
    rfl

end Query

/-! ### Queries that fail -/

namespace Store

theorem entityOf_eq_none_iff {s : Store} {name : String} :
    s.entityOf? name = none ↔ ¬ ∃ e, s.entityOf name = .ok e := by
  unfold entityOf
  cases s.entityOf? name <;> simp

/-- On an indexed store that knows the operation that retracts, a query fails exactly as the first
of its clauses that cannot be compiled. -/
theorem answer_indexed_eq_error {s : Store.Indexed} {v : Vocabulary} {q : Query}
    {clauses : List (List Form)} (written : q.clauses = some clauses) {retract : EntityId}
    (resolved : (indexed s).entityOf v.retractOperation = .ok retract) {asOf : Option EntityId}
    {params : List Form} {fault : Fault} :
    (indexed s).answer v q asOf params = .error fault ↔
      clauses.mapM (Query.compile (indexed s) (q.parameters params)) = .error fault := by
  unfold Store.answer
  rw [written]
  simp only [resolved, Outcome.ok_bind]
  cases clauses.mapM (Query.compile (indexed s) (q.parameters params)) with
  | error fault' => simp
  | ok cs =>
    rw [Outcome.ok_bind]
    split_ifs
    · simp
    · simp [Query.joinAll_indexed]

end Store

namespace Database

/-- A query to an indexed store fails exactly if some clause gives its attribute by a name that
stands for no entity. The fault is the first such name in the order of the clauses. -/
theorem query_fails_iff {db : Database} (indexed : db.store.backend = .indexed)
    (retract : ∃ e, db.resolve db.vocabulary.retractOperation = .ok e) {q : Query}
    {clauses : List (List Form)} (usable : q.clauses = some clauses) (asOf : Option EntityId)
    (params : List Form) :
    ((∃ fault, db.query q asOf params = .error fault) ↔
      ∃ forms ∈ clauses, ∃ name, q.AttrNamed params forms name ∧
        ¬ ∃ e, db.resolve name = .ok e) ∧
    ∀ fault, db.query q asOf params = .error fault → ∃ before forms after name,
      clauses = before ++ forms :: after ∧
      (∀ earlier ∈ before, ∀ other, q.AttrNamed params earlier other →
        ∃ e, db.resolve other = .ok e) ∧
      q.AttrNamed params forms name ∧ (¬ ∃ e, db.resolve name = .ok e) ∧
      fault = .unknownName name := by
  obtain ⟨store, v⟩ := db
  cases store with
  | table t => cases indexed
  | indexed s =>
  obtain ⟨e, resolved⟩ := retract
  have failed : ∀ {forms : List Form} {fault : Fault},
      Query.compile (.indexed s) (q.parameters params) forms = .error fault ↔
        ∃ name, q.AttrNamed params forms name ∧ (¬ ∃ e, (Store.indexed s).entityOf name = .ok e) ∧
          fault = .unknownName name := by
    intro forms fault
    simp only [Query.compile_eq_error, Store.entityOf_eq_none_iff]
  simp only [query, resolve, Store.answer_indexed_eq_error usable resolved]
  constructor
  · constructor
    · rintro ⟨fault, first⟩
      obtain ⟨before, forms, after, rfl, _, at_⟩ := Outcome.mapM_eq_error.mp first
      obtain ⟨name, named, unknown, _⟩ := failed.mp at_
      exact ⟨forms, by simp, name, named, unknown⟩
    · rintro ⟨forms, member, name, named, unknown⟩
      -- if no clause failed, this one would not
      cases compiled : clauses.mapM (Query.compile (.indexed s) (q.parameters params)) with
      | error fault => exact ⟨fault, rfl⟩
      | ok cs =>
        obtain ⟨c, _, ok⟩ := Outcome.exists_right_of_mem (Outcome.mapM_eq_ok.mp compiled) member
        rw [failed.mpr ⟨name, named, unknown, rfl⟩] at ok
        cases ok
  · intro fault first
    obtain ⟨before, forms, after, split_at, earlier, at_⟩ := Outcome.mapM_eq_error.mp first
    obtain ⟨name, named, unknown, same⟩ := failed.mp at_
    refine ⟨before, forms, after, name, split_at, ?_, named, unknown, same⟩
    intro other_forms member other other_named
    by_contra other_unknown
    obtain ⟨c, ok⟩ := earlier other_forms member
    rw [failed.mpr ⟨other, other_named, other_unknown, rfl⟩] at ok
    cases ok

/-- A query with a clause that nothing can match fails for the attribute of the clause behind it,
which a parameter gives. -/
theorem query_fails_iff_dislikes :
    let db : Database := ⟨Store.ofLog [⟨2, 0, .text ":db.operation/retract", 1, 1⟩,
      ⟨7, 0, .text ":likes", 1, 1⟩, ⟨8, 7, .ref 9, 1, 1⟩], .standard⟩
    let none_likes := [Form.int (-1), .keyword "likes", .symbol "?x"]
    let related := [Form.symbol "?x", .symbol "?attr", .symbol "?y"]
    let q : Query := ⟨["?y"], ["?attr"], some [none_likes, related]⟩
    db.store.backend = .indexed ∧ db.resolve ":db.operation/retract" = .ok 2 ∧
      q.AttrNamed [.keyword "dislikes"] related ":dislikes" ∧
      (¬ ∃ e, db.resolve ":dislikes" = .ok e) ∧
      db.query q none [.keyword "dislikes"] = .error (.unknownName ":dislikes") := by
  intro db none_likes related q
  have holds := Store.ofLog_holds [⟨2, 0, .text ":db.operation/retract", 1, 1⟩,
    ⟨7, 0, .text ":likes", 1, 1⟩, ⟨8, 7, .ref 9, 1, 1⟩]
  have retract : db.resolve ":db.operation/retract" = .ok 2 :=
    holds.entityOf_eq_ok.mpr (by decide +kernel)
  have likes : db.resolve ":likes" = .ok 7 := holds.entityOf_eq_ok.mpr (by decide +kernel)
  have unknown : ¬ ∃ e, db.resolve ":dislikes" = .ok e := by
    rintro ⟨e, found⟩
    have absent : Log.entityOf [⟨2, 0, .text ":db.operation/retract", 1, 1⟩,
        ⟨7, 0, .text ":likes", 1, 1⟩, ⟨8, 7, .ref 9, 1, 1⟩] ":dislikes" = none := by
      decide +kernel
    cases absent.symm.trans (holds.entityOf_eq_ok.mp found)
  have given : q.AttrConstant [.keyword "dislikes"] related (.keyword "dislikes") :=
    .parameter (by decide) rfl rfl rfl
  have named : q.AttrNamed [.keyword "dislikes"] related ":dislikes" := .keyword given
  have indexed : db.store.backend = .indexed := rfl
  have usable : q.clauses = some [none_likes, related] := rfl
  obtain ⟨fails, first⟩ := query_fails_iff indexed ⟨2, retract⟩ usable none [.keyword "dislikes"]
  obtain ⟨fault, failed⟩ := fails.mpr ⟨related, by simp, ":dislikes", named, unknown⟩
  obtain ⟨before, forms, after, name, split_at, _, found, missing, rfl⟩ := first fault failed
  refine ⟨rfl, retract, named, unknown, ?_⟩
  -- the clause at fault is not the first one, whose attribute is known
  obtain ⟨form, constant, read⟩ := Query.attrNamed_iff.mp found
  rcases before with _ | ⟨_, _ | ⟨_, before⟩⟩
  · obtain ⟨rfl, _⟩ := List.cons.inj split_at
    obtain rfl : Form.keyword "likes" = form := Query.Term.constant.inj constant
    obtain rfl : ":likes" = name := Option.some.inj read
    exact absurd ⟨7, likes⟩ missing
  · obtain ⟨_, rest⟩ := List.cons.inj split_at
    obtain ⟨rfl, _⟩ := List.cons.inj rest
    obtain rfl : Form.keyword "dislikes" = form := Query.Term.constant.inj constant
    obtain rfl : ":dislikes" = name := Option.some.inj read
    exact failed
  · simp at split_at

end Database

end Factbase
