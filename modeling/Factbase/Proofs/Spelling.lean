import Factbase.Proofs.Renumbering
import Factbase.Proofs.Run

/-!
# Factbase.Proofs.Spelling

How names are spelled. A keyword stands for the text of its name, colon included, wherever a request
or a query reads a name, an entity or a value. So a request with any of its keywords written as
texts is carried out alike; if it fails, it fails for a fault of the same kind, which shows the form
at fault as it is written. A query with such keywords in its clauses, its own keys and its
parameters has the same answer; only what it lists as variables has to be written as it is.
-/

namespace Factbase

/-! ### Forms -/

namespace Form

mutual

/-- A form with each keyword in it written as the text of its name. -/
def respelled : Form → Form
  | .keyword name => .text (":" ++ name)
  | .list items => .list (respelledItems items)
  | .map entries => .map (respelledEntries entries)
  | form => form

def respelledItems : List Form → List Form
  | [] => []
  | item :: rest => respelled item :: respelledItems rest

def respelledEntries : List (Form × Form) → List (Form × Form)
  | [] => []
  | (key, value) :: rest => (respelled key, respelled value) :: respelledEntries rest

end

/-- Forms that are the same once each keyword in them is written as the text of its name. -/
def SpelledAlike (form other : Form) : Prop := form.respelled = other.respelled

def respelledEntry (entry : Form × Form) : Form × Form :=
  (entry.1.respelled, entry.2.respelled)

@[simp] theorem respelled_list (items : List Form) :
    (list items).respelled = list (items.map respelled) := by
  have each : respelledItems items = items.map respelled := by
    induction items with
    | nil => rfl
    | cons item rest ih => rw [respelledItems, ih, List.map_cons]
  rw [respelled, each]

@[simp] theorem respelled_map (entries : List (Form × Form)) :
    (map entries).respelled = map (entries.map respelledEntry) := by
  have each : respelledEntries entries = entries.map respelledEntry := by
    induction entries with
    | nil => rfl
    | cons entry rest ih => rw [respelledEntries, ih, List.map_cons, respelledEntry]
  rw [respelled, each]

@[simp] theorem asName?_respelled (form : Form) : form.respelled.asName? = form.asName? := by
  cases form <;> rfl

@[simp] theorem toValue?_respelled (form : Form) : form.respelled.toValue? = form.toValue? := by
  cases form <;> rfl

@[simp] theorem get?_respelled (form : Form) (name : String) :
    form.respelled.get? name = (form.get? name).map respelled := by
  cases form with
  | map entries =>
    -- keys stand for the same names, so the same entry is found
    have key : ∀ entry : Form × Form, (respelledEntry entry).1.asName? = entry.1.asName? :=
      fun entry => asName?_respelled entry.1
    rw [respelled_map, get?, get?, List.find?_map, Option.map_map, Option.map_map]
    simp only [Function.comp_def, key]
    rfl
  | _ => rfl

theorem asList?_respelled (form : Form) :
    form.respelled.asList? = form.asList?.map (List.map respelled) := by
  cases form with
  | list items => rw [respelled_list]; rfl
  | _ => rfl

end Form

/-! ### Outcomes -/

/-- Attempts that succeed with the same result, or fail for faults of the same kind. -/
inductive SameKind {α : Type} : Except Fault α → Except Fault α → Prop where
  | ok (x : α) : SameKind (.ok x) (.ok x)
  | error {fault other : Fault} (same : fault.kind = other.kind) :
      SameKind (.error fault) (.error other)

namespace SameKind

variable {α β : Type}

theorem refl (step : Except Fault α) : SameKind step step := by
  cases step with
  | ok x => exact .ok x
  | error fault => exact .error rfl

theorem symm {step other : Except Fault α} (same : SameKind step other) : SameKind other step := by
  cases same with
  | ok x => exact .ok x
  | error same => exact .error same.symm

theorem trans {first second third : Except Fault α} (same : SameKind first second)
    (same' : SameKind second third) : SameKind first third := by
  cases same with
  | ok x => exact same'
  | error same =>
    cases same' with
    | error same' => exact .error (same.trans same')

theorem bind {step other : Except Fault α} {next next' : α → Except Fault β}
    (same : SameKind step other) (later : ∀ x, SameKind (next x) (next' x)) :
    SameKind (step >>= next) (other >>= next') := by
  cases same with
  | ok x => exact later x
  | error same => exact .error same

theorem map {step other : Except Fault α} (same : SameKind step other) (f : α → β) :
    SameKind (step.map f) (other.map f) := by
  cases same with
  | ok x => exact .ok (f x)
  | error same => exact .error same

theorem mapM {γ : Type} {step other : γ → Except Fault β} (same : ∀ x, SameKind (step x) (other x))
    (xs : List γ) : SameKind (xs.mapM step) (xs.mapM other) := by
  induction xs with
  | nil => exact .ok []
  | cons x rest ih =>
    rw [List.mapM_cons, List.mapM_cons]
    exact (same x).bind fun y => ih.bind fun ys => .ok (y :: ys)

end SameKind

/-! ### Drafts -/

namespace Transaction

variable {v : Vocabulary} {s : Store}

def Operation.respelled : Operation → Operation
  | .declaration form => .declaration form.respelled
  | .tuple items => .tuple (items.map Form.respelled)
  | .entries es => .entries (es.map Form.respelledEntry)

theorem nameOf_respelled (form : Form) : SameKind (nameOf form) (nameOf form.respelled) := by
  unfold nameOf
  rw [Form.asName?_respelled]
  cases form.asName? with
  | some name => exact .ok name
  | none => exact .error rfl

theorem valueOf_respelled (form : Form) : SameKind (valueOf form) (valueOf form.respelled) := by
  unfold valueOf
  rw [Form.toValue?_respelled]
  cases form.toValue? with
  | some value => exact .ok value
  | none => exact .error rfl

/-- A keyword and its text are the same placeholder. -/
theorem subjectOf_respelled (form : Form) :
    SameKind (subjectOf form) (subjectOf form.respelled) := by
  cases form with
  | list items => rw [Form.respelled_list]; exact .error rfl
  | map entries => rw [Form.respelled_map]; exact .error rfl
  | _ => exact .refl _

theorem draft_sameKind (subject : Subject) (op : EntityId) (attr : String)
    {value other : Except Fault Value} (same : SameKind value other) :
    SameKind (draft s subject op attr value) (draft s subject op attr other) :=
  (SameKind.refl _).bind fun _ => same.bind fun _ => .refl _

theorem optionalDraft_respelled (subject : Subject) (op : EntityId) (form : Form) (key : String) :
    SameKind (optionalDraft s subject op form key)
      (optionalDraft s subject op form.respelled key) := by
  unfold optionalDraft
  rw [Form.get?_respelled]
  cases form.get? key with
  | none => exact .ok []
  | some value => exact (draft_sameKind subject op key (valueOf_respelled value)).map _

theorem declare_respelled (number : Nat) (form : Form) :
    SameKind (declare v s number form) (declare v s number form.respelled) := by
  unfold declare
  simp only [Form.get?_respelled]
  cases form.get? v.identity with
  | none => exact .ok []
  | some identity =>
  cases form.get? v.valueKind with
  | none => exact .ok []
  | some kind =>
  cases form.get? v.cardinality with
  | none => exact .ok []
  | some cardinality =>
  simp only [Option.map_some, Form.asName?_respelled]
  refine (SameKind.refl _).bind fun op => ?_
  cases identity.asName? with
  | none => exact .error rfl
  | some name =>
  simp only [Outcome.ok_bind]
  -- each of the drafts is alike, if the ones before it succeed
  refine (SameKind.refl _).bind fun named => ?_
  refine (nameOf_respelled kind).bind fun kindName => (SameKind.refl _).bind fun ofKind => ?_
  refine (nameOf_respelled cardinality).bind fun cardinalityName => ?_
  refine (SameKind.refl _).bind fun ofCardinality => ?_
  refine (optionalDraft_respelled _ op form _).bind fun documentation => ?_
  exact (optionalDraft_respelled _ op form _).bind fun history => .refl _

theorem ofTuple_respelled (items : List Form) :
    SameKind (ofTuple v s items) (ofTuple v s (items.map Form.respelled)) := by
  rcases items with _ | ⟨operation, _ | ⟨entity, _ | ⟨attr, _ | ⟨told, _ | ⟨fifth, rest⟩⟩⟩⟩⟩
  case cons.cons.cons.cons.nil =>
    simp only [ofTuple, List.map_cons, List.map_nil]
    refine (nameOf_respelled operation).bind fun name => ?_
    refine (subjectOf_respelled entity).bind fun subject => ?_
    have kept := (nameOf_respelled attr).bind fun attrName =>
      (SameKind.refl (s.entityOf attrName)).bind fun a =>
      (valueOf_respelled told).bind fun value =>
      (SameKind.refl (s.entityOf name)).bind fun op =>
      SameKind.ok [(⟨subject, a, value, op⟩ : Draft)]
    -- what a tuple is about decides whether it is kept, its attribute and its value do not
    split
    · refine (SameKind.refl _).bind fun keep => ?_
      cases keep with
      | true => exact kept
      | false => exact .ok []
    · exact kept
  all_goals exact .ok []

theorem splitEntries_respelled (entries : List (Form × Form)) :
    SameKind ((splitEntries v entries).map (Prod.map id (List.map (Prod.map id Form.respelled))))
      (splitEntries v (entries.map Form.respelledEntry)) := by
  induction entries with
  | nil => exact .refl _
  | cons entry rest ih =>
    rw [List.map_cons, splitEntries, splitEntries, Outcome.map_bind]
    refine (nameOf_respelled entry.1).bind fun name => ?_
    -- what the entries behind yield is known by induction, with their forms respelled
    split
    · rw [Outcome.map_bind]
      refine (subjectOf_respelled entry.2).bind fun subject => ?_
      rw [Outcome.map_bind]
      have later := ih.bind fun result => SameKind.ok
        (some (result.1.getD subject), result.2)
      rw [Outcome.bind_map] at later
      exact later
    · rw [Outcome.map_bind]
      have later := ih.bind fun result => SameKind.ok
        (result.1, (name, entry.2.respelled) :: result.2)
      rw [Outcome.bind_map] at later
      exact later

theorem ofEntries_respelled (number : Nat) (entries : List (Form × Form)) :
    SameKind (ofEntries v s number entries)
      (ofEntries v s number (entries.map Form.respelledEntry)) := by
  unfold ofEntries
  -- behind the split the names are the same, and only the values are still respelled
  have drafted : ∀ (subject : Subject) (op : EntityId) (others : List (String × Form)),
      SameKind (others.mapM fun other => draft s subject op other.1 (valueOf other.2))
        ((others.map (Prod.map id Form.respelled)).mapM fun other =>
          draft s subject op other.1 (valueOf other.2)) := by
    intro subject op others
    rw [List.mapM_map]
    exact SameKind.mapM (fun other => draft_sameKind subject op _ (valueOf_respelled _)) others
  refine SameKind.trans ?_ ((splitEntries_respelled entries).bind fun result => .refl _)
  rw [Outcome.bind_map]
  exact (SameKind.refl _).bind fun result => (SameKind.refl _).bind fun op => drafted _ op _

theorem Operation.drafts_respelled (number : Nat) (operation : Operation) :
    SameKind (operation.drafts v s number) (operation.respelled.drafts v s number) := by
  cases operation with
  | declaration form => exact declare_respelled number form
  | tuple items => exact ofTuple_respelled items
  | entries es => exact ofEntries_respelled number es

theorem draftsFrom_respelled (start : Nat) (operations : List Operation) :
    SameKind (draftsFrom v s start operations)
      (draftsFrom v s start (operations.map Operation.respelled)) := by
  induction operations generalizing start with
  | nil => exact .ok []
  | cons operation rest ih =>
    rw [List.map_cons, draftsFrom, draftsFrom]
    refine (operation.drafts_respelled start).bind fun first => ?_
    exact (ih (start + 1)).bind fun later => .ok (first ++ later)

/-! ### Operations -/

theorem dataOperation?_respelled (form : Form) :
    dataOperation? form.respelled = (dataOperation? form).map Operation.respelled := by
  cases form with
  | list items => rw [Form.respelled_list]; rfl
  | map entries => rw [Form.respelled_map]; rfl
  | _ => rfl

theorem mapM_dataOperation?_respelled (items : List Form) :
    (items.map Form.respelled).mapM dataOperation?
      = (items.mapM dataOperation?).map (List.map Operation.respelled) := by
  induction items with
  | nil => rfl
  | cons item rest ih =>
    rw [List.map_cons, List.mapM_cons, List.mapM_cons, ih, dataOperation?_respelled]
    cases dataOperation? item with
    | none => rfl
    | some operation => cases rest.mapM dataOperation? <;> rfl

theorem declarations_respelled (part : Form) :
    declarations part.respelled = (declarations part).map Operation.respelled := by
  cases part with
  | list items => simp [declarations, Operation.respelled]
  | map entries => simp [declarations, Operation.respelled]
  | _ => rfl

theorem dataOperations_respelled (part : Form) :
    dataOperations part.respelled = (dataOperations part).map Operation.respelled := by
  cases part with
  | list items =>
    simp only [Form.respelled_list, dataOperations, mapM_dataOperation?_respelled]
    cases items.mapM dataOperation? <;> rfl
  | map entries => simp [dataOperations, Operation.respelled]
  | _ => rfl

theorem operations_respelled (request : Form) :
    operations request.respelled = (operations request).map Operation.respelled := by
  simp only [operations, Form.get?_respelled, List.map_append]
  congr 1
  · cases request.get? ":tx-attribute" with
    | none => rfl
    | some part => exact declarations_respelled part
  · cases request.get? ":tx-data" with
    | none => rfl
    | some part => exact dataOperations_respelled part

end Transaction

theorem Store.transact_respelled (s : Store) (v : Vocabulary) (now : Int64) (request : Form) :
    SameKind (s.transact v now request) (s.transact v now request.respelled) := by
  unfold Store.transact
  rw [Transaction.drafts_eq, Transaction.drafts_eq, Transaction.operations_respelled]
  exact (Transaction.draftsFrom_respelled 0 _).bind fun ds => .refl _

/-! ### Clauses -/

namespace Query

def Term.respelled : Term → Term
  | .constant form => .constant form.respelled
  | term => term

def Clause.respelled (c : Clause) : Clause :=
  ⟨c.entity.respelled, c.attr.respelled, c.value.respelled, c.tx.respelled, c.op.respelled⟩

def Parameters.respelled (ps : Parameters) : Parameters :=
  ps.map (Prod.map id Form.respelled)

/-- A query with each keyword in its clauses written as the text of its name. -/
def respelled (q : Query) : Query :=
  { q with clauses := q.clauses.map (List.map (List.map Form.respelled)) }

theorem Term.ofForm_respelled (form : Form) :
    Term.ofForm form.respelled = (Term.ofForm form).respelled := by
  cases form with
  | symbol name =>
    simp only [Form.respelled, Term.ofForm]
    split_ifs <;> rfl
  | list items => rw [Form.respelled_list, Term.ofForm, Term.ofForm, Term.respelled,
      Form.respelled_list] <;> nofun
  | map entries => rw [Form.respelled_map, Term.ofForm, Term.ofForm, Term.respelled,
      Form.respelled_map] <;> nofun
  | _ => rfl

theorem Term.substitute_respelled (ps : Parameters) (term : Term) :
    term.respelled.substitute ps.respelled = (term.substitute ps).respelled := by
  cases term with
  | «variable» name =>
    have lookup : ps.respelled.lookup name = (ps.lookup name).map Form.respelled := by
      induction ps with
      | nil => rfl
      | cons entry rest ih =>
        obtain ⟨key, form⟩ := entry
        simp only [Parameters.respelled, List.map_cons, Prod.map, id, List.lookup_cons] at ih ⊢
        rw [ih]
        cases name == key <;> rfl
    simp only [Term.respelled, Term.substitute, lookup]
    cases ps.lookup name <;> rfl
  | _ => rfl

theorem Clause.ofForms_respelled (ps : Parameters) (forms : List Form) :
    Clause.ofForms ps.respelled (forms.map Form.respelled)
      = (Clause.ofForms ps forms).respelled := by
  have termAt : ∀ i, Clause.termAt ps.respelled (forms.map Form.respelled) i
      = (Clause.termAt ps forms i).respelled := by
    intro i
    unfold Clause.termAt
    rw [List.getElem?_map]
    cases forms[i]? with
    | none => rfl
    | some form =>
      rw [Option.map_some]
      dsimp only
      rw [Term.ofForm_respelled, Term.substitute_respelled]
  simp only [Clause.ofForms, termAt, Clause.respelled]

theorem Clause.entityOf?_respelled (form : Form) :
    Clause.entityOf? form.respelled = Clause.entityOf? form := by
  cases form <;> rfl

theorem Clause.attrName?_respelled (form : Form) :
    Clause.attrName? form.respelled = Clause.attrName? form := by
  cases form <;> rfl

/-- Constants that are spelled alike make the same pattern. -/
theorem Clause.pattern_respelled (s : Store) (c : Clause) :
    c.respelled.pattern s = c.pattern s := by
  -- every place but that of the attribute reads its constant without the store
  have place : ∀ {α : Type} (read : Form → Option α), (∀ form, read form.respelled = read form) →
      ∀ term : Term, Clause.place read term.respelled = Clause.place read term := by
    intro α read same term
    cases term with
    | constant form => exact congrArg (Option.map some) (same form)
    | _ => rfl
  have attr : Clause.attrPlace s c.attr.respelled = Clause.attrPlace s c.attr := by
    cases c.attr with
    | constant form =>
      simp only [Term.respelled, Clause.attrPlace, Clause.attrName?_respelled,
        Clause.entityOf?_respelled]
    | _ => rfl
  simp only [Clause.pattern, Clause.respelled, attr, place _ Clause.entityOf?_respelled,
    place _ Form.toValue?_respelled]

theorem Clause.bindings_respelled (v : Vocabulary) (s : Store) (c : Clause) :
    c.respelled.bindings v s = c.bindings v s := by
  have entry : ∀ (value : Option Value) (term : Term), term.respelled.entry value
      = term.entry value := by
    intro value term
    cases term <;> rfl
  funext f
  simp only [Clause.bindings, Clause.entries, Clause.respelled, entry]

/-! ### Answers -/

def Compiled.respelled (c : Compiled) : Compiled := (c.1.respelled, c.2)

theorem compile_respelled (s : Store) (ps : Parameters) (forms : List Form) :
    compile s ps.respelled (forms.map Form.respelled)
      = (compile s ps forms).map Compiled.respelled := by
  simp only [compile, Clause.ofForms_respelled, Clause.pattern_respelled]
  cases (Clause.ofForms ps forms).pattern s <;> rfl

theorem rows_respelled (v : Vocabulary) (s : Store) (retract asOf : EntityId) (c : Compiled) :
    rows v s retract asOf c.respelled = rows v s retract asOf c := by
  unfold rows Compiled.respelled
  simp only [Clause.bindings_respelled]

theorem joinAll_map (evaluate : Compiled → Except Fault (List Bindings)) (f : Compiled → Compiled)
    (cs : List Compiled) (joined : List Bindings) :
    joinAll evaluate (cs.map f) joined = joinAll (fun c => evaluate (f c)) cs joined := by
  induction cs generalizing joined with
  | nil => rfl
  | cons c rest ih => simp only [List.map_cons, joinAll, ih]

theorem parameters_respelled (q : Query) (params : List Form) :
    q.respelled.parameters (params.map Form.respelled) = (q.parameters params).respelled := by
  simp only [parameters, respelled, List.length_map]
  split_ifs
  · rw [Parameters.respelled, List.zip_map_right]
  · rfl

end Query

/-- A query is answered as it is with its keywords written as texts. -/
theorem Store.answer_respelled (s : Store) (v : Vocabulary) (q : Query) (asOf : Option EntityId)
    (params : List Form) :
    s.answer v q.respelled asOf (params.map Form.respelled) = s.answer v q asOf params := by
  unfold Store.answer
  rw [Query.parameters_respelled]
  cases clauses : q.clauses with
  | none => simp only [Query.respelled, clauses, Option.map_none]
  | some forms =>
  -- the compiled clauses differ in their terms only, and there only in constants
  have compiled : (forms.map (List.map Form.respelled)).mapM
      (Query.compile s (q.parameters params).respelled)
        = (forms.mapM (Query.compile s (q.parameters params))).map
          (List.map Query.Compiled.respelled) := by
    rw [List.mapM_map, ← Outcome.mapM_map]
    exact congrArg (forms.mapM ·) (funext fun clause => Query.compile_respelled s _ clause)
  simp only [Query.respelled, clauses, Option.map_some, compiled]
  cases s.entityOf v.retractOperation with
  | error fault => rfl
  | ok retract =>
  cases forms.mapM (Query.compile s (q.parameters params)) with
  | error fault => rfl
  | ok cs =>
    simp only [Outcome.ok_bind, Outcome.map_ok, List.isEmpty_map, Query.joinAll_map,
      Query.rows_respelled]

namespace Query

theorem clause?_respelled (form : Form) :
    clause? form.respelled = (clause? form).map (List.map Form.respelled) := by
  cases form with
  | list terms =>
    simp only [Form.respelled_list, clause?, List.length_map]
    split_ifs <;> rfl
  | map entries => rw [Form.respelled_map]; rfl
  | _ => rfl

theorem mapM_clause?_respelled (items : List Form) :
    (items.map Form.respelled).mapM clause?
      = (items.mapM clause?).map (List.map (List.map Form.respelled)) := by
  induction items with
  | nil => rfl
  | cons item rest ih =>
    rw [List.map_cons, List.mapM_cons, List.mapM_cons, ih, clause?_respelled]
    cases clause? item with
    | none => rfl
    | some terms => cases rest.mapM clause? <;> rfl

theorem clauses_ofForm_respelled (form : Form) :
    (ofForm form.respelled).clauses = (ofForm form).respelled.clauses := by
  simp only [ofForm, respelled, Form.get?_respelled]
  cases form.get? ":where" with
  | none => rfl
  | some part =>
    simp only [Option.map_some, Option.bind_some, Form.asList?_respelled]
    cases part.asList? with
    | none => rfl
    | some items => exact mapM_clause?_respelled items

/-- Queries that are spelled alike and list the same variables are the same, but for the keywords in
their clauses. -/
theorem respelled_ofForm {form other : Form} (alike : form.SpelledAlike other)
    (listed : ∀ key ∈ [":find", ":in"], form.get? key = other.get? key) :
    (ofForm form).respelled = (ofForm other).respelled := by
  have find : (ofForm form).find = (ofForm other).find := by
    simp only [ofForm, Query.listed, listed ":find" (by simp)]
  have inputs : (ofForm form).inputs = (ofForm other).inputs := by
    simp only [ofForm, Query.listed, listed ":in" (by simp)]
  have clauses : (ofForm form).respelled.clauses = (ofForm other).respelled.clauses := by
    rw [← clauses_ofForm_respelled, ← clauses_ofForm_respelled, alike]
  show Query.mk _ _ _ = Query.mk _ _ _
  rw [find, inputs]
  exact congrArg _ clauses

end Query

/-! ### Databases -/

namespace Database

theorem carryOut_respelled (db : Database) (now : Int64) (request : Form) :
    SameKind (db.carryOut now request).1 (db.carryOut now request.respelled).1 ∧
      (db.carryOut now request).2 = (db.carryOut now request.respelled).2 := by
  rw [carryOut_eq, carryOut_eq]
  have same := db.store.transact_respelled db.vocabulary now request
  generalize db.store.transact db.vocabulary now request = step at same
  generalize db.store.transact db.vocabulary now request.respelled = other at same
  cases same with
  | ok result => exact ⟨.ok _, rfl⟩
  | error same => exact ⟨.error same, rfl⟩

/-- How names are spelled does not matter. Requests that are spelled alike leave the same database,
with the same receipt or with faults of the same kind. Queries and parameters that are spelled alike
have the same answer or the same fault, if the queries list the same variables. -/
theorem spelling_immaterial (db : Database) :
    (∀ (now : Int64) (request other : Form), request.SpelledAlike other →
      SameKind (db.carryOut now request).1 (db.carryOut now other).1 ∧
        (db.carryOut now request).2 = (db.carryOut now other).2) ∧
    ∀ (query other : Form) (params others : List Form) (asOf : Option EntityId),
      query.SpelledAlike other → (∀ key ∈ [":find", ":in"], query.get? key = other.get? key) →
      List.Forall₂ Form.SpelledAlike params others →
      db.query (.ofForm query) asOf params = db.query (.ofForm other) asOf others := by
  constructor
  · -- both requests are like the one that has no keywords
    intro now request other alike
    obtain ⟨same, after⟩ := db.carryOut_respelled now request
    obtain ⟨same', after'⟩ := db.carryOut_respelled now other
    rw [alike] at same after
    exact ⟨same.trans same'.symm, after.trans after'.symm⟩
  · intro query other params others asOf alike listed params_alike
    have params_eq : params.map Form.respelled = others.map Form.respelled := by
      induction params_alike with
      | nil => rfl
      | cons first _ ih => rw [List.map_cons, List.map_cons, ih, first]
    rw [Database.query, Database.query, ← Store.answer_respelled,
      ← Store.answer_respelled _ _ _ _ others, Query.respelled_ofForm alike listed, params_eq]

/-- The request that names a film and describes it, in keywords. -/
def filmKeywords : Form :=
  .map [(.keyword "tx-data", .list [.map [(.keyword "db/e", .text "x"),
      (.keyword "db/identity", .keyword "film")],
    .list [.keyword "db.operation/assert", .text "x", .keyword "db/documentation",
      .text "a film"]])]

/-- The same request in texts. -/
def filmTexts : Form :=
  .map [(.text ":tx-data", .list [.map [(.text ":db/e", .text "x"),
      (.text ":db/identity", .text ":film")],
    .list [.text ":db.operation/assert", .text "x", .text ":db/documentation",
      .text "a film"]])]

/-- The query for the entities of a name, in keywords. -/
def namedKeywords : Form :=
  .map [(.keyword "find", .list [.symbol "?e"]), (.keyword "in", .list [.symbol "?name"]),
    (.keyword "where", .list [.list [.symbol "?e", .keyword "db/identity", .symbol "?name"]])]

/-- The same query in texts. -/
def namedTexts : Form :=
  .map [(.text ":find", .list [.symbol "?e"]), (.text ":in", .list [.symbol "?name"]),
    (.text ":where", .list [.list [.symbol "?e", .text ":db/identity", .symbol "?name"]])]

/-- A new table records the film in either spelling, and answers in either which entity it is. -/
theorem spelling_immaterial_film :
    ∃ db : Database, ∃ receipt after rows, db.Reachable ∧
      filmKeywords.SpelledAlike filmTexts ∧ namedKeywords.SpelledAlike namedTexts ∧
      (db.carryOut 5 filmKeywords = (.ok receipt, after) ∧ receipt.count = 3 ∧
        db.carryOut 5 filmTexts = (.ok receipt, after)) ∧
      after.query (.ofForm namedKeywords) none [.keyword "film"] = .ok (some rows) ∧
      after.query (.ofForm namedTexts) none [.text ":film"] = .ok (some rows) := by
  have computed : ((ofStore (Store.empty .table) .standard ⟨"", 0, 0, 0⟩).toOption.bind fun db =>
      (db.carryOut 5 filmKeywords).1.toOption.bind fun receipt =>
        ((db.carryOut 5 filmKeywords).2.query (.ofForm namedKeywords) none
          [.keyword "film"]).toOption.map fun answer => (receipt.count, answer.isSome))
        = some (3, true) := by
    decide +kernel
  obtain ⟨db, opened, computed⟩ := Option.bind_eq_some_iff.mp computed
  obtain ⟨receipt, carried, computed⟩ := Option.bind_eq_some_iff.mp computed
  obtain ⟨answer, answered, computed⟩ := Option.map_eq_some_iff.mp computed
  obtain ⟨three, some_rows⟩ := Prod.mk.inj computed
  obtain ⟨rows, rfl⟩ := Option.isSome_iff_exists.mp some_rows
  have opened := Outcome.toOption_eq_some.mp opened
  have answered := Outcome.toOption_eq_some.mp answered
  have request : filmKeywords.SpelledAlike filmTexts := rfl
  have query : namedKeywords.SpelledAlike namedTexts := rfl
  have listed : ∀ key ∈ [":find", ":in"], namedKeywords.get? key = namedTexts.get? key := by
    intro key member
    rcases List.mem_pair.mp member with rfl | rfl <;> rfl
  obtain ⟨same, after⟩ := (db.spelling_immaterial).1 5 _ _ request
  have found := (db.carryOut 5 filmKeywords).2.spelling_immaterial.2 _ _ [.keyword "film"]
    [.text ":film"] none query listed (.cons rfl .nil)
  rw [Outcome.toOption_eq_some.mp carried] at same
  have carried' : (db.carryOut 5 filmTexts).1 = .ok receipt := by
    generalize (db.carryOut 5 filmTexts).1 = outcome at same
    cases same with
    | ok => rfl
  exact ⟨db, receipt, _, rows, reachable_of_opened opened, request, query,
    ⟨Prod.ext (Outcome.toOption_eq_some.mp carried) rfl, three, Prod.ext carried' after.symm⟩,
    answered, found.symm.trans answered⟩

end Database

end Factbase
