import Factbase.Proofs.CompleteRows
import Factbase.Proofs.UnknownAttribute
import Factbase.Proofs.Visibility

/-!
# Factbase.Proofs.Selection

Giving an entity by a parameter is selection. With the parameter a clause looks up the facts of one
entity only, and what hides them; without it the clause looks up more, and the variable is joined.
A retraction is about the same entity as what it hides, so both see the same facts of that entity,
and a tuple of facts is kept with the parameter exactly if it is kept without it and the variable
stands for a value that equals the parameter.
-/

namespace Factbase

namespace Query

/-! ### Terms with a parameter -/

theorem Term.substitute_nil (term : Term) : term.substitute [] = term := by
  cases term <;> rfl

theorem Term.substitute_of_ne {x : String} {p : Form} {term : Term} (other : term ≠ .variable x) :
    term.substitute [(x, p)] = term := by
  cases term with
  | «variable» name =>
    have differ : (name == x) = false := by simpa using other
    simp [Term.substitute, List.lookup, differ]
  | _ => rfl

theorem Term.substitute_self (x : String) (p : Form) :
    (Term.variable x).substitute [(x, p)] = .constant p := by
  simp [Term.substitute]

theorem termAt_eq_substitute (ps : Parameters) (forms : List Form) (i : Nat) :
    Clause.termAt ps forms i = (Clause.termAt [] forms i).substitute ps := by
  unfold Clause.termAt
  cases forms[i]? with
  | none => rfl
  | some form => simp only [Term.substitute_nil]

/-! ### Values that a parameter selects -/

/-- Whether a value equals that of a form, if the form has one. -/
def chosen (p : Form) (value : Value) : Bool := p.toValue?.any (value == ·)

/-- Whether the first value that a row shows equals that of a form. -/
def selects (p : Form) (row : AnswerRow) : Bool := row.head?.join.any (chosen p)

theorem chosen_iff {p : Form} {value : Value} :
    chosen p value = true ↔ ∃ given, p.toValue? = some given ∧ (value == given) = true := by
  simp [chosen, Option.any_eq_true]

/-- A form gives an entity exactly if the entity has its value. -/
theorem chosen_ref {p : Form} {e : EntityId} :
    chosen p (.ref e) = true ↔ Clause.entityOf? p = some e := by
  rw [chosen_iff]
  cases p with
  | int n =>
    simp only [Form.toValue?, Option.some.injEq, exists_eq_left', Value.beq_iff_key_eq, Value.key,
      Value.Key.number.injEq, Clause.entityOf?, Value.entityOfInt?_eq_some]
    exact eq_comm
  | entity other =>
    simp only [Form.toValue?, Option.some.injEq, exists_eq_left', Value.beq_iff_key_eq, Value.key,
      Value.Key.number.injEq, Clause.entityOf?, Nat.cast_inj]
    exact eq_comm
  | _ => simp [Form.toValue?, Value.beq_iff_key_eq, Value.key, Clause.entityOf?]

/-! ### Narrowed clauses -/

def Clause.withEntity (clause : Clause) (term : Term) : Clause := { clause with entity := term }

/-- A clause whose entity is a variable, with a form in the place of the variable. There is no
pattern if the form is no entity. -/
def Compiled.narrow (x : String) (p : Form) (c : Compiled) : Compiled :=
  match c.1.entity with
  | .variable name =>
    if name = x then
      (c.1.withEntity (.constant p),
        c.2.bind fun pattern => (Clause.entityOf? p).map fun e => { pattern with entity := some e })
    else c
  | _ => c

variable {x : String} {p : Form} {c : Compiled}

theorem narrow_of_eq (about : c.1.entity = .variable x) :
    c.narrow x p = (c.1.withEntity (.constant p),
      c.2.bind fun pattern => (Clause.entityOf? p).map fun e =>
        { pattern with entity := some e }) := by
  simp [Compiled.narrow, about]

theorem narrow_of_ne (other : c.1.entity ≠ .variable x) : c.narrow x p = c := by
  unfold Compiled.narrow
  split
  next name about =>
    rw [if_neg]
    rintro rfl
    exact other about
  next => rfl

/-- A clause that has a variable at most in the place of its entity, where its pattern is open. -/
structure Compiled.EntityOnly (x : String) (c : Compiled) : Prop where
  attr : c.1.attr ≠ .variable x
  value : c.1.value ≠ .variable x
  tx : c.1.tx ≠ .variable x
  op : c.1.op ≠ .variable x
  open_ : c.1.entity = .variable x → ∀ pattern ∈ c.2, pattern.entity = none

/-- The pattern of a clause whose attribute makes a known place. -/
def Clause.patternAt (c : Clause) (attr : Option (Option EntityId)) : Option Pattern := do
  let entity ← place entityOf? c.entity
  let attr ← attr
  let value ← place Form.toValue? c.value
  let tx ← place entityOf? c.tx
  let op ← place entityOf? c.op
  return ⟨entity, attr, value, tx, op⟩

theorem compile_eq_map (s : Store) (ps : Parameters) (forms : List Form) :
    compile s ps forms = (Clause.attrPlace s (Clause.ofForms ps forms).attr).map fun attr =>
      (Clause.ofForms ps forms, (Clause.ofForms ps forms).patternAt attr) := by
  simp only [compile, Clause.pattern]
  cases Clause.attrPlace s (Clause.ofForms ps forms).attr <;> rfl

/-- A clause whose entity is given has the pattern of the clause that leaves it open, closed. -/
theorem patternAt_constant {clause : Clause} (about : clause.entity = .variable x) (p : Form)
    (attr : Option (Option EntityId)) :
    (clause.withEntity (.constant p)).patternAt attr =
      (clause.patternAt attr).bind fun pattern => (Clause.entityOf? p).map fun e =>
        { pattern with entity := some e } := by
  simp only [Clause.patternAt, Clause.withEntity, about, Clause.place]
  cases Clause.entityOf? p with
  | none => simp
  | some e => simp [Option.bind_assoc]

/-- Compiling a clause with the parameter is narrowing the clause that was compiled without it. -/
theorem compile_narrow {s : Store} {forms : List Form}
    (only : ∀ i, 0 < i → i < 5 → Clause.termAt [] forms i ≠ .variable x) :
    compile s [(x, p)] forms = (compile s [] forms).map (Compiled.narrow x p) := by
  have clause : Clause.ofForms [(x, p)] forms = (Clause.ofForms [] forms).withEntity
      ((Clause.ofForms [] forms).entity.substitute [(x, p)]) := by
    simp only [Clause.ofForms, Clause.withEntity, termAt_eq_substitute [(x, p)]]
    rw [Term.substitute_of_ne (only 1 (by decide) (by decide)),
      Term.substitute_of_ne (only 2 (by decide) (by decide)),
      Term.substitute_of_ne (only 3 (by decide) (by decide)),
      Term.substitute_of_ne (only 4 (by decide) (by decide))]
  rw [compile_eq_map, compile_eq_map, clause]
  generalize Clause.ofForms [] forms = c
  -- the attribute is looked up alike, so both succeed or neither does
  have same : ∀ term, (c.withEntity term).attr = c.attr := fun term => rfl
  rw [same]
  cases Clause.attrPlace s c.attr with
  | error fault => rfl
  | ok attr =>
    refine congrArg Except.ok ?_
    by_cases about : c.entity = .variable x
    · rw [about, Term.substitute_self]
      dsimp only
      rw [narrow_of_eq about, patternAt_constant about]
    · rw [Term.substitute_of_ne about]
      exact (narrow_of_ne about).symm

theorem entityOnly_of_compile {s : Store} {forms : List Form}
    (only : ∀ i, 0 < i → i < 5 → Clause.termAt [] forms i ≠ .variable x)
    (ok : compile s [] forms = .ok c) : c.EntityOnly x := by
  simp only [compile, Clause.pattern, Outcome.bind_eq_ok, Outcome.pure_eq_ok] at ok
  obtain ⟨_, ⟨_, _, rfl⟩, rfl⟩ := ok
  refine ⟨only 1 (by decide) (by decide), only 2 (by decide) (by decide),
    only 3 (by decide) (by decide), only 4 (by decide) (by decide), ?_⟩
  intro about pattern made
  simp only [Option.mem_def, Option.bind_eq_bind, Option.bind_eq_some_iff, Option.pure_def,
    Option.some.injEq] at made
  obtain ⟨entity, place, _, _, _, _, _, _, _, _, rfl⟩ := made
  exact Clause.place_eq_none place (by rw [about]; simp)

/-! ### What a narrowed clause finds -/

variable {v : Vocabulary} {s : Store.Indexed} {retract asOf : EntityId}

/-- A search for one entity sees what an open search sees of that entity, since a retraction is
about the entity of what it hides. -/
theorem seen_withEntity {fs : List Fact} {pattern : Pattern} (open_ : pattern.entity = none)
    {e : EntityId} {f : Fact} :
    Log.Seen fs { pattern with entity := some e } retract asOf f ↔
      Log.Seen fs pattern retract asOf f ∧ f.entity = e := by
  have matched : ∀ g : Fact, Pattern.Matches { pattern with entity := some e } g ↔
      pattern.Matches g ∧ g.entity = e := by
    intro g
    constructor
    · rintro ⟨entity, attr, value, tx, op⟩
      exact ⟨⟨by simp [open_], attr, value, tx, op⟩, entity e rfl⟩
    · rintro ⟨⟨_, attr, value, tx, op⟩, about⟩
      exact ⟨by simpa using about, attr, value, tx, op⟩
  constructor
  · rintro ⟨sought, recorded, asserted, unhidden⟩
    obtain ⟨sought, about⟩ := (matched f).mp sought
    refine ⟨⟨sought, recorded, asserted, ?_⟩, about⟩
    -- what hides the fact is about the same entity, so the narrow search would find it too
    rintro ⟨g, member, found, hides, early⟩
    exact unhidden ⟨g, member, (matched g).mpr ⟨found, hides.2.1.trans about⟩, hides, early⟩
  · rintro ⟨⟨sought, recorded, asserted, unhidden⟩, about⟩
    refine ⟨(matched f).mpr ⟨sought, about⟩, recorded, asserted, ?_⟩
    rintro ⟨g, member, found, hides, early⟩
    exact unhidden ⟨g, member, ((matched g).mp found).1, hides, early⟩

theorem found_eq (coherent : s.Coherent) (c : Compiled) :
    c.found s retract asOf = c.2.elim [] fun pattern =>
      s.facts.filter fun f => decide (Log.Seen s.facts pattern retract asOf f) := by
  unfold Compiled.found
  cases c.2 with
  | none => rfl
  | some pattern =>
    dsimp only
    rw [coherent.lookup_eq, Log.standing_lookup]
    rfl

/-- A narrowed clause finds the facts of the entity that the form gives. -/
theorem found_narrow (coherent : s.Coherent) (about : c.1.entity = .variable x)
    (open_ : ∀ pattern ∈ c.2, pattern.entity = none) :
    (c.narrow x p).found s retract asOf =
      (c.found s retract asOf).filter fun f => chosen p (.ref f.entity) := by
  rw [found_eq coherent, found_eq coherent, narrow_of_eq about]
  dsimp only
  cases made : c.2 with
  | none => rfl
  | some pattern =>
    have unbound := open_ pattern made
    simp only [Option.bind_some, Option.elim_some, List.filter_filter]
    cases given : Clause.entityOf? p with
    | none =>
      symm
      apply List.filter_eq_nil_iff.mpr
      intro f _
      simp [chosen_ref, given]
    | some e =>
      apply List.filter_congr
      intro f _
      rw [Bool.eq_iff_iff, Bool.and_eq_true, decide_eq_true_eq, decide_eq_true_eq, chosen_ref,
        given, Option.some.injEq, seen_withEntity unbound, and_comm, @eq_comm _ e]

/-! ### Readings -/

/-- The occurrences of all variables but one. -/
def without (x : String) (occurrences : List (String × Value)) : List (String × Value) :=
  occurrences.filter (·.1 != x)

/-- Whether a variable stands for the value of a form wherever it occurs. -/
def agrees (x : String) (p : Form) (occurrences : List (String × Value)) : Bool :=
  occurrences.all fun entry => entry.1 != x || chosen p entry.2

theorem entries_of_variable {clause : Clause} (about : clause.entity = .variable x) (p : Form)
    (f : Fact) : clause.entries v (.indexed s) f =
      (x, .ref f.entity) :: (clause.withEntity (.constant p)).entries v (.indexed s) f := by
  simp [Clause.entries, Clause.withEntity, about, Term.entry]

theorem ne_of_mem_entries {clause : Clause} {f : Fact} (absent : .variable x ∉ clause.terms)
    {entry : String × Value} (member : entry ∈ clause.entries v (.indexed s) f) : entry.1 ≠ x := by
  rintro rfl
  apply absent
  rcases mem_entries.mp member with ⟨term, _⟩ | ⟨term, _⟩ | ⟨term, _⟩ | ⟨term, _⟩ | ⟨term, _⟩
  all_goals simp [Clause.terms, term]

/-- A clause that the variable does not stand in reads as it did. -/
theorem entries_without {clause : Clause} (absent : .variable x ∉ clause.terms) (p : Form)
    (f : Fact) : without x (clause.entries v (.indexed s) f) = clause.entries v (.indexed s) f ∧
      agrees x p (clause.entries v (.indexed s) f) = true := by
  constructor
  · apply List.filter_eq_self.mpr
    intro entry member
    simpa using ne_of_mem_entries absent member
  · apply List.all_eq_true.mpr
    intro entry member
    simp [ne_of_mem_entries absent member]

/-- What the variables of a narrowed clause stand for in the facts that it finds: as without the
parameter, wherever the variable stands for its value, and apart from the variable. -/
theorem readings_narrow (coherent : s.Coherent) (only : c.EntityOnly x) :
    (c.narrow x p).readings v s retract asOf =
      ((c.readings v s retract asOf).filter (agrees x p)).map (without x) := by
  by_cases about : c.1.entity = .variable x
  · have absent : .variable x ∉ (c.1.withEntity (.constant p)).terms := by
      simp [Clause.terms, Clause.withEntity, only.attr.symm, only.value.symm, only.tx.symm,
        only.op.symm]
    unfold Compiled.readings
    rw [found_narrow coherent about (only.open_ about), narrow_of_eq about, List.filter_map,
      List.map_map]
    have same : ∀ f : Fact, agrees x p (c.1.entries v (.indexed s) f) = chosen p (.ref f.entity) ∧
        without x (c.1.entries v (.indexed s) f)
          = (c.1.withEntity (.constant p)).entries v (.indexed s) f := by
      intro f
      obtain ⟨rest, agree⟩ := entries_without absent p f
      rw [entries_of_variable about p]
      constructor
      · rw [agrees, List.all_cons, ← agrees, agree]
        simp
      · rw [without, List.filter_cons_of_neg (by simp), ← without, rest]
    simp only [Function.comp_def, same]
  · have absent : .variable x ∉ c.1.terms := by
      simp [Clause.terms, Ne.symm about, only.attr.symm, only.value.symm, only.tx.symm,
        only.op.symm]
    have each : ∀ reading ∈ c.readings v s retract asOf,
        without x reading = reading ∧ agrees x p reading = true := by
      intro reading member
      obtain ⟨f, _, rfl⟩ := List.mem_map.mp member
      exact entries_without absent p f
    rw [narrow_of_ne about, List.filter_eq_self.mpr fun reading member => (each reading member).2,
      List.map_congr_left fun reading member => (each reading member).1, List.map_id']

/-! ### Tuples -/

theorem tuples_map {α β : Type} (g : α → β) (xss : List (List α)) :
    tuples (xss.map (List.map g)) = (tuples xss).map (List.map g) := by
  induction xss with
  | nil => rfl
  | cons xs rest ih =>
    simp only [List.map_cons, tuples_cons, ih, List.flatMap_map, List.map_flatMap, List.map_map]
    rfl

/-- Taking only some items of each list is taking the tuples that are made of them. -/
theorem tuples_filter {α : Type} (keep : α → Bool) (xss : List (List α)) :
    tuples (xss.map (List.filter keep)) = (tuples xss).filter fun t => t.all keep := by
  induction xss with
  | nil => rfl
  | cons xs rest ih =>
    simp only [List.map_cons, tuples_cons, ih]
    -- an item that is not kept takes all its tuples with it
    induction xs with
    | nil => rfl
    | cons a others ih' =>
      by_cases kept : keep a = true
      · simp [kept, ih', List.filter_map, Function.comp_def]
      · simp [kept, ih', List.filter_map, Function.comp_def]

theorem exists_mem_of_mem_tuples {α : Type} {xss : List (List α)} {t : List α}
    (member : t ∈ tuples xss) {xs : List α} (among : xs ∈ xss) : ∃ a ∈ t, a ∈ xs := by
  induction xss generalizing t with
  | nil => cases among
  | cons ys rest ih =>
    simp only [tuples_cons, List.mem_flatMap, List.mem_map] at member
    obtain ⟨y, y_member, others, others_member, rfl⟩ := member
    rcases List.mem_cons.mp among with rfl | later
    · exact ⟨y, List.mem_cons_self, y_member⟩
    · obtain ⟨a, a_member, inside⟩ := ih others_member later
      exact ⟨a, List.mem_cons_of_mem y a_member, inside⟩

/-- Where a clause has the variable in the place of its entity, every tuple of readings has a value
for it. -/
theorem exists_value_of_mem_tuples {cs : List Compiled} (member : c ∈ cs)
    (about : c.1.entity = .variable x) {t : List (List (String × Value))}
    (made : t ∈ tuples (cs.map (Compiled.readings v s retract asOf))) :
    ∃ value, (x, value) ∈ t.flatten := by
  obtain ⟨reading, inside, read⟩ := exists_mem_of_mem_tuples made (List.mem_map_of_mem member)
  obtain ⟨f, _, rfl⟩ := List.mem_map.mp read
  refine ⟨.ref f.entity, List.mem_flatten.mpr ⟨_, inside, ?_⟩⟩
  rw [entries_of_variable about .nil]
  exact List.mem_cons_self

/-! ### Consistent tuples -/

theorem mem_without {occurrences : List (String × Value)} {entry : String × Value} :
    entry ∈ without x occurrences ↔ entry ∈ occurrences ∧ entry.1 ≠ x := by
  simp [without]

theorem agrees_iff {occurrences : List (String × Value)} :
    agrees x p occurrences = true ↔ ∀ value, (x, value) ∈ occurrences → chosen p value = true := by
  simp only [agrees, List.all_eq_true, Bool.or_eq_true, bne_iff_ne]
  constructor
  · exact fun all value member => (all (x, value) member).resolve_left (absurd rfl)
  · rintro all ⟨name, value⟩ member
    by_cases same : name = x
    · exact .inr (all value (same ▸ member))
    · exact .inl same

theorem chosen_congr {value other : Value} (equal : (value == other) = true) :
    chosen p value = chosen p other := by
  unfold chosen
  cases p.toValue? with
  | none => rfl
  | some given => simp [BEq.congr_left equal]

theorem beq_of_chosen {value other : Value} (first : chosen p value = true)
    (second : chosen p other = true) : (value == other) = true := by
  obtain ⟨given, read, equal⟩ := chosen_iff.mp first
  obtain ⟨given', read', equal'⟩ := chosen_iff.mp second
  obtain rfl := Option.some.inj (read.symm.trans read')
  exact BEq.trans equal (BEq.symm equal')

/-- A variable that occurs stands for the value of a form throughout, and all others are consistent,
exactly if all are consistent and its first occurrence has that value. -/
theorem consistent_without {occurrences : List (String × Value)}
    (bound : ∃ value, (x, value) ∈ occurrences) :
    Consistent (without x occurrences) ∧ agrees x p occurrences = true ↔
      Consistent occurrences ∧ (occurrences.lookup x).any (chosen p) = true := by
  obtain ⟨first, found⟩ : ∃ first, occurrences.lookup x = some first := by
    rw [← Option.isSome_iff_exists, ← Option.ne_none_iff_isSome, Ne, Outcome.lookup_eq_none,
      not_not]
    exact bound
  have first_member : (x, first) ∈ occurrences := Outcome.mem_of_lookup found
  rw [found, Option.any_some, agrees_iff]
  constructor
  · rintro ⟨others, agree⟩
    refine ⟨?_, agree first first_member⟩
    rintro ⟨name, value⟩ member ⟨name', value'⟩ member' rfl
    by_cases same : name = x
    · -- both values equal that of the form
      subst same
      exact beq_of_chosen (agree value member) (agree value' member')
    · exact others _ (mem_without.mpr ⟨member, same⟩) _ (mem_without.mpr ⟨member', same⟩) rfl
  · rintro ⟨consistent, agree⟩
    refine ⟨?_, fun value member => ?_⟩
    · intro entry member entry' member' same
      exact consistent _ (mem_without.mp member).1 _ (mem_without.mp member').1 same
    · rw [← agree]
      exact chosen_congr (consistent _ member _ first_member rfl)

theorem lookup_without {name : String} (other : name ≠ x) (occurrences : List (String × Value)) :
    (without x occurrences).lookup name = occurrences.lookup name := by
  induction occurrences with
  | nil => rfl
  | cons entry rest ih =>
    by_cases same : entry.1 = x
    · have dropped : without x (entry :: rest) = without x rest :=
        List.filter_cons_of_neg (by simpa using same)
      have differ : (name == entry.1) = false := by
        rw [same]
        simpa using other
      rw [dropped, ih, List.lookup_cons, differ]
    · have kept : without x (entry :: rest) = entry :: without x rest :=
        List.filter_cons_of_pos (by simpa using same)
      rw [kept, List.lookup_cons, List.lookup_cons, ih]

/-- The rows of tuples that are narrowed are those of the tuples as they were, of which the ones
with the value of the form are selected. -/
theorem rows_narrow {readings : List (List (List (String × Value)))} {find : List String}
    (bound : ∀ t ∈ tuples readings, ∃ value, (x, value) ∈ t.flatten) (unshown : x ∉ find) :
    ((tuples (readings.map fun rs => (rs.filter (agrees x p)).map (without x))).filter
        fun t => decide (Consistent t.flatten)).map (fun t => find.map fun name =>
          t.flatten.lookup name) =
      ((((tuples readings).filter fun t => decide (Consistent t.flatten)).map fun t =>
        (x :: find).map fun name => t.flatten.lookup name).filter (selects p)).map List.tail := by
  have split_map : (readings.map fun rs => (rs.filter (agrees x p)).map (without x)) =
      (readings.map (List.filter (agrees x p))).map (List.map (without x)) := by
    rw [List.map_map]
    rfl
  have flat : ∀ t : List (List (String × Value)),
      (t.map (without x)).flatten = without x t.flatten := by
    intro t
    rw [without, List.filter_flatten]
    rfl
  have all_agree : ∀ t : List (List (String × Value)),
      t.all (agrees x p) = agrees x p t.flatten := by
    intro t
    rw [agrees, List.all_flatten]
    rfl
  rw [split_map, tuples_map, tuples_filter, List.filter_map, List.map_map, List.filter_filter,
    List.filter_map, List.map_map, List.filter_filter]
  simp only [Function.comp_def, flat, all_agree]
  have same : ((tuples readings).filter fun t =>
        decide (Consistent (without x t.flatten)) && agrees x p t.flatten) =
      (tuples readings).filter fun t =>
        selects p ((x :: find).map fun name => t.flatten.lookup name) &&
          decide (Consistent t.flatten) := by
    apply List.filter_congr
    intro t member
    rw [Bool.eq_iff_iff, Bool.and_eq_true, decide_eq_true_eq, consistent_without (bound t member),
      Bool.and_eq_true, decide_eq_true_eq, and_comm]
    rfl
  rw [same]
  apply List.map_congr_left
  intro t _
  apply List.map_congr_left
  intro name member
  exact lookup_without (ne_of_mem_of_not_mem member unshown) t.flatten

/-! ### Queries -/

/-- The query without its inputs. -/
def unbound (q : Query) : Query := { q with inputs := [] }

/-- The query without its inputs, which shows a variable before those that it finds. -/
def showing (q : Query) (x : String) : Query := { q with find := x :: q.find, inputs := [] }

/-- The only input of a query is a variable that is not to be found. It stands in some clause, and
wherever it stands it is the entity. -/
structure EntityInput (q : Query) (x : String) (clauses : List (List Form)) : Prop where
  inputs : q.inputs = [x]
  written : q.clauses = some clauses
  marked : x.toList.head? = some '?'
  once : ∃ forms ∈ clauses, forms[0]? = some (.symbol x)
  only : ∀ forms ∈ clauses, ∀ i, 0 < i → i < 5 → forms[i]? ≠ some (.symbol x)
  unshown : x ∉ q.find

theorem parameters_of_no_inputs {q : Query} (none_given : q.inputs = []) (params : List Form) :
    q.parameters params = [] := by
  unfold parameters
  rw [none_given]
  split <;> rfl

namespace EntityInput

variable {q : Query} {clauses : List (List Form)}

theorem parameters_eq (input : q.EntityInput x clauses) (p : Form) :
    q.parameters [p] = [(x, p)] := by
  simp [parameters, input.inputs]

theorem termAt_ne (input : q.EntityInput x clauses) {forms : List Form} (member : forms ∈ clauses) :
    ∀ i, 0 < i → i < 5 → Clause.termAt [] forms i ≠ .variable x := by
  intro i positive low stands
  rw [← parameters_of_no_inputs (q := q.unbound) rfl [], termAt_eq_variable] at stands
  exact input.only forms member i positive low stands.written

/-- Some compiled clause has the variable in the place of its entity. -/
theorem exists_about (input : q.EntityInput x clauses) {s : Store} {cs : List Compiled}
    (compiles : clauses.mapM (compile s []) = .ok cs) : ∃ c ∈ cs, c.1.entity = .variable x := by
  obtain ⟨forms, member, first⟩ := input.once
  obtain ⟨c, c_member, ok⟩ := Outcome.exists_right_of_mem (Outcome.mapM_eq_ok.mp compiles) member
  refine ⟨c, c_member, ?_⟩
  rw [← compiled_of_compile ok]
  have stands := termAt_eq_variable.mpr
    (⟨first, input.marked, by simp [unbound]⟩ : q.unbound.VariableAt [] forms 0 x)
  rwa [parameters_of_no_inputs rfl] at stands

theorem entityOnly (input : q.EntityInput x clauses) {s : Store} {cs : List Compiled}
    (compiles : clauses.mapM (compile s []) = .ok cs) : ∀ c ∈ cs, c.EntityOnly x := by
  intro c member
  obtain ⟨forms, forms_member, ok⟩ :=
    Outcome.exists_left_of_mem (Outcome.mapM_eq_ok.mp compiles) member
  exact entityOnly_of_compile (input.termAt_ne forms_member) ok

theorem compile_eq (input : q.EntityInput x clauses) (s : Store) (p : Form) :
    clauses.mapM (compile s [(x, p)]) =
      (clauses.mapM (compile s [])).map (List.map (Compiled.narrow x p)) := by
  rw [← Outcome.mapM_map]
  exact Outcome.mapM_congr fun forms member => compile_narrow (input.termAt_ne member)

end EntityInput

end Query

namespace Database

/-- Giving an entity by a parameter is selection: the query fails as it does without the parameter,
or it has the rows that it has without it and that show for the variable the value of the parameter,
in the same order. -/
theorem query_parameter_selects {db : Database} {fs : List Fact}
    (indexed : db.store.backend = .indexed) (holds : db.store.Holds fs) {q : Query} {x : String}
    {clauses : List (List Form)} (input : q.EntityInput x clauses) (asOf : Option EntityId)
    (p : Form) (params : List Form) :
    (∃ fault, db.query (q.showing x) asOf params = .error fault ∧
      db.query q.unbound asOf params = .error fault ∧ db.query q asOf [p] = .error fault) ∨
    ∃ rows, db.query (q.showing x) asOf params = .ok (some rows) ∧
      db.query q.unbound asOf params = .ok (some (rows.map List.tail)) ∧
      db.query q asOf [p] = .ok (some ((rows.filter (Query.selects p)).map List.tail)) := by
  obtain ⟨store, v⟩ := db
  cases store with
  | table t => cases indexed
  | indexed s =>
  obtain ⟨coherent, rfl⟩ := holds
  have shown : (q.showing x).clauses = some clauses := input.written
  have open_ : q.unbound.clauses = some clauses := input.written
  unfold query Store.answer
  rw [shown, open_, input.written]
  dsimp only
  rw [Query.parameters_of_no_inputs (q := q.showing x) rfl,
    Query.parameters_of_no_inputs (q := q.unbound) rfl, input.parameters_eq, input.compile_eq]
  -- the operation and the attributes are looked up before anything else, alike in all three
  cases (Store.indexed s).entityOf v.retractOperation with
  | error fault => exact .inl ⟨fault, rfl, rfl, rfl⟩
  | ok retract =>
  cases compiles : clauses.mapM (Query.compile (.indexed s) []) with
  | error fault => exact .inl ⟨fault, rfl, rfl, rfl⟩
  | ok cs =>
  obtain ⟨c, c_member, about⟩ := input.exists_about compiles
  have some_left : cs.isEmpty = false := by
    simpa using List.ne_nil_of_mem c_member
  right
  have narrowed : cs.map (Query.Compiled.readings v s retract (Query.effectiveTx (.indexed s) asOf)
        ∘ Query.Compiled.narrow x p) =
      (cs.map (Query.Compiled.readings v s retract (Query.effectiveTx (.indexed s) asOf))).map
        fun readings => (readings.filter (Query.agrees x p)).map (Query.without x) := by
    rw [List.map_map]
    apply List.map_congr_left
    intro d member
    exact Query.readings_narrow coherent (input.entityOnly compiles d member)
  simp only [Outcome.ok_bind, Outcome.map_ok, List.isEmpty_map, some_left, Bool.false_eq_true,
    if_false, Query.joinAll_indexed, Outcome.pure_eq, Query.map_filterMap_merge, List.map_map]
  refine ⟨_, rfl, ?_, ?_⟩
  · rw [List.map_map]
    rfl
  · rw [narrowed, Query.rows_narrow (fun t => Query.exists_value_of_mem_tuples c_member about)
      input.unshown]
    rfl

/-- Whom the entity 8 refers to, and what is said of them, is part of what all entities refer to. -/
theorem query_parameter_selects_refs :
    let db : Database := ⟨Store.ofLog [⟨2, 0, .text ":db.operation/retract", 1, 1⟩,
      ⟨8, 7, .ref 9, 1, 1⟩, ⟨9, 7, .int 8, 1, 1⟩], .standard⟩
    let clauses := [[Form.symbol "?x", .symbol "_", .symbol "?y"],
      [Form.symbol "?y", .symbol "_", .symbol "?z"]]
    let q : Query := ⟨["?y", "?z"], ["?x"], some clauses⟩
    db.store.backend = .indexed ∧ q.EntityInput "?x" clauses ∧
      ∃ rows, db.query (q.showing "?x") none [] = .ok (some rows) ∧
        db.query q none [.int 8]
          = .ok (some ((rows.filter (Query.selects (.int 8))).map List.tail)) := by
  intro db clauses q
  have input : q.EntityInput "?x" clauses := by
    refine ⟨rfl, rfl, rfl, ⟨_, List.mem_cons_self, rfl⟩, ?_, by simp [q]⟩
    intro forms member i positive low
    simp only [clauses, List.mem_cons, List.not_mem_nil, or_false] at member
    rcases member with rfl | rfl
    all_goals interval_cases i <;> simp
  refine ⟨rfl, input, ?_⟩
  have holds : db.store.Holds _ := Store.ofLog_holds _
  rcases query_parameter_selects rfl holds input none (.int 8) [] with
    ⟨fault, failed, _, _⟩ | ⟨rows, shown, _, given⟩
  · -- no clause gives its attribute by a name, so the query does not fail
    have resolved : db.store.entityOf Vocabulary.standard.retractOperation = .ok 2 :=
      holds.entityOf_eq_ok.mpr (by decide +kernel)
    have compiles := (Store.answer_indexed_eq_error rfl resolved).mp failed
    cases compiles
  · exact ⟨rows, shown, given⟩

end Database

end Factbase
