import Factbase.Proofs.Permanence

/-!
# Factbase.Proofs.Conformance

How far facts keep to the vocabulary of a database. The attribute of a fact is looked up by name, and
any name will do. What a database writes by itself, when it is founded, for a declaration or about the
time, is asserted under attributes that the log describes; the facts of maps and tuples have the
attributes that the requests name. A fact is asserted or retracted, where no tuple of a request names
anything else.
-/

namespace Factbase

/-! ### Attributes and operations -/

/-- The attribute that says which kind of value another attribute takes. It has this number in every
database, as those below have theirs. -/
def kindAttribute : EntityId := 1

def cardinalityAttribute : EntityId := 2

/-- The operation of facts that are asserted. -/
def assertion : EntityId := 29

/-- The operation of facts that are retracted. -/
def retraction : EntityId := 30

namespace Log

/-- Whether a log asserts a kind and a cardinality of an entity, as it should of an attribute. -/
def Described (fs : List Fact) (e : EntityId) : Prop :=
  ∀ attr ∈ [kindAttribute, cardinalityAttribute],
    ∃ f ∈ fs, f.entity = e ∧ f.attr = attr ∧ f.op = assertion

variable {fs gs : List Fact} {e : EntityId}

theorem Described.mono (described : Described fs e) (part : fs ⊆ gs) : Described gs e := by
  intro attr listed
  obtain ⟨f, member, said⟩ := described attr listed
  exact ⟨f, part member, said⟩

end Log

/-! ### The first transaction -/

namespace Schema

variable {v : Vocabulary} {names : List String} {by_ : Describing} {spec : AttributeSpec}
  {statements : List Statement}

theorem nodup_allNames (v : Vocabulary) : (allNames v system).Nodup := by
  have whole := Database.roster_snd_nodup v
  rw [Database.roster, List.map_append, roster_snd] at whole
  exact whole.of_append_left

/-- A name of the schema belongs to one number only. -/
theorem number_unique {e k : EntityId} {name : String}
    (first : (allNames v system)[e]? = some name) (second : (allNames v system)[k]? = some name) :
    e = k :=
  number_of_nodup (nodup_allNames v) first second

theorem idOf_eq {e k : EntityId} {name : String} (ok : idOf (allNames v system) name = .ok e)
    (at_ : (allNames v system)[k]? = some name) : e = k :=
  number_unique (getElem?_of_idOf ok) at_

theorem describing_system (ok : describing v (allNames v system) = .ok by_) :
    by_ = ⟨kindAttribute, cardinalityAttribute, 5, 13⟩ := by
  simp only [describing, Outcome.bind_eq_ok, Outcome.pure_eq_ok] at ok
  obtain ⟨kind, kind_ok, cardinality, cardinality_ok, members, members_ok, documentation,
    documentation_ok, rfl⟩ := ok
  rw [idOf_eq kind_ok (k := 1) rfl, idOf_eq cardinality_ok (k := 2) rfl,
    idOf_eq members_ok (k := 5) rfl, idOf_eq documentation_ok (k := 13) rfl]
  rfl

/-- An attribute is described under the attributes that are there for it. -/
theorem attr_of_describe (ok : describe v names by_ spec = .ok statements) :
    ∀ st ∈ statements,
      st.2.1 ∈ [by_.valueKind, by_.cardinality, by_.members, by_.documentation] := by
  obtain ⟨entity, kind, members, cardinality, _, _, _, _, rfl⟩ := describe_cases ok
  intro st inside
  simp only [List.cons_append, List.mem_cons, List.mem_append, List.mem_map,
    Option.mem_toList, Option.map_eq_some_iff] at inside
  rcases inside with rfl | ⟨_, _, rfl⟩ | rfl | ⟨_, _, rfl⟩ <;> simp

/-- The attribute at a place of the schema has the number behind that place, and its description says
its kind and its cardinality. -/
theorem exists_of_describe (ok : describe v (allNames v system) by_ spec = .ok statements) {k : Nat}
    (at_ : system[k]? = some spec) :
    ∀ attr ∈ [by_.valueKind, by_.cardinality], ∃ value, (k + 1, attr, value) ∈ statements := by
  obtain ⟨entity, kind, members, cardinality, entity_ok, _, _, _, rfl⟩ := describe_cases ok
  obtain rfl : entity = k + 1 := idOf_eq entity_ok (getElem?_allNames (e := k + 1) at_)
  intro attr listed
  rcases List.mem_pair.mp listed with rfl | rfl
  · exact ⟨kind, by simp⟩
  · exact ⟨cardinality, by simp⟩

/-- What the first transaction says of the system's own schema, in the numbers of that schema. -/
theorem firstFacts_system {timestamp : Int64} {facts : List Fact}
    (ok : firstFacts v system timestamp = .ok facts) :
    ∃ (kind cardinality : Value) (attributes : List (List Statement)),
      List.Forall₂ (fun spec part =>
        describe v (allNames v system) ⟨kindAttribute, cardinalityAttribute, 5, 13⟩ spec = .ok part)
        system attributes ∧
      facts = (namings (allNames v system)
          ++ [(nameAttribute, kindAttribute, kind), (nameAttribute, cardinalityAttribute, cardinality)]
          ++ attributes.flatten ++ [(37, 14, Value.int timestamp)]).map
        fun (e, a, value) => ⟨e, a, value, 37, assertion⟩ := by
  obtain ⟨by_, identity, attributes, timestampAttr, op, described, identity_ok, attributes_ok,
    timestampAttr_ok, op_ok, rfl⟩ := firstFacts_cases ok
  obtain rfl := describing_system described
  obtain rfl : op = assertion := number_unique (getElem?_of_findIdx? op_ok) rfl
  obtain rfl : timestampAttr = 14 := idOf_eq timestampAttr_ok rfl
  simp only [describeIdentity, Outcome.bind_eq_ok, Outcome.pure_eq_ok] at identity_ok
  obtain ⟨kind, _, cardinality, _, rfl⟩ := identity_ok
  exact ⟨kind, cardinality, attributes, Outcome.mapM_eq_ok.mp attributes_ok, rfl⟩

/-- The first transaction asserts whatever it says, under attributes of the schema. -/
theorem firstFacts_attr_le {timestamp : Int64} {facts : List Fact}
    (ok : firstFacts v system timestamp = .ok facts) :
    ∀ f ∈ facts, f.op = assertion ∧ f.attr ≤ system.length := by
  obtain ⟨kind, cardinality, attributes, attributes_ok, rfl⟩ := firstFacts_system ok
  intro f member
  obtain ⟨st, inside, rfl⟩ := List.mem_map.mp member
  refine ⟨rfl, ?_⟩
  show st.2.1 ≤ system.length
  simp only [namings, List.mem_append, List.mem_map, List.mem_flatten, List.mem_cons,
    List.not_mem_nil, or_false] at inside
  rcases inside with ((⟨_, _, rfl⟩ | rfl | rfl) | ⟨part, part_member, about⟩) | rfl
  · exact Nat.zero_le _
  · exact (by decide : kindAttribute ≤ system.length)
  · exact (by decide : cardinalityAttribute ≤ system.length)
  · obtain ⟨spec, _, spec_ok⟩ := Outcome.exists_left_of_mem attributes_ok part_member
    have low : ∀ attr ∈ [kindAttribute, cardinalityAttribute, 5, 13], attr ≤ system.length := by
      decide
    exact low st.2.1 (attr_of_describe spec_ok st about)
  · exact (by decide : 14 ≤ system.length)

/-- The first transaction describes the naming attribute and all attributes of the schema. -/
theorem firstFacts_described {timestamp : Int64} {facts : List Fact}
    (ok : firstFacts v system timestamp = .ok facts) :
    ∀ e ≤ system.length, Log.Described facts e := by
  obtain ⟨kind, cardinality, attributes, attributes_ok, rfl⟩ := firstFacts_system ok
  intro e low attr listed
  -- it is enough that there is a statement about the entity under that attribute
  suffices stated : ∃ value, (e, attr, value) ∈ namings (allNames v system)
      ++ [(nameAttribute, kindAttribute, kind), (nameAttribute, cardinalityAttribute, cardinality)]
      ++ attributes.flatten by
    obtain ⟨value, member⟩ := stated
    exact ⟨_, List.mem_map_of_mem (List.mem_append_left _ member), rfl, rfl, rfl⟩
  cases e with
  | zero =>
    rcases List.mem_pair.mp listed with rfl | rfl
    · exact ⟨kind, by simp [nameAttribute]⟩
    · exact ⟨cardinality, by simp [nameAttribute]⟩
  | succ k =>
    have at_ : system[k]? = some system[k] := List.getElem?_eq_getElem low
    obtain ⟨part, part_member, spec_ok⟩ :=
      Outcome.exists_right_of_mem attributes_ok (List.mem_of_getElem? at_)
    obtain ⟨value, about⟩ := exists_of_describe spec_ok at_ attr listed
    exact ⟨value, List.mem_append_right _ (List.mem_flatten.mpr ⟨part, part_member, about⟩)⟩

end Schema

namespace Database

/-- A new database asserts all its facts, under attributes that it describes; those of the schema are
among these. -/
theorem ofStore_empty_described {backend : Backend} {v : Vocabulary} {founding : Founding}
    {db : Database} (opened : ofStore (Store.empty backend) v founding = .ok db) :
    ∃ fs, db.store.Holds fs ∧ (∀ e ≤ Schema.system.length, Log.Described fs e) ∧
      ∀ f ∈ fs, f.op = assertion ∧ Log.Described fs f.attr := by
  obtain ⟨keyed, _⟩ := ofStore_empty_founded opened
  obtain ⟨facts, s', facts_ok, found, stage⟩ :=
    (Store.holds_empty backend).found_keyed keyed founding
  obtain rfl : db.store = s' := by
    rw [(ofStore_empty_eq_ok opened).1] at found
    exact congrArg Prod.snd found
  refine ⟨_, stage.holds, ?_⟩
  have schema : ∀ e ≤ Schema.system.length, Log.Described (facts
      ++ Transaction.attributeFacts v founding.attributesTime
      ++ Transaction.entityFacts v founding.databaseId founding.metadataTime) e := by
    intro e low
    apply (Schema.firstFacts_described facts_ok e low).mono
    simp [List.append_assoc]
  -- the two attributes of a database as a whole are declared by its second transaction
  have declared : ∀ e ∈ [39, 40],
      Log.Described (Transaction.attributeFacts v founding.attributesTime) e := by
    simp [Log.Described, Transaction.attributeFacts, kindAttribute, cardinalityAttribute, assertion]
  refine ⟨schema, ?_⟩
  intro f member
  rcases List.mem_append.mp member with earlier | entity
  · rcases List.mem_append.mp earlier with first | attributes
    · obtain ⟨op, low⟩ := Schema.firstFacts_attr_le facts_ok f first
      exact ⟨op, schema f.attr low⟩
    · have known : ∀ f ∈ Transaction.attributeFacts v founding.attributesTime,
          f.op = assertion ∧ f.attr ≤ Schema.system.length := by
        simp [Transaction.attributeFacts, assertion, Schema.system]
      exact ⟨(known f attributes).1, schema f.attr (known f attributes).2⟩
  · have known : ∀ f ∈ Transaction.entityFacts v founding.databaseId founding.metadataTime,
        f.op = assertion ∧ (f.attr ≤ Schema.system.length ∨ f.attr ∈ [39, 40]) := by
      simp [Transaction.entityFacts, assertion, Schema.system]
    obtain ⟨op, low | own⟩ := known f entity
    · exact ⟨op, schema f.attr low⟩
    · refine ⟨op, (declared f.attr own).mono ?_⟩
      exact List.Subset.trans (List.subset_append_right _ _) (List.subset_append_left _ _)

end Database

/-! ### Declarations -/

namespace Transaction

variable {v : Vocabulary} {s : Store}

/-- A declaration that lacks nothing says the kind and the cardinality of a new entity. -/
theorem exists_of_declare {number : Nat} {form : Form} {ds : List Draft}
    (ok : declare v s number form = .ok ds)
    (complete : ∀ key ∈ [v.identity, v.valueKind, v.cardinality], (form.get? key).isSome) :
    ∀ key ∈ [v.valueKind, v.cardinality], ∃ d ∈ ds, d.subject = .new (.unnamed number) ∧
      s.entityOf key = .ok d.attr ∧ s.entityOf v.assertOperation = .ok d.op := by
  rcases declare_cases ok with ⟨_, key, listed, lacking⟩ | ⟨op, _, _, _, _, _, _, named, ofKind,
    ofCardinality, _, _, assertion_ok, _, ⟨_, _, kind_ok⟩, ⟨_, _, cardinality_ok⟩, _, _, rfl⟩
  · have told := complete key listed
    rw [lacking] at told
    cases told
  · intro key listed
    rcases List.mem_pair.mp listed with rfl | rfl
    · obtain ⟨a, _, attr, _, made⟩ := draft_eq_ok.mp kind_ok
      refine ⟨ofKind, by simp, ?_⟩
      rw [made]
      exact ⟨rfl, attr, assertion_ok⟩
    · obtain ⟨a, _, attr, _, made⟩ := draft_eq_ok.mp cardinality_ok
      refine ⟨ofCardinality, by simp, ?_⟩
      rw [made]
      exact ⟨rfl, attr, assertion_ok⟩

end Transaction

/-! ### Steps -/

namespace Database

/-- A fact that a step records for a tuple with this name for its operation, and this one for its
attribute. -/
structure Step.FromTuple (step : Step) (opName attrName : String) (f : Fact) : Prop where
  tx : f.tx = step.receipt.tx
  written : ∃ operation entity attr told,
    .tuple [operation, entity, attr, told] ∈ Transaction.operations step.request ∧
    operation.asName? = some opName ∧ attr.asName? = some attrName ∧ told.toValue? = some f.value
  attr : step.before.resolve attrName = .ok f.attr

/-- A fact that a step records for an entry of a map, whose attribute goes by this name. -/
structure Step.FromEntry (step : Step) (attrName : String) (f : Fact) : Prop where
  tx : f.tx = step.receipt.tx
  written : ∃ entries key told, .entries entries ∈ Transaction.operations step.request ∧
    (key, told) ∈ entries ∧ key.asName? = some attrName ∧ told.toValue? = some f.value
  op : step.before.resolve step.before.vocabulary.assertOperation = .ok f.op
  attr : step.before.resolve attrName = .ok f.attr

variable {db : Database}

/-- The numbers of the schema go with its names at any time. -/
theorem Reachable.resolve_number (reachable : db.Reachable) {e : EntityId} {name : String}
    (at_ : (Schema.allNames db.vocabulary Schema.system)[e]? = some name) :
    db.resolve name = .ok e :=
  (reachable.roster (e, name) (List.mem_append_left _ (Schema.mem_roster.mpr at_))).1

theorem Reachable.eq_number (reachable : db.Reachable) {e k : EntityId} {name : String}
    (found : db.resolve name = .ok e)
    (at_ : (Schema.allNames db.vocabulary Schema.system)[k]? = some name) : e = k :=
  Except.ok.inj (found.symm.trans (reachable.resolve_number at_))

/-- A fact that a step records is asserted under an attribute of the schema, or it stands in a map or
a tuple of the request. -/
theorem Step.Records.cases_mem {step : Step} {new : List Fact} (records : step.Records new)
    (reachable : step.before.Reachable) {f : Fact} (member : f ∈ new) :
    (f.op = assertion ∧ f.attr ≤ Schema.system.length) ∨
      (∃ attrName, step.FromEntry attrName f) ∨
      ∃ opName attrName, step.FromTuple opName attrName f ∧ step.before.resolve opName = .ok f.op := by
  obtain ⟨ds, drafted, effect⟩ := records
  -- what is asserted under the name of an attribute of the schema
  have plain : ∀ {k : EntityId} {name : String},
      step.before.resolve step.before.vocabulary.assertOperation = .ok f.op →
      step.before.resolve name = .ok f.attr →
      (Schema.allNames step.before.vocabulary Schema.system)[k]? = some name →
      k ≤ Schema.system.length → f.op = assertion ∧ f.attr ≤ Schema.system.length := by
    intro k name op attr at_ low
    have asserted : f.op = assertion := reachable.eq_number op rfl
    exact ⟨asserted, reachable.eq_number attr at_ ▸ low⟩
  rcases effect.cases_mem member with ⟨d, d_member, becomes⟩ | ⟨_, attr, _, _, op⟩
  · obtain ⟨operation, among, yields⟩ := Transaction.yields_of_drafts drafted d d_member
    have same_op : ∀ {name}, step.before.store.entityOf name = .ok d.op →
        step.before.resolve name = .ok f.op := fun found => becomes.op ▸ found
    have same_attr : ∀ {name}, step.before.store.entityOf name = .ok d.attr →
        step.before.resolve name = .ok f.attr := fun found => becomes.attr ▸ found
    cases yields with
    | name _ _ attr _ op => exact .inl (plain (k := 0) (same_op op) (same_attr attr) rfl (by decide))
    | reference key_mem _ _ _ attr _ op =>
      rcases List.mem_pair.mp key_mem with rfl | rfl
      · exact .inl (plain (k := 1) (same_op op) (same_attr attr) rfl (by decide))
      · exact .inl (plain (k := 2) (same_op op) (same_attr attr) rfl (by decide))
    | option key_mem _ attr _ op =>
      rcases List.mem_pair.mp key_mem with rfl | rfl
      · exact .inl (plain (k := 13) (same_op op) (same_attr attr) rfl (by decide))
      · exact .inl (plain (k := 4) (same_op op) (same_attr attr) rfl (by decide))
    | @entry entries key told name _ inside read _ attr value op =>
      exact .inr (.inl ⟨name, becomes.tx,
        ⟨entries, key, told, among, inside, read, becomes.value ▸ value⟩, same_op op,
        same_attr attr⟩)
    | @tuple operation entity attr told opName attrName _ read_op read_attr attr_found value op =>
      have written : step.FromTuple opName attrName f :=
        ⟨becomes.tx, ⟨operation, entity, attr, told, among, read_op, read_attr,
          becomes.value ▸ value⟩, same_attr attr_found⟩
      exact .inr (.inr ⟨opName, attrName, written, same_op op⟩)
  · exact .inl (plain (k := 14) op attr rfl (by decide))

/-- A fact that a step records is asserted or retracted, if the tuples that it can come from name one
of these operations. -/
theorem Step.Records.op_cases {step : Step} {new : List Fact} (records : step.Records new)
    (reachable : step.before.Reachable) {f : Fact} (member : f ∈ new)
    (named : ∀ opName attrName, step.FromTuple opName attrName f →
      step.before.resolve opName = .ok f.op →
      opName ∈ [step.before.vocabulary.assertOperation, step.before.vocabulary.retractOperation]) :
    f.op = assertion ∨ f.op = retraction := by
  rcases records.cases_mem reachable member with
    ⟨op, _⟩ | ⟨_, entry⟩ | ⟨opName, attrName, tuple, op⟩
  · exact .inl op
  · exact .inl (reachable.eq_number entry.op rfl)
  · rcases List.mem_pair.mp (named opName attrName tuple op) with rfl | rfl
    · exact .inl (reachable.eq_number op rfl)
    · exact .inr (reachable.eq_number op rfl)

/-- A step gives a number to what a declaration of its request declares, and describes it. -/
theorem Step.Records.declared {step : Step} {new : List Fact} (records : step.Records new)
    (reachable : step.before.Reachable) {form : Form} {number : Nat}
    (place : (.declaration form, number) ∈ (Transaction.operations step.request).zipIdx)
    (complete : ∀ key ∈ [step.before.vocabulary.identity, step.before.vocabulary.valueKind,
      step.before.vocabulary.cardinality], (form.get? key).isSome) :
    ∃ e, (.unnamed number, e) ∈ step.receipt.given ∧ Log.Described new e := by
  obtain ⟨ds, drafted, effect⟩ := records
  obtain ⟨parts, rfl, each⟩ := Transaction.drafts_parts drafted
  obtain ⟨part, part_member, declared⟩ := Outcome.exists_right_of_mem each place
  -- the facts about its kind and about its cardinality are about one new entity
  have fact : ∀ {k : EntityId} {key : String},
      key ∈ [step.before.vocabulary.valueKind, step.before.vocabulary.cardinality] →
      (Schema.allNames step.before.vocabulary Schema.system)[k]? = some key →
      ∃ f ∈ new, (Transaction.numbering step.receipt.tx
          (Transaction.placeholders parts.flatten)).lookup (.unnamed number) = some f.entity ∧
        f.attr = k ∧ f.op = assertion := by
    intro k key listed at_
    obtain ⟨d, inside, subject, attr, op⟩ :=
      Transaction.exists_of_declare declared complete key listed
    obtain ⟨f, member, becomes⟩ :=
      effect.exists_fact (List.mem_flatten.mpr ⟨part, part_member, inside⟩)
    exact ⟨f, member, becomes.new _ subject, becomes.attr.trans (reachable.eq_number attr at_),
      becomes.op.trans (reachable.eq_number op rfl)⟩
  obtain ⟨f, member, given, attr, op⟩ := fact (k := kindAttribute) List.mem_cons_self rfl
  obtain ⟨g, member', given', attr', op'⟩ :=
    fact (k := cardinalityAttribute) (List.mem_cons_of_mem _ List.mem_cons_self) rfl
  have same : g.entity = f.entity := Option.some.inj (given'.symm.trans given)
  refine ⟨f.entity, effect.receipt_given ▸ Outcome.mem_of_lookup given, ?_⟩
  intro listed_attr listed
  rcases List.mem_pair.mp listed with rfl | rfl
  · exact ⟨f, member, rfl, attr, op⟩
  · exact ⟨g, member', same, attr', op'⟩

/-! ### Runs -/

/-- The facts of a run keep to the vocabulary as far as its requests do. A fact is asserted or
retracted, if the tuples that it can come from name one of these operations. Its attribute has a kind
and a cardinality, unless a map or a tuple names one without; and whatever is declared in full has
both. -/
theorem run_conforms {backend : Backend} {v : Vocabulary} {founding : Founding} {first : Database}
    (opened : ofStore (Store.empty backend) v founding = .ok first) (calls : List Call) :
    (∀ entry ∈ [(kindAttribute, v.valueKind), (cardinalityAttribute, v.cardinality),
        (assertion, v.assertOperation), (retraction, v.retractOperation)],
      (first.run calls).resolve entry.2 = .ok entry.1) ∧
    ∃ fs, (first.run calls).store.Holds fs ∧
      (∀ f ∈ fs,
        (∀ step ∈ first.steps calls, ∀ opName attrName, step.FromTuple opName attrName f →
          step.before.resolve opName = .ok f.op →
          opName ∈ [v.assertOperation, v.retractOperation]) →
        f.op = assertion ∨ f.op = retraction) ∧
      (∀ f ∈ fs, Log.Described fs f.attr ∨
        ∃ step ∈ first.steps calls, ∃ attrName, step.FromEntry attrName f ∨
          ∃ opName, step.FromTuple opName attrName f) ∧
      ∀ step ∈ first.steps calls, ∀ form number,
        (.declaration form, number) ∈ (Transaction.operations step.request).zipIdx →
        (∀ key ∈ [v.identity, v.valueKind, v.cardinality], (form.get? key).isSome) →
        ∃ e, (.unnamed number, e) ∈ step.receipt.given ∧ Log.Described fs e := by
  obtain ⟨old, holds, schema, founded⟩ := ofStore_empty_described opened
  obtain ⟨parts, records, ran⟩ := run_records holds calls
  have start : first.Reachable := ⟨backend, v, founding, first, [], opened, rfl⟩
  obtain ⟨_, rfl⟩ := ofStore_empty_eq_ok opened
  -- what is described at the start stays so
  have kept : ∀ {e}, Log.Described old e → Log.Described (old ++ parts.flatten) e :=
    fun described => described.mono (List.subset_append_left _ _)
  refine ⟨?_, old ++ parts.flatten, ran, ?_, ?_, ?_⟩
  · -- the names of the schema stand for its numbers at any time
    have numbers : ∀ entry ∈ [(kindAttribute, first.vocabulary.valueKind),
        (cardinalityAttribute, first.vocabulary.cardinality),
        (assertion, first.vocabulary.assertOperation),
        (retraction, first.vocabulary.retractOperation)],
        (Schema.allNames first.vocabulary Schema.system)[entry.1]? = some entry.2 := by
      simp only [List.mem_cons, List.not_mem_nil, or_false]
      rintro entry (rfl | rfl | rfl | rfl) <;> rfl
    intro entry listed
    exact (start.run calls).resolve_number (by rw [vocabulary_run, numbers entry listed])
  · intro f member named
    rcases List.mem_append.mp member with early | late
    · exact .inl (founded f early).1
    · obtain ⟨step, step_member, new, recorded, inside⟩ := exists_step_of_mem records late
      obtain ⟨made, same⟩ := start.before_of_mem_steps step_member
      apply recorded.op_cases made inside
      rw [same]
      exact named step step_member
  · intro f member
    rcases List.mem_append.mp member with early | late
    · exact .inl (kept (founded f early).2)
    · obtain ⟨step, step_member, new, recorded, inside⟩ := exists_step_of_mem records late
      rcases recorded.cases_mem (start.before_of_mem_steps step_member).1 inside with ⟨_, low⟩ |
        ⟨attrName, entry⟩ | ⟨opName, attrName, tuple, _⟩
      · exact .inl (kept (schema f.attr low))
      · exact .inr ⟨step, step_member, attrName, .inl entry⟩
      · exact .inr ⟨step, step_member, attrName, .inr ⟨opName, tuple⟩⟩
  · -- the facts of a step are part of the log from then on
    intro step step_member form number place complete
    obtain ⟨made, same⟩ := start.before_of_mem_steps step_member
    obtain ⟨new, new_member, recorded⟩ := Outcome.exists_right_of_mem records step_member
    rw [← same] at complete
    obtain ⟨e, given, described⟩ := recorded.declared made place complete
    refine ⟨e, given, described.mono ?_⟩
    exact fun f inside => List.mem_append_right _ (List.mem_flatten.mpr ⟨new, new_member, inside⟩)

/-- The request that declares an attribute for texts. -/
def declareRequest (name : String) : Form :=
  .map [(.keyword "tx-attribute", Schema.declaration .standard name "string" "")]

/-- The request of a tuple that asserts the title of a film. -/
def titleRequest : Form :=
  .map [(.keyword "tx-data", .list [.keyword "db.operation/assert", .text "alien",
    .keyword "film/title", .text "Alien"])]

/-- An attribute is declared, and then used. -/
def titleCalls : List Call :=
  [.transact 5 (declareRequest ":film/title"), .transact 6 titleRequest]

/-- A table takes both requests, and finds a fact under the attribute. -/
theorem exists_titled :
    ∃ first receipt receipt' facts, ofStore (Store.empty .table) .standard ⟨"", 0, 0, 0⟩ = .ok first ∧
      first.steps titleCalls = [⟨first, 5, declareRequest ":film/title", receipt⟩,
        ⟨(first.carryOut 5 (declareRequest ":film/title")).2, 6, titleRequest, receipt'⟩] ∧
      receipt.given = [(.unnamed 0, 44)] ∧
      (first.run titleCalls).store.lookup ⟨none, some 44, none, none, none⟩ 45 = .ok facts ∧
      ∃ f ∈ facts, f.attr = 44 ∧ f.tx = 45 := by
  have computed : ((ofStore (Store.empty .table) .standard ⟨"", 0, 0, 0⟩).toOption.bind fun first =>
      (first.carryOut 5 (declareRequest ":film/title")).1.toOption.bind fun receipt =>
      ((first.carryOut 5 (declareRequest ":film/title")).2.carryOut 6 titleRequest).1.toOption.bind
        fun _ =>
      ((first.run titleCalls).store.lookup ⟨none, some 44, none, none, none⟩ 45).toOption.map
        fun facts => (receipt.given, facts.any fun f => decide (f.attr = 44 ∧ f.tx = 45)))
        = some ([(.unnamed 0, 44)], true) := by
    decide +kernel
  obtain ⟨first, opened, computed⟩ := Option.bind_eq_some_iff.mp computed
  obtain ⟨receipt, declared, computed⟩ := Option.bind_eq_some_iff.mp computed
  obtain ⟨receipt', titled, computed⟩ := Option.bind_eq_some_iff.mp computed
  obtain ⟨facts, found, computed⟩ := Option.map_eq_some_iff.mp computed
  obtain ⟨given, shown⟩ := Prod.mk.inj computed
  simp only [List.any_eq_true, decide_eq_true_eq] at shown
  refine ⟨first, receipt, receipt', facts, Outcome.toOption_eq_some.mp opened, ?_, given,
    Outcome.toOption_eq_some.mp found, shown⟩
  simp [titleCalls, step?, call, Outcome.toOption_eq_some.mp declared,
    Outcome.toOption_eq_some.mp titled]

/-- An attribute that is declared in a table is described from then on, and a fact that a tuple
asserts under it is asserted or retracted. -/
theorem run_conforms_declared :
    ∃ first fs f, ofStore (Store.empty .table) .standard ⟨"", 0, 0, 0⟩ = .ok first ∧
      (first.steps titleCalls).map Step.request = [declareRequest ":film/title", titleRequest] ∧
      (first.run titleCalls).store.Holds fs ∧ Log.Described fs 44 ∧
      f ∈ fs ∧ f.tx = 45 ∧ f.attr = 44 ∧ (f.op = assertion ∨ f.op = retraction) := by
  obtain ⟨first, receipt, receipt', facts, opened, taken, given, found, shown, inside, attr, tx⟩ :=
    exists_titled
  obtain ⟨_, fs, holds, ops, _, declared⟩ := run_conforms opened titleCalls
  have described : Log.Described fs 44 := by
    have complete : ∀ key ∈ [Vocabulary.standard.identity, Vocabulary.standard.valueKind,
        Vocabulary.standard.cardinality],
        ((Schema.declaration .standard ":film/title" "string" "").get? key).isSome := by
      decide
    obtain ⟨e, among, described⟩ := declared _ (taken ▸ List.mem_cons_self)
      (Schema.declaration .standard ":film/title" "string" "") 0 List.mem_cons_self complete
    rw [given] at among
    obtain ⟨_, rfl⟩ := Prod.mk.inj (List.mem_singleton.mp among)
    exact described
  obtain ⟨f, member, same⟩ := holds.written_of_lookup found shown inside
  refine ⟨first, fs, f, opened, by rw [taken]; rfl, holds, described, member, same.tx.trans tx,
    same.attr.trans attr, ops f member ?_⟩
  -- there is one tuple among the requests, which names the operation of facts that are asserted
  rintro step step_member opName attrName ⟨_, ⟨operation, _, _, _, among, named, _⟩, _⟩ _
  rw [taken] at step_member
  rcases List.mem_pair.mp step_member with rfl | rfl
  · cases List.mem_singleton.mp among
  · obtain ⟨rfl, _⟩ := List.cons.inj (Transaction.Operation.tuple.inj (List.mem_singleton.mp among))
    exact List.mem_pair.mpr (.inl (Option.some.inj named).symm)

/-- The request of a tuple whose operation is an attribute and whose attribute is an operation. -/
def swapRequest : Form :=
  .map [(.keyword "tx-data", .list [.keyword "db/documentation", .text "a",
    .keyword "db.operation/assert", .int 1])]

/-- A table takes such a request, and records a fact as it says. -/
theorem exists_swapped :
    ∃ first fs f, ofStore (Store.empty .table) .standard ⟨"", 0, 0, 0⟩ = .ok first ∧
      (∀ reply ∈ first.replies [.transact 5 swapRequest],
        ∃ receipt, reply = .transacted (.ok receipt)) ∧
      (first.run [.transact 5 swapRequest]).store.Holds fs ∧ f ∈ fs ∧ f.attr = assertion ∧
      f.op = 13 ∧ 42 < f.tx ∧ ∀ g ∈ fs, g.entity = assertion → g.attr ≠ kindAttribute := by
  have computed : ((ofStore (Store.empty .table) .standard ⟨"", 0, 0, 0⟩).toOption.bind fun first =>
      let db := first.run [.transact 5 swapRequest]
      (db.store.lookup .any 43).toOption.map fun facts =>
        ((first.replies [.transact 5 swapRequest]).all (·.effect?.isSome), db.store.lastTx,
          facts.any fun f => decide (f.attr = assertion ∧ f.op = 13 ∧ 42 < f.tx),
          facts.all fun g => decide (g.entity = assertion → g.attr ≠ kindAttribute)))
        = some (true, some 43, true, true) := by
    decide +kernel
  obtain ⟨first, opened, computed⟩ := Option.bind_eq_some_iff.mp computed
  obtain ⟨facts, found, computed⟩ := Option.map_eq_some_iff.mp computed
  simp only [Prod.mk.injEq, List.all_eq_true, List.any_eq_true, decide_eq_true_eq] at computed
  obtain ⟨recorded, last, ⟨f, member, attr, op, late⟩, undescribed⟩ := computed
  have opened := Outcome.toOption_eq_some.mp opened
  obtain ⟨_, _, keeps⟩ := ofStore_keeps opened
  obtain ⟨new, holds⟩ := run_holds keeps.holds [.transact 5 swapRequest]
  -- the facts that are found are those of the log, in entity, attribute, transaction and operation
  have related := holds.lookup_any (Outcome.toOption_eq_some.mp found)
  obtain ⟨g, g_member, same⟩ := Outcome.exists_left_of_mem related member
  refine ⟨first, _, g, opened, fun reply given => Reply.exists_receipt (recorded reply given),
    holds, List.mem_of_mem_filter g_member, same.attr.trans attr, same.op.trans op, ?_, ?_⟩
  · rw [same.tx]
    exact late
  · intro h written about
    have early : h.tx ≤ 43 := (Log.lastTx_eq_some.mp (holds.lastTx_eq ▸ last)).2 h written
    obtain ⟨h', found', same'⟩ := Outcome.exists_right_of_mem related
      (List.mem_filter.mpr ⟨written, decide_eq_true early⟩)
    rw [same'.attr]
    exact undescribed h' found' (same'.entity ▸ about)

/-- Requests that all succeed can record facts that are neither asserted nor retracted, and facts
under attributes without a kind. -/
theorem facts_not_conforming :
    (¬ ∀ (backend : Backend) (v : Vocabulary) (founding : Founding) (first : Database)
        (calls : List Call), ofStore (Store.empty backend) v founding = .ok first →
      (∀ reply ∈ first.replies calls, ∃ receipt, reply = .transacted (.ok receipt)) →
      ∀ fs, (first.run calls).store.Holds fs → ∀ f ∈ fs,
        (first.run calls).resolve v.assertOperation = .ok f.op ∨
          (first.run calls).resolve v.retractOperation = .ok f.op) ∧
    ¬ ∀ (backend : Backend) (v : Vocabulary) (founding : Founding) (first : Database)
        (calls : List Call), ofStore (Store.empty backend) v founding = .ok first →
      (∀ reply ∈ first.replies calls, ∃ receipt, reply = .transacted (.ok receipt)) →
      ∀ fs, (first.run calls).store.Holds fs → ∀ f ∈ fs, 42 < f.tx →
        ∀ key ∈ [v.valueKind, v.cardinality],
          ∃ g ∈ fs, g.entity = f.attr ∧ (first.run calls).resolve key = .ok g.attr := by
  obtain ⟨first, fs, f, opened, succeeded, holds, member, attr, op, late, undescribed⟩ :=
    exists_swapped
  have reachable : (first.run [.transact 5 swapRequest]).Reachable :=
    ⟨.table, .standard, ⟨"", 0, 0, 0⟩, first, _, opened, rfl⟩
  have vocabulary : (first.run [.transact 5 swapRequest]).vocabulary = .standard :=
    (vocabulary_run first _).trans (ofStore_empty_eq_ok opened).2
  constructor
  · intro conform
    rcases conform .table .standard _ first _ opened succeeded fs holds f member with found | found
    · have number : f.op = assertion := reachable.eq_number found (by rw [vocabulary]; rfl)
      exact absurd (op.symm.trans number) (by decide)
    · have number : f.op = retraction := reachable.eq_number found (by rw [vocabulary]; rfl)
      exact absurd (op.symm.trans number) (by decide)
  · intro conform
    obtain ⟨g, written, about, found⟩ := conform .table .standard _ first _ opened succeeded fs
      holds f member late Vocabulary.standard.valueKind List.mem_cons_self
    have number : g.attr = kindAttribute := reachable.eq_number found (by rw [vocabulary]; rfl)
    exact undescribed g written (about.trans attr) number

end Database

end Factbase
