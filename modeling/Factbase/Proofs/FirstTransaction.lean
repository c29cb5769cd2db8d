import Factbase.Proofs.Naming

/-!
# Factbase.Proofs.FirstTransaction

The first transaction of a database, whatever its schema. It names every entity that it refers to,
in the order of their numbers. Where no name is given twice, it says of every attribute exactly what
the schema does. It fails exactly if a name that it needs is not among those that it gives, and the
first one that is missing tells how.
-/

namespace Factbase

/-- What a fact says, apart from its transaction and operation. -/
def Fact.statement (f : Fact) : Schema.Statement := (f.entity, f.attr, f.value)

/-- The values that the facts of a log give an entity under an attribute. -/
def Log.valuesAt (fs : List Fact) (e attr : EntityId) : List Value :=
  (fs.filter fun f => f.entity == e && f.attr == attr).map Fact.value

namespace Schema

variable {v : Vocabulary} {schema : List AttributeSpec} {names : List String}
  {timestamp : Int64} {facts : List Fact}

/-! ### Names that are given -/

theorem length_allNames (v : Vocabulary) (schema : List AttributeSpec) :
    (allNames v schema).length = 1 + schema.length + (schema.map (·.members.length)).sum := by
  simp only [allNames, List.length_cons, List.length_append, List.length_map, List.length_flatMap]
  rw [Nat.add_right_comm, Nat.add_comm 1]

/-- Facts that name the entities they refer to, those with these names, and a transaction numbered
behind them. -/
structure SelfContained (v : Vocabulary) (names : List String) (timestamp : Int64)
    (facts : List Fact) : Prop where
  /-- The first facts name the entities, in the order of their numbers. -/
  naming : (facts.take names.length).map Fact.statement = namings names
  tx_eq : ∀ f ∈ facts, f.tx = names.length
  /-- The operation is the first entity with the name of the operation that adds facts. -/
  op_eq : ∀ f ∈ facts, names.findIdx? (· == v.assertOperation) = some f.op
  /-- The last fact tells the time, and it alone is about the transaction. -/
  time : ∃ earlier last, facts = earlier ++ [last] ∧ last.entity = names.length ∧
    names[last.attr]? = some v.timestamp ∧ last.value = .int timestamp ∧
    ∀ f ∈ earlier, f.entity ≠ names.length
  /-- Every other number in a fact is that of an entity with a name. -/
  closed : ∀ f ∈ facts, (f.entity ≠ names.length → (Log.nameOf facts f.entity).isSome) ∧
    (Log.nameOf facts f.attr).isSome ∧ (Log.nameOf facts f.op).isSome ∧
    ∀ e, f.value = .ref e → (Log.nameOf facts e).isSome

theorem firstFacts_selfContained (ok : firstFacts v schema timestamp = .ok facts) :
    SelfContained v (allNames v schema) timestamp facts := by
  have founds := firstFacts_founds ok
  obtain ⟨by_, identity, attributes, timestampAttr, op, described, identity_ok, attributes_ok,
    timestampAttr_ok, assertion, rfl⟩ := firstFacts_cases ok
  have within := statements_within described identity_ok attributes_ok
  have length : (namings (allNames v schema)).length = (allNames v schema).length := by
    rw [namings, List.length_map, List.length_zipIdx]
  refine ⟨?_, founds.tx_eq, ?_, ⟨_, _, List.map_append .., rfl, ?_, rfl, ?_⟩, ?_⟩
  · rw [← List.map_take, List.map_map, List.append_assoc, List.append_assoc, ← length,
      List.take_left]
    exact List.map_id' (namings (allNames v schema))
  · intro f member
    obtain ⟨st, _, rfl⟩ := List.mem_map.mp member
    exact assertion
  · exact getElem?_of_idOf timestampAttr_ok
  · intro f member
    obtain ⟨st, stated, rfl⟩ := List.mem_map.mp member
    exact Nat.ne_of_lt (within st stated).entity
  · -- the numbers below the transaction's own are those of named entities
    intro f member
    refine ⟨fun other => ?_, founds.named _ (founds.attr_lt f member),
      founds.named _ (founds.op_lt f member), fun e refers => ?_⟩
    · exact founds.named _ (Nat.lt_of_le_of_ne (founds.entity_le f member) other)
    · rcases founds.value f member with ⟨_, text⟩ | ⟨_, number⟩ | ⟨e', low, reference⟩
      · cases refers.symm.trans text
      · cases refers.symm.trans number
      · obtain rfl := Value.ref.inj (refers.symm.trans reference)
        exact founds.named _ low

/-! ### Attributes that are described -/

/-- Whether a value refers to an entity with a name. -/
def Refers (names : List String) (name : String) (value : Value) : Prop :=
  ∃ e : EntityId, names[e]? = some name ∧ value = .ref e

/-- Whether facts refer an entity to these names, in this order, under the attribute of a name. -/
def Says (names : List String) (facts : List Fact) (e : EntityId) (attrName : String)
    (told : List String) : Prop :=
  ∃ attr : EntityId, names[attr]? = some attrName ∧
    List.Forall₂ (Refers names) told (Log.valuesAt facts e attr)

/-- Facts that say of an entity what a schema says of an attribute. -/
structure Describes (v : Vocabulary) (names : List String) (facts : List Fact) (e : EntityId)
    (spec : AttributeSpec) : Prop where
  kind : Says names facts e v.valueKind [v.memberName "attribute" spec.kind]
  cardinality : Says names facts e v.cardinality [v.memberName "cardinality" spec.cardinality]
  /-- Only an attribute of members has members, those that the schema lists, in this order. -/
  members : Says names facts e v.members ((listed spec).map (v.memberName spec.key))

theorem refers_of_memberRef {key member : String} {value : Value}
    (ok : memberRef v names key member = .ok value) :
    Refers names (v.memberName key member) value := by
  simp only [memberRef, Outcome.bind_eq_ok, Outcome.pure_eq_ok] at ok
  obtain ⟨e, found, rfl⟩ := ok
  exact ⟨e, getElem?_of_idOf found, rfl⟩

/-- The attributes that describe attributes have their names, so they are four different ones. -/
theorem describing_named {by_ : Describing} (ok : describing v names = .ok by_) :
    names[by_.valueKind]? = some v.valueKind ∧ names[by_.cardinality]? = some v.cardinality ∧
      names[by_.members]? = some v.members ∧
      [by_.valueKind, by_.cardinality, by_.members, by_.documentation].Nodup := by
  simp only [describing, Outcome.bind_eq_ok, Outcome.pure_eq_ok] at ok
  obtain ⟨_, kind, _, cardinality, _, members, _, documentation, rfl⟩ := ok
  have kind := getElem?_of_idOf kind
  have cardinality := getElem?_of_idOf cardinality
  have members := getElem?_of_idOf members
  have documentation := getElem?_of_idOf documentation
  refine ⟨kind, cardinality, members, ?_⟩
  -- one number for two of them would make their names the same
  apply List.Nodup.of_map fun e : EntityId => names[e]?
  simp only [List.map_cons, List.map_nil, kind, cardinality, members, documentation]
  have keys : ["attribute", "cardinality", "enum", "documentation"].Nodup := by decide
  exact keys.map fun _ _ same => Vocabulary.attributeName_inj.mp (Option.some.inj same)

/-- Where its name is given once, the naming attribute is described as the schema would. -/
theorem describe_naming {by_ : Describing} (first : idOf names v.identity = .ok nameAttribute) :
    describe v names by_ naming = describeIdentity v names by_ := by
  have other : (naming.kind = "enum") = False := by simp [naming]
  unfold describe describeIdentity
  rw [show v.attributeName naming.key = v.identity from rfl, first]
  simp only [other, if_false, Outcome.ok_bind]
  rfl

/-- Of parts that are each about the entity of their place, the one about an entity is at its
place. -/
theorem filter_flatten {parts : List (List Statement)} (start place : Nat)
    (numbered : ∀ i part, parts[i]? = some part → ∀ st ∈ part, st.1 = start + i) :
    parts.flatten.filter (·.1 == start + place) = (parts[place]?).getD [] := by
  induction parts generalizing start place with
  | nil => simp
  | cons part rest ih =>
    have later : ∀ i part, rest[i]? = some part → ∀ st ∈ part, st.1 = start + 1 + i := by
      intro i part at_ st member
      rw [numbered (i + 1) part at_ st member]
      exact (Nat.add_right_comm start i 1)
    have here : ∀ st ∈ part, st.1 = start := numbered 0 part rfl
    rw [List.flatten_cons, List.filter_append]
    cases place with
    | zero =>
      have all : part.filter (·.1 == start + 0) = part :=
        List.filter_eq_self.mpr fun st member => by simp [here st member]
      have none : rest.flatten.filter (·.1 == start + 0) = [] := by
        apply List.filter_eq_nil_iff.mpr
        intro st member
        obtain ⟨part, part_member, inside⟩ := List.mem_flatten.mp member
        obtain ⟨i, at_⟩ := List.mem_iff_getElem?.mp part_member
        rw [later i part at_ st inside]
        simp [Nat.add_assoc]
      rw [all, none, List.append_nil]
      rfl
    | succ place =>
      have none : part.filter (·.1 == start + (place + 1)) = [] := by
        apply List.filter_eq_nil_iff.mpr
        intro st member
        rw [here st member]
        simp
      rw [none, List.nil_append, Nat.add_comm place 1, ← Nat.add_assoc, ih _ place later,
        Nat.add_comm 1]
      rfl

/-- The values that statements tell under an attribute. -/
def under (statements : List Statement) (attr : EntityId) : List Value :=
  (statements.filter (·.2.1 == attr)).map (·.2.2)

theorem under_append (earlier later : List Statement) (attr : EntityId) :
    under (earlier ++ later) attr = under earlier attr ++ under later attr := by
  rw [under, List.filter_append, List.map_append, under, under]

theorem under_told (e attr other : EntityId) (values : List Value) :
    under (values.map fun value => (e, attr, value)) other
      = if attr = other then values else [] := by
  by_cases same : attr = other
  · have all : (values.map fun value => (e, attr, value)).filter (·.2.1 == other)
        = values.map fun value => (e, attr, value) := by
      rw [List.filter_eq_self]
      simp [same]
    rw [under, all, List.map_map, if_pos same]
    exact List.map_id' values
  · have none : (values.map fun value => (e, attr, value)).filter (·.2.1 == other) = [] := by
      rw [List.filter_eq_nil_iff]
      simp [same]
    rw [under, none, if_neg same]
    rfl

theorem under_eq_nil {statements : List Statement} {attr : EntityId}
    (other : ∀ st ∈ statements, st.2.1 ≠ attr) : under statements attr = [] := by
  rw [under, List.filter_eq_nil_iff.mpr fun st member => by simpa using other st member]
  rfl

theorem valuesAt_facts (statements : List Statement) (tx op e attr : EntityId) :
    Log.valuesAt (statements.map fun (e, a, value) => ⟨e, a, value, tx, op⟩) e attr
      = under (statements.filter (·.1 == e)) attr := by
  rw [Log.valuesAt, List.filter_map, List.map_map, under, List.filter_filter]
  simp only [Function.comp_def, Bool.and_comm]

/-- What the first transaction says of an entity beside its name. -/
theorem valuesAt_described {described : List Statement} {tx op e attr timestampAttr : EntityId}
    (low : e < tx) (other : attr ≠ nameAttribute) :
    Log.valuesAt ((namings names ++ described ++ [(tx, timestampAttr, Value.int timestamp)]).map
      fun (e, a, value) => ⟨e, a, value, tx, op⟩) e attr
      = under (described.filter (·.1 == e)) attr := by
  have named : under ((namings names).filter (·.1 == e)) attr = [] := by
    apply under_eq_nil
    intro st member
    obtain ⟨_, _, rfl⟩ := List.mem_map.mp (List.mem_of_mem_filter member)
    exact Ne.symm other
  have timed : [(tx, timestampAttr, Value.int timestamp)].filter (·.1 == e) = [] := by
    simp [Nat.ne_of_gt low]
  rw [valuesAt_facts, List.filter_append, timed, List.append_nil, List.filter_append, under_append,
    named, List.nil_append]

theorem describe_entity {by_ : Describing} {spec : AttributeSpec} {part : List Statement}
    (ok : describe v names by_ spec = .ok part) :
    ∃ e : EntityId, names[e]? = some (v.attributeName spec.key) ∧ ∀ st ∈ part, st.1 = e := by
  obtain ⟨entity, kind, members, cardinality, found, _, _, _, rfl⟩ := describe_cases ok
  refine ⟨entity, getElem?_of_idOf found, ?_⟩
  intro st inside
  simp only [List.cons_append, List.mem_cons, List.mem_append, List.mem_map,
    Option.mem_toList, Option.map_eq_some_iff] at inside
  rcases inside with rfl | ⟨_, _, rfl⟩ | rfl | ⟨_, _, rfl⟩ <;> rfl

/-- What the description of an attribute says of its kind, its cardinality and its members. -/
theorem describe_under {by_ : Describing} {spec : AttributeSpec} {part : List Statement}
    (ok : describe v names by_ spec = .ok part)
    (apart : [by_.valueKind, by_.cardinality, by_.members, by_.documentation].Nodup) :
    List.Forall₂ (Refers names) [v.memberName "attribute" spec.kind] (under part by_.valueKind) ∧
    List.Forall₂ (Refers names) [v.memberName "cardinality" spec.cardinality]
      (under part by_.cardinality) ∧
    List.Forall₂ (Refers names) ((listed spec).map (v.memberName spec.key))
      (under part by_.members) := by
  obtain ⟨entity, kind, members, cardinality, _, kind_ok, members_ok, cardinality_ok, rfl⟩ :=
    describe_cases ok
  -- the description tells values under each of the four attributes, one after another
  have shape : (entity, by_.valueKind, kind)
        :: (members.map fun member => (entity, by_.members, member))
        ++ (entity, by_.cardinality, cardinality)
        :: (spec.documentation.map fun text => (entity, by_.documentation, Value.text text)).toList
      = ([kind].map fun value => (entity, by_.valueKind, value))
        ++ ((members.map fun member => (entity, by_.members, member))
        ++ (([cardinality].map fun value => (entity, by_.cardinality, value))
        ++ ((spec.documentation.map Value.text).toList.map fun value =>
            (entity, by_.documentation, value)))) := by
    cases spec.documentation <;> rfl
  rw [shape]
  simp only [under_append, under_told]
  simp only [List.nodup_cons, List.mem_cons, List.not_mem_nil, or_false, not_or] at apart
  obtain ⟨⟨kind_card, kind_mem, kind_doc⟩, ⟨card_mem, card_doc⟩, mem_doc, _⟩ := apart
  refine ⟨?_, ?_, ?_⟩
  · simpa [Ne.symm kind_card, Ne.symm kind_mem, Ne.symm kind_doc] using refers_of_memberRef kind_ok
  · simpa [kind_card, Ne.symm card_mem, Ne.symm card_doc] using refers_of_memberRef cardinality_ok
  · simp only [if_neg kind_mem, if_neg card_mem, if_neg (Ne.symm mem_doc), if_true, List.nil_append,
      List.append_nil, List.forall₂_map_left_iff]
    exact (Outcome.mapM_eq_ok.mp members_ok).imp fun _ _ => refers_of_memberRef

/-- Where no name is given twice, the first transaction says of every attribute what the schema
says. -/
theorem firstFacts_describes (ok : firstFacts v schema timestamp = .ok facts)
    (distinct : (allNames v schema).Nodup) {e : EntityId} {spec : AttributeSpec}
    (at_ : (naming :: schema)[e]? = some spec) :
    Describes v (allNames v schema) facts e spec := by
  obtain ⟨by_, identity, attributes, timestampAttr, op, described, identity_ok, attributes_ok,
    timestampAttr_ok, _, rfl⟩ := firstFacts_cases ok
  obtain ⟨kind, cardinality, members, apart⟩ := describing_named described
  have notNaming := describing_notNaming described
  have first : idOf (allNames v schema) v.identity = .ok nameAttribute := by
    have given : v.identity ∈ allNames v schema := List.mem_cons_self
    obtain ⟨e, found⟩ := exists_idOf given
    have naming_at : (allNames v schema)[nameAttribute]? = some v.identity := rfl
    rw [found, number_of_nodup distinct (getElem?_of_idOf found) naming_at]
  -- the naming attribute and those of the schema are described in the same way
  have parts : List.Forall₂ (fun spec part => describe v (allNames v schema) by_ spec = .ok part)
      (naming :: schema) (identity :: attributes) :=
    .cons (describe_naming first ▸ identity_ok) (Outcome.mapM_eq_ok.mp attributes_ok)
  have numbered : ∀ i part, (identity :: attributes)[i]? = some part →
      ∀ st ∈ part, st.1 = 0 + i := by
    intro i part part_at st member
    obtain ⟨spec, spec_at, spec_ok⟩ := Outcome.exists_right_at parts.flip part_at
    obtain ⟨e, named, about⟩ := describe_entity spec_ok
    rw [about st member, Nat.zero_add, number_of_nodup distinct named (getElem?_allNames spec_at)]
  obtain ⟨part, part_at, part_ok⟩ := Outcome.exists_right_at parts at_
  obtain ⟨of_kind, of_cardinality, of_members⟩ := describe_under part_ok apart
  obtain ⟨low, _⟩ := List.getElem?_eq_some_iff.mp (getElem?_allNames at_)
  have about : (identity ++ attributes.flatten).filter (·.1 == e) = part := by
    have found := filter_flatten 0 e numbered
    rwa [Nat.zero_add, part_at] at found
  rw [List.append_assoc (namings _)]
  constructor
  · refine ⟨by_.valueKind, kind, ?_⟩
    rw [valuesAt_described low notNaming.valueKind, about]
    exact of_kind
  · refine ⟨by_.cardinality, cardinality, ?_⟩
    rw [valuesAt_described low notNaming.cardinality, about]
    exact of_cardinality
  · refine ⟨by_.members, members, ?_⟩
    rw [valuesAt_described low notNaming.members, about]
    exact of_members

/-! ### Names that are needed -/

/-- The fault of the first of some needed names that is not given. -/
def firstMissing (names : List String) (needs : List (String × Fault)) : Option Fault :=
  (needs.find? fun need => decide (need.1 ∉ names)).map Prod.snd

/-- A step that fails exactly if a name that it needs is not given, on the first of these. -/
def FailsOn (names : List String) (needs : List (String × Fault)) {α : Type}
    (step : Except Fault α) : Prop :=
  ∀ fault, step = .error fault ↔ firstMissing names needs = some fault

/-- A name that is unknown if it is not given. -/
def known (name : String) : String × Fault := (name, .unknownName name)

/-- The names that the first transaction needs, in the order in which it looks them up. Those of the
attributes and of the members that it describes are always given. -/
def needs (v : Vocabulary) (schema : List AttributeSpec) : List (String × Fault) :=
  [v.valueKind, v.cardinality, v.members, v.documentation].map known
    ++ [v.memberName "attribute" "string", v.memberName "cardinality" "one"].map known
    ++ schema.flatMap (fun spec => [v.memberName "attribute" spec.kind,
        v.memberName "cardinality" spec.cardinality].map known)
    ++ [(v.assertOperation, .noAssertOperation), known v.timestamp]

section

variable {α β : Type} {needed later : List (String × Fault)}

theorem FailsOn.ok (x : α) : FailsOn names [] (.ok x) := by
  intro fault
  simp [firstMissing]

theorem FailsOn.given {name : String} {fault : Fault} {step : Except Fault α}
    (given : name ∈ names) (rest : FailsOn names needed step) :
    FailsOn names ((name, fault) :: needed) step := by
  intro other
  rw [rest other, firstMissing, firstMissing, List.find?_cons_of_neg (by simpa using given)]

theorem FailsOn.missing {name : String} (missing : name ∉ names) (fault : Fault) :
    FailsOn names ((name, fault) :: needed) (.error fault : Except Fault α) := by
  intro other
  rw [firstMissing, List.find?_cons_of_pos (by simpa using missing)]
  simp

theorem FailsOn.bind {step : Except Fault α} {next : α → Except Fault β}
    (first : FailsOn names needed step) (rest : ∀ x, FailsOn names later (next x)) :
    FailsOn names (needed ++ later) (step >>= next) := by
  intro fault
  have split : firstMissing names (needed ++ later)
      = (firstMissing names needed).or (firstMissing names later) := by
    rw [firstMissing, List.find?_append, Option.map_or, firstMissing, firstMissing]
  rw [split]
  cases step with
  | error failed =>
    rw [(first failed).mp rfl, Option.some_or, Outcome.error_bind]
    simp
  | ok x =>
    have none : firstMissing names needed = none := by
      cases missing : firstMissing names needed with
      | none => rfl
      | some failed => cases (first failed).mpr missing
    rw [none, Option.none_or, Outcome.ok_bind]
    exact rest x fault

theorem FailsOn.mapM {step : α → Except Fault β} {needed : α → List (String × Fault)} {xs : List α}
    (each : ∀ x ∈ xs, FailsOn names (needed x) (step x)) :
    FailsOn names (xs.flatMap needed) (xs.mapM step) := by
  induction xs with
  | nil => exact .ok []
  | cons x rest ih =>
    have others := ih fun y member => each y (List.mem_cons_of_mem x member)
    rw [List.mapM_cons, List.flatMap_cons]
    refine (each x List.mem_cons_self).bind fun y => ?_
    rw [← List.append_nil (rest.flatMap needed)]
    exact others.bind fun ys => .ok (y :: ys)

end

theorem idOf_failsOn_nothing {name : String} (given : name ∈ names) :
    FailsOn names [] (idOf names name) := by
  obtain ⟨e, found⟩ := exists_idOf given
  rw [found]
  exact .ok e

theorem idOf_failsOn (names : List String) (name : String) :
    FailsOn names [known name] (idOf names name) := by
  by_cases given : name ∈ names
  · exact .given given (idOf_failsOn_nothing given)
  · have unfound : names.zipIdx.findRev? (·.1 == name) = none := by
      rw [List.findRev?_eq_find?_reverse, List.find?_eq_none]
      intro entry member same
      have listed := List.fst_mem_of_mem_zipIdx (List.mem_reverse.mp member)
      exact given (beq_iff_eq.mp same ▸ listed)
    rw [idOf, unfound]
    exact .missing given _

theorem memberRef_failsOn (v : Vocabulary) (names : List String) (key member : String) :
    FailsOn names [known (v.memberName key member)] (memberRef v names key member) :=
  (idOf_failsOn names _).bind fun e => .ok (Value.ref e)

theorem describing_failsOn (v : Vocabulary) (names : List String) :
    FailsOn names ([v.valueKind, v.cardinality, v.members, v.documentation].map known)
      (describing v names) :=
  (idOf_failsOn names v.valueKind).bind fun _ => (idOf_failsOn names v.cardinality).bind fun _ =>
    (idOf_failsOn names v.members).bind fun _ => (idOf_failsOn names v.documentation).bind fun _ =>
      .ok _

theorem describeIdentity_failsOn (v : Vocabulary) (names : List String) (by_ : Describing) :
    FailsOn names
      ([v.memberName "attribute" "string", v.memberName "cardinality" "one"].map known)
      (describeIdentity v names by_) :=
  (memberRef_failsOn v names "attribute" "string").bind fun _ =>
    (memberRef_failsOn v names "cardinality" "one").bind fun _ => .ok _

/-- Describing an attribute of a schema can fail on its kind and on its cardinality. -/
theorem describe_failsOn (by_ : Describing) {spec : AttributeSpec} (member : spec ∈ schema) :
    FailsOn (allNames v schema)
      ([v.memberName "attribute" spec.kind, v.memberName "cardinality" spec.cardinality].map known)
      (describe v (allNames v schema) by_ spec) := by
  have members : FailsOn (allNames v schema) []
      (spec.members.mapM (memberRef v (allNames v schema) spec.key)) := by
    have each : ∀ name ∈ spec.members,
        FailsOn (allNames v schema) [] (memberRef v (allNames v schema) spec.key name) := by
      intro name among
      have given := memberName_mem (v := v) ⟨spec, member, rfl, among⟩
      exact (idOf_failsOn_nothing given).bind fun e => .ok (Value.ref e)
    have nothing : spec.members.flatMap (fun _ => ([] : List (String × Fault))) = [] := by simp
    exact nothing ▸ FailsOn.mapM each
  have given := attributeName_mem (v := v) ⟨spec, member, rfl⟩
  refine (idOf_failsOn_nothing given).bind fun _ =>
    (memberRef_failsOn v _ "attribute" spec.kind).bind fun _ => ?_
  dsimp only
  split
  · exact members.bind fun _ =>
      (memberRef_failsOn v _ "cardinality" spec.cardinality).bind fun _ => .ok _
  · exact (memberRef_failsOn v _ "cardinality" spec.cardinality).bind fun _ => .ok _

/-- The first transaction fails exactly if a name that it needs is not given. -/
theorem firstFacts_failsOn (v : Vocabulary) (schema : List AttributeSpec) (timestamp : Int64) :
    FailsOn (allNames v schema) (needs v schema) (firstFacts v schema timestamp) := by
  unfold needs
  simp only [List.append_assoc]
  refine (describing_failsOn v _).bind fun by_ => (describeIdentity_failsOn v _ by_).bind fun _ =>
    (FailsOn.mapM fun spec => describe_failsOn by_).bind fun _ => ?_
  -- what is left is to find the operation and then the attribute of the time
  have time := idOf_failsOn (allNames v schema) v.timestamp
  dsimp only
  split
  next name op found =>
    have given : v.assertOperation ∈ allNames v schema := by
      obtain rfl : name = v.assertOperation := by simpa using List.find?_some found
      exact List.fst_mem_of_mem_zipIdx (List.mem_of_find?_eq_some found)
    exact .given given (time.bind fun _ => .ok _)
  next unfound =>
    have missing : v.assertOperation ∉ allNames v schema := by
      intro given
      obtain ⟨e, at_⟩ := List.mem_iff_getElem?.mp given
      have place := List.mk_mem_zipIdx_iff_getElem?.mpr at_
      exact List.find?_eq_none.mp unfound _ place (beq_self_eq_true _)
    exact .missing missing _

/-- The first transaction of any schema stands on its own: what it refers to it names, and where it
gives no name twice, it says of every attribute what the schema says. It fails exactly if a name
that it needs is not among those that it gives, on the first of these. -/
theorem firstFacts_stands_alone (v : Vocabulary) (schema : List AttributeSpec) (timestamp : Int64) :
    (∀ facts, firstFacts v schema timestamp = .ok facts →
      (allNames v schema).length = 1 + schema.length + (schema.map (·.members.length)).sum ∧
      SelfContained v (allNames v schema) timestamp facts ∧
      ((allNames v schema).Nodup → ∀ (e : EntityId) spec, (naming :: schema)[e]? = some spec →
        Describes v (allNames v schema) facts e spec)) ∧
    ∀ fault, firstFacts v schema timestamp = .error fault ↔
      firstMissing (allNames v schema) (needs v schema) = some fault := by
  refine ⟨fun facts ok => ⟨length_allNames v schema, firstFacts_selfContained ok, ?_⟩,
    firstFacts_failsOn v schema timestamp⟩
  intro distinct e spec at_
  exact firstFacts_describes ok distinct at_

/-- The system's own schema gives no name twice, so its first transaction lists the two values of
the cardinality attribute; without any attributes it has no name for the kinds of attributes. -/
theorem firstFacts_stands_alone_system :
    (∃ facts, firstFacts .standard system 5 = .ok facts ∧
      ∃ attr : EntityId, (allNames .standard system)[attr]? = some ":db/enum" ∧
        List.Forall₂ (Refers (allNames .standard system))
          [":db.cardinality/one", ":db.cardinality/many"] (Log.valuesAt facts 2 attr)) ∧
    firstFacts .standard [] 5 = .error (.unknownName ":db/attribute") := by
  constructor
  · obtain ⟨facts, ok⟩ := selfDescribing_system.exists_firstFacts .standard 5
    have distinct : (allNames .standard system).Nodup := by decide +kernel
    obtain ⟨_, _, describes⟩ := (firstFacts_stands_alone .standard system 5).1 facts ok
    exact ⟨facts, ok, (describes distinct 2 _ rfl).members⟩
  · exact ((firstFacts_stands_alone .standard [] 5).2 _).mpr rfl

end Schema

end Factbase
