import Factbase.Database
import Factbase.Proofs.Regular

/-!
# Factbase.Proofs.Founding

How a database begins. The first transaction numbers the names of the schema densely and its own
entity behind them, and every attribute it uses is one of those names; so the log of a new database
is regular from the start.
-/

namespace Factbase

namespace Schema

/-! ### Statements -/

/-- A statement about named entities, whose value is a text or a named entity. -/
structure Statement.Within (names : List String) (st : Statement) : Prop where
  entity : st.1 < names.length
  attr : st.2.1 < names.length
  value : (∃ text, st.2.2 = .text text) ∨ ∃ e < names.length, st.2.2 = .ref e

theorem getElem?_of_idOf {names : List String} {name : String} {e : EntityId}
    (ok : idOf names name = .ok e) : names[e]? = some name := by
  unfold idOf at ok
  split at ok
  next other e' found =>
    obtain rfl := Except.ok.inj ok
    rw [List.findRev?_eq_find?_reverse] at found
    have same : other = name := by simpa using List.find?_some found
    have member := List.mem_reverse.mp (List.mem_of_find?_eq_some found)
    exact same ▸ List.mem_zipIdx_iff_getElem?.mp member
  next => cases ok

theorem idOf_lt {names : List String} {name : String} {e : EntityId}
    (ok : idOf names name = .ok e) : e < names.length :=
  (List.getElem?_eq_some_iff.mp (getElem?_of_idOf ok)).1

theorem getElem?_of_findIdx? {names : List String} {name : String} {e : EntityId}
    (found : names.findIdx? (· == name) = some e) : names[e]? = some name := by
  obtain ⟨low, same, _⟩ := List.findIdx?_eq_some_iff_getElem.mp found
  rw [List.getElem?_eq_getElem low, beq_iff_eq.mp same]

/-- The attributes that describe attributes are named entities. -/
structure Describing.Within (names : List String) (by_ : Describing) : Prop where
  valueKind : by_.valueKind < names.length
  cardinality : by_.cardinality < names.length
  members : by_.members < names.length
  documentation : by_.documentation < names.length

theorem describing_within {v : Vocabulary} {names : List String} {by_ : Describing}
    (ok : describing v names = .ok by_) : by_.Within names := by
  simp only [describing, Outcome.bind_eq_ok, Outcome.pure_eq_ok] at ok
  obtain ⟨_, kind, _, cardinality, _, members, _, documentation, rfl⟩ := ok
  exact ⟨idOf_lt kind, idOf_lt cardinality, idOf_lt members, idOf_lt documentation⟩

theorem memberRef_within {v : Vocabulary} {names : List String} {key member : String}
    {value : Value} (ok : memberRef v names key member = .ok value) :
    ∃ e < names.length, value = .ref e := by
  simp only [memberRef, Outcome.bind_eq_ok, Outcome.pure_eq_ok] at ok
  obtain ⟨e, found, rfl⟩ := ok
  exact ⟨e, idOf_lt found, rfl⟩

theorem describeIdentity_within {v : Vocabulary} {names : List String} {by_ : Describing}
    (known : by_.Within names) {statements : List Statement}
    (ok : describeIdentity v names by_ = .ok statements) :
    ∀ st ∈ statements, st.Within names := by
  simp only [describeIdentity, Outcome.bind_eq_ok, Outcome.pure_eq_ok] at ok
  obtain ⟨kind, kind_ok, cardinality, cardinality_ok, rfl⟩ := ok
  have naming : nameAttribute < names.length := Nat.zero_lt_of_lt known.valueKind
  intro st member
  simp only [List.mem_cons, List.not_mem_nil, or_false] at member
  rcases member with rfl | rfl
  · exact ⟨naming, known.valueKind, .inr (memberRef_within kind_ok)⟩
  · exact ⟨naming, known.cardinality, .inr (memberRef_within cardinality_ok)⟩

/-- The members that the description of an attribute lists. -/
def listed (spec : AttributeSpec) : List String :=
  if spec.kind = "enum" then spec.members else []

/-- What describing an attribute says, whether or not it has members. -/
theorem describe_cases {v : Vocabulary} {names : List String} {by_ : Describing}
    {spec : AttributeSpec} {statements : List Statement}
    (ok : describe v names by_ spec = .ok statements) :
    ∃ (entity : EntityId) (kind : Value) (members : List Value) (cardinality : Value),
      idOf names (v.attributeName spec.key) = .ok entity ∧
      memberRef v names "attribute" spec.kind = .ok kind ∧
      (listed spec).mapM (memberRef v names spec.key) = .ok members ∧
      memberRef v names "cardinality" spec.cardinality = .ok cardinality ∧
      statements = (entity, by_.valueKind, kind)
        :: (members.map fun member => (entity, by_.members, member))
        ++ (entity, by_.cardinality, cardinality)
        :: (spec.documentation.map fun text =>
            (entity, by_.documentation, Value.text text)).toList := by
  simp only [describe, Outcome.bind_eq_ok] at ok
  obtain ⟨entity, entity_ok, kind, kind_ok, ok⟩ := ok
  -- the members are looked up only for attributes that list theirs
  split at ok
  next enum =>
    simp only [Outcome.bind_eq_ok, Outcome.pure_eq_ok] at ok
    obtain ⟨members, members_ok, cardinality, cardinality_ok, rfl⟩ := ok
    rw [← show listed spec = spec.members from if_pos enum] at members_ok
    exact ⟨entity, kind, members, cardinality, entity_ok, kind_ok, members_ok, cardinality_ok, rfl⟩
  next other =>
    simp only [Outcome.bind_eq_ok, Outcome.pure_eq_ok] at ok
    obtain ⟨_, rfl, cardinality, cardinality_ok, rfl⟩ := ok
    have none : listed spec = [] := if_neg other
    exact ⟨entity, kind, [], cardinality, entity_ok, kind_ok, by rw [none]; rfl, cardinality_ok,
      rfl⟩

theorem describe_within {v : Vocabulary} {names : List String} {by_ : Describing}
    (known : by_.Within names) {spec : AttributeSpec} {statements : List Statement}
    (ok : describe v names by_ spec = .ok statements) :
    ∀ st ∈ statements, st.Within names := by
  obtain ⟨entity, kind, members, cardinality, entity_ok, kind_ok, members_ok, cardinality_ok,
    rfl⟩ := describe_cases ok
  have about : entity < names.length := idOf_lt entity_ok
  intro st inside
  simp only [List.cons_append, List.mem_cons, List.mem_append, List.mem_map,
    Option.mem_toList, Option.map_eq_some_iff] at inside
  rcases inside with rfl | ⟨member, member_in, rfl⟩ | rfl | ⟨text, _, rfl⟩
  · exact ⟨about, known.valueKind, .inr (memberRef_within kind_ok)⟩
  · obtain ⟨_, _, found⟩ :=
      Outcome.exists_left_of_mem (Outcome.mapM_eq_ok.mp members_ok) member_in
    exact ⟨about, known.members, .inr (memberRef_within found)⟩
  · exact ⟨about, known.cardinality, .inr (memberRef_within cardinality_ok)⟩
  · exact ⟨about, known.documentation, .inl ⟨text, rfl⟩⟩

/-! ### The first transaction -/

/-- The facts of the first transaction of a database whose schema has these names. -/
structure Founds (names : List String) (facts : List Fact) : Prop where
  entity_le : ∀ f ∈ facts, f.entity ≤ names.length
  last : ∃ f ∈ facts, f.entity = names.length
  attr_lt : ∀ f ∈ facts, f.attr < names.length
  value : ∀ f ∈ facts, (∃ text, f.value = .text text) ∨ (∃ n, f.value = .int n) ∨
    ∃ e < names.length, f.value = .ref e
  tx_eq : ∀ f ∈ facts, f.tx = names.length
  op_lt : ∀ f ∈ facts, f.op < names.length
  named : ∀ e < names.length, (Log.nameOf facts e).isSome

/-- The facts of statements, among them one that names each entity, and of the time. -/
theorem founds_of_within {names : List String} {statements : List Statement}
    {timestampAttr op : EntityId} (timestamp : Int64)
    (within : ∀ st ∈ statements, st.Within names)
    (naming : ∀ e < names.length, ∃ name, (e, nameAttribute, Value.text name) ∈ statements)
    (timed : timestampAttr < names.length) (op_lt : op < names.length) :
    Founds names ((statements ++ [(names.length, timestampAttr, Value.int timestamp)]).map
      fun (e, a, value) => ⟨e, a, value, names.length, op⟩) where
  entity_le := by
    intro f member
    obtain ⟨st, st_member, rfl⟩ := List.mem_map.mp member
    rcases List.mem_append.mp st_member with stated | time
    · exact Nat.le_of_lt (within st stated).entity
    · obtain rfl := List.mem_singleton.mp time
      exact le_rfl
  last := ⟨⟨names.length, timestampAttr, .int timestamp, names.length, op⟩, by simp, rfl⟩
  attr_lt := by
    intro f member
    obtain ⟨st, st_member, rfl⟩ := List.mem_map.mp member
    rcases List.mem_append.mp st_member with stated | time
    · exact (within st stated).attr
    · obtain rfl := List.mem_singleton.mp time
      exact timed
  value := by
    intro f member
    obtain ⟨st, st_member, rfl⟩ := List.mem_map.mp member
    rcases List.mem_append.mp st_member with stated | time
    · rcases (within st stated).value with text | reference
      · exact .inl text
      · exact .inr (.inr reference)
    · obtain rfl := List.mem_singleton.mp time
      exact .inr (.inl ⟨timestamp, rfl⟩)
  tx_eq := by
    intro f member
    obtain ⟨st, _, rfl⟩ := List.mem_map.mp member
    rfl
  op_lt := by
    intro f member
    obtain ⟨st, _, rfl⟩ := List.mem_map.mp member
    exact op_lt
  named := by
    intro e low
    obtain ⟨name, member⟩ := naming e low
    apply Log.nameOf_isSome.mpr
    exact ⟨_, List.mem_map_of_mem (List.mem_append_left _ member), rfl, rfl⟩

/-- The statements that name the entities of a schema. -/
def namings (names : List String) : List Statement :=
  names.zipIdx.map fun (name, e) => (e, nameAttribute, Value.text name)

/-- The first transaction names all entities of the schema in order, describes them, and tells its
own time. -/
theorem firstFacts_cases {v : Vocabulary} {schema : List AttributeSpec} {timestamp : Int64}
    {facts : List Fact} (ok : firstFacts v schema timestamp = .ok facts) :
    ∃ (by_ : Describing) (identity : List Statement) (attributes : List (List Statement))
        (timestampAttr op : EntityId),
      describing v (allNames v schema) = .ok by_ ∧
      describeIdentity v (allNames v schema) by_ = .ok identity ∧
      schema.mapM (describe v (allNames v schema) by_) = .ok attributes ∧
      idOf (allNames v schema) v.timestamp = .ok timestampAttr ∧
      (allNames v schema).findIdx? (· == v.assertOperation) = some op ∧
      facts = ((namings (allNames v schema) ++ identity ++ attributes.flatten)
          ++ [((allNames v schema).length, timestampAttr, Value.int timestamp)]).map
        fun (e, a, value) => ⟨e, a, value, (allNames v schema).length, op⟩ := by
  simp only [firstFacts, Outcome.bind_eq_ok] at ok
  obtain ⟨by_, described, identity, identity_ok, attributes, attributes_ok, ok⟩ := ok
  cases found : (allNames v schema).zipIdx.find? (·.1 == v.assertOperation) with
  | none => simp [found] at ok
  | some entry =>
  obtain ⟨name, op⟩ := entry
  simp only [found, Outcome.bind_eq_ok, Outcome.pure_eq_ok, Except.ok.injEq] at ok
  obtain ⟨_, rfl, timestampAttr, timestampAttr_ok, rfl⟩ := ok
  have assertion : (allNames v schema).findIdx? (· == v.assertOperation) = some op := by
    rw [List.findIdx?_eq_fst_find?_zipIdx]
    exact Option.map_eq_some_iff.mpr ⟨_, found, rfl⟩
  exact ⟨by_, identity, attributes, timestampAttr, op, described, identity_ok, attributes_ok,
    timestampAttr_ok, assertion, rfl⟩

/-- Whatever the first transaction says before it tells its time is about named entities. -/
theorem statements_within {v : Vocabulary} {schema : List AttributeSpec} {by_ : Describing}
    {identity : List Statement} {attributes : List (List Statement)}
    (described : describing v (allNames v schema) = .ok by_)
    (identity_ok : describeIdentity v (allNames v schema) by_ = .ok identity)
    (attributes_ok : schema.mapM (describe v (allNames v schema) by_) = .ok attributes) :
    ∀ st ∈ namings (allNames v schema) ++ identity ++ attributes.flatten,
      st.Within (allNames v schema) := by
  have known := describing_within described
  intro st member
  simp only [namings, List.mem_append, List.mem_map, List.mem_flatten] at member
  rcases member with (⟨entry, place, rfl⟩ | about_identity) | ⟨part, part_member, about⟩
  · have low : entry.2 < (allNames v schema).length := by
      simpa using List.snd_lt_of_mem_zipIdx place
    exact ⟨low, Nat.zero_lt_of_lt low, .inl ⟨entry.1, rfl⟩⟩
  · exact describeIdentity_within known identity_ok st about_identity
  · obtain ⟨spec, _, spec_ok⟩ :=
      Outcome.exists_left_of_mem (Outcome.mapM_eq_ok.mp attributes_ok) part_member
    exact describe_within known spec_ok st about

theorem firstFacts_founds {v : Vocabulary} {schema : List AttributeSpec} {timestamp : Int64}
    {facts : List Fact} (ok : firstFacts v schema timestamp = .ok facts) :
    Founds (allNames v schema) facts := by
  obtain ⟨by_, identity, attributes, timestampAttr, op, described, identity_ok, attributes_ok,
    timestampAttr_ok, assertion, rfl⟩ := firstFacts_cases ok
  have within := statements_within described identity_ok attributes_ok
  have op_lt := (List.getElem?_eq_some_iff.mp (getElem?_of_findIdx? assertion)).1
  -- among the statements are those that name the entities
  apply founds_of_within timestamp within ?_ (idOf_lt timestampAttr_ok) op_lt
  intro e low
  refine ⟨(allNames v schema)[e], ?_⟩
  simp only [namings, List.append_assoc, List.mem_append, List.mem_map]
  exact .inl ⟨((allNames v schema)[e], e), List.mem_zipIdx_iff_getElem?.mpr (by simp [low]), rfl⟩

/-- The log of the first transaction is regular, if there are numbers enough. -/
theorem Founds.regular {names : List String} {facts : List Fact} (founds : Founds names facts)
    (room : names.length ≤ maxEntityId) : Log.Regular facts names.length where
  greatest := Log.lastEntity_eq_some.mpr ⟨founds.last, founds.entity_le⟩
  tx_le f member := Nat.le_of_eq (founds.tx_eq f member)
  last_le := room
  named f member := founds.named f.attr (founds.attr_lt f member)

theorem Founds.length_pos {names : List String} {facts : List Fact}
    (founds : Founds names facts) : 0 < facts.length := by
  obtain ⟨f, member, _⟩ := founds.last
  exact List.length_pos_of_mem member

theorem length_allNames_system (v : Vocabulary) : (allNames v system).length = 37 := rfl

end Schema

/-! ### Opening -/

namespace Store

/-- A change hands the store it leaves to the next steps, and ends the steps if it fails. -/
theorem Steps.change_bind {α β : Type} (f : Store → Except Fault (α × Store))
    (next : α → Store.Steps β) (s : Store) :
    (change f >>= next) s =
      match f s with
      | .ok (x, s') => next x s'
      | .error fault => (.error fault, s) := by
  show ExceptT.bindCont next (change f s).1 (change f s).2 = _
  unfold change
  cases f s <;> rfl

theorem Steps.change_bind_eq_ok {α β : Type} {f : Store → Except Fault (α × Store)}
    {next : α → Store.Steps β} {s s' : Store} {y : β}
    (ok : (change f >>= next) s = (.ok y, s')) :
    ∃ x between, f s = .ok (x, between) ∧ next x between = (.ok y, s') := by
  rw [change_bind] at ok
  cases changed : f s with
  | error fault =>
    rw [changed] at ok
    cases (Prod.mk.inj ok).1
  | ok result =>
    rw [changed] at ok
    exact ⟨result.1, result.2, rfl, ok⟩

/-- Founding a database writes the schema and carries out two requests. -/
theorem Steps.found_cases {v : Vocabulary} {founding : Founding} {s s' : Store}
    (ok : found v founding s = (.ok (), s')) :
    ∃ facts first receipt second next receipt',
      Schema.firstFacts v Schema.system founding.schemaTime = .ok facts ∧
      s.insertAll facts = .ok first ∧
      first.transact v founding.attributesTime (Schema.metadataAttributes v)
        = .ok (receipt, second) ∧
      Transaction.nextEntity second = .ok next ∧
      second.transact v founding.metadataTime
        (Schema.metadataEntity v founding.databaseId next) = .ok (receipt', s') := by
  unfold found at ok
  -- the four changes one after another, and then the steps inside the first and the third
  obtain ⟨_, first, schema, ok⟩ := change_bind_eq_ok ok
  obtain ⟨receipt, second, attributes, ok⟩ := change_bind_eq_ok ok
  obtain ⟨next, between, numbered, ok⟩ := change_bind_eq_ok ok
  obtain ⟨receipt', third, metadata, finished⟩ := change_bind_eq_ok ok
  obtain ⟨facts, facts_ok, written⟩ := Outcome.bind_eq_ok.mp schema
  obtain ⟨kept, inserted, same⟩ := Outcome.bind_eq_ok.mp written
  obtain ⟨_, rfl⟩ := Prod.mk.inj (Outcome.pure_eq_ok.mp same)
  obtain ⟨number, number_ok, same⟩ := Outcome.bind_eq_ok.mp numbered
  obtain ⟨rfl, rfl⟩ := Prod.mk.inj (Outcome.pure_eq_ok.mp same)
  obtain rfl : third = s' := congrArg Prod.snd finished
  exact ⟨facts, kept, receipt, second, number, receipt', facts_ok, inserted, attributes,
    number_ok, metadata⟩

end Store

end Factbase
