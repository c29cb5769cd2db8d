import Factbase.Proofs.Founding

/-!
# Factbase.Proofs.Naming

Which names a new database knows. A log finds names through its naming facts alone. A schema that
declares whatever it uses can be written down in every name space, and the first transaction of a
database then gives each name of the schema to one entity, in the order of the names.
-/

namespace Factbase

/-! ### Naming facts -/

namespace Log

theorem entityOf_eq_find? (fs : List Fact) (name : String) :
    entityOf fs name = ((identities fs).find? (·.2 == name)).map Prod.fst := by
  -- facts that name nothing are passed over on both sides
  induction fs with
  | nil => rfl
  | cons f rest ih =>
    cases named : f.name? with
    | none => simpa [entityOf, identities, named] using ih
    | some other =>
      by_cases same : other = name
      · simp [entityOf, identities, named, same]
      · simpa [entityOf, identities, named, same] using ih

theorem nameOf_eq_find? (fs : List Fact) (e : EntityId) :
    nameOf fs e = ((identities fs).find? (·.1 == e)).map Prod.snd := by
  induction fs with
  | nil => rfl
  | cons f rest ih =>
    cases named : f.name? with
    | none => simpa [nameOf, identities, named] using ih
    | some name =>
      by_cases same : f.entity = e
      · simp [nameOf, identities, named, same]
      · simpa [nameOf, identities, named, same] using ih

theorem find?_of_nodup {α κ : Type} [BEq κ] [LawfulBEq κ] {key : α → κ} {xs : List α} {x : α}
    (distinct : (xs.map key).Nodup) (member : x ∈ xs) : xs.find? (key · == key x) = some x := by
  induction xs with
  | nil => cases member
  | cons y rest ih =>
    rw [List.map_cons, List.nodup_cons] at distinct
    rcases List.mem_cons.mp member with rfl | later
    · simp
    · have other : key y ≠ key x := fun same => distinct.1 (same ▸ List.mem_map_of_mem later)
      rw [List.find?_cons_of_neg (by simpa using other), ih distinct.2 later]

variable {fs : List Fact} {e : EntityId} {name : String}

/-- Where no name is given twice, a name stands for the entity it is given to. -/
theorem entityOf_of_mem (distinct : ((identities fs).map Prod.snd).Nodup)
    (member : (e, name) ∈ identities fs) : entityOf fs name = some e := by
  rw [entityOf_eq_find?, find?_of_nodup distinct member]
  rfl

/-- Where no entity is named twice, an entity has the name it is given. -/
theorem nameOf_of_mem (distinct : ((identities fs).map Prod.fst).Nodup)
    (member : (e, name) ∈ identities fs) : nameOf fs e = some name := by
  rw [nameOf_eq_find?, find?_of_nodup distinct member]
  rfl

theorem entityOf_eq_none (absent : name ∉ (identities fs).map Prod.snd) :
    entityOf fs name = none := by
  have unfound : (identities fs).find? (·.2 == name) = none := by
    rw [List.find?_eq_none]
    intro entry member same
    exact absent (List.mem_map.mpr ⟨entry, member, by simpa using same⟩)
  rw [entityOf_eq_find?, unfound]
  rfl

theorem identities_append (fs gs : List Fact) :
    identities (fs ++ gs) = identities fs ++ identities gs :=
  List.filterMap_append

theorem identities_eq_nil (other : ∀ f ∈ fs, f.attr ≠ nameAttribute) : identities fs = [] := by
  rw [identities, List.filterMap_eq_nil_iff]
  intro f member
  rw [Fact.name?, if_neg (other f member)]
  rfl

end Log

/-! ### Names in a name space -/

namespace Vocabulary

variable {v : Vocabulary}

theorem attributeSuffix_inj {key other : String} :
    attributeSuffix key = attributeSuffix other ↔ key = other := by
  constructor
  · intro same
    -- behind its first character, a suffix is the key
    have chars := congrArg (fun s => s.toList.drop 1) same
    simp only [attributeSuffix, String.toList_append] at chars
    apply String.toList_inj.mp
    split at chars <;> split at chars <;> simpa using chars
  · rintro rfl
    rfl

theorem attributeName_inj {key other : String} :
    v.attributeName key = v.attributeName other ↔ key = other := by
  rw [attributeName, attributeName, within_inj, attributeSuffix_inj]

/-- Keywords can stand for the names of a vocabulary if its name space starts with a colon. -/
def Keyed (v : Vocabulary) : Prop := v.space.toList.head? = some ':'

instance (v : Vocabulary) : Decidable v.Keyed :=
  inferInstanceAs (Decidable (v.space.toList.head? = some ':'))

theorem head?_within {suffix : String} (plain : suffix.toList.head? ≠ some ':') :
    (v.within suffix).toList.head? = some ':' ↔ v.Keyed := by
  rw [within, String.toList_append, List.head?_append, Keyed]
  cases v.space.toList.head? with
  | none => simpa using plain
  | some c => simp

theorem head?_attributeName (v : Vocabulary) (key : String) :
    (v.attributeName key).toList.head? = some ':' ↔ v.Keyed := by
  apply head?_within
  unfold attributeSuffix
  split <;> simp

theorem head?_memberName (v : Vocabulary) (key member : String) :
    (v.memberName key member).toList.head? = some ':' ↔ v.Keyed := by
  apply head?_within
  simp [memberSuffix]

end Vocabulary

/-- A name becomes a keyword and is read back, with a colon if it had none. -/
theorem Form.asName?_ofName (name : String) :
    (ofName name).asName? = some (if name.toList.head? = some ':' then name else ":" ++ name) := by
  unfold ofName
  split
  next rest chars =>
    have whole : ":" ++ String.ofList rest = name := by
      apply String.toList_inj.mp
      rw [chars]
      simp
    simp [asName?, chars, whole]
  next other =>
    have plain : name.toList.head? ≠ some ':' := by
      intro first
      obtain ⟨rest, chars⟩ := List.head?_eq_some_iff.mp first
      exact other rest chars
    rw [if_neg plain]
    rfl

/-! ### Schemas -/

namespace Schema

variable {v : Vocabulary} {schema : List AttributeSpec}

/-- What the names of a schema add to the name space. -/
def suffixes (schema : List AttributeSpec) : List String :=
  Vocabulary.attributeSuffix "identity" :: (schema.map (Vocabulary.attributeSuffix ·.key)
    ++ schema.flatMap fun spec => spec.members.map (Vocabulary.memberSuffix spec.key))

theorem allNames_eq (v : Vocabulary) (schema : List AttributeSpec) :
    allNames v schema = (suffixes schema).map v.within := by
  simp only [allNames, suffixes, List.map_cons, List.map_append, List.map_map, List.map_flatMap]
  rfl

/-- Where no name is given twice, a name has one place among the names. -/
theorem number_of_nodup {names : List String} (distinct : names.Nodup) {e e' : EntityId}
    {name : String} (first : names[e]? = some name) (second : names[e']? = some name) : e = e' :=
  (List.getElem?_inj (List.getElem?_eq_some_iff.mp first).1 distinct).mp
    (first.trans second.symm)

/-- The naming attribute, as a schema would list it. -/
def naming : AttributeSpec := ⟨"identity", "string", "one", none, []⟩

/-- The attributes come first among the names, and the naming attribute first of all. -/
theorem getElem?_allNames {e : EntityId} {spec : AttributeSpec}
    (at_ : (naming :: schema)[e]? = some spec) :
    (allNames v schema)[e]? = some (v.attributeName spec.key) := by
  have first : allNames v schema = (naming :: schema).map (v.attributeName ·.key)
      ++ schema.flatMap fun spec => spec.members.map (v.memberName spec.key) := rfl
  have low := (List.getElem?_eq_some_iff.mp at_).1
  rw [first, List.getElem?_append_left (by simpa using low), List.getElem?_map, at_]
  rfl

/-- The names of a schema start with a colon if the name space does. -/
theorem head?_of_mem_allNames {name : String} (member : name ∈ allNames v schema) :
    name.toList.head? = some ':' ↔ v.Keyed := by
  simp only [allNames, List.mem_cons, List.mem_append, List.mem_map, List.mem_flatMap] at member
  rcases member with rfl | ⟨spec, _, rfl⟩ | ⟨spec, _, member, _, rfl⟩
  · exact v.head?_attributeName "identity"
  · exact v.head?_attributeName spec.key
  · exact v.head?_memberName spec.key member

/-- A member that a schema lists for one of its attributes. -/
def Declares (schema : List AttributeSpec) (key member : String) : Prop :=
  ∃ spec ∈ schema, spec.key = key ∧ member ∈ spec.members

instance (schema : List AttributeSpec) (key member : String) :
    Decidable (Declares schema key member) :=
  inferInstanceAs (Decidable (∃ spec ∈ schema, spec.key = key ∧ member ∈ spec.members))

/-- A schema that has whatever is used to describe its attributes and to record that. -/
structure SelfDescribing (schema : List AttributeSpec) : Prop where
  keys : ∀ key ∈ ["attribute", "cardinality", "enum", "documentation", "transaction/timestamp"],
    ∃ spec ∈ schema, spec.key = key
  naming : Declares schema "attribute" "string" ∧ Declares schema "cardinality" "one"
  assertion : Declares schema "operation" "assert"
  kind : ∀ spec ∈ schema, Declares schema "attribute" spec.kind
  cardinality : ∀ spec ∈ schema, Declares schema "cardinality" spec.cardinality

theorem selfDescribing_system : SelfDescribing system := by
  constructor <;> decide

theorem attributeName_mem {key : String} (listed : ∃ spec ∈ schema, spec.key = key) :
    v.attributeName key ∈ allNames v schema := by
  obtain ⟨spec, member, rfl⟩ := listed
  exact List.mem_cons_of_mem _ (List.mem_append_left _ (List.mem_map_of_mem member))

theorem memberName_mem {key member : String} (listed : Declares schema key member) :
    v.memberName key member ∈ allNames v schema := by
  obtain ⟨spec, inside, rfl, among⟩ := listed
  apply List.mem_cons_of_mem _ (List.mem_append_right _ _)
  exact List.mem_flatMap.mpr ⟨spec, inside, List.mem_map_of_mem among⟩

theorem exists_idOf {names : List String} {name : String} (member : name ∈ names) :
    ∃ e, idOf names name = .ok e := by
  -- of the places of the name it is the last that counts, so the first one is only a witness
  obtain ⟨e, at_⟩ := List.mem_iff_getElem?.mp member
  have found : (names.zipIdx.findRev? (·.1 == name)).isSome := by
    rw [List.findRev?_eq_find?_reverse, List.find?_isSome]
    refine ⟨(name, e), List.mem_reverse.mpr (List.mem_zipIdx_iff_getElem?.mpr at_), ?_⟩
    simp
  obtain ⟨entry, found⟩ := Option.isSome_iff_exists.mp found
  exact ⟨entry.2, by rw [idOf, found]⟩

theorem memberRef_ok {names : List String} {key member : String}
    (listed : v.memberName key member ∈ names) : ∃ e, memberRef v names key member = .ok (.ref e) := by
  obtain ⟨e, found⟩ := exists_idOf listed
  exact ⟨e, by rw [memberRef, found]; rfl⟩

/-- A schema that declares whatever it uses can be written down, in any name space. -/
theorem SelfDescribing.exists_describing (closed : SelfDescribing schema) (v : Vocabulary) :
    ∃ by_, describing v (allNames v schema) = .ok by_ := by
  -- a key that the schema lists has a place among the names, whatever the name space
  have key : ∀ key ∈ ["attribute", "cardinality", "enum", "documentation",
      "transaction/timestamp"], ∃ e, idOf (allNames v schema) (v.attributeName key) = .ok e :=
    fun key listed => exists_idOf (attributeName_mem (closed.keys key listed))
  obtain ⟨valueKind, kind_ok⟩ := key "attribute" (by simp)
  obtain ⟨cardinality, cardinality_ok⟩ := key "cardinality" (by simp)
  obtain ⟨members, members_ok⟩ := key "enum" (by simp)
  obtain ⟨documentation, documentation_ok⟩ := key "documentation" (by simp)
  refine ⟨⟨valueKind, cardinality, members, documentation⟩, ?_⟩
  rw [describing, Vocabulary.valueKind, kind_ok, Vocabulary.cardinality, cardinality_ok,
    Vocabulary.members, members_ok, Vocabulary.documentation, documentation_ok]
  rfl

theorem SelfDescribing.exists_describe (closed : SelfDescribing schema) (v : Vocabulary)
    (by_ : Describing) {spec : AttributeSpec} (member : spec ∈ schema) :
    ∃ statements, describe v (allNames v schema) by_ spec = .ok statements := by
  obtain ⟨entity, entity_ok⟩ := exists_idOf (attributeName_mem (v := v) ⟨spec, member, rfl⟩)
  obtain ⟨kind, kind_ok⟩ := memberRef_ok (memberName_mem (v := v) (closed.kind spec member))
  obtain ⟨cardinality, cardinality_ok⟩ :=
    memberRef_ok (memberName_mem (v := v) (closed.cardinality spec member))
  -- the members of an attribute are names of the schema because it is listed with them
  obtain ⟨refs, members_ok⟩ : ∃ refs,
      spec.members.mapM (memberRef v (allNames v schema) spec.key) = .ok refs := by
    apply Outcome.exists_mapM
    intro name among
    obtain ⟨e, found⟩ := memberRef_ok (memberName_mem (v := v) ⟨spec, member, rfl, among⟩)
    exact ⟨.ref e, found⟩
  simp only [describe, entity_ok, kind_ok, cardinality_ok, members_ok, Outcome.ok_bind]
  split <;> exact ⟨_, rfl⟩

theorem SelfDescribing.exists_firstFacts (closed : SelfDescribing schema) (v : Vocabulary)
    (timestamp : Int64) : ∃ facts, firstFacts v schema timestamp = .ok facts := by
  obtain ⟨by_, described⟩ := closed.exists_describing v
  obtain ⟨kind, kind_ok⟩ := memberRef_ok (memberName_mem (v := v) closed.naming.1)
  obtain ⟨cardinality, cardinality_ok⟩ := memberRef_ok (memberName_mem (v := v) closed.naming.2)
  obtain ⟨attributes, attributes_ok⟩ : ∃ attributes,
      schema.mapM (describe v (allNames v schema) by_) = .ok attributes :=
    Outcome.exists_mapM fun spec member => closed.exists_describe v by_ member
  have assertion : ((allNames v schema).zipIdx.find? (·.1 == v.assertOperation)).isSome := by
    obtain ⟨e, at_⟩ := List.mem_iff_getElem?.mp (memberName_mem (v := v) closed.assertion)
    rw [List.find?_isSome]
    exact ⟨(_, e), List.mem_zipIdx_iff_getElem?.mpr at_, beq_iff_eq.mpr rfl⟩
  obtain ⟨⟨_, op⟩, assertion⟩ := Option.isSome_iff_exists.mp assertion
  have timed := closed.keys "transaction/timestamp" (by simp)
  obtain ⟨timestampAttr, timestamp_ok⟩ := exists_idOf (attributeName_mem (v := v) timed)
  simp only [firstFacts, described, describeIdentity, kind_ok, cardinality_ok, attributes_ok,
    assertion, Vocabulary.timestamp, timestamp_ok, Outcome.ok_bind]
  exact ⟨_, rfl⟩

/-! ### Names of the first transaction -/

/-- The entities of a schema with their names. -/
def roster (names : List String) : List (EntityId × String) := names.zipIdx.map Prod.swap

theorem mem_roster {names : List String} {e : EntityId} {name : String} :
    (e, name) ∈ roster names ↔ names[e]? = some name := by
  have place : (name, e) ∈ names.zipIdx ↔ names[e]? = some name := List.mem_zipIdx_iff_getElem?
  rw [← place, roster, List.mem_map]
  constructor
  · rintro ⟨⟨_, _⟩, member, ⟨⟩⟩
    exact member
  · exact fun member => ⟨(name, e), member, rfl⟩

theorem roster_fst (names : List String) : (roster names).map Prod.fst = List.range names.length := by
  rw [roster, List.map_map, List.range_eq_range']
  exact List.zipIdx_map_snd 0 names

theorem roster_snd (names : List String) : (roster names).map Prod.snd = names := by
  rw [roster, List.map_map]
  exact List.zipIdx_map_fst 0 names

/-- The only attribute with the number of the naming attribute is the naming attribute. -/
theorem idOf_ne_nameAttribute {key : String} (other : key ≠ "identity") {e : EntityId}
    (ok : idOf (allNames v schema) (v.attributeName key) = .ok e) : e ≠ nameAttribute := by
  rintro rfl
  have named := getElem?_of_idOf ok
  have same : v.attributeName "identity" = v.attributeName key := Option.some.inj named
  exact other (Vocabulary.attributeName_inj.mp same).symm

structure Describing.NotNaming (by_ : Describing) : Prop where
  valueKind : by_.valueKind ≠ nameAttribute
  cardinality : by_.cardinality ≠ nameAttribute
  members : by_.members ≠ nameAttribute
  documentation : by_.documentation ≠ nameAttribute

theorem describing_notNaming {by_ : Describing}
    (ok : describing v (allNames v schema) = .ok by_) : by_.NotNaming := by
  simp only [describing, Outcome.bind_eq_ok, Outcome.pure_eq_ok] at ok
  obtain ⟨_, kind, _, cardinality, _, members, _, documentation, rfl⟩ := ok
  constructor
  · exact idOf_ne_nameAttribute (by decide) kind
  · exact idOf_ne_nameAttribute (by decide) cardinality
  · exact idOf_ne_nameAttribute (by decide) members
  · exact idOf_ne_nameAttribute (by decide) documentation

theorem Describing.NotNaming.describeIdentity {by_ : Describing} (apart : by_.NotNaming)
    {names : List String} {statements : List Statement}
    (ok : describeIdentity v names by_ = .ok statements) :
    ∀ st ∈ statements, st.2.1 ≠ nameAttribute := by
  simp only [Schema.describeIdentity, Outcome.bind_eq_ok, Outcome.pure_eq_ok] at ok
  obtain ⟨kind, _, cardinality, _, rfl⟩ := ok
  simp [apart.valueKind, apart.cardinality]

theorem Describing.NotNaming.describe {by_ : Describing} (apart : by_.NotNaming)
    {names : List String} {spec : AttributeSpec} {statements : List Statement}
    (ok : describe v names by_ spec = .ok statements) :
    ∀ st ∈ statements, st.2.1 ≠ nameAttribute := by
  obtain ⟨entity, kind, members, cardinality, _, _, _, _, rfl⟩ := describe_cases ok
  intro st inside
  simp only [List.cons_append, List.mem_cons, List.mem_append, List.mem_map,
    Option.mem_toList, Option.map_eq_some_iff] at inside
  rcases inside with rfl | ⟨member, _, rfl⟩ | rfl | ⟨text, _, rfl⟩
  · exact apart.valueKind
  · exact apart.members
  · exact apart.cardinality
  · exact apart.documentation

theorem identities_namings (names : List String) (tx op : EntityId) :
    Log.identities ((namings names).map fun (e, a, value) => ⟨e, a, value, tx, op⟩)
      = roster names := by
  rw [Log.identities, List.filterMap_map, namings, List.filterMap_map, roster,
    ← List.filterMap_eq_map]
  rfl

/-- The naming facts of the first transaction are those of the names, in their order. -/
theorem identities_firstFacts {timestamp : Int64} {facts : List Fact}
    (ok : firstFacts v schema timestamp = .ok facts) :
    Log.identities facts = roster (allNames v schema) := by
  obtain ⟨by_, identity, attributes, timestampAttr, op, described, identity_ok, attributes_ok,
    timestampAttr_ok, _, rfl⟩ := firstFacts_cases ok
  have apart := describing_notNaming described
  -- what follows the names is said under other attributes
  rw [List.append_assoc, List.append_assoc, List.map_append, Log.identities_append,
    identities_namings, Log.identities_eq_nil, List.append_nil]
  intro f member
  obtain ⟨st, inside, rfl⟩ := List.mem_map.mp member
  simp only [List.mem_append, List.mem_flatten, List.mem_singleton] at inside
  rcases inside with about_identity | ⟨part, part_member, about⟩ | rfl
  · exact apart.describeIdentity identity_ok st about_identity
  · obtain ⟨spec, _, spec_ok⟩ :=
      Outcome.exists_left_of_mem (Outcome.mapM_eq_ok.mp attributes_ok) part_member
    exact apart.describe spec_ok st about
  · exact idOf_ne_nameAttribute (by decide) timestampAttr_ok

end Schema

end Factbase
