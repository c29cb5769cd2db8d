import Factbase.Proofs.Keyword
import Factbase.Proofs.Storable

/-!
# Factbase.Proofs.Opening

What opening a store without facts comes to. The requests that found a database speak of its names
as keywords. If the name space starts with a colon, the keywords stand for the names, and founding
ends with a complete database. If it does not, founding fails at its last step, when the schema is
already in the store.
-/

namespace Factbase

/-! ### Names -/

namespace Database

/-- The entities of a new database with their names: those of the schema, in its order, the two
attributes of a database as a whole, and the entity that they describe. -/
def roster (v : Vocabulary) : List (EntityId × String) :=
  Schema.roster (Schema.allNames v Schema.system)
    ++ [(39, v.databaseId), (40, v.nextEntityId), (42, v.metadata)]

theorem roster_fst (v : Vocabulary) :
    (roster v).map Prod.fst = List.range 37 ++ [39, 40, 42] := by
  rw [roster, List.map_append, Schema.roster_fst, Schema.length_allNames_system]
  rfl

/-- No two names of a new database are the same, in any name space. -/
theorem roster_snd_nodup (v : Vocabulary) : ((roster v).map Prod.snd).Nodup := by
  have suffixes : (roster v).map Prod.snd = (Schema.suffixes Schema.system ++
      ["database-id", "next-entity-id", "metadata"].map Vocabulary.attributeSuffix).map
        v.within := by
    rw [roster, List.map_append, Schema.roster_snd, Schema.allNames_eq, List.map_append]
    rfl
  rw [suffixes]
  apply List.Nodup.map
  · intro a b same
    exact Vocabulary.within_inj.mp same
  · decide +kernel

theorem roster_fst_nodup (v : Vocabulary) : ((roster v).map Prod.fst).Nodup := by
  rw [roster_fst]
  decide

end Database

/-! ### Stages -/

theorem Log.lastEntity_append_of_le {fs gs : List Fact} {last last' : EntityId}
    (first : lastEntity fs = some last) (second : lastEntity gs = some last') (le : last ≤ last') :
    lastEntity (fs ++ gs) = some last' := by
  obtain ⟨⟨f, member, same⟩, bound⟩ := lastEntity_eq_some.mp second
  refine lastEntity_eq_some.mpr ⟨⟨f, List.mem_append_right fs member, same⟩, ?_⟩
  intro g inside
  rcases List.mem_append.mp inside with old | new
  · exact Nat.le_trans ((lastEntity_eq_some.mp first).2 g old) le
  · exact bound g new

/-- What was said last about an entity that nothing was said about before. -/
theorem Log.lookup_about_new {fs gs : List Fact} {e asOf : EntityId}
    (older : ∀ f ∈ fs, f.entity ≠ e) (seen : ∀ g ∈ gs, g.tx ≤ asOf) (attr : EntityId) :
    lookup (fs ++ gs) ⟨some e, some attr, none, none, none⟩ asOf
      = gs.filter fun g => g.entity == e && g.attr == attr := by
  have unseen : lookup fs ⟨some e, some attr, none, none, none⟩ asOf = [] := by
    apply List.filter_eq_nil_iff.mpr
    intro f member
    have other : e ≠ f.entity := (older f member).symm
    simp [Pattern.isMatch, Pattern.fits, other]
  rw [lookup, List.filter_append, ← lookup, unseen, List.nil_append]
  apply List.filter_congr
  intro g member
  simp [Pattern.isMatch, Pattern.fits, seen g member, Bool.beq_comm]

namespace Store

/-- A store between two steps of founding: its facts, the names they give, and the last entity they
are about. -/
structure Stage (s : Store) (fs : List Fact) (names : List (EntityId × String))
    (last : EntityId) : Prop where
  holds : s.Holds fs
  storable : Log.Storable fs
  identities : Log.identities fs = names
  greatest : Log.lastEntity fs = some last

variable {s : Store} {fs : List Fact} {names : List (EntityId × String)} {last : EntityId}

/-- The names of a database stand for their entities as soon as they are given. -/
theorem Stage.entityOf (stage : s.Stage fs names last) {v : Vocabulary}
    (part : names <+: Database.roster v) {e : EntityId} {name : String}
    (member : (e, name) ∈ names) : s.entityOf name = .ok e := by
  have distinct : (names.map Prod.snd).Nodup :=
    (Database.roster_snd_nodup v).sublist (part.sublist.map Prod.snd)
  rw [stage.holds.entityOf_eq_ok]
  rw [← stage.identities] at distinct member
  exact Log.entityOf_of_mem distinct member

theorem Stage.nameOf (stage : s.Stage fs names last) {v : Vocabulary}
    (part : names <+: Database.roster v) {e : EntityId} {name : String}
    (member : (e, name) ∈ names) : s.nameOf e = .ok (some name) := by
  have distinct : (names.map Prod.fst).Nodup :=
    (Database.roster_fst_nodup v).sublist (part.sublist.map Prod.fst)
  have fits : e ≤ maxCellInt := by
    have numbered := List.mem_map_of_mem (f := Prod.fst) (part.subset member)
    rw [Database.roster_fst] at numbered
    exact le_trans ((by decide : ∀ n ∈ List.range 37 ++ [39, 40, 42], n ≤ 42) e numbered)
      (by decide)
  rw [stage.holds.nameOf_eq fits]
  rw [← stage.identities] at distinct member
  exact congrArg Except.ok (Log.nameOf_of_mem distinct member)

theorem Stage.entityOf_absent (stage : s.Stage fs names last) {name : String}
    (absent : name ∉ names.map Prod.snd) : s.entityOf name = .error (.unknownName name) := by
  rw [← stage.identities] at absent
  rw [Store.entityOf, stage.holds.entityOf?_eq, Log.entityOf_eq_none absent]

theorem Stage.nextEntity (stage : s.Stage fs names last) (room : last < maxEntityId) :
    Transaction.nextEntity s = .ok (last + 1) := by
  rw [Transaction.nextEntity_eq_ok, stage.holds.lastEntity_eq, stage.greatest]
  exact ⟨room, rfl⟩

/-- What a store finds about an entity that only the last facts are about. -/
theorem Stage.lookup_about_new {gs : List Fact} (stage : s.Stage (fs ++ gs) names last)
    {e attr asOf : EntityId} (older : ∀ f ∈ fs, f.entity ≠ e) (seen : ∀ g ∈ gs, g.tx ≤ asOf)
    (entity_le : e ≤ maxCellInt) (attr_le : attr ≤ maxCellInt) (bound : asOf ≤ maxCellInt) :
    s.lookup ⟨some e, some attr, none, none, none⟩ asOf
      = .ok (gs.filter fun g => g.entity == e && g.attr == attr) := by
  have within : Pattern.Storable ⟨some e, some attr, none, none, none⟩ := by
    constructor <;> simp [entity_le, attr_le]
  rw [stage.holds.lookup_eq stage.storable within bound, Log.lookup_about_new older seen attr]

/-- A request whose outcome is known takes a store to the next stage. -/
theorem Stage.transact (stage : s.Stage fs names last) {v : Vocabulary} {now : Int64}
    {request : Form} (within : request.Storable) {receipt : Receipt} {new : List Fact}
    (found : Transaction.outcome v now s request = .ok (receipt, new))
    {others : List (EntityId × String)} (named : Log.identities new = others) {last' : EntityId}
    (greatest : Log.lastEntity new = some last') (le : last ≤ last') :
    ∃ s', s.transact v now request = .ok (receipt, s') ∧
      s'.Stage (fs ++ new) (names ++ others) last' := by
  obtain ⟨ds, tx, drafted, next, effect⟩ := Transaction.outcome_cases found
  have storable := stage.holds.effect_storable stage.storable within drafted next effect
  obtain ⟨s', written, holds⟩ := stage.holds.exists_insertAll storable
  refine ⟨s', ?_, holds, stage.storable.append storable, ?_, ?_⟩
  · simp only [transact_eq, found, written, Outcome.ok_bind, Outcome.pure_eq]
  · rw [Log.identities_append, stage.identities, named]
  · exact Log.lastEntity_append_of_le stage.greatest greatest le

/-- The schema is written to every store without facts. -/
theorem Holds.exists_first (empty : s.Holds []) (v : Vocabulary) (timestamp : Int64) :
    ∃ facts s', Schema.firstFacts v Schema.system timestamp = .ok facts ∧
      s.insertAll facts = .ok s' ∧
      s'.Stage facts (Schema.roster (Schema.allNames v Schema.system)) 37 := by
  obtain ⟨facts, facts_ok⟩ := Schema.selfDescribing_system.exists_firstFacts v timestamp
  have founds := Schema.firstFacts_founds facts_ok
  have room : (Schema.allNames v Schema.system).length ≤ maxCellInt := by
    rw [Schema.length_allNames_system]
    decide
  obtain ⟨s', written, holds⟩ := empty.exists_insertAll (founds.storable room)
  exact ⟨facts, s', facts_ok, written, holds, founds.storable room,
    Schema.identities_firstFacts facts_ok, (founds.regular room).greatest⟩

end Store

/-! ### Founding -/

namespace Store

variable {s : Store} {v : Vocabulary}

theorem Stage.knows {fs : List Fact} {names : List (EntityId × String)} {last : EntityId}
    (stage : s.Stage fs names last) (part : names <+: Database.roster v)
    (schema : Schema.roster (Schema.allNames v Schema.system) ⊆ names) :
    Transaction.Knows v s := by
  intro e name at_
  exact stage.entityOf part (schema (Schema.mem_roster.mpr at_))

/-- With a colon, founding goes through and leaves a store with the names of the roster. -/
theorem Holds.found_keyed (empty : s.Holds []) (keyed : v.Keyed) (founding : Founding) :
    ∃ facts s', Schema.firstFacts v Schema.system founding.schemaTime = .ok facts ∧
      Steps.found v founding s = (.ok (), s') ∧
      s'.Stage (facts ++ Transaction.attributeFacts v founding.attributesTime
        ++ Transaction.entityFacts v founding.databaseId founding.metadataTime)
        (Database.roster v) 42 := by
  obtain ⟨facts, first, facts_ok, written, schema⟩ := empty.exists_first v founding.schemaTime
  -- the names of the schema are there for the first request
  have known := schema.knows (List.prefix_append _ _) (List.Subset.refl _)
  obtain ⟨second, attributes_ok, attributes⟩ := schema.transact
    (Schema.metadataAttributes_storable v)
    (Transaction.outcome_metadataAttributes keyed known (schema.nextEntity (by decide))
      founding.attributesTime)
    (Transaction.identities_attributeFacts v founding.attributesTime)
    (show Log.lastEntity _ = some 40 from rfl) (by decide)
  -- and those of the two attributes for the second
  have whole : Schema.roster (Schema.allNames v Schema.system)
      ++ [(39, v.databaseId), (40, v.nextEntityId)] ++ [(42, v.metadata)] = Database.roster v := by
    rw [List.append_assoc]
    rfl
  have part : Schema.roster (Schema.allNames v Schema.system)
      ++ [(39, v.databaseId), (40, v.nextEntityId)] <+: Database.roster v := ⟨_, whole⟩
  have known := attributes.knows part (List.subset_append_left _ _)
  have databaseIdAttr := attributes.entityOf part (List.mem_append_right _ List.mem_cons_self)
  have nextAttr := attributes.entityOf part
    (List.mem_append_right _ (List.mem_cons_of_mem _ List.mem_cons_self))
  have next := attributes.nextEntity (by decide)
  obtain ⟨third, entity_ok, entity⟩ := attributes.transact
    (Schema.metadataEntity_storable v founding.databaseId 41)
    (Transaction.outcome_metadataEntity keyed known databaseIdAttr nextAttr next
      founding.databaseId founding.metadataTime)
    (Transaction.identities_entityFacts v founding.databaseId founding.metadataTime)
    (show Log.lastEntity _ = some 42 from rfl) (by decide)
  rw [whole] at entity
  refine ⟨facts, third, facts_ok, ?_, entity⟩
  simp only [Steps.found, Steps.change_bind, facts_ok, written, attributes_ok, next, entity_ok,
    Outcome.ok_bind, Outcome.pure_eq]
  rfl

/-- Without a colon, founding fails once the schema is written. -/
theorem Holds.found_unkeyed (empty : s.Holds []) (unkeyed : ¬ v.Keyed) (founding : Founding) :
    ∃ facts s', Schema.firstFacts v Schema.system founding.schemaTime = .ok facts ∧
      Steps.found v founding s = (.error (.unknownName (":" ++ v.identity)), s') ∧
      s'.Stage facts (Schema.roster (Schema.allNames v Schema.system)) 37 := by
  obtain ⟨facts, first, facts_ok, written, schema⟩ := empty.exists_first v founding.schemaTime
  have known := schema.knows (List.prefix_append _ _) (List.Subset.refl _)
  have next := schema.nextEntity (by decide)
  -- the first request declares nothing, and the second asks for a name that is not there
  have attributes_ok : first.transact v founding.attributesTime (Schema.metadataAttributes v)
      = .ok (⟨38, [], 0⟩, first) := by
    simp only [transact_eq, Transaction.outcome_metadataAttributes_unkeyed unkeyed next,
      Transaction.insertAll_nil, Outcome.ok_bind, Outcome.pure_eq]
  have absent : first.entityOf (":" ++ v.identity) = .error (.unknownName (":" ++ v.identity)) := by
    apply schema.entityOf_absent
    rw [Schema.roster_snd]
    intro member
    exact unkeyed ((Schema.head?_of_mem_allNames member).mp (by simp))
  have entity_failed : first.transact v founding.metadataTime
      (Schema.metadataEntity v founding.databaseId 38)
      = .error (.unknownName (":" ++ v.identity)) := by
    rw [transact_eq, Transaction.outcome_metadataEntity_unkeyed unkeyed known absent,
      Outcome.error_bind]
  refine ⟨facts, first, facts_ok, ?_, schema⟩
  simp only [Steps.found, Steps.change_bind, facts_ok, written, attributes_ok, next,
    entity_failed, Outcome.ok_bind, Outcome.pure_eq]

end Store

namespace Database

variable {s : Store} {v : Vocabulary}

theorem openStore_empty (empty : s.Holds []) (v : Vocabulary) (founding : Founding) :
    openStore s v founding = Store.Steps.found v founding s := by
  rw [openStore, if_pos (by rw [empty.size_eq]; rfl)]

/-! ### Opening with a colon -/

/-- What a database is like that was founded as a whole. -/
structure Founded (db : Database) (v : Vocabulary) (founding : Founding) : Prop where
  vocabulary : db.vocabulary = v
  identities : db.store.identities = roster v
  resolve : ∀ entry ∈ roster v, db.resolve entry.2 = .ok entry.1
  nameOf : ∀ entry ∈ roster v, db.nameOf entry.1 = .ok (some entry.2)
  databaseId : ∀ asOf, 41 ≤ asOf → asOf ≤ maxCellInt →
    db.store.lookup ⟨some 42, some 39, none, none, none⟩ asOf
      = .ok [⟨42, 39, .text founding.databaseId, 41, 29⟩]
  nextEntityId : ∀ asOf, 41 ≤ asOf → asOf ≤ maxCellInt →
    db.store.lookup ⟨some 42, some 40, none, none, none⟩ asOf = .ok [⟨42, 40, .int 41, 41, 29⟩]

/-- A store without facts can be opened in every name space with a colon, and is a whole database
then: the names of the roster stand for its entities, which are the same in every name space and
have no other names, and the description of the database says each of its two attributes once. -/
theorem ofStore_founded (empty : s.Holds []) (keyed : v.Keyed) (founding : Founding) :
    (∃ db, ofStore s v founding = .ok db ∧ db.Founded v founding) ∧
      (roster v).map Prod.fst = List.range 37 ++ [39, 40, 42] ∧
      ((roster v).map Prod.snd).Nodup := by
  refine ⟨?_, roster_fst v, roster_snd_nodup v⟩
  obtain ⟨facts, s', facts_ok, found, stage⟩ := empty.found_keyed keyed founding
  -- nothing was said about the last entity before the last request
  have older : ∀ f ∈ facts ++ Transaction.attributeFacts v founding.attributesTime,
      f.entity ≠ 42 := by
    intro f member
    apply Nat.ne_of_lt
    rcases List.mem_append.mp member with schema | attributes
    · have le := (Schema.firstFacts_founds facts_ok).entity_le f schema
      rw [Schema.length_allNames_system] at le
      exact Nat.lt_of_le_of_lt le (by decide)
    · have le : ∀ f ∈ Transaction.attributeFacts v founding.attributesTime, f.entity ≤ 40 := by
        simp [Transaction.attributeFacts]
      exact Nat.lt_of_le_of_lt (le f attributes) (by decide)
  have seen : ∀ asOf, 41 ≤ asOf →
      ∀ f ∈ Transaction.entityFacts v founding.databaseId founding.metadataTime, f.tx ≤ asOf := by
    intro asOf late
    simp [Transaction.entityFacts, late]
  refine ⟨⟨s', v⟩, ?_, rfl, ?_, ?_, ?_, ?_, ?_⟩
  · rw [ofStore, openStore_empty empty, found]
  · rw [stage.holds.identities_eq, stage.identities]
  · intro entry member
    exact stage.entityOf (List.prefix_refl _) member
  · rintro ⟨e, name⟩ member
    have named := stage.nameOf (List.prefix_refl _) member
    rw [nameOf]
    split
    next first =>
      -- the name of the naming attribute is told without asking the store
      subst first
      have identity := stage.nameOf (List.prefix_refl _) (List.mem_cons_self : (0, v.identity) ∈ _)
      exact identity.symm.trans named
    next => exact named
  · intro asOf late bound
    exact stage.lookup_about_new older (seen asOf late) (by decide) (by decide) bound
  · intro asOf late bound
    exact stage.lookup_about_new older (seen asOf late) (by decide) (by decide) bound

/-- A new table, opened in a name space that is a colon alone. -/
theorem ofStore_founded_colon :
    (Store.empty .table).Holds [] ∧ (⟨":"⟩ : Vocabulary).Keyed ∧
      ∃ db, ofStore (Store.empty .table) ⟨":"⟩ ⟨"id", 0, 0, 0⟩ = .ok db ∧
        db.resolve ":/metadata" = .ok 42 ∧ db.nameOf 30 = .ok (some ":.operation/retract") := by
  have empty := Store.holds_empty .table
  have keyed : (⟨":"⟩ : Vocabulary).Keyed := by decide
  obtain ⟨⟨db, opened, founded⟩, _⟩ := ofStore_founded empty keyed ⟨"id", 0, 0, 0⟩
  have metadata := founded.resolve (42, ":/metadata") (by decide)
  have retract := founded.nameOf (30, ":.operation/retract") (by decide)
  exact ⟨empty, keyed, db, opened, metadata, retract⟩

/-! ### Opening without a colon -/

/-- Opening a store without facts fails in every name space without a colon, when the schema is
written already. What is written stays, and so the store is opened as it is from then on. With a
colon, opening a store without facts never fails. -/
theorem openStore_leaves_schema (empty : s.Holds []) (v : Vocabulary) (founding : Founding) :
    (v.Keyed → (openStore s v founding).1 = .ok ()) ∧
      (¬ v.Keyed → ∃ facts s', Schema.firstFacts v Schema.system founding.schemaTime = .ok facts ∧
        openStore s v founding = (.error (.unknownName (":" ++ v.identity)), s') ∧
        s'.Holds facts ∧ s'.size ≠ 0 ∧
        ∀ (v' : Vocabulary) (founding' : Founding), openStore s' v' founding' = (.ok (), s')) := by
  rw [openStore_empty empty]
  constructor
  · intro keyed
    obtain ⟨_, _, _, found, _⟩ := empty.found_keyed keyed founding
    rw [found]
  · intro unkeyed
    obtain ⟨facts, s', facts_ok, found, stage⟩ := empty.found_unkeyed unkeyed founding
    have kept : s'.size ≠ 0 := by
      rw [stage.holds.size_eq]
      exact Nat.ne_of_gt (Schema.firstFacts_founds facts_ok).length_pos
    refine ⟨facts, s', facts_ok, found, stage.holds, kept, ?_⟩
    intro v' founding'
    rw [openStore, if_neg kept]

/-- A new table, opened in a name space without a colon, and then in another one. -/
theorem openStore_leaves_schema_db :
    (Store.empty .table).Holds [] ∧ ∃ s',
      openStore (Store.empty .table) ⟨"db"⟩ ⟨"", 0, 0, 0⟩
        = (.error (.unknownName ":db/identity"), s') ∧
      s'.size ≠ 0 ∧ openStore s' .standard ⟨"", 0, 0, 0⟩ = (.ok (), s') := by
  have empty := Store.holds_empty .table
  obtain ⟨_, failed⟩ := openStore_leaves_schema empty ⟨"db"⟩ ⟨"", 0, 0, 0⟩
  obtain ⟨_, s', _, opened, _, kept, again⟩ := failed (by decide)
  exact ⟨empty, s', opened, kept, again .standard ⟨"", 0, 0, 0⟩⟩

/-- A store may have facts in it when opening it has failed. -/
theorem openStore_not_all_or_nothing :
    ¬ ∀ (s : Store) (v : Vocabulary) (founding : Founding), s.size = 0 →
      (∃ fault, (openStore s v founding).1 = .error fault) → (openStore s v founding).2.size = 0 := by
  intro nothing
  have empty := Store.holds_empty .table
  have unkeyed : ¬ (⟨"db"⟩ : Vocabulary).Keyed := by decide
  obtain ⟨facts, s', facts_ok, found, stage⟩ := empty.found_unkeyed unkeyed ⟨"", 0, 0, 0⟩
  rw [← openStore_empty empty] at found
  have none_left := nothing (Store.empty .table) ⟨"db"⟩ ⟨"", 0, 0, 0⟩ rfl ⟨_, by rw [found]⟩
  rw [found, stage.holds.size_eq] at none_left
  exact Nat.ne_of_gt (Schema.firstFacts_founds facts_ok).length_pos none_left

end Database

end Factbase
