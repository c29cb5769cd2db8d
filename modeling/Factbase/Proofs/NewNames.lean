import Factbase.Proofs.UniqueNames

/-!
# Factbase.Proofs.NewNames

Where names come from. A text becomes a name when a transaction records it under the naming
attribute, with whatever operation. So a retraction gives a name, too: of requests that only
retract, the texts that they retract under the naming attribute become names, and no other text
does.
-/

namespace Factbase

namespace Log

/-- A name stands for an entity exactly if some entity was given it. -/
theorem exists_entityOf {fs : List Fact} {name : String} :
    (∃ e, entityOf fs name = some e) ↔ ∃ e, (e, name) ∈ identities fs := by
  rw [entityOf_eq_find?]
  simp only [Option.map_eq_some_iff]
  constructor
  · rintro ⟨e, ⟨e', name'⟩, first, rfl⟩
    obtain rfl : name' = name := by simpa using List.find?_some first
    exact ⟨e', List.mem_of_find?_eq_some first⟩
  · rintro ⟨e, member⟩
    have some : ((identities fs).find? (·.2 == name)).isSome :=
      List.find?_isSome.mpr ⟨(e, name), member, beq_self_eq_true name⟩
    obtain ⟨entry, first⟩ := Option.isSome_iff_exists.mp some
    exact ⟨entry.1, entry, first, rfl⟩

end Log

namespace Transaction

/-- Behind a log, a transaction makes names of the texts that its drafts give as names. -/
theorem Effect.exists_entityOf {v : Vocabulary} {now : Int64} {s : Store} {ds : List Draft}
    {tx : EntityId} {receipt : Receipt} {new : List Fact}
    (effect : Effect v now s ds tx receipt new) (fs : List Fact) {name : String} :
    (∃ e, Log.entityOf (fs ++ new) name = some e) ↔
      (∃ e, Log.entityOf fs name = some e) ∨ ∃ d ∈ ds, d.name? = some name := by
  simp only [Log.exists_entityOf, Log.identities_append, List.mem_append, exists_or]
  apply or_congr_right
  constructor
  · rintro ⟨e, member⟩
    obtain ⟨d, d_member, _, _, _, named⟩ := effect.mem_identities.mp member
    exact ⟨d, d_member, named⟩
  · rintro ⟨d, d_member, named⟩
    obtain ⟨f, _, becomes⟩ := effect.exists_fact d_member
    exact ⟨f.entity, effect.mem_identities.mpr ⟨d, d_member, f, becomes, rfl, named⟩⟩

/-! ### Retractions -/

/-- An operation that takes something back. -/
inductive Operation.Retracts (v : Vocabulary) : Operation → Prop where
  | tuple {operation : Form} {items : List Form}
      (named : operation.asName? = some v.retractOperation) :
      Retracts v (.tuple (operation :: items))

/-- A tuple about an entity with facts, with a text for a value and an attribute that stands for the
naming attribute. -/
inductive Operation.Mentions (s : Store) (name : String) : Operation → Prop where
  | tuple {operation entity attr told : Form} {subject : Subject} {attrName : String}
      (about : subjectOf entity = .ok subject) (facts : hasFacts s subject = .ok true)
      (read : attr.asName? = some attrName) (naming : s.entityOf attrName = .ok nameAttribute)
      (value : told.toValue? = some (.text name)) :
      Mentions s name (.tuple [operation, entity, attr, told])

variable {v : Vocabulary} {s : Store} {request : Form}

/-- A retraction is dropped, or yields a draft about an entity with facts. -/
theorem retraction_cases {operation : Form} {items : List Form} {ds : List Draft}
    (named : operation.asName? = some v.retractOperation)
    (ok : ofTuple v s (operation :: items) = .ok ds) :
    (ds = [] ∧ items.length ≠ 3) ∨
      ∃ entity attr told subject, items = [entity, attr, told] ∧
        subjectOf entity = .ok subject ∧
        ((ds = [] ∧ hasFacts s subject = .ok false) ∨
          ∃ attrName d, ds = [d] ∧ hasFacts s subject = .ok true ∧
            attr.asName? = some attrName ∧ s.entityOf attrName = .ok d.attr ∧
            told.toValue? = some d.value) := by
  unfold ofTuple at ok
  split at ok
  next operation' entity attr told same =>
    obtain ⟨rfl, rfl⟩ := List.cons.inj same
    simp only [nameOf_eq_ok.mpr named, Outcome.ok_bind, if_true, Outcome.bind_eq_ok] at ok
    obtain ⟨subject, about, keep, facts, ok⟩ := ok
    refine .inr ⟨entity, attr, told, subject, rfl, about, ?_⟩
    cases keep with
    | false =>
      obtain rfl := Outcome.pure_eq_ok.mp ok
      exact .inl ⟨rfl, facts⟩
    | true =>
      simp only [if_true, Outcome.bind_eq_ok, Outcome.pure_eq_ok] at ok
      obtain ⟨attrName, read, a, found, x, value, op, _, rfl⟩ := ok
      exact .inr ⟨attrName, _, rfl, facts, nameOf_eq_ok.mp read, found, valueOf_eq_ok.mp value⟩
  next other =>
    refine .inl ⟨(Except.ok.inj ok).symm, ?_⟩
    intro three
    obtain ⟨entity, attr, told, rfl⟩ := List.length_eq_three.mp three
    exact other operation entity attr told rfl

/-- A retraction gives a name exactly if it mentions it. -/
theorem Operation.Retracts.exists_name {operation : Operation} (retracts : operation.Retracts v)
    {number : Nat} {ds : List Draft} (ok : operation.drafts v s number = .ok ds) {name : String} :
    (∃ d ∈ ds, d.name? = some name) ↔ operation.Mentions s name := by
  obtain ⟨named⟩ := retracts
  rcases retraction_cases named ok with ⟨rfl, short⟩ |
    ⟨entity, attr, told, subject, rfl, about, kept⟩
  · constructor
    · simp
    · rintro ⟨⟩
      exact absurd rfl short
  · constructor
    · rintro ⟨d, member, gives⟩
      rcases kept with ⟨rfl, _⟩ | ⟨attrName, d', rfl, facts, read, found, value⟩
      · cases member
      · obtain rfl := List.mem_singleton.mp member
        unfold Draft.name? at gives
        split at gives
        next naming =>
          have text : d.value = .text name := by
            cases shown : d.value <;> simp [shown, Value.asText?] at gives
            rw [gives]
          exact .tuple about facts read (naming ▸ found) (text ▸ value)
        next => cases gives
    · rintro ⟨about', facts', read', naming, value'⟩
      obtain rfl := Except.ok.inj (about.symm.trans about')
      rcases kept with ⟨_, none⟩ | ⟨attrName, d, rfl, _, read, found, value⟩
      · rw [none] at facts'
        cases facts'
      · obtain rfl := Option.some.inj (read.symm.trans read')
        have attr_eq : d.attr = nameAttribute := Except.ok.inj (found.symm.trans naming)
        have value_eq : d.value = .text name := Option.some.inj (value.symm.trans value')
        refine ⟨d, List.mem_singleton_self d, ?_⟩
        rw [Draft.name?, if_pos attr_eq, value_eq, Value.asText?]

/-- A request of retractions gives the names that its operations mention. -/
theorem exists_name_of_retractions
    (retracts : ∀ operation ∈ operations request, operation.Retracts v) {ds : List Draft}
    (ok : drafts v s request = .ok ds) {name : String} :
    (∃ d ∈ ds, d.name? = some name) ↔
      ∃ operation ∈ operations request, operation.Mentions s name := by
  obtain ⟨parts, rfl, each⟩ := drafts_parts ok
  constructor
  · rintro ⟨d, member, named⟩
    obtain ⟨part, part_member, inside⟩ := List.mem_flatten.mp member
    obtain ⟨⟨operation, number⟩, place, drafted⟩ := Outcome.exists_left_of_mem each part_member
    have among := List.fst_mem_of_mem_zipIdx place
    exact ⟨operation, among, ((retracts operation among).exists_name drafted).mp ⟨d, inside, named⟩⟩
  · rintro ⟨operation, among, mentions⟩
    obtain ⟨number, at_number⟩ := List.mem_iff_getElem?.mp among
    have place : (operation, number) ∈ (operations request).zipIdx :=
      List.mk_mem_zipIdx_iff_getElem?.mpr at_number
    obtain ⟨part, part_member, drafted⟩ := Outcome.exists_right_of_mem each place
    obtain ⟨d, inside, named⟩ := ((retracts operation among).exists_name drafted).mpr mentions
    exact ⟨d, List.mem_flatten.mpr ⟨part, part_member, inside⟩, named⟩

end Transaction

namespace Database

open Transaction

theorem retracts_unnameRequest (e : Int64) (name : String) :
    ∀ operation ∈ operations (unnameRequest e name), operation.Retracts .standard := by
  have tuple : operations (unnameRequest e name) = [.tuple [.keyword "db.operation/retract", .int e,
      .keyword "db/identity", .text name]] := rfl
  rw [tuple]
  intro operation member
  obtain rfl := List.mem_singleton.mp member
  exact .tuple rfl

/-- In a table, no entity has the name that is taken back here from the naming attribute. -/
theorem exists_unnamed_ghost :
    ∃ db : Database, db.Reachable ∧ db.vocabulary = .standard ∧
      (∃ receipt, (db.carryOut 5 (unnameRequest 0 "ghost")).1 = .ok receipt) ∧
      hasFacts db.store (.existing 0) = .ok true ∧
      db.store.entityOf ":db/identity" = .ok nameAttribute ∧ (db.resolve "ghost").toOption = none ∧
      (db.carryOut 5 (unnameRequest 0 "ghost")).2.resolve "ghost" = .ok 0 := by
  have computed : ((ofStore (Store.empty .table) .standard ⟨"", 0, 0, 0⟩).toOption.map fun db =>
      let done := db.carryOut 5 (unnameRequest 0 "ghost")
      (done.1.toOption.isSome, (hasFacts db.store (.existing 0)).toOption,
        (db.store.entityOf ":db/identity").toOption, (db.resolve "ghost").toOption,
        (done.2.resolve "ghost").toOption))
      = some (true, some true, some nameAttribute, none, some 0) := by
    decide +kernel
  obtain ⟨db, opened, computed⟩ := Option.map_eq_some_iff.mp computed
  simp only [Prod.mk.injEq, Outcome.toOption_eq_some, Option.isSome_iff_exists] at computed
  obtain ⟨done, facts, naming, unknown, known⟩ := computed
  have opened := Outcome.toOption_eq_some.mp opened
  exact ⟨db, ⟨.table, .standard, ⟨"", 0, 0, 0⟩, db, [], opened, rfl⟩,
    (ofStore_empty_eq_ok opened).2, done, facts, naming, unknown, known⟩

/-- After a request that only retracts, what was a name before is one, and so is every text that the
request, if it succeeds, mentions as a name of an entity with facts. -/
theorem carryOut_retractions_names {db : Database} (reachable : db.Reachable) (now : Int64)
    {request : Form}
    (retracts : ∀ operation ∈ operations request, operation.Retracts db.vocabulary)
    (name : String) :
    (∃ e, (db.carryOut now request).2.resolve name = .ok e) ↔
      (∃ e, db.resolve name = .ok e) ∨
        (∃ receipt, (db.carryOut now request).1 = .ok receipt) ∧
          ∃ operation ∈ operations request, operation.Mentions db.store name := by
  obtain ⟨fs, _, keeps⟩ := reachable.keeps
  rw [carryOut_eq]
  cases done : db.store.transact db.vocabulary now request with
  | error fault => simp
  | ok result =>
    obtain ⟨receipt, s⟩ := result
    obtain ⟨ds, tx, new, drafted, _, effect, written⟩ := Store.transact_cases done
    have grown : s.Holds (fs ++ new) := keeps.holds.insertAll written
    simp only [resolve, grown.entityOf_eq_ok, keeps.holds.entityOf_eq_ok, effect.exists_entityOf fs,
      exists_name_of_retractions retracts drafted, Except.ok.injEq, exists_eq', true_and]

/-- The name that is taken back from the naming attribute of a table is a name afterwards. -/
theorem carryOut_retractions_names_ghost :
    ∃ db : Database, db.Reachable ∧
      (∀ operation ∈ operations (unnameRequest 0 "ghost"), operation.Retracts db.vocabulary) ∧
      (db.resolve "ghost").toOption = none ∧
      ∃ e, (db.carryOut 5 (unnameRequest 0 "ghost")).2.resolve "ghost" = .ok e := by
  obtain ⟨db, reachable, vocabulary, done, facts, naming, unknown, _⟩ := exists_unnamed_ghost
  have retracts := vocabulary ▸ retracts_unnameRequest 0 "ghost"
  refine ⟨db, reachable, retracts, unknown, ?_⟩
  apply (carryOut_retractions_names reachable 5 retracts "ghost").mpr
  refine .inr ⟨done, _, List.mem_singleton_self _, ?_⟩
  exact .tuple rfl facts rfl naming rfl

/-- A request that only retracts can make a name of a text that was none. -/
theorem retractions_can_name :
    ¬ ∀ (db : Database) (now : Int64) (request : Form), db.Reachable →
      (∀ operation ∈ operations request, operation.Retracts db.vocabulary) → ∀ name,
        (∃ e, (db.carryOut now request).2.resolve name = .ok e) ↔ ∃ e, db.resolve name = .ok e := by
  intro unchanged
  obtain ⟨db, reachable, vocabulary, _, _, _, unknown, known⟩ := exists_unnamed_ghost
  have retracts := vocabulary ▸ retracts_unnameRequest 0 "ghost"
  obtain ⟨e, found⟩ := (unchanged db 5 _ reachable retracts "ghost").mp ⟨0, known⟩
  rw [Outcome.toOption_eq_some.mpr found] at unknown
  cases unknown

end Database

end Factbase
