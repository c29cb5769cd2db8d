import Factbase.Proofs.Naming
import Factbase.Proofs.Transaction

/-!
# Factbase.Proofs.Keyword

The requests that found a database speak of its names as keywords. A keyword is read back with a
colon: in a name space that starts with one it stands for the name it was made of, and the requests
say what they are meant to say. In any other name space it stands for no name of the vocabulary; a
declaration then says nothing, and the description of the database cannot be drafted.
-/

namespace Factbase

/-! ### Keywords -/

namespace Vocabulary

variable {v : Vocabulary}

/-- What the keyword for an attribute's name is read back as. -/
def keywordName (v : Vocabulary) (key : String) : String :=
  if v.Keyed then v.attributeName key else ":" ++ v.attributeName key

theorem keywordName_eq_iff {key other : String} :
    v.keywordName key = v.attributeName other ↔ v.Keyed ∧ key = other := by
  unfold keywordName
  split
  next keyed => simp [keyed, attributeName_inj]
  next unkeyed =>
    -- one of the two starts with a colon, the other does not
    have apart : ":" ++ v.attributeName key ≠ v.attributeName other := by
      intro same
      apply unkeyed
      rw [← v.head?_attributeName other, ← same]
      simp
    simp [unkeyed, apart]

end Vocabulary

namespace Form

variable {v : Vocabulary}

theorem asName?_attributeName (v : Vocabulary) (key : String) :
    (ofName (v.attributeName key)).asName? = some (v.keywordName key) := by
  simp only [asName?_ofName, Vocabulary.head?_attributeName, Vocabulary.keywordName]

theorem asName?_memberName (keyed : v.Keyed) (key member : String) :
    (ofName (v.memberName key member)).asName? = some (v.memberName key member) := by
  rw [asName?_ofName, if_pos ((v.head?_memberName key member).mpr keyed)]

/-- Entries under the keywords for some attributes. -/
def keyworded (v : Vocabulary) (entries : List (String × Form)) : List (Form × Form) :=
  entries.map fun (key, value) => (ofName (v.attributeName key), value)

/-- Under the name of an attribute stands what its keyword was written before, if keywords stand for
names at all. -/
theorem get?_keyworded (v : Vocabulary) (entries : List (String × Form)) (key : String) :
    (map (keyworded v entries)).get? (v.attributeName key) =
      if v.Keyed then entries.lookup key else none := by
  induction entries with
  | nil => simp [keyworded, get?]
  | cons entry rest ih =>
    obtain ⟨other, value⟩ := entry
    have read := asName?_attributeName v other
    by_cases found : v.Keyed ∧ other = key
    · obtain ⟨keyed, rfl⟩ := found
      have same : v.keywordName other = v.attributeName other :=
        Vocabulary.keywordName_eq_iff.mpr ⟨keyed, rfl⟩
      simp [keyworded, get?, read, same, keyed]
    · have apart : v.keywordName other ≠ v.attributeName key :=
        fun same => found (Vocabulary.keywordName_eq_iff.mp same)
      have skipped : (map (keyworded v ((other, value) :: rest))).get? (v.attributeName key)
          = (map (keyworded v rest)).get? (v.attributeName key) := by
        simp [keyworded, get?, read, apart]
      rw [skipped, ih]
      split
      next keyed =>
        have differ : (key == other) = false := by
          simpa using fun same => found ⟨keyed, same.symm⟩
        rw [List.lookup_cons, differ]
      next => rfl

end Form

namespace Transaction

variable {v : Vocabulary} {s : Store}

/-- None of the entries tells an entity, unless one is written under that key. -/
theorem splitEntries_keyworded (v : Vocabulary) {entries : List (String × Form)}
    (other : ∀ entry ∈ entries, entry.1 ≠ "e") :
    splitEntries v (Form.keyworded v entries)
      = .ok (none, entries.map fun (key, value) => (v.keywordName key, value)) := by
  induction entries with
  | nil => rfl
  | cons entry rest ih =>
    obtain ⟨key, value⟩ := entry
    have apart : v.keywordName key ≠ v.entityKey := fun same =>
      other _ List.mem_cons_self (Vocabulary.keywordName_eq_iff.mp same).2
    have others := ih fun entry member => other entry (List.mem_cons_of_mem _ member)
    have first : Form.keyworded v ((key, value) :: rest)
        = (.ofName (v.attributeName key), value) :: Form.keyworded v rest := rfl
    simp only [first, splitEntries, nameOf, Form.asName?_attributeName, others, Outcome.ok_bind,
      if_neg apart, Outcome.pure_eq, List.map_cons]

/-! ### The requests of founding -/

/-- A store that finds the names of the schema. -/
def Knows (v : Vocabulary) (s : Store) : Prop :=
  ∀ (e : EntityId) (name : String), (Schema.allNames v Schema.system)[e]? = some name →
    s.entityOf name = .ok e

theorem declaration_eq (v : Vocabulary) (name kind documentation : String) :
    Schema.declaration v name kind documentation = .map (Form.keyworded v [
      ("identity", .ofName name),
      ("attribute", .ofName (v.memberName "attribute" kind)),
      ("cardinality", .ofName (v.memberName "cardinality" "one")),
      ("documentation", .text documentation)]) := rfl

theorem operations_metadataAttributes (v : Vocabulary) :
    operations (Schema.metadataAttributes v) = [
      .declaration (Schema.declaration v v.databaseId "string"
        "A unique identifier for the database"),
      .declaration (Schema.declaration v v.nextEntityId "number"
        "A unique identifier for the next entity")] := rfl

theorem operations_metadataEntity (v : Vocabulary) (databaseId : String) (next : EntityId) :
    operations (Schema.metadataEntity v databaseId next) = [.entries (Form.keyworded v [
      ("identity", .text v.metadata),
      ("database-id", .text databaseId),
      ("next-entity-id", .int (Int64.ofNat (min next maxEntityId)))])] := rfl

/-! #### In a name space with a colon -/

/-- What a declaration says about an attribute, as drafts. -/
def declared (number : Nat) (name : String) (kind : EntityId) (documentation : String) :
    List Draft := [
  -- the numbers of the attributes, of the cardinality of one value (27) and of the assert
  -- operation (29) are those of the system's schema
  ⟨.new (.unnamed number), 0, .text name, 29⟩,
  ⟨.new (.unnamed number), 1, .ref kind, 29⟩,
  ⟨.new (.unnamed number), 2, .ref 27, 29⟩,
  ⟨.new (.unnamed number), 13, .text documentation, 29⟩]

theorem declare_keyed (keyed : v.Keyed) (known : Knows v s) (number : Nat)
    (key documentation : String) {kind : String} {k : EntityId}
    (kind_at : (Schema.allNames v Schema.system)[k]? = some (v.memberName "attribute" kind)) :
    declare v s number (Schema.declaration v (v.attributeName key) kind documentation)
      = .ok (declared number (v.attributeName key) k documentation) := by
  have name : (Form.ofName (v.attributeName key)).asName? = some (v.attributeName key) := by
    rw [Form.asName?_attributeName, Vocabulary.keywordName, if_pos keyed]
  -- each key stands for the name it was made of, and so does each name among the values
  have identity : s.entityOf (v.attributeName "identity") = .ok 0 := known _ _ rfl
  have valueKind : s.entityOf (v.attributeName "attribute") = .ok 1 := known _ _ rfl
  have cardinality : s.entityOf (v.attributeName "cardinality") = .ok 2 := known _ _ rfl
  have documented : s.entityOf (v.attributeName "documentation") = .ok 13 := known _ _ rfl
  have assertion : s.entityOf v.assertOperation = .ok 29 := known _ _ rfl
  have one : s.entityOf (v.memberName "cardinality" "one") = .ok 27 := known _ _ rfl
  have kind_found := known k _ kind_at
  simp [declaration_eq, declare, optionalDraft, draft, Vocabulary.identity, Vocabulary.valueKind,
    Vocabulary.cardinality, Vocabulary.documentation, Vocabulary.history, Form.get?_keyworded,
    keyed, List.lookup, nameOf, name, Form.asName?_memberName keyed, identity, valueKind,
    cardinality, documented, assertion, one, kind_found, valueOf, Form.toValue?, Except.map,
    declared]

/-- The facts of the request that declares the attributes of a database as a whole. -/
def attributeFacts (v : Vocabulary) (now : Int64) : List Fact := [
  ⟨39, 0, .text v.databaseId, 38, 29⟩,
  ⟨39, 1, .ref 18, 38, 29⟩,
  ⟨39, 2, .ref 27, 38, 29⟩,
  ⟨39, 13, .text "A unique identifier for the database", 38, 29⟩,
  ⟨40, 0, .text v.nextEntityId, 38, 29⟩,
  ⟨40, 1, .ref 21, 38, 29⟩,
  ⟨40, 2, .ref 27, 38, 29⟩,
  ⟨40, 13, .text "A unique identifier for the next entity", 38, 29⟩,
  ⟨38, 14, .int now, 38, 29⟩]

theorem identities_attributeFacts (v : Vocabulary) (now : Int64) :
    Log.identities (attributeFacts v now) = [(39, v.databaseId), (40, v.nextEntityId)] := rfl

theorem outcome_metadataAttributes (keyed : v.Keyed) (known : Knows v s)
    (next : nextEntity s = .ok 38) (now : Int64) :
    outcome v now s (Schema.metadataAttributes v)
      = .ok (⟨38, [(.unnamed 0, 39), (.unnamed 1, 40)], 9⟩, attributeFacts v now) := by
  have string : (Schema.allNames v Schema.system)[18]?
      = some (v.memberName "attribute" "string") := rfl
  have number : (Schema.allNames v Schema.system)[21]?
      = some (v.memberName "attribute" "number") := rfl
  have first : declare v s 0 (Schema.declaration v v.databaseId "string" _) = .ok _ :=
    declare_keyed keyed known 0 "database-id" "A unique identifier for the database" string
  have second : declare v s 1 (Schema.declaration v v.nextEntityId "number" _) = .ok _ :=
    declare_keyed keyed known 1 "next-entity-id" "A unique identifier for the next entity" number
  have drafted : drafts v s (Schema.metadataAttributes v)
      = .ok (declared 0 v.databaseId 18 "A unique identifier for the database" ++
        declared 1 v.nextEntityId 21 "A unique identifier for the next entity") := by
    simp [drafts, operations_metadataAttributes, Operation.drafts, first, second]
    rfl
  have timestamp : s.entityOf v.timestamp = .ok 14 := known _ _ rfl
  have assertion : s.entityOf v.assertOperation = .ok 29 := known _ _ rfl
  -- the two attributes get the numbers after that of the transaction
  simp only [outcome, drafted, next, timestamp, assertion, Outcome.ok_bind]
  rfl

/-- The facts of the request that describes a database as a whole. -/
def entityFacts (v : Vocabulary) (databaseId : String) (now : Int64) : List Fact := [
  ⟨42, 0, .text v.metadata, 41, 29⟩,
  ⟨42, 39, .text databaseId, 41, 29⟩,
  ⟨42, 40, .int 41, 41, 29⟩,
  ⟨41, 14, .int now, 41, 29⟩]

theorem identities_entityFacts (v : Vocabulary) (databaseId : String) (now : Int64) :
    Log.identities (entityFacts v databaseId now) = [(42, v.metadata)] := rfl

theorem outcome_metadataEntity (keyed : v.Keyed) (known : Knows v s)
    (databaseIdAttr : s.entityOf v.databaseId = .ok 39)
    (nextAttr : s.entityOf v.nextEntityId = .ok 40) (next : nextEntity s = .ok 41)
    (databaseId : String) (now : Int64) :
    outcome v now s (Schema.metadataEntity v databaseId 41)
      = .ok (⟨41, [(.unnamed 0, 42)], 4⟩, entityFacts v databaseId now) := by
  have naming : s.entityOf v.identity = .ok 0 := known _ _ rfl
  have timestamp : s.entityOf v.timestamp = .ok 14 := known _ _ rfl
  have assertion : s.entityOf v.assertOperation = .ok 29 := known _ _ rfl
  have drafted : drafts v s (Schema.metadataEntity v databaseId 41) = .ok [
      ⟨.new (.unnamed 0), 0, .text v.metadata, 29⟩,
      ⟨.new (.unnamed 0), 39, .text databaseId, 29⟩,
      ⟨.new (.unnamed 0), 40, .int 41, 29⟩] := by
    -- none of the keys tells an entity, so the request is about a new one
    have room : min 41 maxEntityId = 41 := by decide
    simp only [Vocabulary.identity] at naming
    simp only [Vocabulary.databaseId] at databaseIdAttr
    simp only [Vocabulary.nextEntityId] at nextAttr
    simp [drafts, operations_metadataEntity, Operation.drafts, ofEntries, splitEntries_keyworded,
      Vocabulary.keywordName, keyed, draft, valueOf, Form.toValue?, naming, databaseIdAttr, nextAttr,
      assertion, room]
  simp only [outcome, drafted, next, timestamp, assertion, Outcome.ok_bind]
  rfl

/-! #### In a name space without a colon -/

/-- A declaration whose keys are not found says nothing. -/
theorem declare_unkeyed (unkeyed : ¬ v.Keyed) (number : Nat) (name kind documentation : String) :
    declare v s number (Schema.declaration v name kind documentation) = .ok [] := by
  simp [declaration_eq, declare, Vocabulary.identity, Form.get?_keyworded, unkeyed]

theorem outcome_metadataAttributes_unkeyed (unkeyed : ¬ v.Keyed) {tx : EntityId}
    (next : nextEntity s = .ok tx) (now : Int64) :
    outcome v now s (Schema.metadataAttributes v) = .ok (⟨tx, [], 0⟩, []) := by
  simp [outcome, drafts, operations_metadataAttributes, Operation.drafts, declare_unkeyed unkeyed,
    next]

theorem outcome_metadataEntity_unkeyed (unkeyed : ¬ v.Keyed) (known : Knows v s)
    (absent : s.entityOf (":" ++ v.identity) = .error (.unknownName (":" ++ v.identity)))
    (databaseId : String) (next : EntityId) (now : Int64) :
    outcome v now s (Schema.metadataEntity v databaseId next)
      = .error (.unknownName (":" ++ v.identity)) := by
  have assertion : s.entityOf v.assertOperation = .ok 29 := known _ _ rfl
  simp only [Vocabulary.identity] at absent ⊢
  -- the first of the keys stands for a name that no entity has
  simp [outcome, drafts, operations_metadataEntity, Operation.drafts, ofEntries,
    splitEntries_keyworded, Vocabulary.keywordName, unkeyed, draft, assertion, absent]

end Transaction

end Factbase
