import Factbase.Proofs.NewNames
import Factbase.Proofs.Shorthand

/-!
# Factbase.Proofs.Reserved

References by name. A keyword, or a text that starts with a colon, is kept back for references to
entities by their names, which transactions do not look up. A request that asserts something about
such a reference fails, be it in a tuple or in a map. A retraction about one does not make it fail:
the retraction is dropped before anybody looks at its reference, as are all retractions about
entities that have no number yet.
-/

namespace Factbase

/-- A form that refers to an entity by its name. -/
inductive Form.ByName : Form → Prop where
  | keyword (name : String) : ByName (.keyword name)
  | text {s : String} (colon : s.toList.head? = some ':') : ByName (.text s)

/-- A subject that gets no number. -/
inductive Subject.Reserved : Subject → Prop where
  | new {p : Placeholder} {token : String} (reserved : Transaction.reserved? p = some token) :
      Reserved (.new p)

namespace Transaction

/-- An operation that refers to its entity by a name: a tuple, or a map with an entry besides those
that tell its entity. Of these, the last one counts. -/
inductive Operation.RefersByName (v : Vocabulary) : Operation → Prop where
  | tuple {entity : Form} (about : entity.ByName) (operation attr told : Form) :
      RefersByName v (.tuple [operation, entity, attr, told])
  | entries {key entity : Form} {before after : List (Form × Form)}
      (named : key.asName? = some v.entityKey) (about : entity.ByName)
      (last : ∀ entry ∈ after, entry.1.asName? ≠ some v.entityKey)
      (other : ∃ entry ∈ before ++ after, entry.1.asName? ≠ some v.entityKey) :
      RefersByName v (.entries (before ++ (key, entity) :: after))

variable {v : Vocabulary} {s : Store}

theorem subjectOf_byName {form : Form} (about : form.ByName) :
    ∃ subject, subjectOf form = .ok subject ∧ subject.Reserved := by
  cases about with
  | keyword name =>
    have reserved : reserved? (.token (":" ++ name)) = some (":" ++ name) := if_pos (by simp)
    exact ⟨_, rfl, .new reserved⟩
  | @text s colon =>
    have reserved : reserved? (.token s) = some s := if_pos colon
    exact ⟨_, rfl, .new reserved⟩

/-! ### What is recorded -/

/-- Where drafts are settled, none is about a reserved subject. -/
theorem settle_unreserved {tx : EntityId} {ds : List Draft} {a : Allocation}
    {result : List Fact × Allocation} (ok : settle tx ds a = .ok result) :
    ∀ d ∈ ds, ¬ d.subject.Reserved := by
  induction ds generalizing a result with
  | nil => simp
  | cons d rest ih =>
    simp only [settle, Outcome.bind_eq_ok] at ok
    obtain ⟨⟨e, a'⟩, numbered, _, settled, _⟩ := ok
    intro d' member reserved
    rcases List.mem_cons.mp member with rfl | later
    · -- the first draft has got a number, so its subject is not reserved
      generalize d'.subject = subject at numbered reserved
      cases reserved with
      | new found => simp [Allocation.entity, Allocation.number, found] at numbered
    · exact ih settled d' later reserved

/-- A request that is carried out has no drafts about reserved subjects. -/
theorem commit_unreserved {now : Int64} {ds : List Draft} {result : Receipt × Store}
    (ok : commit v now s ds = .ok result) : ∀ d ∈ ds, ¬ d.subject.Reserved := by
  obtain ⟨tx, _, ok⟩ := Outcome.bind_eq_ok.mp ok
  split at ok
  next empty => simp [List.isEmpty_iff.mp empty]
  next =>
    simp only [Outcome.bind_eq_ok] at ok
    obtain ⟨_, _, _, _, _, settled, _⟩ := ok
    exact settle_unreserved settled

/-! ### What is drafted -/

/-- The last entry of a map that tells its entity counts. -/
theorem subject_of_splitEntries {key entity : Form} {before after : List (Form × Form)}
    (named : key.asName? = some v.entityKey)
    (last : ∀ entry ∈ after, entry.1.asName? ≠ some v.entityKey) {subject : Option Subject}
    {others : List (String × Form)}
    (ok : splitEntries v (before ++ (key, entity) :: after) = .ok (subject, others)) :
    ∃ told, subject = some told ∧ subjectOf entity = .ok told := by
  induction before generalizing subject others with
  | nil =>
    rw [List.nil_append, splitEntries, nameOf_eq_ok.mpr named, splitEntries_others last] at ok
    simp only [Outcome.ok_bind, if_true, Outcome.bind_eq_ok, Outcome.map_eq_ok] at ok
    obtain ⟨told, about, ⟨_, _⟩, ⟨_, _, none⟩, ok⟩ := ok
    obtain ⟨rfl, rfl⟩ := Prod.mk.inj none
    exact ⟨told, (Prod.mk.inj (Outcome.pure_eq_ok.mp ok)).1.symm, about⟩
  | cons entry rest ih =>
    rw [List.cons_append, splitEntries, Outcome.bind_eq_ok] at ok
    obtain ⟨name, _, ok⟩ := ok
    -- what the first entry tells gives way to what the later one does
    split at ok
    · simp only [Outcome.bind_eq_ok] at ok
      obtain ⟨_, _, ⟨later, _⟩, split_rest, ok⟩ := ok
      obtain ⟨told, rfl, about⟩ := ih split_rest
      exact ⟨told, (Prod.mk.inj (Outcome.pure_eq_ok.mp ok)).1.symm, about⟩
    · simp only [Outcome.bind_eq_ok] at ok
      obtain ⟨⟨later, _⟩, split_rest, ok⟩ := ok
      obtain ⟨told, rfl, about⟩ := ih split_rest
      exact ⟨told, (Prod.mk.inj (Outcome.pure_eq_ok.mp ok)).1.symm, about⟩

/-- A map with an entry that does not tell its entity has something to say about it. -/
theorem others_of_splitEntries {entries : List (Form × Form)} {subject : Option Subject}
    {others : List (String × Form)} (ok : splitEntries v entries = .ok (subject, others))
    (other : ∃ entry ∈ entries, entry.1.asName? ≠ some v.entityKey) : others ≠ [] := by
  induction entries generalizing subject others with
  | nil => simp at other
  | cons entry rest ih =>
    rw [splitEntries, Outcome.bind_eq_ok] at ok
    obtain ⟨name, read, ok⟩ := ok
    split at ok
    next tells =>
      -- the first entry tells the entity, so it is another one that does not
      simp only [Outcome.bind_eq_ok] at ok
      obtain ⟨_, _, ⟨_, _⟩, split_rest, ok⟩ := ok
      obtain ⟨_, rfl⟩ := Prod.mk.inj (Outcome.pure_eq_ok.mp ok)
      apply ih split_rest
      obtain ⟨found, member, apart⟩ := other
      rcases List.mem_cons.mp member with rfl | later
      · exact absurd (tells ▸ nameOf_eq_ok.mp read) apart
      · exact ⟨found, later, apart⟩
    next =>
      simp only [Outcome.bind_eq_ok] at ok
      obtain ⟨⟨_, _⟩, _, ok⟩ := ok
      obtain ⟨_, rfl⟩ := Prod.mk.inj (Outcome.pure_eq_ok.mp ok)
      exact List.cons_ne_nil _ _

/-- A map with something to say yields a draft about the entity that its last entry of that kind
tells. -/
theorem exists_draft_of_ofEntries {key entity : Form} {before after : List (Form × Form)}
    (named : key.asName? = some v.entityKey)
    (last : ∀ entry ∈ after, entry.1.asName? ≠ some v.entityKey)
    (other : ∃ entry ∈ before ++ after, entry.1.asName? ≠ some v.entityKey) {number : Nat}
    {ds : List Draft} (ok : ofEntries v s number (before ++ (key, entity) :: after) = .ok ds) :
    ∃ d ∈ ds, subjectOf entity = .ok d.subject := by
  simp only [ofEntries, Outcome.bind_eq_ok] at ok
  obtain ⟨⟨_, others⟩, split_ok, _, _, drafted⟩ := ok
  obtain ⟨told, rfl, about⟩ := subject_of_splitEntries named last split_ok
  have among : ∃ entry ∈ before ++ (key, entity) :: after, entry.1.asName? ≠ some v.entityKey := by
    obtain ⟨entry, member, apart⟩ := other
    exact ⟨entry, List.mem_append.mpr
      ((List.mem_append.mp member).imp_right (List.mem_cons_of_mem _)), apart⟩
  -- any of the other entries will do, so take the first
  obtain ⟨first, rest, rfl⟩ := List.exists_cons_of_ne_nil (others_of_splitEntries split_ok among)
  obtain ⟨d, member, drafted⟩ :=
    Outcome.exists_right_of_mem (Outcome.mapM_eq_ok.mp drafted) List.mem_cons_self
  obtain ⟨_, _, _, _, rfl⟩ := draft_eq_ok.mp drafted
  exact ⟨_, member, about⟩

/-- A tuple that is no retraction yields a draft about its entity. -/
theorem exists_draft_of_ofTuple {operation entity attr told : Form}
    (other : operation.asName? ≠ some v.retractOperation) {ds : List Draft}
    (ok : ofTuple v s [operation, entity, attr, told] = .ok ds) :
    ∃ d ∈ ds, subjectOf entity = .ok d.subject := by
  simp only [ofTuple, Outcome.bind_eq_ok] at ok
  obtain ⟨name, read, subject, about, ok⟩ := ok
  have apart : name ≠ v.retractOperation := by
    rintro rfl
    exact other (nameOf_eq_ok.mp read)
  simp only [if_neg apart, Outcome.ok_bind, if_true, Outcome.bind_eq_ok, Outcome.pure_eq_ok] at ok
  obtain ⟨_, _, _, _, _, _, _, _, rfl⟩ := ok
  exact ⟨_, List.mem_singleton_self _, about⟩

/-- A retraction about a name is dropped, whatever else it says. -/
theorem ofTuple_retracts_byName {operation entity : Form}
    (named : operation.asName? = some v.retractOperation) (about : entity.ByName)
    (attr told : Form) : ofTuple v s [operation, entity, attr, told] = .ok [] := by
  obtain ⟨subject, found, reserved⟩ := subjectOf_byName about
  cases reserved
  simp only [ofTuple, nameOf_eq_ok.mpr named, found, Outcome.ok_bind, if_true]
  rfl

variable {operation : Operation}

theorem Operation.RefersByName.retraction_dropped (refers : operation.RefersByName v)
    (retracts : operation.Retracts v) (s : Store) (number : Nat) :
    operation.drafts v s number = .ok [] := by
  cases refers with
  | tuple about operation attr told =>
    obtain ⟨named⟩ := retracts
    exact ofTuple_retracts_byName named about attr told
  | entries => cases retracts

/-- Any other operation that refers by name to its entity yields a draft about a reserved subject,
if it is taken apart at all. -/
theorem Operation.RefersByName.exists_reserved (refers : operation.RefersByName v)
    (other : ¬ operation.Retracts v) {number : Nat} {ds : List Draft}
    (ok : operation.drafts v s number = .ok ds) : ∃ d ∈ ds, d.subject.Reserved := by
  have drafted : ∃ (entity : Form) (d : Draft), entity.ByName ∧ d ∈ ds ∧
      subjectOf entity = .ok d.subject := by
    cases refers with
    | @tuple entity about operation attr told =>
      obtain ⟨d, member, found⟩ := exists_draft_of_ofTuple (fun named => other ⟨named⟩) ok
      exact ⟨entity, d, about, member, found⟩
    | @entries key entity before after named about last apart =>
      obtain ⟨d, member, found⟩ := exists_draft_of_ofEntries named last apart ok
      exact ⟨entity, d, about, member, found⟩
  obtain ⟨entity, d, about, member, found⟩ := drafted
  obtain ⟨subject, found', reserved⟩ := subjectOf_byName about
  obtain rfl := Except.ok.inj (found'.symm.trans found)
  exact ⟨d, member, reserved⟩

end Transaction

namespace Database

open Transaction

/-- A request in which an operation refers to its entity by a name fails and leaves the database as
it is, unless the operation is a retraction. A retraction yields nothing then. -/
theorem carryOut_byName (db : Database) (now : Int64) {request : Form} {operation : Operation}
    (among : operation ∈ operations request) (refers : operation.RefersByName db.vocabulary) :
    (¬ operation.Retracts db.vocabulary → ∃ fault, db.carryOut now request = (.error fault, db)) ∧
      (operation.Retracts db.vocabulary →
        ∀ number, operation.drafts db.vocabulary db.store number = .ok []) := by
  refine ⟨fun other => ?_, fun retracts => refers.retraction_dropped retracts db.store⟩
  rw [carryOut_eq]
  cases done : db.store.transact db.vocabulary now request with
  | error fault => exact ⟨fault, rfl⟩
  | ok result =>
    -- what the operation yields would have been committed with the rest
    obtain ⟨ds, drafted, committed⟩ := Outcome.bind_eq_ok.mp done
    obtain ⟨parts, rfl, each⟩ := drafts_parts drafted
    obtain ⟨number, at_number⟩ := List.mem_iff_getElem?.mp among
    have place : (operation, number) ∈ (operations request).zipIdx :=
      List.mk_mem_zipIdx_iff_getElem?.mpr at_number
    obtain ⟨part, part_member, part_ok⟩ := Outcome.exists_right_of_mem each place
    obtain ⟨d, inside, reserved⟩ := refers.exists_reserved other part_ok
    have member : d ∈ parts.flatten := List.mem_flatten.mpr ⟨part, part_member, inside⟩
    exact absurd reserved (commit_unreserved committed d member)

/-- The request that names a new entity and documents one that is referred to by its name. -/
def cultRequest : Form :=
  .map [(.keyword "tx-data", .list [
    .map [(.keyword "db/identity", .text ":movie/cult")],
    .list [.keyword "db.operation/assert", .keyword "movie/cult", .keyword "db/documentation",
      .text "a cult film"]])]

/-- The request that takes back the documentation of an entity that is referred to by its name. -/
def undocumentRequest : Form :=
  .map [(.keyword "tx-data", .list [.keyword "db.operation/retract", .keyword "db/attribute",
    .keyword "db/documentation", .text "Defines an attribute type"])]

/-- In a new table, the request about a cult film fails as a whole; the request that takes back a
documentation only has an operation that is dropped. -/
theorem carryOut_byName_cult :
    ∃ db : Database, db.Reachable ∧
      (∃ operation ∈ operations cultRequest, operation.RefersByName db.vocabulary ∧
        ∃ fault, db.carryOut 5 cultRequest = (.error fault, db)) ∧
      ∃ operation ∈ operations undocumentRequest, operation.RefersByName db.vocabulary ∧
        operation.drafts db.vocabulary db.store 0 = .ok [] := by
  have computed : (ofStore (Store.empty .table) .standard ⟨"", 0, 0, 0⟩).toOption.isSome := by
    decide +kernel
  obtain ⟨db, opened⟩ := Option.isSome_iff_exists.mp computed
  have opened := Outcome.toOption_eq_some.mp opened
  have vocabulary : db.vocabulary = .standard := (ofStore_empty_eq_ok opened).2
  let asserted : Operation := .tuple [.keyword "db.operation/assert", .keyword "movie/cult",
    .keyword "db/documentation", .text "a cult film"]
  let retracted : Operation := .tuple [.keyword "db.operation/retract", .keyword "db/attribute",
    .keyword "db/documentation", .text "Defines an attribute type"]
  have asserts : asserted ∈ operations cultRequest := List.mem_cons_of_mem _ List.mem_cons_self
  have retracts : retracted ∈ operations undocumentRequest := List.mem_singleton_self _
  have refers : asserted.RefersByName db.vocabulary := .tuple (.keyword _) _ _ _
  have refers' : retracted.RefersByName db.vocabulary := .tuple (.keyword _) _ _ _
  have other : ¬ asserted.Retracts db.vocabulary := by
    rw [vocabulary]
    change ¬ Operation.Retracts _ (.tuple (_ :: _))
    rintro ⟨named⟩
    exact absurd named (by decide)
  refine ⟨db, reachable_of_opened opened,
    ⟨asserted, asserts, refers, (carryOut_byName db 5 asserts refers).1 other⟩,
    retracted, retracts, refers', (carryOut_byName db 5 retracts refers').2 ?_ 0⟩
  rw [vocabulary]
  exact .tuple rfl

/-- A retraction about a name does not fail, though its operation is one of the vocabulary and has a
number. -/
theorem carryOut_byName_not_always_fails :
    ¬ ∀ (db : Database) (now : Int64) (request operation entity attr told : Form) (name : String)
        (e : EntityId), db.Reachable → .tuple [operation, entity, attr, told] ∈ operations request →
      operation.asName? = some name →
      name ∈ [db.vocabulary.assertOperation, db.vocabulary.retractOperation] →
      db.resolve name = .ok e → entity.ByName →
      ∃ fault, db.carryOut now request = (.error fault, db) := by
  intro fails
  have computed : ((ofStore (Store.empty .table) .standard ⟨"", 0, 0, 0⟩).toOption.map fun db =>
      ((db.resolve ":db.operation/retract").toOption,
        (db.carryOut 5 undocumentRequest).1.toOption.isSome)) = some (some 30, true) := by
    decide +kernel
  obtain ⟨db, opened, computed⟩ := Option.map_eq_some_iff.mp computed
  obtain ⟨number, done⟩ := Prod.mk.inj computed
  have opened := Outcome.toOption_eq_some.mp opened
  have vocabulary : db.vocabulary = .standard := (ofStore_empty_eq_ok opened).2
  obtain ⟨fault, failed⟩ := fails db 5 undocumentRequest _ _ _ _ ":db.operation/retract" 30
    (reachable_of_opened opened) (List.mem_singleton_self _) rfl
    (by rw [vocabulary]; decide) (Outcome.toOption_eq_some.mp number) (.keyword "db/attribute")
  rw [failed] at done
  cases done

end Database

end Factbase
