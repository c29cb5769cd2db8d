import Factbase.Proofs.Renumbering
import Factbase.Proofs.Run

/-!
# Factbase.Proofs.Shorthand

Maps as shorthand. A map that names its entity says what the tuples say that assert its other
entries about that entity, one after another. A request with these tuples in place of the map has
the same outcome: the same facts in the same store, under the same number, or none. What is
different are the places of the operations behind the map, and with them how the entities are called
that those operations do not name.
-/

namespace Factbase

/-! ### Spelling out -/

/-- The entries of a map that names its entity, and the tuples that assert the other entries about
that entity. -/
inductive Form.EntriesSpelledOut (v : Vocabulary) :
    List (Form × Form) → List (List Form) → Prop where
  | tuples {key about assertion : Form} {before after : List (Form × Form)}
      (named : key.asName? = some v.entityKey)
      (others : ∀ entry ∈ before ++ after, entry.1.asName? ≠ some v.entityKey)
      (nonempty : before ++ after ≠ []) (asserts : assertion.asName? = some v.assertOperation) :
      EntriesSpelledOut v (before ++ (key, about) :: after)
        ((before ++ after).map fun entry => [assertion, about, entry.1, entry.2])

/-- A section of operations with such a map, and the section with the tuples in its place. -/
inductive Form.SectionSpelledOut (v : Vocabulary) : Form → Form → Prop where
  /-- The map is the section. -/
  | whole {entries : List (Form × Form)} {tuples : List (List Form)}
      (spelled : EntriesSpelledOut v entries tuples) :
      SectionSpelledOut v (.map entries) (.list (tuples.map .list))
  /-- The map is one of the operations in a list. -/
  | item {entries : List (Form × Form)} {tuples : List (List Form)} {left right : List Form}
      (spelled : EntriesSpelledOut v entries tuples)
      (operations : ∀ item ∈ left ++ right, (Transaction.dataOperation? item).isSome) :
      SectionSpelledOut v (.list (left ++ .map entries :: right))
        (.list (left ++ tuples.map .list ++ right))

/-- A request with such a map among its operations on data, and the request with the tuples in its
place. -/
inductive Form.SpelledOut (v : Vocabulary) : Form → Form → Prop where
  | request {key part part' : Form} {before after : List (Form × Form)}
      (data : key.asName? = some ":tx-data")
      (first : ∀ entry ∈ before, entry.1.asName? ≠ some ":tx-data")
      (spelled : part.SectionSpelledOut v part') :
      SpelledOut v (.map (before ++ (key, part) :: after)) (.map (before ++ (key, part') :: after))

/-- What a map says under a name is what the first entry with that name says. -/
theorem Form.get?_named {name : String} {key : Form} (value : Form)
    {before : List (Form × Form)} (after : List (Form × Form)) (named : key.asName? = some name)
    (first : ∀ entry ∈ before, entry.1.asName? ≠ some name) :
    (Form.map (before ++ (key, value) :: after)).get? name = some value := by
  have none : before.find? (fun entry => entry.1.asName? == some name) = none :=
    List.find?_eq_none.mpr fun entry member => by simpa using first entry member
  rw [Form.get?, List.find?_append, none, List.find?_cons_of_pos (by simpa using named)]
  rfl

/-- What a map says under other names is the same for every value of an entry. -/
theorem Form.get?_other {name : String} {key : Form} (value value' : Form)
    (before after : List (Form × Form)) (other : key.asName? ≠ some name) :
    (Form.map (before ++ (key, value) :: after)).get? name
      = (Form.map (before ++ (key, value') :: after)).get? name := by
  simp only [Form.get?, List.find?_append]
  rw [List.find?_cons_of_neg (by simpa using other), List.find?_cons_of_neg (by simpa using other)]

namespace Transaction

variable {v : Vocabulary} {s : Store}

theorem exists_mapM_dataOperation? {items : List Form}
    (operations : ∀ item ∈ items, (dataOperation? item).isSome) :
    ∃ found, items.mapM dataOperation? = some found := by
  induction items with
  | nil => exact ⟨[], rfl⟩
  | cons item rest ih =>
    obtain ⟨operation, first⟩ := Option.isSome_iff_exists.mp (operations item List.mem_cons_self)
    obtain ⟨others, found⟩ := ih fun item member => operations item (List.mem_cons_of_mem _ member)
    exact ⟨operation :: others, by rw [List.mapM_cons, first, found]; rfl⟩

theorem mapM_dataOperation?_tuples (tuples : List (List Form)) :
    (tuples.map Form.list).mapM dataOperation? = some (tuples.map .tuple) := by
  induction tuples with
  | nil => rfl
  | cons items rest ih =>
    rw [List.map_cons, List.mapM_cons, ih]
    rfl

theorem dataOperations_list {items : List Form} {operations : List Operation}
    (found : items.mapM dataOperation? = some operations) :
    dataOperations (.list items) = operations := by
  unfold dataOperations
  simp only [found]

/-- In a section, the operation that the map is makes room for those that the tuples are. -/
theorem dataOperations_spelledOut {part part' : Form} (spelled : part.SectionSpelledOut v part') :
    ∃ left right entries tuples, Form.EntriesSpelledOut v entries tuples ∧
      dataOperations part = left ++ .entries entries :: right ∧
      dataOperations part' = left ++ tuples.map .tuple ++ right := by
  cases spelled with
  | @whole entries tuples spelled =>
    refine ⟨[], [], entries, tuples, spelled, rfl, ?_⟩
    rw [dataOperations_list (mapM_dataOperation?_tuples tuples), List.nil_append, List.append_nil]
  | @item entries tuples left right spelled operations =>
    obtain ⟨before, left_found⟩ := exists_mapM_dataOperation? fun item member =>
      operations item (List.mem_append_left right member)
    obtain ⟨after, right_found⟩ := exists_mapM_dataOperation? fun item member =>
      operations item (List.mem_append_right left member)
    refine ⟨before, after, entries, tuples, spelled, dataOperations_list ?_, dataOperations_list ?_⟩
    · rw [List.mapM_append, List.mapM_cons, left_found, right_found]
      rfl
    · rw [List.mapM_append, List.mapM_append, left_found, right_found, mapM_dataOperation?_tuples]
      rfl

theorem operations_spelledOut {request request' : Form} (spelled : request.SpelledOut v request') :
    ∃ left right entries tuples, Form.EntriesSpelledOut v entries tuples ∧
      operations request = left ++ .entries entries :: right ∧
      operations request' = left ++ tuples.map .tuple ++ right := by
  cases spelled with
  | @request key part part' before after data first spelled =>
    obtain ⟨left, right, entries, tuples, spelled, map, spelled_map⟩ :=
      dataOperations_spelledOut spelled
    have other : key.asName? ≠ some ":tx-attribute" := by
      rw [data]
      decide
    -- the declarations come before the data, and are the same in both requests
    obtain ⟨declared, sections⟩ : ∃ declared, ∀ value,
        operations (.map (before ++ (key, value) :: after)) = declared ++ dataOperations value := by
      refine ⟨(((Form.map (before ++ (key, part) :: after)).get? ":tx-attribute").map
        declarations).getD [], fun value => ?_⟩
      rw [operations, Form.get?_named value after data first,
        Form.get?_other value part before after other]
      rfl
    refine ⟨declared ++ left, right, entries, tuples, spelled, ?_, ?_⟩
    · rw [sections, map, List.append_assoc]
    · rw [sections, spelled_map, List.append_assoc, List.append_assoc, List.append_assoc]

/-! ### Drafts -/

/-- The draft of an entry about an entity. -/
def entryDraft (s : Store) (subject : Subject) (op : EntityId) (entry : Form × Form) :
    Except Fault Draft := do
  let attr ← nameOf entry.1
  draft s subject op attr (valueOf entry.2)

/-- The entries of a map with the names of their keys. -/
def named (entries : List (Form × Form)) : Except Fault (List (String × Form)) :=
  entries.mapM fun entry => (nameOf entry.1).map (·, entry.2)

theorem named_cons (entry : Form × Form) (rest : List (Form × Form)) :
    named (entry :: rest) = do
      let name ← nameOf entry.1
      let later ← named rest
      return (name, entry.2) :: later := by
  unfold named
  rw [List.mapM_cons, Outcome.bind_map]

theorem splitEntries_others {entries : List (Form × Form)}
    (others : ∀ entry ∈ entries, entry.1.asName? ≠ some v.entityKey) :
    splitEntries v entries = (named entries).map (none, ·) := by
  induction entries with
  | nil => rfl
  | cons entry rest ih =>
    have later := ih fun entry member => others entry (List.mem_cons_of_mem _ member)
    rw [splitEntries, named_cons]
    cases read : nameOf entry.1 with
    | error fault => rfl
    | ok name =>
      have other : name ≠ v.entityKey := by
        rintro rfl
        exact others entry List.mem_cons_self (nameOf_eq_ok.mp read)
      simp only [Outcome.ok_bind, if_neg other, later, Outcome.bind_map, Outcome.map_bind]
      rfl

/-- The entry that tells the entity may stand anywhere among the others. -/
theorem splitEntries_about {key about : Form} {before after : List (Form × Form)}
    (key_named : key.asName? = some v.entityKey)
    (others : ∀ entry ∈ before ++ after, entry.1.asName? ≠ some v.entityKey) :
    splitEntries v (before ++ (key, about) :: after) = do
      let first ← named before
      let subject ← subjectOf about
      let later ← named after
      return (some subject, first ++ later) := by
  induction before with
  | nil =>
    have rest : splitEntries v after = (named after).map (none, ·) := splitEntries_others others
    rw [List.nil_append, splitEntries, nameOf_eq_ok.mpr key_named, rest]
    simp only [Outcome.ok_bind, if_true, Outcome.bind_map]
    rfl
  | cons entry rest ih =>
    have later := ih fun entry member => others entry (List.mem_cons_of_mem _ member)
    rw [List.cons_append, splitEntries, named_cons, later]
    cases read : nameOf entry.1 with
    | error fault => rfl
    | ok name =>
      have other : name ≠ v.entityKey := by
        rintro rfl
        exact others entry List.mem_cons_self (nameOf_eq_ok.mp read)
      simp only [Outcome.ok_bind, if_neg other, bind_assoc, Outcome.pure_eq, List.cons_append]

/-- Reading the names of all entries first makes no difference for the drafts, if there are any. -/
theorem mapM_entryDraft {subject : Subject} {op : EntityId} {entries : List (Form × Form)}
    {ds : List Draft} :
    entries.mapM (entryDraft s subject op) = .ok ds ↔
      ∃ others, named entries = .ok others ∧
        others.mapM (fun (attr, value) => draft s subject op attr (valueOf value)) = .ok ds := by
  induction entries generalizing ds with
  | nil => simp [named]
  | cons entry rest ih =>
    simp only [List.mapM_cons, named_cons, entryDraft, Outcome.bind_eq_ok,
      Outcome.pure_eq_ok] at ih ⊢
    constructor
    · rintro ⟨d, ⟨name, read, drafted⟩, ds, later, rfl⟩
      obtain ⟨others, named_ok, others_ok⟩ := ih.mp later
      refine ⟨(name, entry.2) :: others, ⟨name, read, others, named_ok, rfl⟩, ?_⟩
      rw [List.mapM_cons, drafted, others_ok]
      rfl
    · rintro ⟨_, ⟨name, read, others, named_ok, rfl⟩, drafted⟩
      simp only [List.mapM_cons, Outcome.bind_eq_ok, Outcome.pure_eq_ok] at drafted
      obtain ⟨d, first_ok, ds, others_ok, rfl⟩ := drafted
      exact ⟨d, ⟨name, read, first_ok⟩, ds, ih.mpr ⟨others, named_ok, others_ok⟩, rfl⟩

theorem named_append (before after : List (Form × Form)) :
    named (before ++ after) = do
      let first ← named before
      let later ← named after
      return first ++ later :=
  List.mapM_append

/-- A map that names its entity is taken apart exactly if the entity can be referred to and each of
its other entries yields a draft. -/
theorem ofEntries_about {key about : Form} {before after : List (Form × Form)}
    (key_named : key.asName? = some v.entityKey)
    (others : ∀ entry ∈ before ++ after, entry.1.asName? ≠ some v.entityKey) {number : Nat}
    {ds : List Draft} :
    ofEntries v s number (before ++ (key, about) :: after) = .ok ds ↔
      ∃ subject op, subjectOf about = .ok subject ∧ s.entityOf v.assertOperation = .ok op ∧
        (before ++ after).mapM (entryDraft s subject op) = .ok ds := by
  simp only [ofEntries, splitEntries_about key_named others, mapM_entryDraft, named_append,
    Outcome.bind_eq_ok, Outcome.pure_eq_ok]
  constructor
  · rintro ⟨_, ⟨first, first_ok, subject, about_ok, later, later_ok, rfl⟩, op, op_ok, drafted⟩
    exact ⟨subject, op, about_ok, op_ok, first ++ later, ⟨first, first_ok, later, later_ok, rfl⟩,
      drafted⟩
  · rintro ⟨subject, op, about_ok, op_ok, _, ⟨first, first_ok, later, later_ok, rfl⟩, drafted⟩
    exact ⟨(some subject, first ++ later), ⟨first, first_ok, subject, about_ok, later, later_ok,
      rfl⟩, op, op_ok, drafted⟩

theorem assertOperation_ne_retractOperation (v : Vocabulary) :
    v.assertOperation ≠ v.retractOperation := by
  rw [Vocabulary.assertOperation, Vocabulary.retractOperation, Vocabulary.memberName,
    Vocabulary.memberName, ne_eq, Vocabulary.within_inj]
  decide

/-- A tuple that asserts is taken apart exactly if its entity can be referred to and the rest of it
yields a draft. -/
theorem ofTuple_asserts {assertion about key told : Form}
    (asserts : assertion.asName? = some v.assertOperation) {ds : List Draft} :
    ofTuple v s [assertion, about, key, told] = .ok ds ↔
      ∃ subject op d, subjectOf about = .ok subject ∧ s.entityOf v.assertOperation = .ok op ∧
        entryDraft s subject op (key, told) = .ok d ∧ ds = [d] := by
  simp only [ofTuple, nameOf_eq_ok.mpr asserts, Outcome.ok_bind,
    if_neg (assertOperation_ne_retractOperation v), if_true, entryDraft, draft_eq_ok,
    Outcome.bind_eq_ok, Outcome.pure_eq_ok]
  constructor
  · rintro ⟨subject, about_ok, name, read, attr, attr_ok, value, value_ok, op, op_ok, rfl⟩
    exact ⟨subject, op, _, about_ok, op_ok, ⟨name, read, attr, value, attr_ok, value_ok, rfl⟩, rfl⟩
  · rintro ⟨subject, op, _, about_ok, op_ok, ⟨name, read, attr, value, attr_ok, value_ok, rfl⟩, rfl⟩
    exact ⟨subject, about_ok, name, read, attr, attr_ok, value, value_ok, op, op_ok, rfl⟩

/-- Tuples that assert something about one entity are taken apart, wherever they stand in a request,
as the entries that they come from. -/
theorem draftsFrom_tuples {assertion about : Form}
    (asserts : assertion.asName? = some v.assertOperation) {subject : Subject} {op : EntityId}
    (about_ok : subjectOf about = .ok subject) (op_ok : s.entityOf v.assertOperation = .ok op)
    {start : Nat} {entries : List (Form × Form)} {ds : List Draft} :
    draftsFrom v s start (entries.map fun entry => .tuple [assertion, about, entry.1, entry.2])
        = .ok ds ↔ entries.mapM (entryDraft s subject op) = .ok ds := by
  induction entries generalizing start ds with
  | nil => exact Iff.rfl
  | cons entry rest ih =>
    simp only [List.map_cons, draftsFrom, Operation.drafts, List.mapM_cons, Outcome.bind_eq_ok,
      Outcome.pure_eq_ok, ofTuple_asserts asserts, ih, about_ok, op_ok]
    constructor
    · rintro ⟨_, ⟨_, _, d, ⟨rfl⟩, ⟨rfl⟩, drafted, rfl⟩, later, others, rfl⟩
      exact ⟨d, drafted, later, others, rfl⟩
    · rintro ⟨d, drafted, later, others, rfl⟩
      exact ⟨[d], ⟨subject, op, d, rfl, rfl, drafted, rfl⟩, later, others, rfl⟩

theorem draftsFrom_asserts {assertion about : Form}
    (asserts : assertion.asName? = some v.assertOperation) {entries : List (Form × Form)}
    (nonempty : entries ≠ []) {start : Nat} {ds : List Draft} :
    draftsFrom v s start (entries.map fun entry => .tuple [assertion, about, entry.1, entry.2])
        = .ok ds ↔
      ∃ subject op, subjectOf about = .ok subject ∧ s.entityOf v.assertOperation = .ok op ∧
        entries.mapM (entryDraft s subject op) = .ok ds := by
  constructor
  · intro ok
    -- the first tuple finds the entity and the operation for all of them
    obtain ⟨entry, rest, rfl⟩ := List.exists_cons_of_ne_nil nonempty
    have first := ok
    rw [List.map_cons, draftsFrom, Outcome.bind_eq_ok] at first
    obtain ⟨_, tuple_ok, _⟩ := first
    obtain ⟨subject, op, _, about_ok, op_ok, _⟩ := (ofTuple_asserts asserts).mp tuple_ok
    exact ⟨subject, op, about_ok, op_ok, (draftsFrom_tuples asserts about_ok op_ok).mp ok⟩
  · rintro ⟨subject, op, about_ok, op_ok, drafted⟩
    exact (draftsFrom_tuples asserts about_ok op_ok).mpr drafted

/-- A map that names its entity and the tuples that it is spelled out to are taken apart alike. -/
theorem draftsFrom_spelledOut {entries : List (Form × Form)} {tuples : List (List Form)}
    (spelled : Form.EntriesSpelledOut v entries tuples) (number start : Nat) :
    (draftsFrom v s start (tuples.map .tuple)).toOption
      = (ofEntries v s number entries).toOption := by
  obtain ⟨key_named, others, nonempty, asserts⟩ := spelled
  apply Option.ext
  intro ds
  rw [Outcome.toOption_eq_some, Outcome.toOption_eq_some, ofEntries_about key_named others,
    List.map_map]
  exact draftsFrom_asserts asserts nonempty

/-- The places of operations when the one at a place makes room for some more. -/
def makeRoom (place more : Nat) (number : Nat) : Nat :=
  if number ≤ place then number else number + more

theorem makeRoom_injective (place more : Nat) : Function.Injective (makeRoom place more) := by
  intro number other same
  unfold makeRoom at same
  split at same <;> split at same <;> omega

/-- A request with a map spelled out is taken apart as before, but for the entities that the
operations behind the map do not name. -/
theorem drafts_spelledOut {request request' : Form} (spelled : request.SpelledOut v request')
    (s : Store) :
    ∃ place, Function.Injective place ∧ (drafts v s request').toOption
      = (drafts v s request).toOption.map (List.map (Draft.moved place)) := by
  obtain ⟨left, right, entries, tuples, spelled, map, spelled_map⟩ := operations_spelledOut spelled
  have pos : 0 < tuples.length := by
    obtain ⟨_, _, nonempty, _⟩ := spelled
    rw [List.length_map]
    exact List.length_pos_iff.mpr nonempty
  -- the operations before the map and the map itself stay where they are
  have stay : ∀ i ≤ left.length, makeRoom left.length (tuples.length - 1) i = i :=
    fun i low => if_pos low
  have behind : ∀ i < right.length, makeRoom left.length (tuples.length - 1)
      (left.length + [Operation.entries entries].length + i)
        = left.length + (tuples.map Operation.tuple).length + i := by
    intro i _
    have further : ¬ left.length + 1 + i ≤ left.length := by omega
    rw [List.length_singleton, List.length_map, makeRoom, if_neg further]
    omega
  have between : (draftsFrom v s left.length (tuples.map .tuple)).toOption
      = (draftsFrom v s left.length [.entries entries]).toOption.map
          (List.map (Draft.moved (makeRoom left.length (tuples.length - 1)))) := by
    have moved := Operation.drafts_moved v s (makeRoom left.length (tuples.length - 1)) left.length
      (.entries entries)
    rw [stay _ (Nat.le_refl _)] at moved
    rw [draftsFrom_spelledOut spelled left.length, draftsFrom_singleton, ← Outcome.toOption_map,
      ← moved]
    rfl
  refine ⟨makeRoom left.length (tuples.length - 1), makeRoom_injective _ _, ?_⟩
  rw [drafts_eq, drafts_eq, map, spelled_map, List.append_cons left]
  exact draftsFrom_replaced (fun i low => stay i (Nat.le_of_lt low)) between behind

end Transaction

/-! ### Outcomes -/

namespace Database

/-- What two requests do that fail both and leave a database as it is, or succeed both and leave the
same database, with receipts that differ in what entities are called that no operation names. -/
inductive Alike (db : Database) (place : Nat → Nat) :
    Except Fault Receipt × Database → Except Fault Receipt × Database → Prop where
  | failed (fault fault' : Fault) : Alike db place (.error fault, db) (.error fault', db)
  | done (receipt : Receipt) (after : Database) :
      Alike db place (.ok receipt, after) (.ok (receipt.moved place), after)

/-- A request with a map, and the request with the map spelled out, both fail and leave the database
as it is, or both succeed, record the same facts under the same number, and leave the same
database. -/
theorem carryOut_spelledOut (db : Database) (now : Int64) {request request' : Form}
    (spelled : request.SpelledOut db.vocabulary request') :
    ∃ place, Function.Injective place ∧
      Alike db place (db.carryOut now request) (db.carryOut now request') := by
  obtain ⟨place, apart, drafted⟩ := Transaction.drafts_spelledOut spelled db.store
  have same := Store.transact_moved apart drafted now
  refine ⟨place, apart, ?_⟩
  rw [carryOut_eq, carryOut_eq]
  cases done : db.store.transact db.vocabulary now request with
  | error fault =>
    cases done' : db.store.transact db.vocabulary now request' with
    | error fault' => exact .failed fault fault'
    | ok result =>
      rw [done, done'] at same
      cases same
  | ok result =>
    rw [done] at same
    have done' : db.store.transact db.vocabulary now request'
        = .ok (result.1.moved place, result.2) := Outcome.toOption_eq_some.mp same
    rw [done']
    exact .done result.1 { db with store := result.2 }

/-- The request that documents an entity and names it, and names another one behind. -/
def filmRequest : Form :=
  .map [(.keyword "tx-data", .list [
    .map [(.keyword "db/documentation", .text "a film"), (.keyword "db/e", .text "film"),
      (.keyword "db/identity", .text ":film")],
    .map [(.keyword "db/identity", .text ":person")]])]

/-- The same request with its first map spelled out. -/
def filmTuples : Form :=
  .map [(.keyword "tx-data", .list [
    .list [.keyword "db.operation/assert", .text "film", .keyword "db/documentation",
      .text "a film"],
    .list [.keyword "db.operation/assert", .text "film", .keyword "db/identity", .text ":film"],
    .map [(.keyword "db/identity", .text ":person")]])]

theorem filmRequest_spelledOut : filmRequest.SpelledOut .standard filmTuples := by
  let before : List (Form × Form) := [(.keyword "db/documentation", .text "a film")]
  let after : List (Form × Form) := [(.keyword "db/identity", .text ":film")]
  let person : Form := .map [(.keyword "db/identity", .text ":person")]
  have entries : Form.EntriesSpelledOut .standard
      (before ++ (Form.keyword "db/e", Form.text "film") :: after)
      ((before ++ after).map fun entry =>
        [Form.keyword "db.operation/assert", Form.text "film", entry.1, entry.2]) :=
    .tuples rfl (by decide) (List.cons_ne_nil _ _) rfl
  have operations : ∀ item ∈ [] ++ [person], (Transaction.dataOperation? item).isSome := by
    intro item member
    obtain rfl := List.mem_singleton.mp member
    rfl
  exact @Form.SpelledOut.request .standard (.keyword "tx-data") _ _ [] [] rfl nofun
    (@Form.SectionSpelledOut.item .standard _ _ [] [person] entries operations)

/-- A new table carries out both requests: the documented entity gets a number first, then the one
that the last map is about. -/
theorem carryOut_spelledOut_film :
    ∃ db : Database, db.Reachable ∧ filmRequest.SpelledOut db.vocabulary filmTuples ∧
      ∃ receipt place after, db.carryOut 5 filmRequest = (.ok receipt, after) ∧
        db.carryOut 5 filmTuples = (.ok (receipt.moved place), after) ∧
        receipt.given = [(.token "film", 44), (.unnamed 1, 45)] := by
  have computed : ((ofStore (Store.empty .table) .standard ⟨"", 0, 0, 0⟩).toOption.bind fun db =>
      (db.carryOut 5 filmRequest).1.toOption.map Receipt.given)
      = some [(.token "film", 44), (.unnamed 1, 45)] := by
    decide +kernel
  obtain ⟨db, opened, computed⟩ := Option.bind_eq_some_iff.mp computed
  obtain ⟨receipt, carried, given⟩ := Option.map_eq_some_iff.mp computed
  have opened := Outcome.toOption_eq_some.mp opened
  have reachable : db.Reachable := ⟨.table, .standard, ⟨"", 0, 0, 0⟩, db, [], opened, rfl⟩
  have spelled : filmRequest.SpelledOut db.vocabulary filmTuples := by
    rw [(ofStore_empty_eq_ok opened).2]
    exact filmRequest_spelledOut
  obtain ⟨place, _, alike⟩ := carryOut_spelledOut db 5 spelled
  have first : db.carryOut 5 filmRequest = (.ok receipt, (db.carryOut 5 filmRequest).2) :=
    Prod.ext (Outcome.toOption_eq_some.mp carried) rfl
  rw [first] at alike
  refine ⟨db, reachable, spelled, receipt, place, _, first, ?_, given⟩
  generalize db.carryOut 5 filmTuples = second at alike
  cases alike with
  | done => rfl

end Database

end Factbase
