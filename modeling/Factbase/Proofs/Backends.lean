import Factbase.Proofs.Answer
import Factbase.Proofs.Storable

/-!
# Factbase.Proofs.Backends

Both ways of keeping facts are one to their callers. Two stores are alike when they hold the same
storable facts; then every read yields the same on both, every write of storable facts keeps them
alike, and so does every call whose request or query is storable.
-/

namespace Factbase

namespace Store

/-- Two stores that hold the same storable facts. -/
def Alike (s t : Store) : Prop :=
  ∃ fs, s.Holds fs ∧ t.Holds fs ∧ Log.Storable fs

/-- Two stores that no read tells apart, as long as it asks for what a table can hold. A listing
sorted by value is left out; and stores number no more facts than the largest integer of a cell,
which is also the most that memory has room for. -/
structure ReadsAlike (s t : Store) : Prop where
  lookup : ∀ (p : Pattern) (asOf : EntityId), p.Storable → asOf ≤ maxCellInt →
    s.lookup p asOf = t.lookup p asOf
  lastTx : s.lastTx = t.lastTx
  lastEntity : s.lastEntity = t.lastEntity
  nameOf : ∀ e ≤ maxCellInt, s.nameOf e = t.nameOf e
  entityOf : ∀ name, s.entityOf name = t.entityOf name
  count : ∀ e ≤ maxCellInt, s.count e = t.count e
  size : s.size = t.size
  identities : s.identities = t.identities
  list : ∀ listing : Listing, listing.sort ≠ some .value → s.size ≤ maxCellInt →
    s.list listing = t.list listing

/-! ### Reads and writes -/

theorem alike_empty (backend other : Backend) : (empty backend).Alike (empty other) :=
  ⟨[], holds_empty backend, holds_empty other, List.forall_mem_nil _⟩

variable {s t : Store}

theorem Alike.entityOf_eq (alike : s.Alike t) (name : String) :
    s.entityOf name = t.entityOf name := by
  obtain ⟨fs, left, right, _⟩ := alike
  rw [entityOf, entityOf, left.entityOf?_eq, right.entityOf?_eq]

theorem Alike.reads (alike : s.Alike t) : s.ReadsAlike t := by
  have entityOf := alike.entityOf_eq
  obtain ⟨fs, left, right, storable⟩ := alike
  -- on either side each read is the one of the log
  constructor
  · intro p asOf within bound
    rw [left.lookup_eq storable within bound, right.lookup_eq storable within bound]
  · rw [left.lastTx_eq, right.lastTx_eq]
  · rw [left.lastEntity_eq, right.lastEntity_eq]
  · intro e fits
    rw [left.nameOf_eq fits, right.nameOf_eq fits]
  · exact entityOf
  · intro e fits
    rw [left.count_eq fits, right.count_eq fits]
  · rw [left.size_eq, right.size_eq]
  · rw [left.identities_eq, right.identities_eq]
  · intro listing numbers room
    rw [left.size_eq] at room
    rw [left.list_eq storable numbers room, right.list_eq storable numbers room]

/-- Storable facts are written to alike stores alike. -/
theorem Alike.insertAll (alike : s.Alike t) {gs : List Fact} (storable : Log.Storable gs) :
    ∃ s' t', s.insertAll gs = .ok s' ∧ t.insertAll gs = .ok t' ∧ s'.Alike t' := by
  obtain ⟨fs, left, right, kept⟩ := alike
  obtain ⟨s', left_ok, left'⟩ := left.exists_insertAll storable
  obtain ⟨t', right_ok, right'⟩ := right.exists_insertAll storable
  exact ⟨s', t', left_ok, right_ok, fs ++ gs, left', right', kept.append storable⟩

/-- A change that a table can keep. -/
def Write.Storable : Write → Prop
  | .insert f => f.Storable
  | .insertAll fs => Log.Storable fs
  | .reset => True

/-- A storable change succeeds on alike stores and keeps them alike. -/
theorem Alike.write (alike : s.Alike t) {w : Write} (storable : w.Storable) :
    (s.write w).1 = .ok () ∧ (t.write w).1 = .ok () ∧ (s.write w).2.Alike (t.write w).2 := by
  -- a single fact is a batch of one
  have batch : ∀ gs, Log.Storable gs → (s.writeBatch gs).1 = .ok () ∧
      (t.writeBatch gs).1 = .ok () ∧ (s.writeBatch gs).2.Alike (t.writeBatch gs).2 := by
    intro gs kept
    obtain ⟨s', t', left_ok, right_ok, alike'⟩ := alike.insertAll kept
    rw [writeBatch_eq, writeBatch_eq, left_ok, right_ok]
    exact ⟨rfl, rfl, alike'⟩
  cases w with
  | insert f => exact batch [f] (List.forall_mem_singleton.mpr storable)
  | insertAll gs => exact batch gs storable
  | reset => exact ⟨rfl, rfl, alike_empty s.backend t.backend⟩

/-- Storable changes, one after another, all succeed on alike stores and keep them alike. -/
theorem Alike.writeAll (alike : s.Alike t) {ws : List Write} (storable : ∀ w ∈ ws, w.Storable) :
    (s.writeAll ws).1 = ws.map (fun _ => .ok ()) ∧ (t.writeAll ws).1 = ws.map (fun _ => .ok ()) ∧
      (s.writeAll ws).2.Alike (t.writeAll ws).2 := by
  induction ws generalizing s t with
  | nil => exact ⟨rfl, rfl, alike⟩
  | cons w rest ih =>
    obtain ⟨left, right, alike'⟩ := alike.write (storable w List.mem_cons_self)
    obtain ⟨left', right', alike''⟩ :=
      ih alike' fun d member => storable d (List.mem_cons_of_mem w member)
    refine ⟨?_, ?_, alike''⟩
    · simp only [Store.writeAll, left, left', List.map_cons]
    · simp only [Store.writeAll, right, right', List.map_cons]

end Store

/-! ### Requests -/

namespace Transaction

variable {s t : Store}

theorem hasFacts_congr (alike : s.Alike t) {form : Form} (within : form.Storable)
    {subject : Subject} (read : subjectOf form = .ok subject) :
    hasFacts s subject = hasFacts t subject := by
  cases subject with
  | existing e =>
    have fits : e ≤ maxCellInt := within.subject_le read
    rw [hasFacts, hasFacts, alike.reads.count e fits]
  | new p => rfl

theorem drafts_alike (alike : s.Alike t) (v : Vocabulary) {request : Form}
    (within : request.Storable) : drafts v s request = drafts v t request := by
  apply drafts_congr alike.entityOf_eq
  intro form subject part read
  exact hasFacts_congr alike (within.part part) read

end Transaction

namespace Store

variable {s t : Store}

/-- A storable request is carried out alike on alike stores. -/
theorem Alike.transact (alike : s.Alike t) (v : Vocabulary) (now : Int64) {request : Form}
    (within : request.Storable) :
    SameOutcome Alike (s.transact v now request) (t.transact v now request) := by
  have outcome := Transaction.outcome_congr (Transaction.drafts_alike alike v within)
    alike.reads.lastEntity alike.entityOf_eq now
  rw [transact_eq, transact_eq, outcome]
  cases found : Transaction.outcome v now t request with
  | error fault => exact .failed fault
  | ok result =>
    obtain ⟨receipt, new⟩ := result
    -- the indexed store takes anything; the table takes this, since it is storable
    have storable : Log.Storable new := by
      obtain ⟨fs, _, right, kept⟩ := alike
      obtain ⟨ds, tx, drafted, next, effect⟩ := Transaction.outcome_cases found
      exact right.effect_storable kept within drafted next effect
    obtain ⟨s', t', left_ok, right_ok, alike'⟩ := alike.insertAll storable
    simp only [Outcome.ok_bind, left_ok, right_ok]
    exact .done receipt alike'

/-! ### Opening -/

namespace Steps

/-- Steps that yield the same on two stores and leave them alike. -/
def Same {α : Type} (left right : Except Fault α × Store) : Prop :=
  left.1 = right.1 ∧ left.2.Alike right.2

/-- Changes with the same outcome, before steps that do the same, do the same. -/
theorem change_bind_same {α β : Type} {f g : Store → Except Fault (α × Store)}
    {next other : α → Store.Steps β} (alike : s.Alike t) (first : SameOutcome Alike (f s) (g t))
    (after : ∀ x {s' t' : Store}, s'.Alike t' → Same (next x s') (other x t')) :
    Same ((change f >>= next) s) ((change g >>= other) t) := by
  rw [change_bind, change_bind]
  generalize f s = left at first
  generalize g t = right at first
  cases first with
  | failed fault => exact ⟨rfl, alike⟩
  | done x alike' => exact after x alike'

theorem found_same (alike : s.Alike t) (v : Vocabulary) (founding : Founding) :
    Same (found v founding s) (found v founding t) := by
  unfold found
  refine change_bind_same alike ?_ fun _ _ _ alike => change_bind_same alike ?_
    fun _ s' t' alike => change_bind_same alike ?_
    fun next _ _ alike => change_bind_same alike ?_ fun _ _ _ alike => ⟨rfl, alike⟩
  -- the schema, then the attributes of the database, the next number, and the description
  · cases first : Schema.firstFacts v Schema.system founding.schemaTime with
    | error fault => exact .failed fault
    | ok facts =>
      have room : (Schema.allNames v Schema.system).length ≤ maxCellInt := by
        rw [Schema.length_allNames_system]
        decide
      obtain ⟨s', t', left_ok, right_ok, alike'⟩ :=
        alike.insertAll ((Schema.firstFacts_founds first).storable room)
      simp only [Outcome.ok_bind, left_ok, right_ok]
      exact .done () alike'
  · exact alike.transact v founding.attributesTime (Schema.metadataAttributes_storable v)
  · have next_same : Transaction.nextEntity s' = Transaction.nextEntity t' := by
      unfold Transaction.nextEntity
      rw [alike.reads.lastEntity]
    rw [next_same]
    cases Transaction.nextEntity t' with
    | error fault => exact .failed fault
    | ok next => exact .done next alike
  · exact alike.transact v founding.metadataTime
      (Schema.metadataEntity_storable v founding.databaseId next)

end Steps

end Store

namespace Database

variable {s t : Store}

theorem openStore_same (alike : s.Alike t) (v : Vocabulary) (founding : Founding) :
    Store.Steps.Same (openStore s v founding) (openStore t v founding) := by
  unfold openStore
  rw [alike.reads.size]
  split
  · exact Store.Steps.found_same alike v founding
  · exact ⟨rfl, alike⟩

end Database

/-! ### Queries -/

namespace Query

variable {s t : Store}

theorem parameters_storable {q : Query} {params : List Form}
    (within : ∀ param ∈ params, param.Storable) : ∀ p ∈ q.parameters params, p.2.Storable := by
  intro p member
  unfold parameters at member
  split at member
  · exact within p.2 (List.of_mem_zip member).2
  · cases member

/-- A storable clause is compiled to a storable pattern, if any. -/
theorem compile_storable {fs : List Fact} (holds : s.Holds fs) (kept : Log.Storable fs)
    {ps : Parameters} (params : ∀ p ∈ ps, p.2.Storable) {forms : List Form}
    (within : ∀ form ∈ forms, form.Storable) {c : Compiled} (ok : compile s ps forms = .ok c) :
    ∀ p ∈ c.2, p.Storable := by
  obtain ⟨pattern, made, ok⟩ := Outcome.bind_eq_ok.mp ok
  obtain rfl := Outcome.pure_eq_ok.mp ok
  rintro p rfl
  exact Clause.pattern_storable holds kept (Clause.ofForms_storable within params) made

/-- No query is answered as of a transaction that a table cannot hold. -/
theorem effectiveTx_le {fs : List Fact} (holds : s.Holds fs) (kept : Log.Storable fs)
    (asOf : Option EntityId) : effectiveTx s asOf ≤ maxCellInt := by
  cases asOf with
  | some tx => exact Nat.min_le_right tx maxEntityId
  | none =>
    rw [effectiveTx, holds.lastTx_eq]
    cases last : Log.lastTx fs with
    | none => exact Nat.zero_le maxCellInt
    | some tx =>
      obtain ⟨⟨f, member, rfl⟩, _⟩ := Log.lastTx_eq_some.mp last
      exact (kept f member).tx

end Query

/-- A call that a table can take: its request, or the constants of its query, are storable. -/
def Call.Storable : Call → Prop
  | .transact _ request => request.Storable
  | .query q _ params =>
    (∀ clauses ∈ q.clauses, ∀ forms ∈ clauses, ∀ form ∈ forms, form.Storable) ∧
      ∀ param ∈ params, param.Storable

theorem Store.Alike.answer {s t : Store} (alike : s.Alike t) (v : Vocabulary) (q : Query)
    (asOf : Option EntityId) {params : List Form}
    (within : (Call.query q asOf params).Storable) :
    s.answer v q asOf params = t.answer v q asOf params := by
  obtain ⟨constants, given⟩ := within
  have reads := alike.reads
  have attrName : ∀ attr, Query.attrName v s attr = Query.attrName v t attr := by
    obtain ⟨fs, left, right, _⟩ := alike
    intro attr
    rw [Query.attrName, Query.attrName, left.firstName_eq, right.firstName_eq]
  have time : Query.effectiveTx s asOf = Query.effectiveTx t asOf := by
    unfold Query.effectiveTx
    rw [reads.lastTx]
  apply Store.answer_congr alike.entityOf_eq attrName time
  intro clauses written forms member c made p pattern
  obtain ⟨fs, _, right, kept⟩ := alike
  -- the pattern of each clause is storable, so that both stores find the same for it
  have storable := Query.compile_storable right kept (Query.parameters_storable given)
    (constants clauses written forms member) made p pattern
  exact reads.lookup p _ storable (Query.effectiveTx_le right kept asOf)

/-! ### Runs -/

namespace Database

variable {s t : Store}

/-- A storable call yields the same on alike stores and keeps them alike. -/
theorem call_same (alike : s.Alike t) (v : Vocabulary) {c : Call} (within : c.Storable) :
    (call ⟨s, v⟩ c).1 = (call ⟨t, v⟩ c).1 ∧
      (call ⟨s, v⟩ c).2.store.Alike (call ⟨t, v⟩ c).2.store := by
  cases c with
  | query q asOf params =>
    refine ⟨?_, alike⟩
    simp only [call, query, alike.answer v q asOf within]
  | transact now request => exact call_transact_same alike v (alike.transact v now within)

/-- Storable calls, one after another, yield the same on alike stores and keep them alike. -/
theorem run_same (alike : s.Alike t) (v : Vocabulary) {calls : List Call}
    (within : ∀ c ∈ calls, c.Storable) :
    replies ⟨s, v⟩ calls = replies ⟨t, v⟩ calls ∧
      (run ⟨s, v⟩ calls).store.Alike (run ⟨t, v⟩ calls).store := by
  exact run_related (fun alike within => call_same alike v within) alike within

end Database

/-- Storable changes to a new log and to a new table all succeed and leave stores that no read
tells apart. Whether a database is then opened on these stores or not, storable calls yield the
same on both and leave stores that no read tells apart. -/
theorem Store.backends_indistinguishable {ws : List Store.Write}
    (storable : ∀ w ∈ ws, w.Storable) (v : Vocabulary) (founding : Founding) {calls : List Call}
    (within : ∀ c ∈ calls, c.Storable) :
    let s := (Store.empty .indexed).writeAll ws
    let t := (Store.empty .table).writeAll ws
    let s' := Database.openStore s.2 v founding
    let t' := Database.openStore t.2 v founding
    s.1 = ws.map (fun _ => .ok ()) ∧ t.1 = ws.map (fun _ => .ok ()) ∧ s.2.ReadsAlike t.2 ∧
      Database.replies ⟨s.2, v⟩ calls = Database.replies ⟨t.2, v⟩ calls ∧
      (Database.run ⟨s.2, v⟩ calls).store.ReadsAlike (Database.run ⟨t.2, v⟩ calls).store ∧
      s'.1 = t'.1 ∧ s'.2.ReadsAlike t'.2 ∧
      Database.replies ⟨s'.2, v⟩ calls = Database.replies ⟨t'.2, v⟩ calls ∧
      (Database.run ⟨s'.2, v⟩ calls).store.ReadsAlike (Database.run ⟨t'.2, v⟩ calls).store := by
  obtain ⟨left, right, alike⟩ := (alike_empty .indexed .table).writeAll storable
  obtain ⟨opened, alike'⟩ := Database.openStore_same alike v founding
  obtain ⟨replies, ran⟩ := Database.run_same alike v within
  obtain ⟨replies', ran'⟩ := Database.run_same alike' v within
  exact ⟨left, right, alike.reads, replies, ran.reads, opened, alike'.reads, replies', ran'.reads⟩

/-- After a change that is undone again, opening, a request that names an entity and a query for
it, both backends have replied the same. -/
theorem Store.backends_indistinguishable_named :
    (∀ w ∈ [Store.Write.insert ⟨1, 0, .ref 5, 1, 2⟩, .reset], w.Storable) ∧
    (∀ c ∈ [Call.transact 5 (.map [(.keyword "tx-data", .map
        [(.keyword "db/identity", .text "a")])]),
      .query ⟨["?e"], [], some [[.symbol "?e", .keyword "db/identity", .text "a"]]⟩ none []],
      c.Storable) ∧
    let ws := [Store.Write.insert ⟨1, 0, .ref 5, 1, 2⟩, .reset]
    let s := (Store.empty .indexed).writeAll ws
    let t := (Store.empty .table).writeAll ws
    let s' := Database.openStore s.2 .standard ⟨"", 0, 0, 0⟩
    let t' := Database.openStore t.2 .standard ⟨"", 0, 0, 0⟩
    let calls := [Call.transact 5 (.map [(.keyword "tx-data", .map
        [(.keyword "db/identity", .text "a")])]),
      .query ⟨["?e"], [], some [[.symbol "?e", .keyword "db/identity", .text "a"]]⟩ none []]
    Database.replies ⟨s'.2, .standard⟩ calls = Database.replies ⟨t'.2, .standard⟩ calls := by
  have storable : ∀ w ∈ [Store.Write.insert ⟨1, 0, .ref 5, 1, 2⟩, .reset], w.Storable := by
    have fact : Fact.Storable ⟨1, 0, .ref 5, 1, 2⟩ := by decide
    exact List.forall_mem_cons.mpr ⟨fact, List.forall_mem_singleton.mpr trivial⟩
  have within : ∀ c ∈ [Call.transact 5 (.map [(.keyword "tx-data", .map
        [(.keyword "db/identity", .text "a")])]),
      .query ⟨["?e"], [], some [[.symbol "?e", .keyword "db/identity", .text "a"]]⟩ none []],
      c.Storable := by
    simp [Call.Storable, Form.Storable, Form.EntriesStorable]
  obtain ⟨_, _, _, _, _, _, _, replies, _⟩ :=
    backends_indistinguishable storable .standard ⟨"", 0, 0, 0⟩ within
  exact ⟨storable, within, replies⟩

end Factbase
