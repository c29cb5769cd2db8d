import Factbase.Proofs.Founding
import Factbase.Proofs.Write

/-!
# Factbase.Proofs.Run

What holds along every run. A new database keeps a regular log; each call keeps the log regular and
at most adds facts behind it, whose transaction is above every entity that was there before.
-/

namespace Factbase

structure Store.Keeps (s : Store) (fs : List Fact) (last : EntityId) : Prop where
  holds : s.Holds fs
  regular : Log.Regular fs last

/-! ### One step -/

/-- A request that succeeds is taken apart into drafts, and their facts come behind a log that stays
regular. -/
theorem Store.Keeps.effect {v : Vocabulary} {now : Int64} {s s' : Store} {request : Form}
    {receipt : Receipt} {fs : List Fact} {last : EntityId} (keeps : s.Keeps fs last)
    (ok : s.transact v now request = .ok (receipt, s')) :
    ∃ ds new last', Transaction.drafts v s request = .ok ds ∧
      Transaction.Effect v now s ds (last + 1) receipt new ∧
      s'.Keeps (fs ++ new) last' ∧ last ≤ last' := by
  obtain ⟨ds, tx, new, drafted, next, effect, written⟩ := Store.transact_cases ok
  obtain rfl := keeps.regular.next_eq keeps.holds next
  obtain ⟨last', above, regular⟩ := keeps.regular.step keeps.holds drafted next effect
  exact ⟨ds, new, last', drafted, effect, ⟨keeps.holds.insertAll written, regular⟩, above⟩

/-- A request that succeeds adds facts under a number of its own. -/
theorem Store.Keeps.transact {v : Vocabulary} {now : Int64} {s s' : Store} {request : Form}
    {receipt : Receipt} {fs : List Fact} {last : EntityId} (keeps : s.Keeps fs last)
    (ok : s.transact v now request = .ok (receipt, s')) :
    ∃ new last', s'.Keeps (fs ++ new) last' ∧ last ≤ last' ∧ ∀ f ∈ new, last < f.tx := by
  obtain ⟨_, new, last', _, effect, keeps', above⟩ := keeps.effect ok
  refine ⟨new, last', keeps', above, ?_⟩
  intro f member
  rw [effect.tx_eq member]
  exact Nat.lt_succ_self last

/-- Two attempts that fail alike, or succeed alike and leave related stores. -/
inductive Store.SameOutcome (R : Store → Store → Prop) {α : Type} :
    Except Fault (α × Store) → Except Fault (α × Store) → Prop where
  | failed (fault : Fault) : SameOutcome R (.error fault) (.error fault)
  | done (x : α) {s t : Store} (related : R s t) : SameOutcome R (.ok (x, s)) (.ok (x, t))

theorem Store.backend_transact {v : Vocabulary} {now : Int64} {s s' : Store} {request : Form}
    {receipt : Receipt} (ok : s.transact v now request = .ok (receipt, s')) :
    s'.backend = s.backend := by
  obtain ⟨_, _, _, _, _, _, written⟩ := Store.transact_cases ok
  exact Store.backend_insertAll written

/-! ### Invariants -/

/-- A property that the log of every new database has after its first transaction, and that every
later transaction keeps. -/
structure Log.Invariant (P : Vocabulary → List Fact → Prop) : Prop where
  first : ∀ {v : Vocabulary} {facts : List Fact} {timestamp : Int64},
    Schema.firstFacts v Schema.system timestamp = .ok facts → P v facts
  step : ∀ {v : Vocabulary} {now : Int64} {s : Store} {request : Form} {ds : List Draft}
    {receipt : Receipt} {fs new : List Fact} {last : EntityId}, s.Keeps fs last → P v fs →
    Transaction.drafts v s request = .ok ds →
    Transaction.Effect v now s ds (last + 1) receipt new → P v (fs ++ new)

theorem Log.invariant_true : Log.Invariant fun _ _ => True where
  first _ := trivial
  step _ _ _ _ := trivial

variable {P : Vocabulary → List Fact → Prop}

theorem Log.Invariant.transact (invariant : Log.Invariant P) {v : Vocabulary} {now : Int64}
    {s s' : Store} {request : Form} {receipt : Receipt} {fs : List Fact} {last : EntityId}
    (keeps : s.Keeps fs last) (kept : P v fs)
    (ok : s.transact v now request = .ok (receipt, s')) :
    ∃ fs' last', s'.Keeps fs' last' ∧ P v fs' := by
  obtain ⟨ds, new, last', drafted, effect, keeps', _⟩ := keeps.effect ok
  exact ⟨fs ++ new, last', keeps', invariant.step keeps kept drafted effect⟩

/-! ### New databases -/

/-- A database that is founded in an empty store keeps a regular log, which has every invariant. -/
theorem Log.Invariant.found (invariant : Log.Invariant P) {backend : Backend} {v : Vocabulary}
    {founding : Founding} {s : Store}
    (ok : Store.Steps.found v founding (Store.empty backend) = (.ok (), s)) :
    ∃ fs last, s.Keeps fs last ∧ P v fs := by
  obtain ⟨facts, first, _, second, _, _, facts_ok, inserted, attributes, _, metadata⟩ :=
    Store.Steps.found_cases ok
  have room : (Schema.allNames v Schema.system).length ≤ maxEntityId := by
    rw [Schema.length_allNames_system]
    decide
  have opened : first.Keeps facts _ :=
    ⟨(Store.holds_empty backend).insertAll inserted,
      (Schema.firstFacts_founds facts_ok).regular room⟩
  -- from there on founding consists of ordinary requests
  obtain ⟨_, _, keeps, kept⟩ :=
    invariant.transact opened (invariant.first facts_ok) attributes
  exact invariant.transact keeps kept metadata

theorem Store.size_empty (backend : Backend) : (Store.empty backend).size = 0 := by
  cases backend <;> rfl

namespace Database

theorem ofStore_empty_eq_ok {backend : Backend} {v : Vocabulary} {founding : Founding}
    {db : Database} (ok : ofStore (Store.empty backend) v founding = .ok db) :
    Store.Steps.found v founding (Store.empty backend) = (.ok (), db.store) ∧
      db.vocabulary = v := by
  rw [ofStore, openStore, if_pos (Store.size_empty backend)] at ok
  cases founded : Store.Steps.found v founding (Store.empty backend) with
  | mk outcome s =>
    rw [founded] at ok
    cases outcome with
    | error fault => cases ok
    | ok done =>
      obtain rfl := Except.ok.inj ok
      exact ⟨rfl, rfl⟩

theorem ofStore_keeps {backend : Backend} {v : Vocabulary} {founding : Founding} {db : Database}
    (ok : ofStore (Store.empty backend) v founding = .ok db) :
    ∃ fs last, db.store.Keeps fs last :=
  have ⟨fs, last, keeps, _⟩ := Log.invariant_true.found (ofStore_empty_eq_ok ok).1
  ⟨fs, last, keeps⟩

/-! ### Runs -/

/-- A call at most adds facts under a number of its own, whatever it yields. -/
theorem call_keeps {db : Database} {fs : List Fact} {last : EntityId}
    (keeps : db.store.Keeps fs last) (c : Call) :
    ∃ new last', (db.call c).2.store.Keeps (fs ++ new) last' ∧ last ≤ last' ∧
      ∀ f ∈ new, last < f.tx := by
  -- a query, or a request that fails, adds nothing
  have unchanged : ∃ new last', db.store.Keeps (fs ++ new) last' ∧ last ≤ last' ∧
      ∀ f ∈ new, last < f.tx := ⟨[], last, by rwa [List.append_nil], le_rfl, by simp⟩
  cases c with
  | query q asOf params => exact unchanged
  | transact now request =>
    simp only [call, carryOut_eq]
    cases done : db.store.transact db.vocabulary now request with
    | error fault => exact unchanged
    | ok result => exact keeps.transact done

@[simp] theorem vocabulary_call (db : Database) (c : Call) :
    (db.call c).2.vocabulary = db.vocabulary := by
  cases c <;> rfl

@[simp] theorem backend_call (db : Database) (c : Call) :
    (db.call c).2.store.backend = db.store.backend := by
  cases c with
  | query q asOf params => rfl
  | transact now request =>
    simp only [call, carryOut_eq]
    cases done : db.store.transact db.vocabulary now request with
    | error fault => rfl
    | ok result => exact Store.backend_transact done

@[simp] theorem run_nil (db : Database) : db.run [] = db := rfl

@[simp] theorem run_cons (db : Database) (c : Call) (rest : List Call) :
    db.run (c :: rest) = (db.call c).2.run rest := rfl

theorem run_append (db : Database) (earlier later : List Call) :
    db.run (earlier ++ later) = (db.run earlier).run later :=
  List.foldl_append

/-- A run at most adds facts, all of transactions above every entity there was at its start. -/
theorem run_keeps {db : Database} {fs : List Fact} {last : EntityId}
    (keeps : db.store.Keeps fs last) (calls : List Call) :
    ∃ new last', (db.run calls).store.Keeps (fs ++ new) last' ∧ ∀ f ∈ new, last < f.tx := by
  -- each call starts from a greater log and a greater last entity
  induction calls generalizing db fs last with
  | nil => exact ⟨[], last, by rwa [List.append_nil], by simp⟩
  | cons c rest ih =>
    obtain ⟨first, between, called, above, after⟩ := call_keeps keeps c
    obtain ⟨others, last', ran, later⟩ := ih called
    refine ⟨first ++ others, last', by rwa [← List.append_assoc], ?_⟩
    intro f member
    rcases List.mem_append.mp member with early | late
    · exact after f early
    · exact Nat.lt_of_le_of_lt above (later f late)

theorem vocabulary_run (db : Database) (calls : List Call) :
    (db.run calls).vocabulary = db.vocabulary := by
  induction calls generalizing db with
  | nil => rfl
  | cons c rest ih => rw [run_cons, ih, vocabulary_call]

theorem backend_run (db : Database) (calls : List Call) :
    (db.run calls).store.backend = db.store.backend := by
  induction calls generalizing db with
  | nil => rfl
  | cons c rest ih => rw [run_cons, ih, backend_call]

/-- Calls keep every invariant of the log. -/
theorem run_invariant (invariant : Log.Invariant P) {db : Database} {fs : List Fact}
    {last : EntityId} (keeps : db.store.Keeps fs last) (kept : P db.vocabulary fs)
    (calls : List Call) :
    ∃ fs' last', (db.run calls).store.Keeps fs' last' ∧ P db.vocabulary fs' := by
  induction calls generalizing db fs last with
  | nil => exact ⟨fs, last, keeps, kept⟩
  | cons c rest ih =>
    rw [run_cons, ← vocabulary_call db c]
    cases c with
    | query q asOf params => exact ih keeps kept
    | transact now request =>
      simp only [call, carryOut_eq]
      -- a request that fails leaves the database as it is
      cases done : db.store.transact db.vocabulary now request with
      | error fault => exact ih keeps kept
      | ok result =>
        obtain ⟨fs', last', keeps', kept'⟩ := invariant.transact keeps kept done
        exact ih keeps' kept'

theorem reachable_of_opened {backend : Backend} {v : Vocabulary} {founding : Founding}
    {db : Database} (opened : ofStore (Store.empty backend) v founding = .ok db) : db.Reachable :=
  ⟨backend, v, founding, db, [], opened, rfl⟩

/-- Every invariant holds of the log of a database at any time of its life. -/
theorem Reachable.invariant {db : Database} (reachable : db.Reachable)
    (invariant : Log.Invariant P) : ∃ fs last, db.store.Keeps fs last ∧ P db.vocabulary fs := by
  obtain ⟨backend, v, founding, first, calls, opened, rfl⟩ := reachable
  obtain ⟨founded, same⟩ := ofStore_empty_eq_ok opened
  obtain ⟨fs, last, keeps, kept⟩ := invariant.found founded
  rw [vocabulary_run]
  exact run_invariant invariant keeps (same ▸ kept) calls

/-- A database keeps a regular log at any time of its life. -/
theorem Reachable.keeps {db : Database} (reachable : db.Reachable) :
    ∃ fs last, db.store.Keeps fs last :=
  have ⟨fs, last, keeps, _⟩ := reachable.invariant Log.invariant_true
  ⟨fs, last, keeps⟩

/-! ### Runs on two stores -/

section

variable {R : Store → Store → Prop} {s t : Store}

/-- A transaction with the same outcome on two stores yields the same on databases over them. -/
theorem call_transact_same (related : R s t) (v : Vocabulary) {now : Int64} {request : Form}
    (outcome : Store.SameOutcome R (s.transact v now request) (t.transact v now request)) :
    (call ⟨s, v⟩ (.transact now request)).1 = (call ⟨t, v⟩ (.transact now request)).1 ∧
      R (call ⟨s, v⟩ (.transact now request)).2.store
        (call ⟨t, v⟩ (.transact now request)).2.store := by
  simp only [call, carryOut_eq]
  generalize s.transact v now request = left at outcome
  generalize t.transact v now request = right at outcome
  cases outcome with
  | failed fault => exact ⟨rfl, related⟩
  | done receipt related' => exact ⟨rfl, related'⟩

/-- What each call keeps of two stores, and yields the same on both, a run of calls keeps and
yields. -/
theorem run_related {v : Vocabulary} {P : Call → Prop}
    (step : ∀ {s t : Store} {c : Call}, R s t → P c →
      (call ⟨s, v⟩ c).1 = (call ⟨t, v⟩ c).1 ∧ R (call ⟨s, v⟩ c).2.store (call ⟨t, v⟩ c).2.store)
    (related : R s t) {calls : List Call} (within : ∀ c ∈ calls, P c) :
    replies ⟨s, v⟩ calls = replies ⟨t, v⟩ calls ∧
      R (run ⟨s, v⟩ calls).store (run ⟨t, v⟩ calls).store := by
  induction calls generalizing s t with
  | nil => exact ⟨rfl, related⟩
  | cons c rest ih =>
    obtain ⟨same, related'⟩ := step related (within c List.mem_cons_self)
    -- a call keeps the vocabulary, so what it leaves is a database over its store again
    have left : (call ⟨s, v⟩ c).2 = ⟨(call ⟨s, v⟩ c).2.store, v⟩ :=
      congrArg (Database.mk _) (vocabulary_call ⟨s, v⟩ c)
    have right : (call ⟨t, v⟩ c).2 = ⟨(call ⟨t, v⟩ c).2.store, v⟩ :=
      congrArg (Database.mk _) (vocabulary_call ⟨t, v⟩ c)
    obtain ⟨others, related''⟩ :=
      ih related' fun d member => within d (List.mem_cons_of_mem c member)
    rw [replies, replies, run_cons, run_cons, same, left, right]
    exact ⟨congrArg _ others, related''⟩

end

end Database

end Factbase
