import Factbase.Proofs.Answer
import Factbase.Proofs.Run

/-!
# Factbase.Proofs.TimeTravel

Answers as of the past. Facts that are added later are out of sight as of an earlier transaction,
and names that were in use keep what they stand for, so that an answer once given can be had again
at any later time.
-/

namespace Factbase

namespace Store.Table

/-- Only the transaction as of which a search is made tells it from the search of another time. -/
theorem ofPattern_asOf (p : Pattern) {asOf later : EntityId} (early : asOf ≤ maxCellInt)
    (late : later ≤ maxCellInt) :
    Search.ofPattern p later = (Search.ofPattern p asOf).map ({ · with asOf := later }) := by
  simp only [Search.ofPattern, entityToFind_eq early, entityToFind_eq late, Outcome.ok_bind]
  cases p.entity.mapM Cell.entityToFind with
  | error fault => rfl
  | ok entity =>
  cases p.attr.mapM Cell.entityToFind with
  | error fault => rfl
  | ok attr =>
  cases p.tx.mapM Cell.entityToFind with
  | error fault => rfl
  | ok tx =>
  cases p.op.mapM Cell.entityToFind with
  | error fault => rfl
  | ok op =>
  cases p.value.mapM Search.valueToFind with
  | error fault => rfl
  | ok value => rfl

theorem asOf_ofPattern {p : Pattern} {asOf : EntityId} {search : Search}
    (ok : Search.ofPattern p asOf = .ok search) (fits : asOf ≤ maxCellInt) :
    search.asOf = asOf := by
  simp only [Search.ofPattern, entityToFind_eq fits, Outcome.ok_bind, Outcome.bind_eq_ok,
    Outcome.pure_eq_ok] at ok
  obtain ⟨_, _, _, _, _, _, _, _, _, _, rfl⟩ := ok
  rfl

/-- A search as of a transaction finds the rows that it found when that was the last one. -/
theorem Holds.lookup_later {t t' : Table} {fs gs : List Fact} (holds : t.Holds fs)
    (grown : t'.Holds (fs ++ gs)) (p : Pattern) {asOf later : EntityId}
    (seen : ∀ f ∈ fs, f.tx ≤ asOf) (le : asOf ≤ later) (unseen : ∀ g ∈ gs, later < g.tx)
    (fits : later ≤ maxCellInt) : t'.lookup p later = t.lookup p asOf := by
  have early : asOf ≤ maxCellInt := Nat.le_trans le fits
  unfold lookup
  rw [ofPattern_asOf p early fits]
  cases searched : Search.ofPattern p asOf with
  | error fault => rfl
  | ok search =>
    have time : search.asOf = asOf := asOf_ofPattern searched early
    show readAll (t'.rows.filter { search with asOf := later }.isMatch)
      = readAll (t.rows.filter search.isMatch)
    -- the rows added since fail the test of the time, and all others pass it both times
    have none_new : (gs.map Fact.row).filter { search with asOf := later }.isMatch = [] := by
      apply List.filter_eq_nil_iff.mpr
      intro row member
      obtain ⟨g, g_member, rfl⟩ := List.mem_map.mp member
      have hidden : ¬ g.tx ≤ later := Nat.not_le.mpr (unseen g g_member)
      simp [Search.isMatch, Fact.row, hidden]
    have same_old : (fs.map Fact.row).filter { search with asOf := later }.isMatch
        = (fs.map Fact.row).filter search.isMatch := by
      apply List.filter_congr
      intro row member
      obtain ⟨f, f_member, rfl⟩ := List.mem_map.mp member
      have shown : f.tx ≤ asOf := seen f f_member
      simp [Search.isMatch, Fact.row, time, shown, Nat.le_trans shown le]
    rw [grown.rows, holds.rows, List.map_append, List.filter_append, none_new, same_old,
      List.append_nil]

end Store.Table

/-! ### Stores at two times -/

namespace Store

variable {s s' : Store} {fs gs : List Fact}

/-- As of a transaction that comes before all facts added since, a search finds what it found. -/
theorem Holds.lookup_later (holds : s.Holds fs) (grown : s'.Holds (fs ++ gs))
    (same : s'.backend = s.backend) (p : Pattern) {asOf later : EntityId}
    (seen : ∀ f ∈ fs, f.tx ≤ asOf) (le : asOf ≤ later) (unseen : ∀ g ∈ gs, later < g.tx)
    (fits : later ≤ maxEntityId) : s'.lookup p later = s.lookup p asOf := by
  cases s with
  | indexed s =>
    cases s' with
    | table t' => cases same
    | indexed s' =>
      obtain ⟨coherent, rfl⟩ := holds
      obtain ⟨coherent', facts⟩ := grown
      show Except.ok (s'.lookup p later) = Except.ok (s.lookup p asOf)
      rw [coherent.lookup_eq, coherent'.lookup_eq, facts, Log.lookup_append_later unseen,
        Log.lookup_congr seen le]
  | table t =>
    cases s' with
    | indexed s' => cases same
    | table t' =>
      show ofStorage (t'.lookup p later) = ofStorage (t.lookup p asOf)
      rw [Table.Holds.lookup_later holds grown p seen le unseen fits]

theorem Holds.entityOf_later (holds : s.Holds fs) (grown : s'.Holds (fs ++ gs)) (name : String)
    (e : EntityId) (found : s.entityOf name = .ok e) : s'.entityOf name = .ok e := by
  rw [grown.entityOf_eq_ok]
  exact Log.entityOf_grow (holds.entityOf_eq_ok.mp found) gs

/-- An attribute in use keeps its name. -/
theorem Holds.attrName_later (holds : s.Holds fs) (grown : s'.Holds (fs ++ gs))
    (v : Vocabulary) {attr : EntityId} (named : (Log.nameOf fs attr).isSome) :
    Query.attrName v s attr = Query.attrName v s' attr := by
  unfold Query.attrName
  rw [holds.firstName_eq, grown.firstName_eq, Log.nameOf_grow named]

/-- A query that a store has answered is answered alike by what the store has become, as of any
transaction from its last one up to its last entity. -/
theorem Keeps.answer_later {last last' : EntityId} (keeps : s.Keeps fs last)
    (grown : s'.Keeps (fs ++ gs) last') (same : s'.backend = s.backend)
    (unseen : ∀ g ∈ gs, last < g.tx) (v : Vocabulary) (q : Query) (params : List Form)
    {lastTx tx : EntityId} (lastTx_eq : s.lastTx = some lastTx) (lower : lastTx ≤ tx)
    (upper : tx ≤ last) {answer : Option (List Query.AnswerRow)}
    (answered : s.answer v q none params = .ok answer) :
    s'.answer v q (some tx) params = .ok answer := by
  have number : tx ≤ maxEntityId := Nat.le_trans upper keeps.regular.last_le
  have seen : ∀ f ∈ fs, f.tx ≤ lastTx :=
    (Log.lastTx_eq_some.mp (keeps.holds.lastTx_eq ▸ lastTx_eq)).2
  have later : ∀ g ∈ gs, tx < g.tx := fun g member => Nat.lt_of_le_of_lt upper (unseen g member)
  have entityOf := keeps.holds.entityOf_later grown.holds
  -- every clause has the rows it had
  have rows : ∀ retract c, Query.rows v s' retract tx c = Query.rows v s retract lastTx c := by
    intro retract c
    refine (Query.rows_congr ?_ ?_).symm
    · intro p _
      exact (keeps.holds.lookup_later grown.holds same p seen lower later number).symm
    · intro p _ facts found f member
      obtain ⟨g, g_member, same⟩ := keeps.holds.written_of_lookup found f member
      exact keeps.holds.attrName_later grown.holds v (same.attr ▸ keeps.regular.named g g_member)
  have now : Query.effectiveTx s none = lastTx := by rw [Query.effectiveTx, lastTx_eq]; rfl
  have past : Query.effectiveTx s' (some tx) = tx := Nat.min_eq_left number
  unfold Store.answer at answered ⊢
  cases clauses : q.clauses with
  | none => rwa [clauses] at answered
  | some clauses' =>
    rw [clauses] at answered
    simp only [Outcome.bind_eq_ok] at answered ⊢
    obtain ⟨retract, found, compiled, compiled_ok, answered⟩ := answered
    -- the names of the query were known then, so they are known now
    refine ⟨retract, entityOf _ _ found, compiled, ?_, ?_⟩
    · rw [Outcome.mapM_eq_ok] at compiled_ok ⊢
      exact compiled_ok.imp fun _ _ ok => Query.compile_of_ok entityOf ok
    · rw [now] at answered
      rw [past, Query.joinAll_congr fun c _ => rows retract c]
      exact answered

end Store

/-! ### Runs -/

namespace Database

/-- An answer as of now can be had again at any later time of a run, as of any transaction from the
last one now up to the last entity now. -/
theorem query_repeatable {backend : Backend} {v : Vocabulary} {founding : Founding}
    {first : Database} (opened : ofStore (Store.empty backend) v founding = .ok first)
    (earlier later : List Call) (q : Query) (params : List Form)
    {answer : Option (List Query.AnswerRow)}
    (answered : (first.run earlier).query q none params = .ok answer) {lastTx last tx : EntityId}
    (lastTx_eq : (first.run earlier).store.lastTx = some lastTx)
    (last_eq : (first.run earlier).store.lastEntity = some last)
    (lower : lastTx ≤ tx) (upper : tx ≤ last) :
    (first.run (earlier ++ later)).query q (some tx) params = .ok answer := by
  obtain ⟨founded, start, keeps⟩ := ofStore_keeps opened
  obtain ⟨new, last', before, _⟩ := run_keeps keeps earlier
  obtain ⟨new', last'', after, unseen⟩ := run_keeps before later
  have same : last' = last := by
    rw [before.holds.lastEntity_eq, before.regular.greatest] at last_eq
    exact Option.some.inj last_eq
  rw [query, run_append, vocabulary_run]
  exact before.answer_later after (backend_run _ later) unseen _ q params lastTx_eq lower
    (same ▸ upper) answered

/-- What names an entity in a new table is found again after the name has been retracted. -/
theorem query_repeatable_retracted :
    ∃ first rows, ofStore (Store.empty .table) .standard ⟨"", 0, 0, 0⟩ = .ok first ∧
      (first.run [.transact 5 (.map [(.keyword "tx-data", .map
        [(.keyword "db/identity", .text "a")])])]).query
          ⟨["?e"], [], some [[.symbol "?e", .keyword "db/identity", .text "a"]]⟩ none []
            = .ok (some rows) ∧
      (first.run ([.transact 5 (.map [(.keyword "tx-data", .map
        [(.keyword "db/identity", .text "a")])])] ++
          [.transact 6 (.map [(.keyword "tx-data", .list [.keyword "db.operation/retract",
            .int 44, .keyword "db/identity", .text "a"])])])).query
          ⟨["?e"], [], some [[.symbol "?e", .keyword "db/identity", .text "a"]]⟩ (some 44) []
            = .ok (some rows) := by
  have evaluated : ((ofStore (Store.empty .table) .standard ⟨"", 0, 0, 0⟩).toOption.bind
      fun first =>
        let db := first.run [.transact 5 (.map [(.keyword "tx-data", .map
          [(.keyword "db/identity", .text "a")])])]
        (db.query ⟨["?e"], [], some [[.symbol "?e", .keyword "db/identity", .text "a"]]⟩ none
          []).toOption.map fun answer => (answer.isSome, db.store.lastTx, db.store.lastEntity))
        = some (true, some 43, some 44) := by
    decide +kernel
  obtain ⟨first, opened, evaluated⟩ := Option.bind_eq_some_iff.mp evaluated
  obtain ⟨answer, answered, read⟩ := Option.map_eq_some_iff.mp evaluated
  obtain ⟨some_rows, read⟩ := Prod.mk.inj read
  obtain ⟨lastTx_eq, last_eq⟩ := Prod.mk.inj read
  obtain ⟨rows, rfl⟩ := Option.isSome_iff_exists.mp some_rows
  have opened := Outcome.toOption_eq_some.mp opened
  have answered := Outcome.toOption_eq_some.mp answered
  refine ⟨first, rows, opened, answered, ?_⟩
  exact query_repeatable opened _ _ _ [] answered lastTx_eq last_eq (by decide) (by decide)

end Database

end Factbase
