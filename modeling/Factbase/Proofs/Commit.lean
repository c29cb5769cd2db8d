import Factbase.Proofs.Run

/-!
# Factbase.Proofs.Commit

The law of commits. On a database that some run has made, a request fails and leaves everything as
it was, or it adds exactly the facts that its receipt counts, under a number that is new.
-/

namespace Factbase

/-- What a receipt tells of the facts that a transaction has added behind a log for its drafts. -/
structure Receipt.Records (v : Vocabulary) (now : Int64) (s : Store) (ds : List Draft)
    (old new : List Fact) (receipt : Receipt) : Prop where
  /-- The transaction is numbered above everything before it. -/
  above : ∀ f ∈ old, f.entity < receipt.tx ∧ f.tx < receipt.tx
  tx_eq : ∀ f ∈ new, f.tx = receipt.tx
  /-- Every draft becomes a fact, about an entity that is older than the transaction or was given
  its number by it. The last fact tells the time, and it alone is about the transaction. -/
  facts : ∃ drafted timestamp op,
    new = drafted ++ [⟨receipt.tx, timestamp, .int now, receipt.tx, op⟩] ∧
    List.Forall₂ (Draft.Becomes receipt.tx receipt.given) ds drafted ∧
    s.entityOf v.timestamp = .ok timestamp ∧ s.entityOf v.assertOperation = .ok op ∧
    (∀ f ∈ drafted, f.entity < receipt.tx ∨ f.entity ∈ receipt.given.map Prod.snd) ∧
    ∀ f ∈ old ++ drafted, f.entity ≠ receipt.tx
  /-- The placeholders of the drafts are given numbers in the order in which they occur first. -/
  tokens : receipt.given.map Prod.fst = (Transaction.placeholders ds).eraseDups
  distinct : (receipt.given.map Prod.fst).Nodup
  numbers : receipt.given.map Prod.snd = List.range' (receipt.tx + 1) receipt.given.length
  room : receipt.tx + receipt.given.length ≤ maxEntityId

namespace Transaction.Effect

variable {v : Vocabulary} {now : Int64} {s : Store} {ds : List Draft} {tx : EntityId}
  {receipt : Receipt} {new : List Fact}

/-- A transaction that has drafts records them behind a log of lower numbers. -/
theorem records (effect : Effect v now s ds tx receipt new) (some : ds ≠ []) {old : List Fact}
    (above : ∀ f ∈ old, f.entity < tx ∧ f.tx < tx) : receipt.Records v now s ds old new := by
  have tx_eq : ∀ f ∈ new, f.tx = tx := fun f => effect.tx_eq
  cases effect with
  | nothing empty => exact absurd empty some
  | @recorded drafted timestamp op _ time assertion become room =>
    have length : (numbering tx (placeholders ds)).length = (placeholders ds).eraseDups.length :=
      List.length_zipIdx
    have entity : ∀ f ∈ drafted, f.entity < tx ∨
        tx < f.entity ∧ f.entity ≤ tx + (placeholders ds).eraseDups.length := by
      intro f member
      obtain ⟨d, _, becomes⟩ := Outcome.exists_left_of_mem become member
      exact entity_cases becomes
    -- what is left to show: the entities of the facts, then the tokens and numbers given
    refine ⟨above, tx_eq, ⟨drafted, timestamp, op, rfl, become, time, assertion, ?_, ?_⟩, ?_, ?_,
      ?_, ?_⟩
    · intro f member
      rcases entity f member with older | ⟨above_tx, within⟩
      · exact .inl older
      · obtain ⟨p, _, given⟩ := exists_numbered above_tx within
        exact .inr (List.mem_map.mpr ⟨(p, f.entity), Outcome.mem_of_lookup given, rfl⟩)
    · intro f member
      rcases List.mem_append.mp member with earlier | settled
      · exact Nat.ne_of_lt (above f earlier).1
      · rcases entity f settled with older | ⟨above_tx, _⟩
        · exact Nat.ne_of_lt older
        · exact Nat.ne_of_gt above_tx
    · exact List.zipIdx_map_fst ..
    · rw [numbering, List.zipIdx_map_fst]
      exact nodup_eraseDups (placeholders ds)
    · rw [length]
      exact List.zipIdx_map_snd ..
    · rw [length]
      exact room

end Transaction.Effect

namespace Database

/-- The first effect of some calls is numbered as the next transaction was to be before them. -/
theorem effect_tx {db : Database} {tx : EntityId}
    (next : Transaction.nextEntity db.store = .ok tx) {calls : List Call} {receipt : Receipt}
    (found : (db.replies calls).findSome? Reply.effect? = some receipt) : receipt.tx = tx := by
  -- queries, faults and receipts without facts leave the database as it is
  induction calls generalizing db with
  | nil => cases found
  | cons c rest ih =>
    rw [replies, List.findSome?_cons] at found
    cases c with
    | query q asOf params => exact ih next found
    | transact now request =>
      simp only [call, carryOut_eq] at found
      cases done : db.store.transact db.vocabulary now request with
      | error fault =>
        rw [done] at found
        exact ih next found
      | ok result =>
        obtain ⟨made, s⟩ := result
        rw [done] at found
        obtain ⟨ds, tx', new, _, next', effect, written⟩ := Store.transact_cases done
        obtain rfl := Except.ok.inj (next'.symm.trans next)
        by_cases none : made.count = 0
        · -- nothing was recorded, so the store is the same
          have empty : new = [] :=
            List.length_eq_zero_iff.mp (effect.receipt_count.symm.trans none)
          rw [empty, Transaction.insertAll_nil] at written
          obtain rfl := Except.ok.inj written
          have skipped : Reply.effect? (.transacted (.ok made)) = .none := if_pos none
          simp only [skipped] at found
          exact ih next found
        · have shown : Reply.effect? (.transacted (.ok made)) = .some made := if_neg none
          simp only [shown] at found
          obtain rfl := Option.some.inj found
          exact effect.receipt_tx

/-- A request fails and leaves the database as it is, or adds as many facts behind its log as the
receipt counts. A receipt of no facts tells the number that the next effect gets; any other records
the drafts of the request under a number above all that were there. -/
def Commits (db : Database) (now : Int64) (request : Form) : Prop :=
  match db.carryOut now request with
  | (.error _, after) => after = db
  | (.ok receipt, after) =>
    ∃ ds old new last,
      Transaction.drafts db.vocabulary db.store request = .ok ds ∧
      db.store.Holds old ∧ after.store.Holds (old ++ new) ∧
      after.vocabulary = db.vocabulary ∧ new.length = receipt.count ∧
      db.store.lastEntity = some last ∧ receipt.tx = last + 1 ∧
      (receipt.count = 0 → after = db ∧ receipt.given = [] ∧
        ∀ calls effect, (after.replies calls).findSome? Reply.effect? = some effect →
          effect.tx = receipt.tx) ∧
      (receipt.count ≠ 0 →
        receipt.Records db.vocabulary now db.store ds old new ∧
        after.store.lastTx = some receipt.tx ∧
        after.store.lastEntity = some (receipt.tx + receipt.given.length))

/-- Every database that a run has made commits every request. -/
theorem carryOut_commits {db : Database} (reachable : db.Reachable) (now : Int64)
    (request : Form) : db.Commits now request := by
  obtain ⟨old, last, keeps⟩ := reachable.keeps
  rw [Commits, carryOut_eq]
  cases done : db.store.transact db.vocabulary now request with
  | error fault => rfl
  | ok result =>
    obtain ⟨receipt, s⟩ := result
    obtain ⟨ds, tx, new, drafted, next, effect, written⟩ := Store.transact_cases done
    have number : tx = last + 1 := keeps.regular.next_eq keeps.holds next
    have holds : s.Holds (old ++ new) := keeps.holds.insertAll written
    have above : ∀ f ∈ old, f.entity < tx ∧ f.tx < tx := by
      intro f member
      rw [number]
      exact ⟨Nat.lt_succ_of_le (keeps.regular.entity_le f member),
        Nat.lt_succ_of_le (keeps.regular.tx_le f member)⟩
    -- a receipt without facts and one with facts tell different things
    refine ⟨ds, old, new, last, drafted, keeps.holds, holds, rfl, effect.receipt_count.symm, ?_,
      effect.receipt_tx.trans number, ?_, ?_⟩
    · rw [keeps.holds.lastEntity_eq, keeps.regular.greatest]
    · intro none
      have empty : new = [] := List.length_eq_zero_iff.mp (effect.receipt_count.symm.trans none)
      rw [empty, Transaction.insertAll_nil] at written
      obtain rfl := Except.ok.inj written
      refine ⟨rfl, ?_, ?_⟩
      · cases effect with
        | nothing => rfl
        | recorded => exact absurd none (Nat.succ_ne_zero _)
      · intro calls first found
        rw [effect.receipt_tx]
        exact effect_tx next found
    · intro effective
      have some : ds ≠ [] := by
        rintro rfl
        cases effect with
        | nothing => exact effective rfl
        | recorded none => exact none rfl
      have records := effect.records some above
      refine ⟨records, ?_, ?_⟩
      · rw [effect.receipt_tx, holds.lastTx_eq]
        exact effect.lastTx_eq some fun f member => (above f member).2
      · have given : receipt.given.length = (Transaction.placeholders ds).eraseDups.length := by
          rw [← records.tokens, List.length_map]
        rw [given, effect.receipt_tx, holds.lastEntity_eq]
        exact effect.lastEntity_eq some fun f member => (above f member).1

/-- A request that names a new entity is committed in a new table, as two facts. -/
theorem carryOut_commits_named :
    ∃ db : Database, ∃ receipt after, db.Reachable ∧
      db.carryOut 5 (.map [(.keyword "tx-data", .map [(.keyword "db/identity", .text "a")])])
        = (.ok receipt, after) ∧ receipt.count = 2 ∧
      db.Commits 5 (.map [(.keyword "tx-data", .map [(.keyword "db/identity", .text "a")])]) := by
  have counted : ((ofStore (Store.empty .table) .standard ⟨"", 0, 0, 0⟩).toOption.bind fun db =>
      (db.carryOut 5
        (.map [(.keyword "tx-data", .map [(.keyword "db/identity", .text "a")])])).1.toOption.map
          Receipt.count) = some 2 := by
    decide +kernel
  obtain ⟨db, opened, counted⟩ := Option.bind_eq_some_iff.mp counted
  obtain ⟨receipt, carried, two⟩ := Option.map_eq_some_iff.mp counted
  have opened := Outcome.toOption_eq_some.mp opened
  have carried := Outcome.toOption_eq_some.mp carried
  have reachable : db.Reachable := ⟨.table, .standard, ⟨"", 0, 0, 0⟩, db, [], opened, rfl⟩
  exact ⟨db, receipt, _, reachable, Prod.ext carried rfl, two, carryOut_commits reachable 5 _⟩

end Database

end Factbase
