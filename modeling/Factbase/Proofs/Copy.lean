import Factbase.Proofs.Answer
import Factbase.Proofs.ReadBack
import Factbase.Proofs.Run

/-!
# Factbase.Proofs.Copy

A copy is the store over again. Copying rebuilds the indexes from the facts alone, so a copy that
succeeds is a twin of its source: of the same kind, with the same log or the same table. No read
tells twins apart, and calls yield the same on both and leave twins behind. A copy that fails because
its source cannot be read has emptied the other store before it finds out.
-/

namespace Factbase

namespace Store

/-- Two stores that no read tells apart. -/
structure ReadsSame (s t : Store) : Prop where
  backend : s.backend = t.backend
  lookup : ∀ p asOf, s.lookup p asOf = t.lookup p asOf
  list : ∀ listing, s.list listing = t.list listing
  nameOf : ∀ e, s.nameOf e = t.nameOf e
  entityOf : ∀ name, s.entityOf name = t.entityOf name
  count : ∀ e, s.count e = t.count e
  identities : s.identities = t.identities
  lastEntity : s.lastEntity = t.lastEntity
  lastTx : s.lastTx = t.lastTx
  size : s.size = t.size

/-- Two stores of one kind with the same facts. The indexes over one log need not be the same. -/
inductive Twins : Store → Store → Prop where
  | indexed {s t : Indexed} (left : s.Coherent) (right : t.Coherent) (facts : s.facts = t.facts) :
      Twins (indexed s) (indexed t)
  | table (t : Table) : Twins (table t) (table t)

variable {s t : Store}

theorem Twins.symm (twins : s.Twins t) : t.Twins s := by
  cases twins with
  | indexed left right facts => exact .indexed right left facts.symm
  | table t => exact .table t

/-! ### Reads and writes -/

theorem Twins.firstName_eq (twins : s.Twins t) (e : EntityId) : s.firstName e = t.firstName e := by
  cases twins with
  | indexed left right facts =>
    have name := left.nameOf_eq e
    rw [facts, ← right.nameOf_eq] at name
    exact name
  | table t => rfl

theorem Twins.reads (twins : s.Twins t) : s.ReadsSame t := by
  have firstName := twins.firstName_eq
  cases twins with
  | table t => constructor <;> intros <;> rfl
  | @indexed s t left right facts =>
    -- on either side each read is the one of the log
    have size : s.size = t.size := by rw [Indexed.size_eq, Indexed.size_eq, facts]
    constructor
    case backend => rfl
    case lookup =>
      intro p asOf
      rw [lookup, lookup, left.lookup_eq, right.lookup_eq, facts]
    case list =>
      intro listing
      rw [list, list, Indexed.list, Indexed.list, facts]
    case nameOf =>
      intro e
      simp only [nameOf, askable, Except.map, firstName]
    case entityOf =>
      intro name
      simp only [entityOf, entityOf?, left.entityOf_eq, right.entityOf_eq, facts]
    case count =>
      intro e
      simp only [count, askable, Except.map, left.count_eq, right.count_eq, facts]
    case identities => rw [identities, identities, left.identities_eq, right.identities_eq, facts]
    case lastEntity => rw [lastEntity, lastEntity, left.lastEntity, right.lastEntity, facts]
    case lastTx => rw [lastTx, lastTx, left.lastTx, right.lastTx, facts]
    case size => exact size

/-- Facts are written to twins alike, or to neither. -/
theorem Twins.insertAll {α : Type} (twins : s.Twins t) (fs : List Fact) (x : α) :
    SameOutcome Twins (do let s ← s.insertAll fs; return (x, s))
      (do let t ← t.insertAll fs; return (x, t)) := by
  cases twins with
  | indexed left right facts =>
    -- the indexes stay apart, each right for the one log
    refine .done x (.indexed (left.insertAll fs) (right.insertAll fs) ?_)
    rw [Indexed.facts_insertAll, Indexed.facts_insertAll, facts]
  | table t =>
    rw [Store.insertAll]
    cases t.insertAll fs with
    | error fault => exact .failed (.storage fault)
    | ok t' => exact .done x (.table t')

/-! ### Calls -/

/-- A request is carried out alike on twins. -/
theorem Twins.transact (twins : s.Twins t) (v : Vocabulary) (now : Int64) (request : Form) :
    SameOutcome Twins (s.transact v now request) (t.transact v now request) := by
  have reads := twins.reads
  have drafted : Transaction.drafts v s request = Transaction.drafts v t request := by
    apply Transaction.drafts_congr reads.entityOf
    intro form subject _ _
    cases subject with
    | existing e => rw [Transaction.hasFacts, Transaction.hasFacts, reads.count]
    | new p => rfl
  rw [transact_eq, transact_eq,
    Transaction.outcome_congr drafted reads.lastEntity reads.entityOf now]
  cases Transaction.outcome v now t request with
  | error fault => exact .failed fault
  | ok result => exact twins.insertAll result.2 result.1

theorem Twins.answer (twins : s.Twins t) (v : Vocabulary) (q : Query) (asOf : Option EntityId)
    (params : List Form) : s.answer v q asOf params = t.answer v q asOf params := by
  have reads := twins.reads
  apply answer_congr reads.entityOf
  · intro attr
    rw [Query.attrName, Query.attrName, twins.firstName_eq]
  · unfold Query.effectiveTx
    rw [reads.lastTx]
  · intro _ _ _ _ _ _ p _
    exact reads.lookup p (Query.effectiveTx t asOf)

theorem Twins.call (twins : s.Twins t) (v : Vocabulary) (c : Call) :
    (Database.call ⟨s, v⟩ c).1 = (Database.call ⟨t, v⟩ c).1 ∧
      (Database.call ⟨s, v⟩ c).2.store.Twins (Database.call ⟨t, v⟩ c).2.store := by
  cases c with
  | transact now request =>
    exact Database.call_transact_same twins v (twins.transact v now request)
  | query q asOf params =>
    refine ⟨?_, twins⟩
    simp only [Database.call, Database.query, twins.answer]

/-- Calls, one after another, yield the same on twins and leave twins behind. -/
theorem Twins.run (twins : s.Twins t) (v : Vocabulary) (calls : List Call) :
    Database.replies ⟨s, v⟩ calls = Database.replies ⟨t, v⟩ calls ∧
      (Database.run ⟨s, v⟩ calls).store.Twins (Database.run ⟨t, v⟩ calls).store :=
  Database.run_related (P := fun _ => True) (fun {_ _ c} twins _ => twins.call v c) twins
    (fun _ _ => trivial)

/-! ### Copying -/

variable {fs : List Fact}

/-- Every way to write to a store, however often it is emptied, leaves it with the facts written
since. -/
theorem exists_holds_writeAll (backend : Backend) (ws : List Write) :
    ∃ fs, ((empty backend).writeAll ws).2.Holds fs := by
  cases backend with
  | indexed =>
    obtain ⟨s, written, coherent, _⟩ := Indexed.coherent_empty.writeAll ws
    exact ⟨s.facts, by rw [empty, written]; exact ⟨coherent, rfl⟩⟩
  | table =>
    obtain ⟨_, t, written, holds, _⟩ := Table.holds_empty.writeAll ws
    exact ⟨_, by rw [empty, written]; exact holds⟩

/-- A copy into a store of the same kind succeeds if the facts can be read, and is then a twin. -/
theorem Holds.copyInto_cases (holds : s.Holds fs) {target : Store}
    (kind : target.backend = s.backend) :
    (∃ copy, s.copyInto target = (.ok (), copy) ∧ s.list .all = .ok fs ∧ s.Twins copy) ∨
      ∃ fault, s.copyInto target = (.error fault, target.emptied) ∧ s.list .all = .error fault := by
  cases s with
  | indexed s =>
    -- the facts can always be listed, and new indexes are filed for them one by one
    obtain ⟨coherent, rfl⟩ := holds
    have listed : (indexed s).list .all = .ok s.facts := rfl
    have rebuilt : target.emptied.insertAll s.facts
        = .ok (indexed (Indexed.empty.insertAll s.facts)) := by
      rw [emptied, kind]
      rfl
    refine .inl ⟨indexed (Indexed.empty.insertAll s.facts), ?_, listed, ?_⟩
    · rw [copyInto, if_pos kind, listed, Outcome.ok_bind, rebuilt]
    · exact .indexed coherent (Indexed.coherent_ofLog s.facts) (Indexed.facts_ofLog s.facts).symm
  | table t =>
    have listed : (table t).list .all = ofStorage (Table.readBack fs) :=
      congrArg ofStorage (Table.Holds.list_all holds)
    rw [Table.Holds.copyInto_eq holds kind, listed]
    cases Table.readBack_cases fs with
    | inl read => exact .inl ⟨table t, by rw [read], by rw [read]; rfl, .table t⟩
    | inr unread => exact .inr ⟨_, by rw [unread], by rw [unread]; rfl⟩

theorem copyInto_of_copy {copy : Store} (made : s.copy = .ok copy) :
    s.copyInto s.emptied = (.ok (), copy) := by
  unfold Store.copy at made
  split at made
  next twin copied =>
    obtain rfl := Except.ok.inj made
    exact copied
  next => cases made

/-- A copy into a store of another kind fails and leaves that store as it is. One into a store of
the same kind, whatever it held, succeeds if the facts of the source can be read at all; it then has
the facts of the source in their order, and no read tells them apart. A database over a copy yields
the same in every run as one over the source, and the two end in stores that no read tells apart.
Any store that was written to holds some facts, by `exists_holds_writeAll`. -/
theorem copyInto_faithful (holds : s.Holds fs) :
    (∀ target : Store, target.backend ≠ s.backend →
        s.copyInto target = (.error (.backendMismatch s.backend target.backend), target)) ∧
      (∀ target : Store, target.backend = s.backend →
        (s.copyInto target).1 = (s.list .all).map fun _ => ()) ∧
      (∀ target copy : Store, s.copyInto target = (.ok (), copy) →
        s.list .all = .ok fs ∧ copy.list .all = .ok fs ∧ copy.ReadsSame s) ∧
      ∀ (v : Vocabulary) (db : Database), Database.copy ⟨s, v⟩ = .ok db →
        db.vocabulary = v ∧ ∀ calls, db.replies calls = Database.replies ⟨s, v⟩ calls ∧
          (db.run calls).store.ReadsSame (Database.run ⟨s, v⟩ calls).store := by
  have mismatched : ∀ target : Store, target.backend ≠ s.backend →
      s.copyInto target = (.error (.backendMismatch s.backend target.backend), target) :=
    fun target other => if_neg other
  -- a copy that succeeds is of the same kind, and so a twin
  have twins : ∀ target copy : Store, s.copyInto target = (.ok (), copy) →
      s.list .all = .ok fs ∧ copy.Twins s := by
    intro target copy copied
    by_cases kind : target.backend = s.backend
    · obtain ⟨twin, made, listed, twins⟩ | ⟨fault, failed, _⟩ := holds.copyInto_cases kind
      · obtain rfl : twin = copy := congrArg Prod.snd (made.symm.trans copied)
        exact ⟨listed, twins.symm⟩
      · cases failed.symm.trans copied
    · cases (mismatched target kind).symm.trans copied
  refine ⟨mismatched, ?_, ?_, ?_⟩
  · intro target kind
    obtain ⟨_, made, listed, _⟩ | ⟨_, failed, unread⟩ := holds.copyInto_cases kind
    · rw [made, listed]
      rfl
    · rw [failed, unread]
      rfl
  · intro target copy copied
    obtain ⟨listed, twins⟩ := twins target copy copied
    exact ⟨listed, (twins.reads.list .all).trans listed, twins.reads⟩
  · intro v db copied
    obtain ⟨copy, made, rfl⟩ := Outcome.map_eq_ok.mp copied
    obtain ⟨_, twins⟩ := twins s.emptied copy (copyInto_of_copy made)
    refine ⟨rfl, fun calls => ?_⟩
    obtain ⟨replies, ran⟩ := twins.run v calls
    exact ⟨replies, ran.reads⟩

/-- A store with one fact, copied over another that held a fact of its own. -/
theorem copyInto_faithful_replaced :
    let s := ((empty .indexed).writeAll [.insert ⟨5, 0, .text "a", 4, 2⟩]).2
    let target := ((empty .indexed).writeAll [.insert ⟨7, 3, .int 9, 6, 2⟩]).2
    s.Holds [⟨5, 0, .text "a", 4, 2⟩] ∧ ∃ copy, s.copyInto target = (.ok (), copy) ∧
      copy.list .all = .ok [⟨5, 0, .text "a", 4, 2⟩] ∧ copy.ReadsSame s := by
  intro s target
  have holds : s.Holds [⟨5, 0, .text "a", 4, 2⟩] :=
    ⟨Indexed.coherent_ofLog _, Indexed.facts_ofLog _⟩
  obtain ⟨_, _, copied, _⟩ := copyInto_faithful holds
  obtain ⟨_, listed, same⟩ := copied target _ rfl
  exact ⟨holds, _, rfl, listed, same⟩

/-! ### Copies that fail -/

/-- How a copy of a store with these facts fails, and what it leaves of the other store. -/
inductive CopyFails (s : Store) (fs : List Fact) (target : Store) : Fault → Store → Prop where
  /-- Stores of two kinds are told apart before anything is touched. -/
  | mismatch (other : target.backend ≠ s.backend) :
      CopyFails s fs target (.backendMismatch s.backend target.backend) target
  /-- A table with a value that is no number cannot be read, and when it is found out the other
  table has been emptied. -/
  | unreadable (kind : target.backend = s.backend) (table : s.backend = .table)
      (unread : ∃ f ∈ fs, f.value.isNaN) :
      CopyFails s fs target (.storage (.mismatch .null Value.Tag.float)) target.emptied

theorem Holds.list_all_eq_error (holds : s.Holds fs) {fault : Fault} :
    s.list .all = .error fault ↔ s.backend = .table ∧ (∃ f ∈ fs, f.value.isNaN) ∧
      fault = .storage (.mismatch .null Value.Tag.float) := by
  cases s with
  | indexed s =>
    constructor
    · intro failed
      cases failed
    · rintro ⟨kind, _⟩
      cases kind
  | table t =>
    have listed : (table t).list .all = ofStorage (Table.readBack fs) :=
      congrArg ofStorage (Table.Holds.list_all holds)
    rw [listed, Table.readBack]
    split
    next unread =>
      constructor
      · rintro ⟨⟩
        exact ⟨rfl, List.any_eq_true.mp unread, rfl⟩
      · rintro ⟨_, _, rfl⟩
        rfl
    next read =>
      constructor
      · intro failed
        cases failed
      · rintro ⟨_, unread, _⟩
        exact absurd (List.any_eq_true.mpr unread) read

theorem Holds.copyInto_eq_error (holds : s.Holds fs) {target : Store} {fault : Fault}
    {after : Store} :
    s.copyInto target = (.error fault, after) ↔ s.CopyFails fs target fault after := by
  by_cases kind : target.backend = s.backend
  · constructor
    · intro failed
      obtain ⟨_, made, _, _⟩ | ⟨_, failed', unread⟩ := holds.copyInto_cases kind
      · cases made.symm.trans failed
      · cases failed'.symm.trans failed
        obtain ⟨table, nan, rfl⟩ := holds.list_all_eq_error.mp unread
        exact .unreadable kind table nan
    · intro fails
      cases fails with
      | mismatch other => exact absurd kind other
      | unreadable _ table nan =>
        have unread := holds.list_all_eq_error.mpr ⟨table, nan, rfl⟩
        rw [copyInto, if_pos kind, unread, Outcome.error_bind]
  · rw [copyInto, if_neg kind]
    constructor
    · rintro ⟨⟩
      exact .mismatch kind
    · intro fails
      cases fails with
      | mismatch => rfl
      | unreadable same => exact absurd same kind

theorem ReadsSame.refl (s : Store) : s.ReadsSame s := by
  constructor <;> intros <;> rfl

/-- A store that is emptied reads as before exactly if there was nothing in it. -/
theorem Holds.emptied_readsSame_iff (holds : s.Holds fs) : s.emptied.ReadsSame s ↔ fs = [] := by
  constructor
  · intro same
    have sizes := same.size
    rw [emptied, size_empty, holds.size_eq] at sizes
    exact List.length_eq_zero_iff.mp sizes.symm
  · rintro rfl
    apply Twins.reads
    cases s with
    | indexed s => exact .indexed Indexed.coherent_empty holds.1 holds.2.symm
    | table t =>
      obtain rfl : t = Table.empty := congrArg Table.mk (Table.Holds.rows holds)
      exact .table Table.empty

/-- A copy fails if the other store is of another kind, and then leaves it as it is; or if a value of
a table is no number, and then the other table is left empty. So a copy that fails leaves the other
store to be read as before exactly if the kinds differ or there was nothing in it. -/
theorem copyInto_failed (holds : s.Holds fs) {target : Store} {gs : List Fact}
    (held : target.Holds gs) (fault : Fault) (after : Store) :
    (s.copyInto target = (.error fault, after) ↔ s.CopyFails fs target fault after) ∧
      (s.copyInto target = (.error fault, after) →
        (after.ReadsSame target ↔ target.backend ≠ s.backend ∨ gs = [])) := by
  refine ⟨holds.copyInto_eq_error, fun failed => ?_⟩
  cases holds.copyInto_eq_error.mp failed with
  | mismatch other => exact ⟨fun _ => .inl other, fun _ => .refl target⟩
  | unreadable kind =>
    rw [held.emptied_readsSame_iff]
    simp [kind]

/-- A table with a value that is no number, copied over another that held a fact. -/
theorem copyInto_failed_emptied :
    let s := ((empty .table).writeAll [.insert ⟨5, 3, .float ⟨0x7ff8000000000000⟩, 4, 2⟩]).2
    let target := ((empty .table).writeAll [.insert ⟨6, 3, .int 1, 4, 2⟩]).2
    s.Holds [⟨5, 3, .float ⟨0x7ff8000000000000⟩, 4, 2⟩] ∧ target.Holds [⟨6, 3, .int 1, 4, 2⟩] ∧
      s.CopyFails [⟨5, 3, .float ⟨0x7ff8000000000000⟩, 4, 2⟩] target
        (.storage (.mismatch .null Value.Tag.float)) (empty .table) ∧
      ¬ (empty .table).ReadsSame target := by
  intro s target
  have holds : s.Holds [⟨5, 3, .float ⟨0x7ff8000000000000⟩, 4, 2⟩] :=
    (holds_empty .table).insertAll rfl
  have held : target.Holds [⟨6, 3, .int 1, 4, 2⟩] := (holds_empty .table).insertAll rfl
  have failed : s.copyInto target
      = (.error (.storage (.mismatch .null Value.Tag.float)), empty .table) := rfl
  obtain ⟨fails, same⟩ := copyInto_failed holds held _ _
  refine ⟨holds, held, fails.mp failed, ?_⟩
  rw [same failed]
  rintro (other | empty)
  · exact other rfl
  · cases empty

/-- A copy that fails does not always leave the other store as it was. -/
theorem copyInto_not_always_harmless :
    ¬ ∀ (backend backend' : Backend) (ws ws' : List Write) (fault : Fault) (after : Store),
      ((empty backend).writeAll ws).2.copyInto ((empty backend').writeAll ws').2
        = (.error fault, after) → after.ReadsSame ((empty backend').writeAll ws').2 := by
  intro harmless
  -- the source has a value that is no number, and the target a fact to lose
  have same := harmless .table .table [.insert ⟨5, 3, .float ⟨0x7ff8000000000000⟩, 4, 2⟩]
    [.insert ⟨6, 3, .int 1, 4, 2⟩] _ _ rfl
  exact absurd same.size (by decide)

end Store

end Factbase
