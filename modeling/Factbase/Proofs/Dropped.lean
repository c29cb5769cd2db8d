import Factbase.Proofs.Conformance
import Factbase.Proofs.Dense
import Factbase.Proofs.Shorthand

/-!
# Factbase.Proofs.Dropped

Dropped work. Some operations are dropped without a word: declarations that lack a part, tuples that
are too short or too long, retractions about what no fact is about, and maps that say nothing. They
leave no trace. A request does what it does without them: it fails with the same fault, or it
records the same facts and gives the same numbers. What is different are the places of the
operations behind the dropped ones, and with them how the entities are called that those operations
do not name.
-/

namespace Factbase

/-- A list, and what is left of it when some of its idle items are taken out. -/
inductive Without {α : Type} (idle : α → Prop) : List α → List α → Prop where
  | nil : Without idle [] []
  | keep (x : α) {xs ys : List α} (rest : Without idle xs ys) : Without idle (x :: xs) (x :: ys)
  | drop {x : α} {xs ys : List α} (drops : idle x) (rest : Without idle xs ys) :
      Without idle (x :: xs) ys

namespace Without

variable {α β : Type} {idle : α → Prop} {idle' : β → Prop} {xs ys : List α}

theorem refl (xs : List α) : Without idle xs xs := by
  induction xs with
  | nil => exact .nil
  | cons x rest ih => exact .keep x ih

theorem append {xs' ys' : List α} (left : Without idle xs ys) (right : Without idle xs' ys') :
    Without idle (xs ++ xs') (ys ++ ys') := by
  induction left with
  | nil => exact right
  | keep x _ ih => exact .keep x ih
  | drop drops _ ih => exact .drop drops ih

theorem map {f : α → β} (same : ∀ x, idle x → idle' (f x)) (without : Without idle xs ys) :
    Without idle' (xs.map f) (ys.map f) := by
  induction without with
  | nil => exact .nil
  | keep x _ ih => exact .keep (f x) ih
  | drop drops _ ih => exact .drop (same _ drops) ih

/-- What is read from the items that are left is what is left of what is read from all of them. -/
theorem mapM {read : α → Option β} (same : ∀ x y, idle x → read x = some y → idle' y)
    (without : Without idle xs ys) {read_xs : List β} (all : xs.mapM read = some read_xs) :
    ∃ read_ys, ys.mapM read = some read_ys ∧ Without idle' read_xs read_ys := by
  induction without generalizing read_xs with
  | nil =>
    cases all
    exact ⟨[], rfl, .nil⟩
  | keep x _ ih =>
    simp only [List.mapM_cons, Option.bind_eq_bind, Option.bind_eq_some_iff] at all
    obtain ⟨y, first, later, others, made⟩ := all
    cases made
    obtain ⟨left, found, without⟩ := ih others
    exact ⟨y :: left, by rw [List.mapM_cons, first, found]; rfl, .keep y without⟩
  | drop drops _ ih =>
    simp only [List.mapM_cons, Option.bind_eq_bind, Option.bind_eq_some_iff] at all
    obtain ⟨y, first, later, others, made⟩ := all
    cases made
    obtain ⟨left, found, without⟩ := ih others
    exact ⟨left, found, .drop (same _ y drops first) without⟩

end Without

/-! ### Idle operations -/

/-- A subject that no fact of a log is about. -/
inductive Subject.Unknown (fs : List Fact) : Subject → Prop where
  | existing {e : EntityId} (fits : e ≤ maxEntityId) (unknown : ¬ Log.About fs e) :
      Unknown fs (.existing e)
  | new (p : Placeholder) : Unknown fs (.new p)

namespace Transaction

/-- An operation that is dropped, whatever else it says. -/
inductive Operation.Idle (v : Vocabulary) (fs : List Fact) : Operation → Prop where
  | declaration {form : Form} {key : String}
      (key_mem : key ∈ [v.identity, v.valueKind, v.cardinality]) (lacks : form.get? key = none) :
      Idle v fs (.declaration form)
  | tuple {items : List Form} (length : items.length ≠ 4) : Idle v fs (.tuple items)
  | retraction {operation entity : Form} {subject : Subject}
      (named : operation.asName? = some v.retractOperation) (about : subjectOf entity = .ok subject)
      (unknown : subject.Unknown fs) (attr told : Form) :
      Idle v fs (.tuple [operation, entity, attr, told])
  | entries : Idle v fs (.entries [])

end Transaction

/-- A section of a request, whose items are read as operations, and what is left of it when some
idle ones are taken out. -/
inductive Form.SectionThinned (v : Vocabulary) (fs : List Fact)
    (read : Form → Option Transaction.Operation) : Option Form → Option Form → Prop where
  | same (part : Option Form) : SectionThinned v fs read part part
  | items {items items' : List Form} (operations : ∀ item ∈ items, (read item).isSome)
      (without : Without (fun item => ∃ operation, read item = some operation ∧ operation.Idle v fs)
        items items') : SectionThinned v fs read (some (.list items)) (some (.list items'))

/-- A request, and one that is left of it when some idle operations are taken out. -/
structure Form.Thinned (v : Vocabulary) (fs : List Fact) (request request' : Form) : Prop where
  declarations : SectionThinned v fs (fun form => some (.declaration form))
    (request.get? ":tx-attribute") (request'.get? ":tx-attribute")
  data : SectionThinned v fs Transaction.dataOperation? (request.get? ":tx-data")
    (request'.get? ":tx-data")

namespace Transaction

variable {v : Vocabulary} {s : Store} {fs : List Fact}

theorem operations_thinned {request request' : Form} (thinned : request.Thinned v fs request') :
    Without (Operation.Idle v fs) (operations request) (operations request') := by
  obtain ⟨declared, data⟩ := thinned
  unfold operations
  generalize request.get? ":tx-attribute" = part at declared
  generalize request'.get? ":tx-attribute" = part' at declared
  generalize request.get? ":tx-data" = part₂ at data
  generalize request'.get? ":tx-data" = part₂' at data
  apply Without.append
  · cases declared with
    | same => exact .refl _
    | items _ without =>
      refine without.map ?_
      rintro item ⟨operation, ⟨rfl⟩, idle⟩
      exact idle
  · cases data with
    | same => exact .refl _
    | items operations without =>
      -- what an item is read as does not depend on the other items, unless one cannot be read
      have same : ∀ item operation, (∃ read, dataOperation? item = some read ∧ read.Idle v fs) →
          dataOperation? item = some operation → operation.Idle v fs := by
        rintro item operation ⟨read, found, idle⟩ found'
        obtain rfl := Option.some.inj (found.symm.trans found')
        exact idle
      obtain ⟨found, all⟩ := exists_mapM_dataOperation? operations
      obtain ⟨left, left_found, without⟩ := without.mapM same all
      simp only [Option.map_some, Option.getD_some, dataOperations_list all,
        dataOperations_list left_found]
      exact without

/-! ### Drafts -/

theorem hasFacts_unknown (holds : s.Holds fs) {subject : Subject} (unknown : subject.Unknown fs) :
    hasFacts s subject = .ok false := by
  cases unknown with
  | existing fits unknown =>
    rw [← Log.count_pos, Nat.pos_iff_ne_zero, not_not] at unknown
    rw [hasFacts, holds.count_eq fits, unknown]
    rfl
  | new p => rfl

/-- Idle operations are taken apart into nothing. -/
theorem Operation.Idle.drafts_eq {operation : Operation} (idle : operation.Idle v fs)
    (holds : s.Holds fs) {op : EntityId} (assertion : s.entityOf v.assertOperation = .ok op)
    (number : Nat) : operation.drafts v s number = .ok [] := by
  cases idle with
  | @declaration form key key_mem lacks =>
    show declare v s number form = .ok []
    unfold declare
    split
    next identity kind cardinality =>
      -- the declaration has all three parts, so it does not lack one
      simp only [List.mem_cons, List.not_mem_nil, or_false] at key_mem
      rcases key_mem with rfl | rfl | rfl <;> simp_all
    next => rfl
  | @tuple items length =>
    show ofTuple v s items = .ok []
    unfold ofTuple
    split
    next => exact absurd rfl length
    next => rfl
  | retraction named about unknown attr told =>
    simp only [Operation.drafts, ofTuple, nameOf_eq_ok.mpr named, about, Outcome.ok_bind, if_true,
      hasFacts_unknown holds unknown]
    rfl
  | entries =>
    -- even a map that says nothing asks for the operation that asserts
    simp only [Operation.drafts, ofEntries, splitEntries, assertion, Outcome.ok_bind]
    rfl

/-- Places behind one that does not change. -/
def behind (place : Nat → Nat) : Nat → Nat
  | 0 => 0
  | i + 1 => place i + 1

theorem behind_strictMono {place : Nat → Nat} (up : StrictMono place) :
    StrictMono (behind place) := by
  apply strictMono_nat_of_lt_succ
  intro i
  cases i with
  | zero => exact Nat.succ_pos _
  | succ i => exact Nat.succ_lt_succ (up (Nat.lt_succ_self i))

/-- Operations without idle ones among them are taken apart as before, if each stands for the one
that it was. The places of those that are left go up. -/
theorem draftsFrom_without {idle : Operation → Prop}
    (dropped : ∀ operation, idle operation → ∀ number, operation.drafts v s number = .ok [])
    {operations left : List Operation} (without : Without idle operations left) :
    ∃ place : Nat → Nat, StrictMono place ∧
      (∀ i operation, left[i]? = some operation → operations[place i]? = some operation) ∧
      ∀ (moved : Nat → Nat) (start start' : Nat),
        (∀ i < left.length, moved (start' + i) = start + place i) →
        draftsFrom v s start operations
          = (draftsFrom v s start' left).map (List.map (Draft.moved moved)) := by
  -- the places are counted from where each list starts, so that what is dropped shifts the start of
  -- one list and not of the other
  induction without with
  | nil => exact ⟨id, strictMono_id, by simp, fun _ _ _ _ => rfl⟩
  | @keep operation rest left _ ih =>
    obtain ⟨place, up, same, drafted⟩ := ih
    refine ⟨behind place, behind_strictMono up, ?_, ?_⟩
    · intro i found at_
      cases i with
      | zero => exact at_
      | succ i => exact same i found at_
    · intro moved start start' places
      have first : moved start' = start := places 0 (Nat.zero_lt_succ _)
      have later := drafted moved (start + 1) (start' + 1) fun i low => by
        rw [Nat.add_assoc, Nat.add_comm 1, places (i + 1) (Nat.succ_lt_succ low), behind]
        omega
      rw [draftsFrom, draftsFrom, later, ← first, operation.drafts_moved]
      simp only [Outcome.map_bind, Outcome.bind_map, Outcome.pure_eq, Outcome.map_ok,
        List.map_append]
  | @drop operation rest left drops _ ih =>
    obtain ⟨place, up, same, drafted⟩ := ih
    refine ⟨fun i => place i + 1, fun i j lt => Nat.succ_lt_succ (up lt), same, ?_⟩
    intro moved start start' places
    have later := drafted moved (start + 1) start' fun i low => by
      rw [places i low, Nat.add_assoc, Nat.add_comm 1]
    rw [draftsFrom, dropped operation drops, later, Outcome.ok_bind]
    cases draftsFrom v s start' left <;> rfl

end Transaction

/-! ### Outcomes -/

/-- A dense log has more facts than its greatest entity counts. -/
theorem Log.lt_length_of_about {fs : List Fact} {last : EntityId}
    (about : ∀ e ≤ last, Log.About fs e) : last < fs.length := by
  -- the numbers up to it are all among the entities, and no two of them are the same
  have within : List.range (last + 1) ⊆ fs.map Fact.entity := by
    intro e member
    obtain ⟨f, inside, rfl⟩ := about e (Nat.le_of_lt_succ (List.mem_range.mp member))
    exact List.mem_map_of_mem inside
  have fewer := (List.nodup_range.subperm within).length_le
  rwa [List.length_range, List.length_map] at fewer

namespace Database

open Transaction

variable {db : Database}

/-- A database has a next entity as long as it has no more facts than there are numbers. -/
theorem Reachable.exists_next (reachable : db.Reachable) (room : db.store.size ≤ maxEntityId) :
    ∃ tx, nextEntity db.store = .ok tx := by
  obtain ⟨fs, last, keeps, dense⟩ := reachable.invariant Log.invariant_dense
  obtain ⟨⟨f, member, rfl⟩, _⟩ := Log.lastEntity_eq_some.mp keeps.regular.greatest
  have fewer := Log.lt_length_of_about (dense.below f member)
  rw [keeps.holds.size_eq] at room
  refine ⟨f.entity + 1, nextEntity_eq_ok.mpr ⟨Nat.le_trans fewer room, ?_⟩⟩
  rw [keeps.holds.lastEntity_eq, keeps.regular.greatest]
  rfl

/-- A request that is taken apart into nothing leaves the database as it is. It succeeds as long as
there is a next entity. -/
theorem carryOut_of_drafts_nil {request : Form}
    (drafted : drafts db.vocabulary db.store request = .ok []) (now : Int64) :
    db.carryOut now request = ((nextEntity db.store).map fun tx => ⟨tx, [], 0⟩, db) := by
  rw [carryOut_eq, Store.transact, drafted, Outcome.ok_bind, commit]
  cases nextEntity db.store <;> rfl

/-- A request leaves the same database as one that is left of it when idle operations are taken out,
and its receipt or its fault is the same, but for how the entities are called that no operation
names. If nothing is left of it, it changes nothing, and succeeds as long as there are numbers. -/
theorem carryOut_thinned (reachable : db.Reachable) {fs : List Fact} (holds : db.store.Holds fs)
    (now : Int64) {request request' : Form} (thinned : request.Thinned db.vocabulary fs request') :
    (∃ place : Nat → Nat, StrictMono place ∧
      (∀ i operation, (operations request')[i]? = some operation →
        (operations request)[place i]? = some operation) ∧
      db.carryOut now request = ((db.carryOut now request').1.map (Receipt.moved place),
        (db.carryOut now request').2)) ∧
    (operations request' = [] → (db.carryOut now request).2 = db ∧
      (db.store.size ≤ maxEntityId →
        ∃ tx, (db.carryOut now request).1 = .ok ⟨tx, [], 0⟩)) := by
  have assertion : db.store.entityOf db.vocabulary.assertOperation = .ok assertion :=
    reachable.resolve_number rfl
  obtain ⟨place, up, same, drafted⟩ := draftsFrom_without
    (fun operation idle => idle.drafts_eq holds assertion) (operations_thinned thinned)
  -- the larger request is taken apart as the smaller one is, at the places that its operations had
  have moved : drafts db.vocabulary db.store request
      = (drafts db.vocabulary db.store request').map (List.map (Draft.moved place)) := by
    rw [drafts_eq, drafts_eq]
    exact drafted place 0 0 fun i _ => by rw [Nat.zero_add, Nat.zero_add]
  refine ⟨⟨place, up, same, ?_⟩, fun none => ?_⟩
  · rw [carryOut_eq, carryOut_eq, Store.transact_moved_eq up.injective moved]
    cases db.store.transact db.vocabulary now request' <;> rfl
  · have empty : drafts db.vocabulary db.store request = .ok [] := by
      rw [moved, drafts_eq, none]
      rfl
    rw [carryOut_of_drafts_nil empty]
    refine ⟨rfl, fun room => ?_⟩
    obtain ⟨tx, next⟩ := reachable.exists_next room
    exact ⟨tx, by rw [next]; rfl⟩

/-- The request that names two entities, between operations that are dropped. -/
def scatteredRequest : Form :=
  .map [
    (.keyword "tx-attribute", .list [.map [(.keyword "db/identity", .keyword "film/title")]]),
    (.keyword "tx-data", .list [
      .list [],
      .map [(.keyword "db/identity", .text "film")],
      .list [.keyword "db.operation/retract", .int 99999, .keyword "film/year", .text "1985"],
      .map [],
      .list [.keyword "db.operation/retract", .text "fresh", .keyword "film/year", .text "1985"],
      .map [(.keyword "db/identity", .text "person")]])]

/-- The request that only names the two entities. -/
def gatheredRequest : Form :=
  .map [
    (.keyword "tx-attribute", .list []),
    (.keyword "tx-data", .list [
      .map [(.keyword "db/identity", .text "film")],
      .map [(.keyword "db/identity", .text "person")]])]

/-- The scattered request is thinned to the gathered one where no fact is about the number that it
mentions. -/
theorem scatteredRequest_thinned {fs : List Fact} (unknown : ¬ Log.About fs 99999) :
    scatteredRequest.Thinned .standard fs gatheredRequest where
  declarations := by
    refine .items (fun _ _ => rfl) (.drop ⟨_, rfl, ?_⟩ .nil)
    exact .declaration (List.mem_cons_of_mem _ List.mem_cons_self) (by decide)
  data := by
    refine .items (by decide) (.drop ⟨_, rfl, .tuple (by decide)⟩ (.keep _ (.drop ⟨_, rfl, ?_⟩
      (.drop ⟨_, rfl, .entries⟩ (.drop ⟨_, rfl, ?_⟩ (.keep _ .nil))))))
    · exact .retraction rfl rfl (.existing (by decide) unknown) _ _
    · exact .retraction rfl rfl (.new _) _ _

/-- A new table gives the two entities the same numbers, whichever request names them. -/
theorem carryOut_thinned_scattered :
    ∃ db : Database, ∃ fs, db.Reachable ∧ db.store.Holds fs ∧
      scatteredRequest.Thinned db.vocabulary fs gatheredRequest ∧
      ∃ receipt place after, db.carryOut 5 gatheredRequest = (.ok receipt, after) ∧
        db.carryOut 5 scatteredRequest = (.ok (receipt.moved place), after) ∧
        receipt.given = [(.unnamed 0, 44), (.unnamed 1, 45)] := by
  have computed : ((ofStore (Store.empty .table) .standard ⟨"", 0, 0, 0⟩).toOption.bind fun db =>
      (db.carryOut 5 gatheredRequest).1.toOption.map fun receipt =>
        (receipt.given, (db.store.count 99999).toOption))
      = some ([(.unnamed 0, 44), (.unnamed 1, 45)], some 0) := by
    decide +kernel
  obtain ⟨db, opened, computed⟩ := Option.bind_eq_some_iff.mp computed
  obtain ⟨receipt, carried, shown⟩ := Option.map_eq_some_iff.mp computed
  obtain ⟨given, none⟩ := Prod.mk.inj shown
  have opened := Outcome.toOption_eq_some.mp opened
  have reachable : db.Reachable := reachable_of_opened opened
  obtain ⟨fs, _, keeps⟩ := reachable.keeps
  have unknown : ¬ Log.About fs 99999 := by
    have counted := keeps.holds.count_eq (e := 99999) (by decide)
    rw [← Log.count_pos, Nat.pos_iff_ne_zero, not_not]
    exact Except.ok.inj (counted.symm.trans (Outcome.toOption_eq_some.mp none))
  have thinned : scatteredRequest.Thinned db.vocabulary fs gatheredRequest := by
    rw [(ofStore_empty_eq_ok opened).2]
    exact scatteredRequest_thinned unknown
  obtain ⟨⟨place, _, _, same⟩, _⟩ := carryOut_thinned reachable keeps.holds 5 thinned
  have gathered : (db.carryOut 5 gatheredRequest).1 = .ok receipt :=
    Outcome.toOption_eq_some.mp carried
  refine ⟨db, fs, reachable, keeps.holds, thinned, receipt, place, _, Prod.ext gathered rfl, ?_,
    given⟩
  rw [same, gathered]
  rfl

end Database

end Factbase
