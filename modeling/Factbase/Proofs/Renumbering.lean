import Factbase.Proofs.Transaction

/-!
# Factbase.Proofs.Renumbering

What the place of an operation in its request decides. An operation that names no entity is about
one that is known by that place. Operations that stand at other places, in the same order and as
many as before, are taken apart alike but for these entities, and are committed alike.
-/

namespace Factbase

/-! ### Moving -/

/-- A placeholder as it is called when operations stand at other places. -/
def Placeholder.moved (place : Nat → Nat) : Placeholder → Placeholder
  | .token s => .token s
  | .unnamed operation => .unnamed (place operation)

theorem Placeholder.moved_injective {place : Nat → Nat} (apart : Function.Injective place) :
    Function.Injective (Placeholder.moved place) := by
  intro p q same
  cases p <;> cases q <;> simp_all [moved, apart.eq_iff]

def Subject.moved (place : Nat → Nat) : Subject → Subject
  | .existing e => .existing e
  | .new p => .new (p.moved place)

def Draft.moved (place : Nat → Nat) (d : Draft) : Draft :=
  { d with subject := d.subject.moved place }

def Receipt.moved (place : Nat → Nat) (receipt : Receipt) : Receipt :=
  { receipt with given := receipt.given.map fun (p, e) => (p.moved place, e) }

namespace Transaction

variable {v : Vocabulary} {s : Store} {place : Nat → Nat}

/-! ### Drafts -/

theorem draft_moved (subject : Subject) (op : EntityId) (attr : String)
    (value : Except Fault Value) :
    draft s (subject.moved place) op attr value
      = (draft s subject op attr value).map (Draft.moved place) := by
  unfold draft
  simp only [Outcome.map_bind]
  rfl

theorem optionalDraft_moved (subject : Subject) (op : EntityId) (form : Form) (key : String) :
    optionalDraft s (subject.moved place) op form key
      = (optionalDraft s subject op form key).map (List.map (Draft.moved place)) := by
  unfold optionalDraft
  split
  next value _ =>
    rw [draft_moved]
    cases draft s subject op key (valueOf value) <;> rfl
  next => rfl

theorem declare_moved (v : Vocabulary) (s : Store) (place : Nat → Nat) (number : Nat)
    (form : Form) :
    declare v s (place number) form
      = (declare v s number form).map (List.map (Draft.moved place)) := by
  have subject : Subject.new (.unnamed (place number))
      = (Subject.new (.unnamed number)).moved place :=
    rfl
  unfold declare
  split
  next identity kind cardinality _ _ _ =>
    cases identity.asName? with
    | none =>
      cases s.entityOf v.assertOperation <;> rfl
    | some name =>
      simp only [subject, draft_moved, optionalDraft_moved, Outcome.ok_bind, Outcome.map_bind,
        Outcome.bind_map, Outcome.pure_eq, Outcome.map_ok, List.map_cons, List.map_append]
  next => rfl

/-- A form refers to an entity by its number or by a token. -/
theorem subjectOf_cases {form : Form} {subject : Subject} (ok : subjectOf form = .ok subject) :
    (∃ e, subject = .existing e) ∨ ∃ token, subject = .new (.token token) := by
  cases form with
  | int n =>
    rw [subjectOf] at ok
    split at ok
    next e _ => exact .inl ⟨e, (Except.ok.inj ok).symm⟩
    next => cases ok
  | entity e => exact .inl ⟨e, (Except.ok.inj ok).symm⟩
  | text token => exact .inr ⟨token, (Except.ok.inj ok).symm⟩
  | keyword name => exact .inr ⟨":" ++ name, (Except.ok.inj ok).symm⟩
  | _ => cases ok

/-- What a form refers to is not known by a place. -/
theorem moved_of_subjectOf {form : Form} {subject : Subject} (ok : subjectOf form = .ok subject) :
    subject.moved place = subject := by
  obtain ⟨e, rfl⟩ | ⟨token, rfl⟩ := subjectOf_cases ok <;> rfl

theorem ofTuple_moved (place : Nat → Nat) (items : List Form) :
    (ofTuple v s items).map (List.map (Draft.moved place)) = ofTuple v s items := by
  unfold ofTuple
  split
  next operation entity attr told =>
    cases nameOf operation with
    | error fault => rfl
    | ok name =>
    cases about : subjectOf entity with
    | error fault => rfl
    | ok subject =>
    have kept : ∀ (attr : EntityId) (value : Value) (op : EntityId),
        Draft.moved place ⟨subject, attr, value, op⟩ = ⟨subject, attr, value, op⟩ := by
      intro attr value op
      rw [Draft.moved, moved_of_subjectOf about]
    -- a draft that is kept is about what the tuple refers to
    simp only [Outcome.ok_bind]
    split
    · cases hasFacts s subject with
      | error fault => rfl
      | ok keep =>
        cases keep with
        | false => rfl
        | true => simp [Outcome.map_bind, Outcome.map_ok, kept]
    · simp [Outcome.map_bind, Outcome.map_ok, kept]
  next => rfl

theorem moved_of_splitEntries {entries : List (Form × Form)} {subject : Subject}
    {others : List (String × Form)} (ok : splitEntries v entries = .ok (some subject, others)) :
    subject.moved place = subject := by
  induction entries generalizing subject others with
  | nil => cases ok
  | cons entry rest ih =>
    rw [splitEntries, Outcome.bind_eq_ok] at ok
    obtain ⟨name, _, ok⟩ := ok
    split at ok
    · simp only [Outcome.bind_eq_ok] at ok
      obtain ⟨first, about, ⟨later, _⟩, split_rest, ok⟩ := ok
      obtain ⟨same, _⟩ := Prod.mk.inj (Outcome.pure_eq_ok.mp ok)
      obtain rfl := Option.some.inj same
      cases later with
      | none => exact moved_of_subjectOf about
      | some subject => exact ih split_rest
    · simp only [Outcome.bind_eq_ok] at ok
      obtain ⟨⟨later, _⟩, split_rest, ok⟩ := ok
      obtain ⟨rfl, _⟩ := Prod.mk.inj (Outcome.pure_eq_ok.mp ok)
      exact ih split_rest

theorem ofEntries_moved (v : Vocabulary) (s : Store) (place : Nat → Nat) (number : Nat)
    (entries : List (Form × Form)) :
    ofEntries v s (place number) entries
      = (ofEntries v s number entries).map (List.map (Draft.moved place)) := by
  unfold ofEntries
  cases found : splitEntries v entries with
  | error fault => rfl
  | ok result =>
    obtain ⟨about, others⟩ := result
    have subject : about.getD (.new (.unnamed (place number)))
        = (about.getD (.new (.unnamed number))).moved place := by
      cases about with
      | none => rfl
      | some subject => exact (moved_of_splitEntries found).symm
    simp only [Outcome.ok_bind, Outcome.map_bind, subject, draft_moved, Outcome.mapM_map]

/-- What an operation is taken apart into at another place. -/
theorem Operation.drafts_moved (v : Vocabulary) (s : Store) (place : Nat → Nat) (number : Nat)
    (operation : Operation) :
    operation.drafts v s (place number)
      = (operation.drafts v s number).map (List.map (Draft.moved place)) := by
  cases operation with
  | declaration form => exact declare_moved v s place number form
  | tuple items => exact (ofTuple_moved place items).symm
  | entries es => exact ofEntries_moved v s place number es

/-- The drafts of operations that stand one after another from some place on. -/
def draftsFrom (v : Vocabulary) (s : Store) : Nat → List Operation → Except Fault (List Draft)
  | _, [] => .ok []
  | start, operation :: rest => do
    let first ← operation.drafts v s start
    let later ← draftsFrom v s (start + 1) rest
    return first ++ later

theorem draftsFrom_eq (v : Vocabulary) (s : Store) (start : Nat) (operations : List Operation) :
    draftsFrom v s start operations = (operations.zipIdx start).mapM (fun (operation, number) =>
      operation.drafts v s number) >>= fun parts => .ok parts.flatten := by
  induction operations generalizing start with
  | nil => rfl
  | cons operation rest ih =>
    rw [draftsFrom, List.zipIdx_cons, List.mapM_cons, ih]
    simp only [bind_assoc, Outcome.pure_eq, Outcome.ok_bind, List.flatten_cons]

theorem drafts_eq (v : Vocabulary) (s : Store) (request : Form) :
    drafts v s request = draftsFrom v s 0 (operations request) :=
  (draftsFrom_eq v s 0 (operations request)).symm

theorem draftsFrom_singleton (v : Vocabulary) (s : Store) (start : Nat) (operation : Operation) :
    draftsFrom v s start [operation] = operation.drafts v s start := by
  rw [draftsFrom, draftsFrom]
  cases operation.drafts v s start with
  | error fault => rfl
  | ok ds => exact congrArg Except.ok (List.append_nil ds)

theorem draftsFrom_append (v : Vocabulary) (s : Store) (start : Nat)
    (before after : List Operation) :
    draftsFrom v s start (before ++ after) = do
      let first ← draftsFrom v s start before
      let later ← draftsFrom v s (start + before.length) after
      return first ++ later := by
  induction before generalizing start with
  | nil => cases found : draftsFrom v s start after <;> simp [draftsFrom, found]
  | cons operation rest ih =>
    rw [List.cons_append, draftsFrom, draftsFrom, ih, List.length_cons, Nat.add_assoc,
      Nat.add_comm 1]
    simp only [bind_assoc, Outcome.pure_eq, Outcome.ok_bind, List.append_assoc]

/-- Operations that stand at other places are taken apart alike, but for the entities that are known
by these places. -/
theorem draftsFrom_moved {start start' : Nat} {operations : List Operation}
    (places : ∀ i < operations.length, place (start + i) = start' + i) :
    draftsFrom v s start' operations
      = (draftsFrom v s start operations).map (List.map (Draft.moved place)) := by
  induction operations generalizing start start' with
  | nil => rfl
  | cons operation rest ih =>
    have first : place start = start' := places 0 (Nat.zero_lt_succ _)
    have next : ∀ i < rest.length, place (start + 1 + i) = start' + 1 + i := by
      intro i low
      rw [Nat.add_assoc, Nat.add_comm 1, places (i + 1) (Nat.succ_lt_succ low), Nat.add_assoc,
        Nat.add_comm 1]
    have later := ih next
    rw [draftsFrom, draftsFrom, later, ← first, operation.drafts_moved]
    simp only [Outcome.map_bind, Outcome.bind_map, Outcome.pure_eq, Outcome.map_ok,
      List.map_append]

/-- Operations between others may be replaced by operations that are taken apart alike, if those
behind them are moved accordingly. -/
theorem draftsFrom_replaced {left middle middle' right : List Operation}
    (before : ∀ i < left.length, place i = i)
    (between : (draftsFrom v s left.length middle').toOption
      = (draftsFrom v s left.length middle).toOption.map (List.map (Draft.moved place)))
    (behind : ∀ i < right.length,
      place (left.length + middle.length + i) = left.length + middle'.length + i) :
    (draftsFrom v s 0 (left ++ middle' ++ right)).toOption
      = (draftsFrom v s 0 (left ++ middle ++ right)).toOption.map
          (List.map (Draft.moved place)) := by
  have first : draftsFrom v s 0 left
      = (draftsFrom v s 0 left).map (List.map (Draft.moved place)) :=
    draftsFrom_moved fun i low => by rw [Nat.zero_add, before i low]
  have last := draftsFrom_moved (v := v) (s := s) behind
  rw [List.append_assoc, List.append_assoc, draftsFrom_append, draftsFrom_append,
    draftsFrom_append, draftsFrom_append, Nat.zero_add, last]
  simp only [Outcome.toOption_bind, between]
  cases first_ok : draftsFrom v s 0 left with
  | error fault => rfl
  | ok ds =>
  rw [first_ok] at first
  have kept : ds = ds.map (Draft.moved place) := Except.ok.inj first
  cases draftsFrom v s left.length middle with
  | error fault => rfl
  | ok ds' =>
  cases draftsFrom v s (left.length + middle.length) right with
  | error fault => rfl
  | ok ds'' =>
    show some (ds ++ (ds'.map _ ++ ds''.map _)) = some ((ds ++ (ds' ++ ds'')).map _)
    rw [List.map_append, List.map_append, ← kept]

/-! ### Numbers -/

def Allocation.moved (place : Nat → Nat) (a : Allocation) : Allocation :=
  { a with given := a.given.map fun (p, e) => (p.moved place, e) }

section

variable (apart : Function.Injective place)

include apart

theorem lookup_moved (given : List (Placeholder × EntityId)) (p : Placeholder) :
    (given.map fun (q, e) => (q.moved place, e)).lookup (p.moved place) = given.lookup p := by
  induction given with
  | nil => rfl
  | cons entry rest ih =>
    obtain ⟨q, e⟩ := entry
    rw [List.map_cons, List.lookup_cons, List.lookup_cons, ih]
    have same : (p.moved place == q.moved place) = (p == q) := by
      rw [Bool.eq_iff_iff, beq_iff_eq, beq_iff_eq, (Placeholder.moved_injective apart).eq_iff]
    rw [same]

theorem number_moved (a : Allocation) (p : Placeholder) :
    (a.moved place).number (p.moved place)
      = (a.number p).map fun (e, a) => (e, a.moved place) := by
  have reserved : reserved? (p.moved place) = reserved? p := by cases p <;> rfl
  unfold Allocation.number
  rw [reserved]
  cases reserved? p with
  | some token => rfl
  | none =>
    have given : (a.moved place).given.lookup (p.moved place) = a.given.lookup p :=
      lookup_moved apart a.given p
    rw [given]
    cases a.given.lookup p with
    | some e => rfl
    | none =>
      show allocatable (a.last + 1) >>= _ = _
      cases allocatable (a.last + 1) with
      | error fault => rfl
      | ok e => simp [Allocation.moved, Outcome.map_ok]

theorem entity_moved (a : Allocation) (tx : EntityId) (subject : Subject) :
    (a.moved place).entity tx (subject.moved place)
      = (a.entity tx subject).map fun (e, a) => (e, a.moved place) := by
  cases subject with
  | existing e =>
    by_cases low : tx ≤ e <;> simp [Allocation.entity, Subject.moved, low, Except.map]
  | new p => exact number_moved apart a p

theorem settle_moved (tx : EntityId) (ds : List Draft) (a : Allocation) :
    settle tx (ds.map (Draft.moved place)) (a.moved place)
      = (settle tx ds a).map fun (facts, a) => (facts, a.moved place) := by
  induction ds generalizing a with
  | nil => rfl
  | cons d rest ih =>
    rw [List.map_cons, settle, settle]
    show (a.moved place).entity tx (d.subject.moved place) >>= _ = _
    rw [entity_moved apart, Outcome.bind_map, Outcome.map_bind]
    simp only [ih, Outcome.bind_map, Outcome.map_bind]
    rfl

/-- Drafts are committed alike, whatever the entities that no operation names are known by. -/
theorem commit_moved (v : Vocabulary) (now : Int64) (s : Store) (ds : List Draft) :
    commit v now s (ds.map (Draft.moved place))
      = (commit v now s ds).map fun (receipt, s) => (receipt.moved place, s) := by
  have empty : (ds.map (Draft.moved place)).isEmpty = ds.isEmpty := by cases ds <;> rfl
  have settled : ∀ tx, settle tx (ds.map (Draft.moved place)) ⟨tx, []⟩
      = (settle tx ds ⟨tx, []⟩).map fun (facts, a) => (facts, a.moved place) :=
    fun tx => settle_moved apart tx ds ⟨tx, []⟩
  unfold commit
  simp only [empty, settled, Outcome.map_bind]
  congr 1
  funext tx
  split
  · rfl
  · simp only [Outcome.map_bind, Outcome.bind_map, Outcome.pure_eq, Outcome.map_ok]
    rfl

end

end Transaction

/-- A request that is taken apart as another one is, or fails to be with the same fault, but for the
entities that no operation names, is carried out as that one is, or fails with the same fault. -/
theorem Store.transact_moved_eq {v : Vocabulary} {s : Store} {place : Nat → Nat}
    {request request' : Form} (apart : Function.Injective place)
    (drafted : Transaction.drafts v s request'
      = (Transaction.drafts v s request).map (List.map (Draft.moved place)))
    (now : Int64) :
    s.transact v now request'
      = (s.transact v now request).map fun (receipt, s) => (receipt.moved place, s) := by
  unfold Store.transact
  rw [drafted, Outcome.bind_map, Outcome.map_bind]
  simp only [Transaction.commit_moved apart]

/-- A request that is taken apart as another one is, but for the entities that no operation names,
is carried out as that one is. -/
theorem Store.transact_moved {v : Vocabulary} {s : Store} {place : Nat → Nat}
    {request request' : Form} (apart : Function.Injective place)
    (drafted : (Transaction.drafts v s request').toOption
      = (Transaction.drafts v s request).toOption.map (List.map (Draft.moved place)))
    (now : Int64) :
    (s.transact v now request').toOption
      = (s.transact v now request).toOption.map fun (receipt, s) => (receipt.moved place, s) := by
  unfold Store.transact
  simp only [Outcome.toOption_bind, drafted]
  cases (Transaction.drafts v s request).toOption with
  | none => rfl
  | some ds =>
    rw [Option.map_some, Option.bind_some, Option.bind_some, Transaction.commit_moved apart,
      Outcome.toOption_map]

end Factbase
