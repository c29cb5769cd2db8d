import Factbase.Proofs.Run

/-!
# Factbase.Proofs.History

Where the facts of a run come from. The requests that succeed are the steps of a run. Each of them is
taken apart on the database that it finds, and the log of the run is the log at its start with the
facts of its steps behind it, one step after another.
-/

namespace Factbase

/-- A reply that tells of recorded facts is a receipt. -/
theorem Reply.exists_receipt {reply : Reply} (effect : reply.effect?.isSome) :
    ∃ receipt, reply = .transacted (.ok receipt) := by
  unfold effect? at effect
  split at effect
  next receipt => exact ⟨receipt, rfl⟩
  next => cases effect

/-- The next transaction has a greater number than any entity that facts are about. -/
theorem Store.Holds.entity_lt_next {s : Store} {fs : List Fact} (holds : s.Holds fs) {tx : EntityId}
    (next : Transaction.nextEntity s = .ok tx) : ∀ f ∈ fs, f.entity < tx := by
  intro f member
  obtain ⟨_, number⟩ := Transaction.nextEntity_eq_ok.mp next
  rw [holds.lastEntity_eq] at number
  cases greatest : Log.lastEntity fs with
  | none =>
    have empty : fs = [] := by simpa [Log.lastEntity] using greatest
    simp [empty] at member
  | some last =>
    have bound : f.entity ≤ last := (Log.lastEntity_eq_some.mp greatest).2 f member
    rw [number, greatest]
    exact Nat.lt_succ_of_le bound

namespace Database

/-- A request that a database has carried out. -/
structure Step where
  before : Database
  now : Int64
  request : Form
  receipt : Receipt

/-- The step that a call takes, if it is a request that succeeds. -/
def step? (db : Database) : Call → Option Step
  | .transact now request =>
    match (db.carryOut now request).1 with
    | .ok receipt => some ⟨db, now, request, receipt⟩
    | .error _ => none
  | .query _ _ _ => none

/-- The steps of a run, in their order. -/
def steps (db : Database) : List Call → List Step
  | [] => []
  | c :: rest => (db.step? c).toList ++ (db.call c).2.steps rest

/-- The facts that a step records: those of the drafts of its request, and one about the time. -/
def Step.Records (step : Step) (new : List Fact) : Prop :=
  ∃ ds, Transaction.drafts step.before.vocabulary step.before.store step.request = .ok ds ∧
    Transaction.Effect step.before.vocabulary step.now step.before.store ds step.receipt.tx
      step.receipt new

variable {db : Database} {fs : List Fact}

@[simp] theorem steps_nil (db : Database) : db.steps [] = [] := rfl

@[simp] theorem steps_cons (db : Database) (c : Call) (rest : List Call) :
    db.steps (c :: rest) = (db.step? c).toList ++ (db.call c).2.steps rest := rfl

/-- A call leaves the database as it is, or it is a step: its facts come behind the log, under a
number above those of all entities there. -/
theorem call_cases (holds : db.store.Holds fs) (c : Call) :
    (db.step? c = none ∧ (db.call c).2 = db) ∨
      ∃ step new, db.step? c = some step ∧ step.before = db ∧ step.Records new ∧
        (∀ f ∈ fs, f.entity < step.receipt.tx) ∧ (db.call c).2.store.Holds (fs ++ new) := by
  -- a query, or a request that fails, is no step
  cases c with
  | query q asOf params => exact .inl ⟨rfl, rfl⟩
  | transact now request =>
    simp only [step?, call, carryOut_eq]
    cases done : db.store.transact db.vocabulary now request with
    | error fault => exact .inl ⟨rfl, rfl⟩
    | ok result =>
      obtain ⟨ds, tx, new, drafted, next, effect, written⟩ := Store.transact_cases done
      obtain rfl : result.1.tx = tx := effect.receipt_tx
      exact .inr ⟨⟨db, now, request, result.1⟩, new, rfl, rfl, ⟨ds, drafted, effect⟩,
        holds.entity_lt_next next, holds.insertAll written⟩

theorem before_of_step? {c : Call} {step : Step} (taken : db.step? c = some step) :
    step.before = db := by
  cases c with
  | query q asOf params => cases taken
  | transact now request =>
    unfold step? at taken
    dsimp only at taken
    split at taken
    · obtain rfl := Option.some.inj taken
      rfl
    · cases taken

/-- A step of a run finds what the calls before it have made. -/
theorem before_of_mem_steps {calls : List Call} {step : Step} (member : step ∈ db.steps calls) :
    ∃ earlier, earlier <+: calls ∧ step.before = db.run earlier := by
  -- a later step starts from what the first call has left, so the claim is about any database
  induction calls generalizing db with
  | nil => cases member
  | cons c rest ih =>
    rcases List.mem_append.mp member with taken | later
    · exact ⟨[], List.nil_prefix, before_of_step? (Option.mem_toList.mp taken)⟩
    · obtain ⟨earlier, part, same⟩ := ih later
      exact ⟨c :: earlier, (List.prefix_cons_inj c).mpr part, same⟩

/-- The log of a run is the log at its start with the facts of each step behind it. -/
theorem run_records (holds : db.store.Holds fs) (calls : List Call) :
    ∃ parts, List.Forall₂ Step.Records (db.steps calls) parts ∧
      (db.run calls).store.Holds (fs ++ parts.flatten) := by
  -- each call starts from the log that the ones before it have left
  induction calls generalizing db fs with
  | nil => exact ⟨[], .nil, by simpa using holds⟩
  | cons c rest ih =>
    rcases call_cases holds c with ⟨none, same⟩ | ⟨step, new, taken, _, records, _, called⟩
    · simpa [none, same] using ih holds
    · obtain ⟨parts, others, ran⟩ := ih called
      refine ⟨new :: parts, ?_, by simpa using ran⟩
      simpa [taken] using ⟨records, others⟩

/-- A fact that was added by a run belongs to one of its steps. -/
theorem exists_step_of_mem {taken : List Step} {parts : List (List Fact)}
    (records : List.Forall₂ Step.Records taken parts) {f : Fact} (member : f ∈ parts.flatten) :
    ∃ step ∈ taken, ∃ new, step.Records new ∧ f ∈ new := by
  obtain ⟨new, among, inside⟩ := List.mem_flatten.mp member
  obtain ⟨step, step_member, recorded⟩ := Outcome.exists_left_of_mem records among
  exact ⟨step, step_member, new, recorded, inside⟩

end Database

end Factbase
