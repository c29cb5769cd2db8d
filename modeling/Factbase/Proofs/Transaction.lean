import Factbase.Proofs.Draft
import Factbase.Proofs.Holds
import Factbase.Transaction

/-!
# Factbase.Proofs.Transaction

What a transaction records. Each placeholder gets the next number where it is met first, so that
the numbers after the transaction's own go to the distinct placeholders in order, and every draft
becomes a fact about the entity it names.
-/

namespace Factbase

/-- The placeholder that a subject is, if it is one. -/
def Subject.placeholder? : Subject → Option Placeholder
  | .existing _ => none
  | .new p => some p

/-- A fact that a draft becomes under a transaction that gave placeholders these numbers. -/
structure Draft.Becomes (tx : EntityId) (given : List (Placeholder × EntityId)) (d : Draft)
    (f : Fact) : Prop where
  existing : ∀ e, d.subject = .existing e → f.entity = e ∧ e < tx
  new : ∀ p, d.subject = .new p → given.lookup p = some f.entity
  attr : f.attr = d.attr
  value : f.value = d.value
  tx : f.tx = tx
  op : f.op = d.op

namespace Transaction

/-- The placeholders of drafts, each as often as it occurs. -/
def placeholders (ds : List Draft) : List Placeholder :=
  ds.filterMap (·.subject.placeholder?)

/-- The distinct ones of some placeholders with the numbers that follow a transaction's own, in the
order in which they occur first. -/
def numbering (tx : EntityId) (ps : List Placeholder) : List (Placeholder × EntityId) :=
  ps.eraseDups.zipIdx (tx + 1)

/-- The allocation of a transaction after some placeholders were met. -/
def Allocation.met (tx : EntityId) (ps : List Placeholder) : Allocation :=
  ⟨tx + ps.eraseDups.length, numbering tx ps⟩

/-! ### Numbering -/

theorem eraseDups_snoc (ps : List Placeholder) (p : Placeholder) :
    (ps ++ [p]).eraseDups = if p ∈ ps then ps.eraseDups else ps.eraseDups ++ [p] := by
  rw [List.eraseDups_append]
  by_cases met : p ∈ ps <;> simp [List.removeAll, met, List.eraseDups_cons]

theorem nodup_eraseDups (ps : List Placeholder) : ps.eraseDups.Nodup := by
  induction ps using List.reverseRecOn with
  | nil => simp
  | append_singleton init p ih =>
    rw [eraseDups_snoc]
    split
    · exact ih
    next unmet =>
      apply List.nodup_append.mpr ⟨ih, List.nodup_singleton p, ?_⟩
      intro q member other same
      obtain rfl := List.mem_singleton.mp same
      rintro rfl
      exact unmet (List.mem_eraseDups.mp member)

theorem numbering_snoc (tx : EntityId) (ps : List Placeholder) (p : Placeholder) :
    numbering tx (ps ++ [p]) =
      if p ∈ ps then numbering tx ps
      else numbering tx ps ++ [(p, tx + ps.eraseDups.length + 1)] := by
  unfold numbering
  rw [eraseDups_snoc]
  split
  · rfl
  · rw [List.zipIdx_append, List.zipIdx_singleton, Nat.add_right_comm]

/-- Numbers that were given stay as more placeholders are met. -/
theorem numbering_grow {tx e : EntityId} {ps : List Placeholder} {p : Placeholder}
    (given : (numbering tx ps).lookup p = some e) (qs : List Placeholder) :
    (numbering tx (ps ++ qs)).lookup p = some e := by
  have grown : numbering tx ps <+: numbering tx (ps ++ qs) := by
    rw [numbering, numbering, List.eraseDups_append, List.zipIdx_append]
    exact List.prefix_append _ _
  exact grown.lookup_eq_some given

theorem lookup_numbering_eq_none {tx : EntityId} {ps : List Placeholder} {p : Placeholder} :
    (numbering tx ps).lookup p = none ↔ p ∉ ps := by
  have keys : p ∈ (numbering tx ps).map Prod.fst ↔ p ∈ ps := by
    rw [numbering, List.zipIdx_map_fst, List.mem_eraseDups]
  rw [List.lookup_eq_none_iff, ← keys, List.mem_map]
  constructor
  · rintro fresh ⟨entry, member, rfl⟩
    simpa using fresh entry member
  · intro absent entry member
    rw [bne_iff_ne]
    rintro rfl
    exact absent ⟨entry, member, rfl⟩

/-- The numbers given under a transaction lie above its own and go up to the last one given. -/
theorem numbering_bounds {tx e : EntityId} {ps : List Placeholder} {p : Placeholder}
    (given : (numbering tx ps).lookup p = some e) :
    tx < e ∧ e ≤ tx + ps.eraseDups.length := by
  have bounds := List.mem_zipIdx (Outcome.mem_of_lookup given)
  exact ⟨bounds.1, Nat.le_of_lt_succ (by simpa [Nat.add_right_comm] using bounds.2.1)⟩

/-- Every number from the one after the transaction's own up to the last one given belongs to a
placeholder. -/
theorem exists_numbered {tx e : EntityId} {ps : List Placeholder} (above : tx < e)
    (within : e ≤ tx + ps.eraseDups.length) : ∃ p ∈ ps, (numbering tx ps).lookup p = some e := by
  -- the last number given belongs to the last placeholder that was new
  induction ps using List.reverseRecOn with
  | nil => exact absurd above (Nat.not_lt.mpr (by simpa using within))
  | append_singleton init p ih =>
    by_cases met : p ∈ init
    · rw [eraseDups_snoc, if_pos met] at within
      obtain ⟨q, member, given⟩ := ih within
      exact ⟨q, List.mem_append_left [p] member, numbering_grow given [p]⟩
    · rw [eraseDups_snoc, if_neg met, List.length_append, List.length_singleton] at within
      rcases Nat.lt_or_eq_of_le within with earlier | rfl
      · obtain ⟨q, member, given⟩ := ih (Nat.le_of_lt_succ earlier)
        exact ⟨q, List.mem_append_left [p] member, numbering_grow given [p]⟩
      · refine ⟨p, by simp, ?_⟩
        rw [numbering_snoc, if_neg met, List.lookup_append,
          lookup_numbering_eq_none.mpr met]
        simp [Nat.add_assoc]

/-! ### Settling drafts -/

theorem allocatable_eq_ok {e d : EntityId} :
    allocatable e = .ok d ↔ e ≤ maxEntityId ∧ d = e := by
  by_cases fits : e ≤ maxEntityId <;> simp [allocatable, fits, eq_comm]

/-- A placeholder has its number from then on; it is the next one unless it was met before. -/
theorem number_met {tx e : EntityId} {ps : List Placeholder} {p : Placeholder} {a : Allocation}
    (ok : (Allocation.met tx ps).number p = .ok (e, a)) :
    a = .met tx (ps ++ [p]) ∧ a.given.lookup p = some e ∧
      ((Allocation.met tx ps).last ≤ maxEntityId → a.last ≤ maxEntityId) := by
  unfold Allocation.number at ok
  split at ok
  · cases ok
  · cases given : (numbering tx ps).lookup p with
    | some d =>
      rw [show (Allocation.met tx ps).given.lookup p = some d from given] at ok
      obtain ⟨rfl, rfl⟩ := Prod.mk.inj (Except.ok.inj ok)
      have met : p ∈ ps := by
        by_contra unmet
        rw [lookup_numbering_eq_none.mpr unmet] at given
        cases given
      refine ⟨?_, given, id⟩
      rw [Allocation.met, Allocation.met, numbering_snoc, eraseDups_snoc, if_pos met, if_pos met]
    | none =>
      -- a new placeholder takes the next number
      rw [show (Allocation.met tx ps).given.lookup p = none from given] at ok
      obtain ⟨next, allocated, ok⟩ := Outcome.bind_eq_ok.mp ok
      obtain ⟨fits, rfl⟩ := allocatable_eq_ok.mp allocated
      obtain ⟨rfl, rfl⟩ := Prod.mk.inj (Outcome.pure_eq_ok.mp ok)
      have unmet : p ∉ ps := lookup_numbering_eq_none.mp given
      refine ⟨?_, ?_, fun _ => fits⟩
      · rw [Allocation.met, Allocation.met, numbering_snoc, eraseDups_snoc, if_neg unmet,
          if_neg unmet, List.length_append, List.length_singleton, Nat.add_assoc]
      · show ((numbering tx ps) ++ [(p, _)]).lookup p = _
        rw [List.lookup_append, given]
        simp

/-- A subject is an entity below the transaction's own, or a placeholder with its number. -/
theorem entity_met {tx e : EntityId} {ps : List Placeholder} {subject : Subject} {a : Allocation}
    (ok : (Allocation.met tx ps).entity tx subject = .ok (e, a)) :
    a = .met tx (ps ++ subject.placeholder?.toList) ∧
      (∀ d, subject = .existing d → e = d ∧ d < tx) ∧
      (∀ p, subject = .new p → a.given.lookup p = some e) ∧
      ((Allocation.met tx ps).last ≤ maxEntityId → a.last ≤ maxEntityId) := by
  cases subject with
  | existing d =>
    unfold Allocation.entity at ok
    dsimp only at ok
    split at ok
    · cases ok
    next low =>
      obtain ⟨rfl, rfl⟩ := Prod.mk.inj (Except.ok.inj ok)
      refine ⟨by simp [Subject.placeholder?], ?_, ?_, id⟩
      · rintro d ⟨rfl⟩
        exact ⟨rfl, Nat.lt_of_not_le low⟩
      · intro p same
        cases same
  | new p =>
    obtain ⟨met, given, bound⟩ := number_met ok
    refine ⟨met, ?_, ?_, bound⟩
    · intro d same
      cases same
    · rintro q ⟨rfl⟩
      exact given

theorem becomes_grow {tx : EntityId} {ps : List Placeholder} {d : Draft} {f : Fact}
    (becomes : d.Becomes tx (numbering tx ps) f) (qs : List Placeholder) :
    d.Becomes tx (numbering tx (ps ++ qs)) f :=
  { becomes with new := fun p same => numbering_grow (becomes.new p same) qs }

/-- Settling drafts turns each of them into a fact; all their placeholders are met then. -/
theorem settle_met {tx : EntityId} {ds : List Draft} {ps : List Placeholder} {facts : List Fact}
    {a : Allocation} (ok : settle tx ds (.met tx ps) = .ok (facts, a)) :
    a = .met tx (ps ++ placeholders ds) ∧
      List.Forall₂ (Draft.Becomes tx a.given) ds facts ∧
      ((Allocation.met tx ps).last ≤ maxEntityId → a.last ≤ maxEntityId) := by
  -- the placeholders met so far grow with each draft, so the claim is about any of them
  induction ds generalizing ps facts a with
  | nil =>
    obtain ⟨rfl, rfl⟩ := Prod.mk.inj (Except.ok.inj ok)
    exact ⟨by simp [placeholders], .nil, id⟩
  | cons d rest ih =>
    simp only [settle, Outcome.bind_eq_ok] at ok
    obtain ⟨⟨e, first⟩, numbered, ⟨others, last⟩, settled, ok⟩ := ok
    obtain ⟨rfl, rfl⟩ := Prod.mk.inj (Outcome.pure_eq_ok.mp ok)
    obtain ⟨rfl, existing, new, bound⟩ := entity_met numbered
    obtain ⟨rfl, become, bounds⟩ := ih settled
    have all : ps ++ d.subject.placeholder?.toList ++ placeholders rest
        = ps ++ placeholders (d :: rest) := by
      rw [List.append_assoc, placeholders, placeholders, List.filterMap_cons]
      cases d.subject.placeholder? <;> rfl
    rw [all] at become bounds ⊢
    refine ⟨rfl, .cons ?_ become, bounds ∘ bound⟩
    -- the first draft has become a fact early on, and the later ones take nothing back
    have head : d.Becomes tx (numbering tx (ps ++ d.subject.placeholder?.toList))
        ⟨e, d.attr, d.value, tx, d.op⟩ := ⟨existing, new, rfl, rfl, rfl, rfl⟩
    exact all ▸ becomes_grow head (placeholders rest)

/-! ### Recording -/

/-- The next number is one more than the greatest, or one; there is none beyond the last one that
an entity can have. -/
theorem nextEntity_eq_ok {s : Store} {tx : EntityId} :
    nextEntity s = .ok tx ↔ tx ≤ maxEntityId ∧ tx = s.lastEntity.elim 1 (· + 1) := by
  unfold nextEntity
  cases s.lastEntity with
  | none =>
    simp only [Except.ok.injEq, Option.elim_none]
    constructor
    · rintro rfl
      exact ⟨by decide, rfl⟩
    · exact fun same => same.2.symm
  | some last =>
    rw [allocatable_eq_ok]
    simp only [Option.elim_some]
    constructor
    · rintro ⟨fits, rfl⟩
      exact ⟨fits, rfl⟩
    · rintro ⟨fits, rfl⟩
      exact ⟨fits, rfl⟩

/-- What a transaction reports and records for drafts: nothing if there are none, otherwise a fact
for each draft and a last one about the time. -/
inductive Effect (v : Vocabulary) (now : Int64) (s : Store) (ds : List Draft) (tx : EntityId) :
    Receipt → List Fact → Prop where
  | nothing (empty : ds = []) : Effect v now s ds tx ⟨tx, [], 0⟩ []
  | recorded {facts : List Fact} {timestamp op : EntityId} (some : ds ≠ [])
      (time : s.entityOf v.timestamp = .ok timestamp)
      (assertion : s.entityOf v.assertOperation = .ok op)
      (become : List.Forall₂ (Draft.Becomes tx (numbering tx (placeholders ds))) ds facts)
      (room : tx + (placeholders ds).eraseDups.length ≤ maxEntityId) :
      Effect v now s ds tx ⟨tx, numbering tx (placeholders ds), facts.length + 1⟩
        (facts ++ [⟨tx, timestamp, .int now, tx, op⟩])

theorem insertAll_nil (s : Store) : s.insertAll [] = .ok s := by
  cases s with
  | indexed s => rfl
  | table t => simp [Store.insertAll, Store.Table.insertAll, Store.ofStorage, Except.map]

/-- What a transaction reports, and the facts it writes to do so. -/
def outcome (v : Vocabulary) (now : Int64) (s : Store) (request : Form) :
    Except Fault (Receipt × List Fact) := do
  let ds ← drafts v s request
  let tx ← nextEntity s
  if ds.isEmpty then return (⟨tx, [], 0⟩, [])
  else
    let timestamp ← s.entityOf v.timestamp
    let op ← s.entityOf v.assertOperation
    let (facts, a) ← settle tx ds ⟨tx, []⟩
    let facts := facts ++ [⟨tx, timestamp, .int now, tx, op⟩]
    return (⟨tx, a.given, facts.length⟩, facts)

/-- What a transaction reports and writes depends on the drafts of its request, on the names that
the store knows and on its greatest entity. -/
theorem outcome_congr {v : Vocabulary} {s t : Store} {request : Form}
    (drafted : drafts v s request = drafts v t request) (last : s.lastEntity = t.lastEntity)
    (names : ∀ name, s.entityOf name = t.entityOf name) (now : Int64) :
    outcome v now s request = outcome v now t request := by
  unfold outcome nextEntity
  simp only [drafted, last, names]

theorem outcome_cases {v : Vocabulary} {now : Int64} {s : Store} {request : Form}
    {receipt : Receipt} {new : List Fact} (ok : outcome v now s request = .ok (receipt, new)) :
    ∃ ds tx, drafts v s request = .ok ds ∧ nextEntity s = .ok tx ∧
      Effect v now s ds tx receipt new := by
  simp only [outcome, Outcome.bind_eq_ok] at ok
  obtain ⟨ds, drafted, tx, next, ok⟩ := ok
  refine ⟨ds, tx, drafted, next, ?_⟩
  split at ok
  next empty =>
    obtain ⟨rfl, rfl⟩ := Prod.mk.inj (Outcome.pure_eq_ok.mp ok)
    exact .nothing (List.isEmpty_iff.mp empty)
  next some =>
    simp only [Outcome.bind_eq_ok] at ok
    obtain ⟨timestamp, time, op, assertion, ⟨facts, a⟩, settled, ok⟩ := ok
    obtain ⟨rfl, rfl⟩ := Prod.mk.inj (Outcome.pure_eq_ok.mp ok)
    -- without placeholders, the last number is the transaction's own
    have fits : (Allocation.met tx []).last ≤ maxEntityId := (nextEntity_eq_ok.mp next).1
    have from_nothing : settle tx ds (.met tx []) = .ok (facts, a) := settled
    obtain ⟨rfl, become, room⟩ := settle_met from_nothing
    rw [List.length_append, List.length_singleton]
    exact .recorded (fun empty => some (List.isEmpty_iff.mpr empty)) time assertion become
      (room fits)

end Transaction

/-- Carrying out a request is finding out what it writes, and writing it. -/
theorem Store.transact_eq (s : Store) (v : Vocabulary) (now : Int64) (request : Form) :
    s.transact v now request = do
      let (receipt, new) ← Transaction.outcome v now s request
      let s ← s.insertAll new
      return (receipt, s) := by
  unfold Store.transact Transaction.outcome Transaction.commit
  cases Transaction.drafts v s request with
  | error fault => rfl
  | ok ds =>
  cases Transaction.nextEntity s with
  | error fault => rfl
  | ok tx =>
  simp only [Outcome.ok_bind]
  split
  · simp only [Outcome.pure_eq, Outcome.ok_bind, Transaction.insertAll_nil]
  · cases s.entityOf v.timestamp with
    | error fault => rfl
    | ok timestamp =>
    cases s.entityOf v.assertOperation with
    | error fault => rfl
    | ok op =>
    cases Transaction.settle tx ds ⟨tx, []⟩ <;> rfl

/-- A request that succeeds is taken apart into drafts, gets the next number and adds the facts of
its drafts to the store. -/
theorem Store.transact_cases {v : Vocabulary} {now : Int64} {s s' : Store} {request : Form}
    {receipt : Receipt} (ok : s.transact v now request = .ok (receipt, s')) :
    ∃ ds tx new, Transaction.drafts v s request = .ok ds ∧ Transaction.nextEntity s = .ok tx ∧
      Transaction.Effect v now s ds tx receipt new ∧ s.insertAll new = .ok s' := by
  rw [Store.transact_eq, Outcome.bind_eq_ok] at ok
  obtain ⟨⟨made, new⟩, found, ok⟩ := ok
  obtain ⟨kept, written, ok⟩ := Outcome.bind_eq_ok.mp ok
  obtain ⟨rfl, rfl⟩ := Prod.mk.inj (Outcome.pure_eq_ok.mp ok)
  obtain ⟨ds, tx, drafted, next, effect⟩ := Transaction.outcome_cases found
  exact ⟨ds, tx, new, drafted, next, effect, written⟩

namespace Transaction.Effect

variable {v : Vocabulary} {now : Int64} {s : Store} {ds : List Draft} {tx : EntityId}
  {receipt : Receipt} {new : List Fact}

theorem receipt_tx (effect : Effect v now s ds tx receipt new) : receipt.tx = tx := by
  cases effect <;> rfl

theorem receipt_count (effect : Effect v now s ds tx receipt new) :
    receipt.count = new.length := by
  cases effect with
  | nothing => rfl
  | recorded => rw [List.length_append, List.length_singleton]

theorem receipt_given (effect : Effect v now s ds tx receipt new) :
    receipt.given = numbering tx (placeholders ds) := by
  cases effect with
  | nothing empty =>
    subst empty
    rfl
  | recorded => rfl

/-- Every draft becomes a fact. -/
theorem exists_fact (effect : Effect v now s ds tx receipt new) {d : Draft} (member : d ∈ ds) :
    ∃ f ∈ new, d.Becomes tx (numbering tx (placeholders ds)) f := by
  cases effect with
  | nothing empty =>
    subst empty
    cases member
  | recorded _ _ _ become _ =>
    obtain ⟨f, inside, becomes⟩ := Outcome.exists_right_of_mem become member
    exact ⟨f, List.mem_append_left _ inside, becomes⟩

/-- Each fact that is recorded comes from a draft or is the one about the time. -/
theorem cases_mem (effect : Effect v now s ds tx receipt new) {f : Fact} (member : f ∈ new) :
    (∃ d ∈ ds, d.Becomes tx (numbering tx (placeholders ds)) f) ∨
      (f.entity = tx ∧ s.entityOf v.timestamp = .ok f.attr ∧ f.value = .int now ∧ f.tx = tx ∧
        s.entityOf v.assertOperation = .ok f.op) := by
  cases effect with
  | nothing => cases member
  | recorded _ time assertion become _ =>
    rcases List.mem_append.mp member with drafted | timed
    · obtain ⟨d, d_member, becomes⟩ := Outcome.exists_left_of_mem become drafted
      exact .inl ⟨d, d_member, becomes⟩
    · obtain rfl := List.mem_singleton.mp timed
      exact .inr ⟨rfl, time, rfl, rfl, assertion⟩

theorem tx_eq (effect : Effect v now s ds tx receipt new) {f : Fact} (member : f ∈ new) :
    f.tx = tx := by
  rcases effect.cases_mem member with ⟨d, _, becomes⟩ | timed
  · exact becomes.tx
  · exact timed.2.2.2.1

end Transaction.Effect

end Factbase
