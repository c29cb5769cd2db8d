import Factbase.Proofs.Transaction

/-!
# Factbase.Proofs.Regular

What the log of a database is like at any time. `Log.Regular` says that no transaction has a
greater number than the greatest entity, and that every attribute in use has a name. A transaction
keeps a log so; its own number is greater than every number before it.
-/

namespace Factbase

namespace Log

/-- A log whose greatest entity is `last`, as databases keep it. -/
structure Regular (fs : List Fact) (last : EntityId) : Prop where
  greatest : lastEntity fs = some last
  tx_le : ∀ f ∈ fs, f.tx ≤ last
  last_le : last ≤ maxEntityId
  named : ∀ f ∈ fs, (nameOf fs f.attr).isSome

theorem Regular.entity_le {fs : List Fact} {last : EntityId} (regular : Regular fs last) :
    ∀ f ∈ fs, f.entity ≤ last :=
  (lastEntity_eq_some.mp regular.greatest).2

end Log

/-! ### Names in use -/

/-- An entity that a store finds by a name has a name, and keeps it. -/
theorem Store.Holds.isSome_nameOf {s : Store} {fs : List Fact} (holds : s.Holds fs)
    {name : String} {e : EntityId} (found : s.entityOf name = .ok e) :
    (Log.nameOf fs e).isSome := by
  obtain ⟨f, member, same, named⟩ := Log.mem_of_entityOf (holds.entityOf_eq_ok.mp found)
  exact Log.nameOf_isSome.mpr ⟨f, member, same, named ▸ rfl⟩

namespace Transaction.Effect

variable {v : Vocabulary} {now : Int64} {s : Store} {request : Form} {ds : List Draft}
  {tx : EntityId} {receipt : Receipt} {fs new : List Fact}

theorem named (effect : Effect v now s ds tx receipt new) (holds : s.Holds fs)
    (drafted : drafts v s request = .ok ds) :
    ∀ f ∈ new, (Log.nameOf fs f.attr).isSome := by
  intro f member
  rcases effect.cases_mem member with ⟨d, d_member, becomes⟩ | ⟨_, time, _⟩
  · obtain ⟨name, found⟩ := (drafts_drawn drafted d d_member).attr
    rw [becomes.attr]
    exact holds.isSome_nameOf found
  · exact holds.isSome_nameOf time

/-! ### Greatest numbers -/

/-- A fact of a draft is about an older entity, or about one that got its number from a
placeholder. -/
theorem entity_cases {d : Draft} {f : Fact} {ps : List Placeholder}
    (becomes : d.Becomes tx (numbering tx ps) f) :
    f.entity < tx ∨ tx < f.entity ∧ f.entity ≤ tx + ps.eraseDups.length := by
  cases subject : d.subject with
  | existing e =>
    obtain ⟨same, low⟩ := becomes.existing e subject
    exact .inl (same ▸ low)
  | new p => exact .inr (numbering_bounds (becomes.new p subject))

/-- The last fact of a transaction is about the transaction. -/
theorem exists_time (effect : Effect v now s ds tx receipt new) (some : ds ≠ []) :
    ∃ f ∈ new, f.entity = tx ∧ f.tx = tx := by
  cases effect with
  | nothing empty => exact absurd empty some
  | @recorded facts timestamp op _ time assertion become room =>
    exact ⟨⟨tx, timestamp, .int now, tx, op⟩, by simp, rfl, rfl⟩

/-- Every number that a transaction gave belongs to a placeholder, which stands in a draft, so there
is a fact about it. -/
theorem exists_given (effect : Effect v now s ds tx receipt new) {e : EntityId} (above : tx < e)
    (within : e ≤ tx + (placeholders ds).eraseDups.length) : ∃ f ∈ new, f.entity = e := by
  obtain ⟨p, met, given⟩ := exists_numbered above within
  obtain ⟨d, d_member, subject⟩ := List.mem_filterMap.mp met
  obtain ⟨f, member, becomes⟩ := effect.exists_fact d_member
  have new : d.subject = .new p := by
    cases about : d.subject <;> simp_all [Subject.placeholder?]
  exact ⟨f, member, Option.some.inj ((becomes.new p new).symm.trans given)⟩

/-- The greatest entity after a transaction is the last one that it gave a number, which is its own
if it gave no other. -/
theorem lastEntity_eq (effect : Effect v now s ds tx receipt new) (some : ds ≠ [])
    (low : ∀ f ∈ fs, f.entity < tx) :
    Log.lastEntity (fs ++ new) = .some (tx + (placeholders ds).eraseDups.length) := by
  rw [Log.lastEntity_eq_some]
  constructor
  · rcases Nat.eq_zero_or_pos (placeholders ds).eraseDups.length with none | more
    · obtain ⟨f, member, about, _⟩ := effect.exists_time some
      exact ⟨f, List.mem_append_right fs member, by rw [about, none, Nat.add_zero]⟩
    · obtain ⟨f, member, about⟩ := effect.exists_given (Nat.lt_add_of_pos_right more) le_rfl
      exact ⟨f, List.mem_append_right fs member, about⟩
  · -- nothing lies above it: neither old facts, nor those of drafts, nor the one about the time
    intro f member
    rcases List.mem_append.mp member with old | recorded
    · exact Nat.le_trans (Nat.le_of_lt (low f old)) (Nat.le_add_right ..)
    · rcases effect.cases_mem recorded with ⟨d, _, becomes⟩ | timed
      · rcases entity_cases becomes with older | ⟨_, within⟩
        · exact Nat.le_trans (Nat.le_of_lt older) (Nat.le_add_right ..)
        · exact within
      · exact timed.1 ▸ Nat.le_add_right ..

theorem lastTx_eq (effect : Effect v now s ds tx receipt new) (some : ds ≠ [])
    (low : ∀ f ∈ fs, f.tx < tx) : Log.lastTx (fs ++ new) = .some tx := by
  rw [Log.lastTx_eq_some]
  constructor
  · obtain ⟨f, member, _, timed⟩ := effect.exists_time some
    exact ⟨f, List.mem_append_right fs member, timed⟩
  · intro f member
    rcases List.mem_append.mp member with old | recorded
    · exact Nat.le_of_lt (low f old)
    · exact Nat.le_of_eq (effect.tx_eq recorded)

end Transaction.Effect

namespace Log.Regular

variable {v : Vocabulary} {now : Int64} {s : Store} {request : Form} {ds : List Draft}
  {tx last : EntityId} {receipt : Receipt} {fs new : List Fact}

/-- On a regular log the next transaction is numbered one above the greatest entity. -/
theorem next_eq (regular : Regular fs last) (holds : s.Holds fs)
    (next : Transaction.nextEntity s = .ok tx) : tx = last + 1 := by
  rw [Transaction.nextEntity_eq_ok, holds.lastEntity_eq, regular.greatest] at next
  exact next.2

/-- A transaction keeps a log regular. -/
theorem step (regular : Regular fs last) (holds : s.Holds fs)
    (drafted : Transaction.drafts v s request = .ok ds)
    (next : Transaction.nextEntity s = .ok tx)
    (effect : Transaction.Effect v now s ds tx receipt new) :
    ∃ last', last ≤ last' ∧ Regular (fs ++ new) last' := by
  obtain rfl := regular.next_eq holds next
  by_cases empty : ds = []
  · cases effect with
    | nothing => exact ⟨last, le_rfl, by rwa [List.append_nil]⟩
    | recorded some => exact absurd empty some
  · have low_entity : ∀ f ∈ fs, f.entity < last + 1 := fun f member =>
      Nat.lt_succ_of_le (regular.entity_le f member)
    have low_tx : ∀ f ∈ fs, f.tx < last + 1 := fun f member =>
      Nat.lt_succ_of_le (regular.tx_le f member)
    -- the greatest entity from now on is the last one that was given a number
    refine ⟨last + 1 + (Transaction.placeholders ds).eraseDups.length, ?_, ?_, ?_, ?_, ?_⟩
    · exact Nat.le_trans (Nat.le_succ last) (Nat.le_add_right ..)
    · exact effect.lastEntity_eq empty low_entity
    · intro f member
      have last_tx := (Log.lastTx_eq_some.mp (effect.lastTx_eq empty low_tx)).2 f member
      exact Nat.le_trans last_tx (Nat.le_add_right ..)
    · cases effect with
      | nothing none => exact absurd none empty
      | recorded _ _ _ _ room => exact room
    · intro f member
      -- an attribute in use was named before the transaction and keeps its name
      have attr_named : (Log.nameOf fs f.attr).isSome := by
        rcases List.mem_append.mp member with old | recorded
        · exact regular.named f old
        · exact effect.named holds drafted f recorded
      rw [nameOf_grow attr_named new]
      exact attr_named

end Log.Regular

end Factbase
