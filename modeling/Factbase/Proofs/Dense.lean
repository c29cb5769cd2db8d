import Factbase.Proofs.Run

/-!
# Factbase.Proofs.Dense

Numbers without gaps. In the log of a database every number up to the greatest entity is an entity,
and nothing else serves as attribute, transaction or operation. Two tests tell whether an entity
exists: a retraction asks for facts about it, and a transaction compares its number with its own.
Since there are no gaps, they agree.
-/

namespace Factbase

namespace Log

/-- A log has a fact about an entity. -/
def About (fs : List Fact) (e : EntityId) : Prop := ∃ f ∈ fs, f.entity = e

/-- A log with facts about every number below that of an entity, and about every attribute,
transaction and operation, in which transactions come in the order of their numbers. -/
structure Dense (fs : List Fact) : Prop where
  below : ∀ f ∈ fs, ∀ e ≤ f.entity, About fs e
  attr : ∀ f ∈ fs, About fs f.attr
  tx : ∀ f ∈ fs, About fs f.tx
  op : ∀ f ∈ fs, About fs f.op
  ordered : fs.Pairwise fun f g => f.tx ≤ g.tx

theorem About.grow {fs : List Fact} {e : EntityId} (about : About fs e) (gs : List Fact) :
    About (fs ++ gs) e := by
  obtain ⟨f, member, same⟩ := about
  exact ⟨f, List.mem_append_left gs member, same⟩

theorem About.later {gs : List Fact} {e : EntityId} (about : About gs e) (fs : List Fact) :
    About (fs ++ gs) e := by
  obtain ⟨f, member, same⟩ := about
  exact ⟨f, List.mem_append_right fs member, same⟩

theorem count_pos {fs : List Fact} {e : EntityId} : 0 < count fs e ↔ About fs e := by
  simp [count, About, List.countP_pos_iff]

end Log

/-- A store finds names only for what it has facts about. -/
theorem Store.Holds.about_of_entityOf {s : Store} {fs : List Fact} (holds : s.Holds fs)
    {name : String} {e : EntityId} (found : s.entityOf name = .ok e) : Log.About fs e := by
  obtain ⟨f, member, same, _⟩ := Log.mem_of_entityOf (holds.entityOf_eq_ok.mp found)
  exact ⟨f, member, same⟩

/-! ### The first transaction -/

theorem Schema.Founds.about {names : List String} {facts : List Fact} (founds : Founds names facts)
    {e : EntityId} (within : e ≤ names.length) : Log.About facts e := by
  rcases Nat.lt_or_eq_of_le within with low | rfl
  · obtain ⟨f, member, same, _⟩ := Log.nameOf_isSome.mp (founds.named e low)
    exact ⟨f, member, same⟩
  · exact founds.last

theorem Schema.Founds.dense {names : List String} {facts : List Fact}
    (founds : Founds names facts) : Log.Dense facts where
  below f member e le := founds.about (Nat.le_trans le (founds.entity_le f member))
  attr f member := founds.about (Nat.le_of_lt (founds.attr_lt f member))
  tx f member := founds.about (Nat.le_of_eq (founds.tx_eq f member))
  op f member := founds.about (Nat.le_of_lt (founds.op_lt f member))
  ordered := by
    apply List.pairwise_of_forall_mem_list
    intro f f_member g g_member
    exact Nat.le_of_eq ((founds.tx_eq f f_member).trans (founds.tx_eq g g_member).symm)

/-! ### Later transactions -/

namespace Transaction.Effect

variable {v : Vocabulary} {now : Int64} {s : Store} {request : Form} {ds : List Draft}
  {receipt : Receipt} {fs new : List Fact} {last : EntityId}

/-- Whatever a transaction makes facts about was there before, is the transaction itself, or got its
number in it; so it leaves no gap. -/
theorem about_below (effect : Effect v now s ds (last + 1) receipt new) (some : ds ≠ [])
    (old : ∀ e ≤ last, Log.About fs e) {e : EntityId}
    (within : e ≤ last + 1 + (placeholders ds).eraseDups.length) : Log.About (fs ++ new) e := by
  rcases Nat.lt_trichotomy e (last + 1) with older | rfl | given
  · exact (old e (Nat.le_of_lt_succ older)).grow new
  · obtain ⟨f, member, same, _⟩ := effect.exists_time some
    exact Log.About.later ⟨f, member, same⟩ fs
  · exact Log.About.later (effect.exists_given given within) fs

theorem dense (effect : Effect v now s ds (last + 1) receipt new)
    (drafted : drafts v s request = .ok ds) (keeps : s.Keeps fs last) (dense : Log.Dense fs) :
    Log.Dense (fs ++ new) := by
  by_cases empty : ds = []
  · cases effect with
    | nothing => rwa [List.append_nil]
    | recorded some => exact absurd empty some
  have below_last : ∀ e ≤ last, Log.About fs e := by
    obtain ⟨⟨f, member, rfl⟩, _⟩ := Log.lastEntity_eq_some.mp keeps.regular.greatest
    exact dense.below f member
  have below := fun {e} => effect.about_below empty below_last (e := e)
  have named : ∀ {e}, (∃ name, s.entityOf name = .ok e) → Log.About (fs ++ new) e :=
    fun ⟨_, found⟩ => (keeps.holds.about_of_entityOf found).grow new
  constructor
  · -- no number above the greatest entity has to be accounted for
    intro f member e le
    apply below
    have greatest := effect.lastEntity_eq empty fun g g_member =>
      Nat.lt_succ_of_le (keeps.regular.entity_le g g_member)
    exact Nat.le_trans le ((Log.lastEntity_eq_some.mp greatest).2 f member)
  · -- attributes had a name before, be it one of the request or the one of the time
    intro f member
    rcases List.mem_append.mp member with old | recorded
    · exact (dense.attr f old).grow new
    · rcases effect.cases_mem recorded with ⟨d, d_member, becomes⟩ | ⟨_, time, _⟩
      · exact becomes.attr ▸ named (drafts_drawn drafted d d_member).attr
      · exact named ⟨_, time⟩
  · -- the transaction is the entity that its time is told about
    intro f member
    rcases List.mem_append.mp member with old | recorded
    · exact (dense.tx f old).grow new
    · rw [effect.tx_eq recorded]
      exact below (Nat.le_add_right ..)
  · intro f member
    rcases List.mem_append.mp member with old | recorded
    · exact (dense.op f old).grow new
    · rcases effect.cases_mem recorded with ⟨d, d_member, becomes⟩ | ⟨_, _, _, _, assertion⟩
      · exact becomes.op ▸ named (drafts_drawn drafted d d_member).op
      · exact named ⟨_, assertion⟩
  · -- what is new belongs to one transaction, above all earlier ones
    refine List.pairwise_append.mpr ⟨dense.ordered, ?_, ?_⟩
    · apply List.pairwise_of_forall_mem_list
      intro f f_member g g_member
      exact Nat.le_of_eq ((effect.tx_eq f_member).trans (effect.tx_eq g_member).symm)
    · intro f f_member g g_member
      rw [effect.tx_eq g_member]
      exact Nat.le_succ_of_le (keeps.regular.tx_le f f_member)

end Transaction.Effect

theorem Log.invariant_dense : Log.Invariant fun _ => Log.Dense where
  first ok := (Schema.firstFacts_founds ok).dense
  step keeps dense drafted effect := effect.dense drafted keeps dense

/-! ### Databases -/

namespace Database

/-- What the numbers of a database are like whose log has `last` for its greatest entity. -/
structure Gapless (db : Database) (fs : List Fact) (last : EntityId) : Prop where
  holds : db.store.Holds fs
  greatest : db.store.lastEntity = some last
  next : Transaction.nextEntity db.store = Transaction.allocatable (last + 1)
  about : ∀ e ≤ last, Log.About fs e
  within : ∀ f ∈ fs, f.entity ≤ last ∧ f.attr ≤ last ∧ f.tx ≤ last ∧ f.op ≤ last
  ordered : fs.Pairwise fun f g => f.tx ≤ g.tx
  count : ∀ e ≤ maxEntityId, ∃ n, db.store.count e = .ok n ∧ (0 < n ↔ e < last + 1)
  /-- A retraction is about an entity that exists exactly when the next transaction would take the
  number of that entity for one given before. -/
  agree : ∀ tx, Transaction.nextEntity db.store = .ok tx → ∀ e ≤ maxEntityId,
    Transaction.hasFacts db.store (.existing e) = .ok (decide (e < tx)) ∧
    ∀ a : Transaction.Allocation,
      (∃ settled, a.entity tx (.existing e) = .ok settled) ↔ e < tx

/-- A database numbers its entities without gaps at any time of its life. -/
theorem reachable_gapless {db : Database} (reachable : db.Reachable) :
    ∃ fs last, db.Gapless fs last := by
  obtain ⟨fs, last, keeps, dense⟩ := reachable.invariant Log.invariant_dense
  have greatest : db.store.lastEntity = some last := by
    rw [keeps.holds.lastEntity_eq, keeps.regular.greatest]
  have about : ∀ e ≤ last, Log.About fs e := by
    obtain ⟨⟨f, member, rfl⟩, _⟩ := Log.lastEntity_eq_some.mp keeps.regular.greatest
    exact dense.below f member
  have within : ∀ {e}, Log.About fs e → e ≤ last := by
    rintro e ⟨f, member, rfl⟩
    exact keeps.regular.entity_le f member
  have counted : ∀ e ≤ maxEntityId, db.store.count e = .ok (Log.count fs e) :=
    fun e fits => keeps.holds.count_eq fits
  have exists_iff : ∀ e, 0 < Log.count fs e ↔ e < last + 1 := by
    intro e
    rw [Log.count_pos, Nat.lt_succ_iff]
    exact ⟨within, about e⟩
  refine ⟨fs, last, keeps.holds, greatest, ?_, about, ?_, dense.ordered, ?_, ?_⟩
  · rw [Transaction.nextEntity, greatest]
  · intro f member
    exact ⟨keeps.regular.entity_le f member, within (dense.attr f member),
      keeps.regular.tx_le f member, within (dense.op f member)⟩
  · exact fun e fits => ⟨_, counted e fits, exists_iff e⟩
  · intro tx next e fits
    obtain rfl := keeps.regular.next_eq keeps.holds next
    refine ⟨?_, fun a => ?_⟩
    · rw [Transaction.hasFacts, counted e fits]
      exact congrArg Except.ok (decide_eq_decide.mpr (exists_iff e))
    · rw [Transaction.Allocation.entity]
      split <;> simp_all

/-- After a request that names an entity, a table has facts about the numbers up to that entity's
and about no other. -/
theorem reachable_gapless_named :
    ∃ db : Database, db.Reachable ∧ db.store.lastEntity = some 44 ∧ ∃ fs, db.Gapless fs 44 := by
  have evaluated : ((ofStore (Store.empty .table) .standard ⟨"", 0, 0, 0⟩).toOption.bind
      fun first => (first.run [.transact 5 (.map [(.keyword "tx-data", .map
        [(.keyword "db/identity", .text "a")])])]).store.lastEntity) = some 44 := by
    decide +kernel
  obtain ⟨first, opened, greatest⟩ := Option.bind_eq_some_iff.mp evaluated
  have reachable : (first.run [.transact 5 (.map [(.keyword "tx-data", .map
      [(.keyword "db/identity", .text "a")])])]).Reachable :=
    ⟨.table, .standard, ⟨"", 0, 0, 0⟩, first, _, Outcome.toOption_eq_some.mp opened, rfl⟩
  obtain ⟨fs, last, gapless⟩ := reachable_gapless reachable
  obtain rfl := Option.some.inj (gapless.greatest.symm.trans greatest)
  exact ⟨_, reachable, greatest, fs, gapless⟩

end Database

end Factbase
