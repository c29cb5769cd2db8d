import Factbase.Proofs.Permanence

/-!
# Factbase.Proofs.UniqueNames

When no two entities have the same name. Nothing keeps a request from giving a name that is in use to
another entity; the name then goes on standing for the entity that had it first. The names of a
database are unique as long as none of its requests does so, and from the first one that does they
are not unique any more.
-/

namespace Factbase

namespace Log

/-- Entities with their names, such that no two entities have the same name. -/
def Unambiguous (names : List (EntityId × String)) : Prop :=
  ∀ e e' name, (e, name) ∈ names → (e', name) ∈ names → e = e'

theorem unambiguous_iff_forall_mem {names : List (EntityId × String)} :
    Unambiguous names ↔ ∀ entry ∈ names, ∀ other ∈ names, entry.2 = other.2 → entry.1 = other.1 := by
  constructor
  · rintro unique ⟨e, name⟩ member ⟨e', _⟩ member' rfl
    exact unique e e' name member member'
  · intro unique e e' name member member'
    exact unique _ member _ member' rfl

instance (names : List (EntityId × String)) : Decidable (Unambiguous names) :=
  decidable_of_iff _ unambiguous_iff_forall_mem.symm

theorem Unambiguous.of_nodup {names : List (EntityId × String)}
    (distinct : (names.map Prod.snd).Nodup) : Unambiguous names := by
  rw [unambiguous_iff_forall_mem]
  intro entry member other member' same
  exact congrArg Prod.fst (List.inj_on_of_nodup_map distinct member member' same)

theorem mem_identities {fs : List Fact} {e : EntityId} {name : String} :
    (e, name) ∈ identities fs ↔ ∃ f ∈ fs, f.entity = e ∧ f.name? = some name := by
  simp only [identities, List.mem_filterMap, Option.map_eq_some_iff, Prod.mk.injEq]
  constructor
  · rintro ⟨f, member, _, named, about, rfl⟩
    exact ⟨f, member, about, named⟩
  · rintro ⟨f, member, about, named⟩
    exact ⟨f, member, name, named, about, rfl⟩

end Log

/-! ### Names in drafts -/

/-- No two placeholders get the same number. -/
theorem Transaction.numbering_inj {tx e : EntityId} {ps : List Placeholder} {p q : Placeholder}
    (first : (numbering tx ps).lookup p = some e) (second : (numbering tx ps).lookup q = some e) :
    p = q := by
  obtain ⟨_, _, at_⟩ := List.mem_zipIdx (Outcome.mem_of_lookup first)
  obtain ⟨_, _, at_'⟩ := List.mem_zipIdx (Outcome.mem_of_lookup second)
  rw [at_, at_']

namespace Draft

/-- The name that a draft gives to its subject. -/
def name? (d : Draft) : Option String :=
  if d.attr = nameAttribute then d.value.asText? else none

/-- Whether a draft gives its subject a name that another entity has, or that another one of the
drafts gives to another subject. -/
def Reuses (known : List (EntityId × String)) (ds : List Draft) (d : Draft) : Prop :=
  ∃ name, d.name? = some name ∧
    ((∃ e, (e, name) ∈ known ∧ d.subject ≠ .existing e) ∨
      ∃ d' ∈ ds, d'.name? = some name ∧ d'.subject ≠ d.subject)

variable {tx : EntityId} {ps : List Placeholder} {d d' : Draft} {f f' : Fact}

theorem Becomes.name?_eq {given : List (Placeholder × EntityId)} (becomes : d.Becomes tx given f) :
    f.name? = d.name? := by
  rw [Fact.name?, name?, becomes.attr, becomes.value]

/-- A fact is about an older entity exactly if its draft was. -/
theorem Becomes.entity_eq_iff_existing (becomes : d.Becomes tx (Transaction.numbering tx ps) f)
    {e : EntityId} (older : e < tx) : f.entity = e ↔ d.subject = .existing e := by
  cases about : d.subject with
  | existing e' =>
    have same : f.entity = e' := (becomes.existing e' about).1
    simp [same]
  | new p =>
    -- new entities are numbered above the transaction
    have above : tx < f.entity := (Transaction.numbering_bounds (becomes.new p about)).1
    have other : f.entity ≠ e := Nat.ne_of_gt (Nat.lt_trans older above)
    simp [other]

/-- The facts of two drafts are about the same entity exactly if the drafts have the same subject. -/
theorem Becomes.entity_eq_iff (becomes : d.Becomes tx (Transaction.numbering tx ps) f)
    (becomes' : d'.Becomes tx (Transaction.numbering tx ps) f') :
    f.entity = f'.entity ↔ d.subject = d'.subject := by
  cases about : d.subject with
  | existing e =>
    obtain ⟨rfl, older⟩ := becomes.existing e about
    rw [eq_comm, becomes'.entity_eq_iff_existing older, eq_comm]
  | new p =>
    have given := becomes.new p about
    cases about' : d'.subject with
    | existing e' =>
      obtain ⟨rfl, older⟩ := becomes'.existing e' about'
      rw [becomes.entity_eq_iff_existing older, about]
    | new q =>
      have given' := becomes'.new q about'
      rw [Subject.new.injEq]
      constructor
      · intro same
        exact Transaction.numbering_inj (same ▸ given) given'
      · rintro rfl
        exact Option.some.inj (given.symm.trans given')

end Draft

/-! ### One step -/

namespace Transaction.Effect

variable {v : Vocabulary} {now : Int64} {s : Store} {ds : List Draft} {tx : EntityId}
  {receipt : Receipt} {fs new : List Fact}

/-- The names that a transaction gives are those of its drafts. -/
theorem mem_identities (effect : Effect v now s ds tx receipt new) {e : EntityId} {name : String} :
    (e, name) ∈ Log.identities new ↔ ∃ d ∈ ds, ∃ f,
      d.Becomes tx (numbering tx (placeholders ds)) f ∧ f.entity = e ∧ d.name? = some name := by
  rw [Log.mem_identities]
  constructor
  · rintro ⟨f, member, about, named⟩
    rcases effect.cases_mem member with ⟨d, d_member, becomes⟩ | ⟨_, _, time, _, _⟩
    · exact ⟨d, d_member, f, becomes, about, becomes.name?_eq ▸ named⟩
    · -- the time of a transaction is no name, whatever attribute it stands under
      simp [Fact.name?, time, Value.asText?] at named
  · rintro ⟨d, d_member, f, becomes, about, named⟩
    obtain ⟨f', member, becomes'⟩ := effect.exists_fact d_member
    refine ⟨f', member, ?_, becomes'.name?_eq.trans named⟩
    rw [← about, becomes'.entity_eq_iff becomes]

/-- A transaction keeps the names of a log unique exactly if none of its drafts reuses a name. -/
theorem unambiguous_iff (effect : Effect v now s ds tx receipt new)
    (low : ∀ f ∈ fs, f.entity < tx) :
    Log.Unambiguous (Log.identities (fs ++ new)) ↔
      Log.Unambiguous (Log.identities fs) ∧ ∀ d ∈ ds, ¬ d.Reuses (Log.identities fs) ds := by
  have older : ∀ {e name}, (e, name) ∈ Log.identities fs → e < tx := by
    intro e name member
    obtain ⟨f, f_member, rfl, _⟩ := Log.mem_identities.mp member
    exact low f f_member
  rw [Log.identities_append]
  constructor
  · -- if the names stay unique, the fact of a draft is about whoever else has its name
    intro unique
    refine ⟨fun e e' name member member' =>
      unique e e' name (List.mem_append_left _ member) (List.mem_append_left _ member'), ?_⟩
    rintro d member ⟨name, named, reused⟩
    obtain ⟨f, _, becomes⟩ := effect.exists_fact member
    have given : (f.entity, name) ∈ Log.identities new :=
      effect.mem_identities.mpr ⟨d, member, f, becomes, rfl, named⟩
    have only : ∀ e, (e, name) ∈ Log.identities fs ++ Log.identities new → f.entity = e :=
      fun e => unique f.entity e name (List.mem_append_right _ given)
    rcases reused with ⟨e, known, other⟩ | ⟨d', member', named', other⟩
    · have same := only e (List.mem_append_left _ known)
      exact other ((becomes.entity_eq_iff_existing (older known)).mp same)
    · obtain ⟨f', _, becomes'⟩ := effect.exists_fact member'
      have same := only f'.entity (List.mem_append_right _
        (effect.mem_identities.mpr ⟨d', member', f', becomes', rfl, named'⟩))
      exact other ((becomes.entity_eq_iff becomes').mp same).symm
  · rintro ⟨unique, fresh⟩
    -- a name that is given now belongs to whoever has it
    have given : ∀ {e e' name}, (e, name) ∈ Log.identities new →
        (e', name) ∈ Log.identities fs ++ Log.identities new → e = e' := by
      intro e e' name member member'
      obtain ⟨d, d_member, f, becomes, rfl, named⟩ := effect.mem_identities.mp member
      by_contra apart
      refine fresh d d_member ⟨name, named, ?_⟩
      rcases List.mem_append.mp member' with known | new_too
      · exact .inl ⟨e', known, fun same =>
          apart ((becomes.entity_eq_iff_existing (older known)).mpr same)⟩
      · obtain ⟨d', d_member', f', becomes', rfl, named'⟩ := effect.mem_identities.mp new_too
        exact .inr ⟨d', d_member', named', fun same =>
          apart ((becomes.entity_eq_iff becomes').mpr same.symm)⟩
    intro e e' name member member'
    rcases List.mem_append.mp member with known | new_name
    · rcases List.mem_append.mp member' with known' | new_name'
      · exact unique e e' name known known'
      · exact (given new_name' member).symm
    · exact given new_name member'

end Transaction.Effect

/-! ### Runs -/

namespace Database

/-- Whether a step gives a name that is in use to another entity, or one name to two entities. -/
def Step.ReusesName (step : Step) : Prop :=
  ∃ ds, Transaction.drafts step.before.vocabulary step.before.store step.request = .ok ds ∧
    ∃ d ∈ ds, d.Reuses step.before.store.identities ds

variable {db : Database} {fs : List Fact}

theorem Step.Records.unambiguous_iff {step : Step} {new : List Fact} (records : step.Records new)
    (holds : step.before.store.Holds fs) (low : ∀ f ∈ fs, f.entity < step.receipt.tx) :
    Log.Unambiguous (Log.identities (fs ++ new)) ↔
      Log.Unambiguous (Log.identities fs) ∧ ¬ step.ReusesName := by
  obtain ⟨ds, drafted, effect⟩ := records
  rw [effect.unambiguous_iff low, ← holds.identities_eq]
  apply and_congr_right
  intro _
  constructor
  · rintro fresh ⟨ds', drafted', d, member, reuses⟩
    obtain rfl : ds = ds' := Except.ok.inj (drafted.symm.trans drafted')
    exact fresh d member reuses
  · intro fresh d member reuses
    exact fresh ⟨ds, drafted, d, member, reuses⟩

/-- A run keeps names unique exactly if none of its steps reuses a name. -/
theorem run_unambiguous_iff (holds : db.store.Holds fs) (calls : List Call) :
    Log.Unambiguous (db.run calls).store.identities ↔
      Log.Unambiguous db.store.identities ∧ ∀ step ∈ db.steps calls, ¬ step.ReusesName := by
  -- the first step decides about its own names, and leaves a longer log to the calls after it
  induction calls generalizing db fs with
  | nil => simp
  | cons c rest ih =>
    rcases call_cases holds c with ⟨none, same⟩ | ⟨step, new, taken, rfl, records, low, called⟩
    · simpa [none, same] using ih holds
    · rw [run_cons, ih called, called.identities_eq, records.unambiguous_iff holds low,
        holds.identities_eq]
      simp [taken, and_assoc]

/-- The names of a database are unique exactly if none of its requests has given a name to one
entity that another one has. In any case a name stands for the entity that was given it first. -/
theorem unambiguous_identities_iff {backend : Backend} {v : Vocabulary} {founding : Founding}
    {first : Database} (opened : ofStore (Store.empty backend) v founding = .ok first)
    (calls : List Call) :
    (Log.Unambiguous (first.run calls).store.identities ↔
      ∀ step ∈ first.steps calls, ¬ step.ReusesName) ∧
    ∀ name e, (first.run calls).resolve name = .ok e ↔
      ((first.run calls).store.identities.find? (·.2 == name)).map Prod.fst = some e := by
  obtain ⟨fs, _, keeps⟩ := ofStore_keeps opened
  have start : Log.Unambiguous first.store.identities := by
    rw [(ofStore_empty_founded opened).2.identities]
    exact .of_nodup (roster_snd_nodup v)
  constructor
  · rw [run_unambiguous_iff keeps.holds calls]
    exact and_iff_right start
  · intro name e
    obtain ⟨_, ran⟩ := run_holds keeps.holds calls
    rw [resolve, ran.entityOf_eq_ok, Log.entityOf_eq_find?, ran.identities_eq]

/-- Two requests give two new entities of a table two names, so neither reuses a name. -/
theorem unambiguous_identities_iff_distinct :
    ∃ first, ofStore (Store.empty .table) .standard ⟨"", 0, 0, 0⟩ = .ok first ∧
      (first.steps [.transact 5 (nameRequest "a"), .transact 6 (nameRequest "b")]).length = 2 ∧
      ∀ step ∈ first.steps [.transact 5 (nameRequest "a"), .transact 6 (nameRequest "b")],
        ¬ step.ReusesName := by
  have computed : ((ofStore (Store.empty .table) .standard ⟨"", 0, 0, 0⟩).toOption.map fun first =>
      let calls := [.transact 5 (nameRequest "a"), .transact 6 (nameRequest "b")]
      ((first.steps calls).length, decide (Log.Unambiguous (first.run calls).store.identities)))
        = some (2, true) := by
    decide +kernel
  obtain ⟨first, opened, computed⟩ := Option.map_eq_some_iff.mp computed
  obtain ⟨two, unique⟩ := Prod.mk.inj computed
  have opened := Outcome.toOption_eq_some.mp opened
  refine ⟨first, opened, two, ?_⟩
  exact (unambiguous_identities_iff opened _).1.mp (of_decide_eq_true unique)

/-- Requests that all succeed can give one name to two entities. -/
theorem names_not_unique :
    ¬ ∀ (backend : Backend) (v : Vocabulary) (founding : Founding) (first : Database)
        (calls : List Call), ofStore (Store.empty backend) v founding = .ok first →
      (∀ reply ∈ first.replies calls, ∃ receipt, reply = .transacted (.ok receipt)) →
      ∀ e e' name, (e, name) ∈ (first.run calls).store.identities →
        (e', name) ∈ (first.run calls).store.identities → e = e' := by
  intro unique
  have computed : ((ofStore (Store.empty .table) .standard ⟨"", 0, 0, 0⟩).toOption.map fun first =>
      let calls := [.transact 5 (nameRequest "a"), .transact 6 (nameRequest "a")]
      let names := (first.run calls).store.identities
      ((first.replies calls).all (·.effect?.isSome), names.contains (44, "a"),
        names.contains (46, "a"))) = some (true, true, true) := by
    decide +kernel
  obtain ⟨first, opened, computed⟩ := Option.map_eq_some_iff.mp computed
  simp only [Prod.mk.injEq, List.all_eq_true, List.contains_iff_mem] at computed
  obtain ⟨recorded, one, other⟩ := computed
  have same : (44 : EntityId) = 46 :=
    unique .table .standard ⟨"", 0, 0, 0⟩ first _ (Outcome.toOption_eq_some.mp opened)
      (fun reply member => Reply.exists_receipt (recorded reply member)) 44 46 "a" one other
  exact absurd same (by decide)

end Database

end Factbase
