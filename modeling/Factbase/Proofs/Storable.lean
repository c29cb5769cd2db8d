import Factbase.Proofs.Run
import Factbase.Query.Answer

/-!
# Factbase.Proofs.Storable

Requests and queries within the means of a table. All that such a request writes are storable
facts, and all that such a query looks for are storable patterns, as long as the log is storable
that they are read against.
-/

namespace Factbase

/-! ### Forms -/

mutual

/-- A form in which every reference fits a cell, and every double is a number other than the
negative zero. -/
def Form.Storable : Form → Prop
  | .float x => (Value.float x).Storable
  | .entity e => (Value.ref e).Storable
  | .list items => Form.ItemsStorable items
  | .map entries => Form.EntriesStorable entries
  | .nil | .bool _ | .int _ | .text _ | .keyword _ | .symbol _ | .bytes _ => True

def Form.ItemsStorable : List Form → Prop
  | [] => True
  | item :: rest => item.Storable ∧ Form.ItemsStorable rest

def Form.EntriesStorable : List (Form × Form) → Prop
  | [] => True
  | (key, value) :: rest => key.Storable ∧ value.Storable ∧ Form.EntriesStorable rest

end

namespace Form

theorem storable_list {items : List Form} :
    (list items).Storable ↔ ∀ item ∈ items, item.Storable := by
  rw [Storable]
  induction items with
  | nil => simp [ItemsStorable]
  | cons item rest ih => rw [ItemsStorable, ih, List.forall_mem_cons]

theorem storable_map {entries : List (Form × Form)} :
    (map entries).Storable ↔ ∀ entry ∈ entries, entry.1.Storable ∧ entry.2.Storable := by
  rw [Storable]
  induction entries with
  | nil => simp [EntriesStorable]
  | cons entry rest ih => rw [EntriesStorable, ih, List.forall_mem_cons, and_assoc]

/-- What a storable form is made of is storable. -/
theorem Storable.part {whole form : Form} (storable : whole.Storable) (part : whole.Part form) :
    form.Storable := by
  induction part with
  | whole => exact storable
  | item _ member ih => exact storable_list.mp ih _ member
  | key _ member ih => exact (storable_map.mp ih _ member).1
  | value _ member ih => exact (storable_map.mp ih _ member).2

theorem Storable.value {form : Form} (storable : form.Storable) {value : Value}
    (read : form.toValue? = some value) : value.Storable := by
  cases form
  case nil => cases read
  case list items => cases read
  case map entries => cases read
  case entity e =>
    obtain rfl := Option.some.inj read
    exact storable
  case float x =>
    obtain rfl := Option.some.inj read
    exact storable
  all_goals
    obtain rfl := Option.some.inj read
    trivial

end Form

theorem Form.Storable.subject_le {form : Form} (storable : form.Storable) {e : EntityId}
    (read : Transaction.subjectOf form = .ok (.existing e)) : e ≤ maxCellInt := by
  cases form
  case int n =>
    simp only [Transaction.subjectOf] at read
    split at read
    next e' found =>
      obtain rfl := Subject.existing.inj (Except.ok.inj read)
      exact Value.entityOfInt?_le found
    next => cases read
  case entity d =>
    obtain rfl := Subject.existing.inj (Except.ok.inj read)
    exact storable
  all_goals cases read

/-! ### Facts -/

/-- A log of facts that a table keeps as they are. -/
abbrev Log.Storable (fs : List Fact) : Prop := ∀ f ∈ fs, f.Storable

theorem Log.Storable.append {fs gs : List Fact} (first : Log.Storable fs)
    (second : Log.Storable gs) : Log.Storable (fs ++ gs) := by
  intro f member
  rcases List.mem_append.mp member with old | new
  · exact first f old
  · exact second f new

namespace Store.Holds

variable {s : Store} {fs : List Fact} (holds : s.Holds fs) (storable : Log.Storable fs)

include holds storable

theorem entityOf_le {name : String} {e : EntityId} (found : s.entityOf name = .ok e) :
    e ≤ maxCellInt := by
  obtain ⟨f, member, rfl, _⟩ := Log.mem_of_entityOf (holds.entityOf_eq_ok.mp found)
  exact (storable f member).entity

/-- The value of a draft is storable if the request is. -/
theorem drawn_storable {request : Form} (within : request.Storable) {value : Value}
    (drawn : value.Drawn s request) : value.Storable := by
  cases drawn with
  | name text => trivial
  | reference found => exact holds.entityOf_le storable found
  | written inside read => exact (within.part inside).value read

/-- A storable request writes storable facts. -/
theorem effect_storable {v : Vocabulary} {now : Int64} {request : Form} {ds : List Draft}
    {tx : EntityId} {receipt : Receipt} {new : List Fact} (within : request.Storable)
    (drafted : Transaction.drafts v s request = .ok ds)
    (next : Transaction.nextEntity s = .ok tx)
    (effect : Transaction.Effect v now s ds tx receipt new) : Log.Storable new := by
  have tx_le : tx ≤ maxCellInt := (Transaction.nextEntity_eq_ok.mp next).1
  intro f member
  -- a fact of a draft is made of what the draft was drawn from, the last one of known names
  rcases effect.cases_mem member with ⟨d, d_member, becomes⟩ | ⟨entity, time, value, at_, op⟩
  · have drawn := Transaction.drafts_drawn drafted d d_member
    obtain ⟨attrName, attr_found⟩ := drawn.attr
    obtain ⟨opName, op_found⟩ := drawn.op
    refine ⟨?_, ?_, ?_, ?_, ?_⟩
    · rcases Transaction.Effect.entity_cases becomes with older | ⟨_, given⟩
      · exact Nat.le_trans (Nat.le_of_lt older) tx_le
      · cases effect with
        | nothing => cases member
        | recorded _ _ _ _ room => exact Nat.le_trans given room
    · exact becomes.attr ▸ holds.entityOf_le storable attr_found
    · exact becomes.value ▸ holds.drawn_storable storable within drawn.value
    · exact becomes.tx ▸ tx_le
    · exact becomes.op ▸ holds.entityOf_le storable op_found
  · refine ⟨entity ▸ tx_le, holds.entityOf_le storable time, ?_, at_ ▸ tx_le,
      holds.entityOf_le storable op⟩
    rw [value]
    trivial

end Store.Holds

/-- The facts of the first transaction are storable, if there are numbers enough. -/
theorem Schema.Founds.storable {names : List String} {facts : List Fact}
    (founds : Founds names facts) (room : names.length ≤ maxCellInt) : Log.Storable facts := by
  intro f member
  have op_le := Nat.le_of_lt (founds.op_lt f member)
  have attr_le := Nat.le_of_lt (founds.attr_lt f member)
  refine ⟨Nat.le_trans (founds.entity_le f member) room, Nat.le_trans attr_le room, ?_,
    (founds.tx_eq f member).trans_le room, Nat.le_trans op_le room⟩
  rcases founds.value f member with ⟨text, same⟩ | ⟨n, same⟩ | ⟨e, low, same⟩
  · exact same ▸ trivial
  · exact same ▸ trivial
  · exact same ▸ Nat.le_trans (Nat.le_of_lt low) room

theorem Schema.ofName_storable (name : String) : (Form.ofName name).Storable := by
  unfold Form.ofName
  split <;> trivial

theorem Schema.metadataAttributes_storable (v : Vocabulary) :
    (metadataAttributes v).Storable := by
  simp [metadataAttributes, declaration, ofName_storable, Form.Storable, Form.ItemsStorable,
    Form.EntriesStorable]

theorem Schema.metadataEntity_storable (v : Vocabulary) (databaseId : String) (next : EntityId) :
    (metadataEntity v databaseId next).Storable := by
  simp [metadataEntity, ofName_storable, Form.Storable, Form.EntriesStorable]

/-! ### Patterns -/

namespace Query

/-- A term whose constant is storable, if it is one. -/
def Term.Storable (term : Term) : Prop := ∀ form, term = .constant form → form.Storable

structure Clause.Storable (c : Clause) : Prop where
  entity : c.entity.Storable
  attr : c.attr.Storable
  value : c.value.Storable
  tx : c.tx.Storable
  op : c.op.Storable

theorem Term.ofForm_storable {form : Form} (within : form.Storable) :
    (Term.ofForm form).Storable := by
  intro constant same
  unfold Term.ofForm at same
  split at same
  · split at same
    · cases same
    · split at same
      · cases same
      · obtain rfl := Term.constant.inj same
        trivial
  · obtain rfl := Term.constant.inj same
    exact within

theorem Term.substitute_storable {ps : Parameters} {term : Term} (within : term.Storable)
    (params : ∀ p ∈ ps, p.2.Storable) : (term.substitute ps).Storable := by
  cases term with
  | «variable» name =>
    intro constant same
    unfold Term.substitute at same
    dsimp only at same
    split at same
    next form found =>
      exact Term.constant.inj same ▸ params (name, form) (Outcome.mem_of_lookup found)
    next => cases same
  | ignored => exact within
  | constant form => exact within

theorem Clause.termAt_storable {ps : Parameters} {forms : List Form}
    (within : ∀ form ∈ forms, form.Storable) (params : ∀ p ∈ ps, p.2.Storable) (i : Nat) :
    (Clause.termAt ps forms i).Storable := by
  unfold Clause.termAt
  split
  next form found =>
    have storable := within form (List.mem_of_getElem? found)
    exact Term.substitute_storable (Term.ofForm_storable storable) params
  next =>
    intro constant same
    cases same

theorem Clause.ofForms_storable {ps : Parameters} {forms : List Form}
    (within : ∀ form ∈ forms, form.Storable) (params : ∀ p ∈ ps, p.2.Storable) :
    (Clause.ofForms ps forms).Storable := by
  have term := Clause.termAt_storable within params
  exact ⟨term 0, term 1, term 2, term 3, term 4⟩

theorem Clause.entityOf?_le {form : Form} (within : form.Storable) {e : EntityId}
    (read : Clause.entityOf? form = some e) : e ≤ maxCellInt := by
  cases form
  case int n => exact Value.entityOfInt?_le read
  case entity d =>
    obtain rfl := Option.some.inj read
    exact within
  all_goals cases read

theorem Clause.place_entity_le {term : Term} (within : term.Storable) {found : Option EntityId}
    (read : Clause.place Clause.entityOf? term = some found) : ∀ e ∈ found, e ≤ maxCellInt := by
  rintro e rfl
  cases term with
  | constant form =>
    obtain ⟨d, named, same⟩ := Option.map_eq_some_iff.mp read
    obtain rfl := Option.some.inj same
    exact Clause.entityOf?_le (within form rfl) named
  | _ => cases read

theorem Clause.place_value_storable {term : Term} (within : term.Storable)
    {found : Option Value} (read : Clause.place Form.toValue? term = some found) :
    ∀ value ∈ found, value.Storable := by
  rintro value rfl
  cases term with
  | constant form =>
    obtain ⟨d, named, same⟩ := Option.map_eq_some_iff.mp read
    obtain rfl := Option.some.inj same
    exact (within form rfl).value named
  | _ => cases read

theorem Clause.attrPlace_le {s : Store} {fs : List Fact} (holds : s.Holds fs)
    (storable : Log.Storable fs) {term : Term} (within : term.Storable)
    {found : Option EntityId} (read : Clause.attrPlace s term = .ok (some found)) :
    ∀ e ∈ found, e ≤ maxCellInt := by
  rintro e rfl
  cases term with
  | constant form =>
    simp only [Clause.attrPlace] at read
    split at read
    next name _ =>
      obtain ⟨d, named, same⟩ := Outcome.map_eq_ok.mp read
      obtain rfl : d = e := by simpa using same
      exact holds.entityOf_le storable named
    next =>
      obtain ⟨d, named, same⟩ := Option.map_eq_some_iff.mp (Except.ok.inj read)
      obtain rfl := Option.some.inj same
      exact Clause.entityOf?_le (within form rfl) named
  | _ => cases read

theorem Clause.pattern_storable {s : Store} {fs : List Fact} (holds : s.Holds fs)
    (storable : Log.Storable fs) {c : Clause} (within : c.Storable) {p : Pattern}
    (made : c.pattern s = .ok (some p)) : p.Storable := by
  simp only [Clause.pattern, Outcome.bind_eq_ok, Outcome.pure_eq_ok, Option.bind_eq_bind,
    Option.bind_eq_some_iff, Option.pure_def, Option.some.injEq] at made
  obtain ⟨attrPlace, attr_ok, entity, entity_ok, attr, rfl, value, value_ok, tx, tx_ok, op, op_ok,
    rfl⟩ := made
  exact ⟨Clause.place_entity_le within.entity entity_ok,
    Clause.attrPlace_le holds storable within.attr attr_ok,
    Clause.place_value_storable within.value value_ok, Clause.place_entity_le within.tx tx_ok,
    Clause.place_entity_le within.op op_ok⟩

end Query

end Factbase
