import Factbase.Proofs.Outcome
import Factbase.Transaction.Draft

/-!
# Factbase.Proofs.Draft

Where drafts come from. The attribute and the operation of a draft are entities that the store
names; its value is a name, an entity that the store names, or stands in the request.
-/

namespace Factbase

/-! ### Parts of a form -/

/-- The forms that a form is made of, itself among them. -/
inductive Form.Part (whole : Form) : Form → Prop where
  | whole : Part whole whole
  | item {items : List Form} {item : Form} (part : Part whole (.list items))
      (member : item ∈ items) : Part whole item
  | key {entries : List (Form × Form)} {entry : Form × Form} (part : Part whole (.map entries))
      (member : entry ∈ entries) : Part whole entry.1
  | value {entries : List (Form × Form)} {entry : Form × Form} (part : Part whole (.map entries))
      (member : entry ∈ entries) : Part whole entry.2

theorem Form.Part.trans {whole middle part : Form} (outer : whole.Part middle)
    (inner : middle.Part part) : whole.Part part := by
  induction inner with
  | whole => exact outer
  | item _ member ih => exact ih.item member
  | key _ member ih => exact ih.key member
  | value _ member ih => exact ih.value member

theorem Form.Part.of_entries {entries : List (Form × Form)} {part : Form}
    (member : part ∈ entries.flatMap fun entry => [entry.1, entry.2]) :
    (Form.map entries).Part part := by
  obtain ⟨entry, inside, place⟩ := List.mem_flatMap.mp member
  rcases List.mem_pair.mp place with rfl | rfl
  · exact .key .whole inside
  · exact .value .whole inside

/-- What a map says under a name is a part of it. -/
theorem Form.Part.get? {whole form value : Form} {name : String} (part : whole.Part form)
    (found : form.get? name = some value) : whole.Part value := by
  unfold Form.get? at found
  split at found
  · obtain ⟨entry, first, rfl⟩ := Option.map_eq_some_iff.mp found
    exact part.value (List.mem_of_find?_eq_some first)
  · cases found

namespace Transaction

def Operation.form : Operation → Form
  | .declaration form => form
  | .tuple items => .list items
  | .entries es => .map es

theorem declarations_part {whole part : Form} (inside : whole.Part part) {operation : Operation}
    (member : operation ∈ declarations part) : whole.Part operation.form := by
  cases part
  case list items =>
    obtain ⟨item, item_member, rfl⟩ := List.mem_map.mp member
    exact inside.item item_member
  case map entries =>
    obtain rfl := List.mem_singleton.mp member
    exact inside
  all_goals cases member

theorem form_of_dataOperation? {item : Form} {operation : Operation}
    (found : dataOperation? item = some operation) : operation.form = item := by
  cases item <;> cases found <;> rfl

/-- Operations that are read from the items of a list are read from its members. -/
theorem mem_of_mapM_dataOperation? {items : List Form} {operations : List Operation}
    (found : items.mapM dataOperation? = some operations) {operation : Operation}
    (member : operation ∈ operations) : operation.form ∈ items := by
  induction items generalizing operations with
  | nil => cases found; cases member
  | cons item rest ih =>
    simp only [List.mapM_cons, Option.bind_eq_bind, Option.bind_eq_some_iff, Option.pure_def,
      Option.some.injEq] at found
    obtain ⟨first, read, others, found, rfl⟩ := found
    rcases List.mem_cons.mp member with rfl | later
    · rw [form_of_dataOperation? read]
      exact List.mem_cons_self
    · exact List.mem_cons_of_mem item (ih found later)

theorem dataOperations_part {whole part : Form} (inside : whole.Part part) {operation : Operation}
    (member : operation ∈ dataOperations part) : whole.Part operation.form := by
  cases part
  case list items =>
    unfold dataOperations at member
    dsimp only at member
    split at member
    next operations found => exact inside.item (mem_of_mapM_dataOperation? found member)
    next =>
      obtain rfl := List.mem_singleton.mp member
      exact inside
  case map entries =>
    obtain rfl := List.mem_singleton.mp member
    exact inside
  all_goals cases member

/-- Every operation of a request is written in it. -/
theorem operations_part {request : Form} {operation : Operation}
    (member : operation ∈ operations request) : request.Part operation.form := by
  rcases List.mem_append.mp member with declared | data
  · cases section_ : request.get? ":tx-attribute" with
    | none => simp [section_] at declared
    | some part =>
      rw [section_] at declared
      exact declarations_part (Form.Part.whole.get? section_) declared
  · cases section_ : request.get? ":tx-data" with
    | none => simp [section_] at data
    | some part =>
      rw [section_] at data
      exact dataOperations_part (Form.Part.whole.get? section_) data

end Transaction

/-! ### Drafts -/

namespace Transaction

/-- What an operation of a request can be taken apart into. -/
inductive Operation.Yields (v : Vocabulary) (s : Store) : Operation → Draft → Prop where
  /-- A declaration tells the name of its attribute. -/
  | name {form told : Form} {text : String} {d : Draft} (found : form.get? v.identity = some told)
      (read : told.asName? = some text) (attr : s.entityOf v.identity = .ok d.attr)
      (value : d.value = .text text) (op : s.entityOf v.assertOperation = .ok d.op) :
      Yields v s (.declaration form) d
  /-- It refers by name to its kind and its cardinality. -/
  | reference {form told : Form} {key text : String} {e : EntityId} {d : Draft}
      (key_mem : key ∈ [v.valueKind, v.cardinality]) (found : form.get? key = some told)
      (read : told.asName? = some text) (target : s.entityOf text = .ok e)
      (attr : s.entityOf key = .ok d.attr) (value : d.value = .ref e)
      (op : s.entityOf v.assertOperation = .ok d.op) : Yields v s (.declaration form) d
  /-- It may say two things more. -/
  | option {form told : Form} {key : String} {d : Draft}
      (key_mem : key ∈ [v.documentation, v.history]) (found : form.get? key = some told)
      (attr : s.entityOf key = .ok d.attr) (value : told.toValue? = some d.value)
      (op : s.entityOf v.assertOperation = .ok d.op) : Yields v s (.declaration form) d
  /-- A map asserts its entries, apart from those that tell the entity it is about. -/
  | entry {entries : List (Form × Form)} {key told : Form} {name : String} {d : Draft}
      (member : (key, told) ∈ entries) (read : key.asName? = some name) (other : name ≠ v.entityKey)
      (attr : s.entityOf name = .ok d.attr) (value : told.toValue? = some d.value)
      (op : s.entityOf v.assertOperation = .ok d.op) : Yields v s (.entries entries) d
  /-- A tuple names its operation and its attribute. -/
  | tuple {operation entity attr told : Form} {opName attrName : String} {d : Draft}
      (read_op : operation.asName? = some opName) (read_attr : attr.asName? = some attrName)
      (attr_found : s.entityOf attrName = .ok d.attr) (value : told.toValue? = some d.value)
      (op : s.entityOf opName = .ok d.op) :
      Yields v s (.tuple [operation, entity, attr, told]) d

variable {v : Vocabulary} {s : Store} {request : Form}

theorem nameOf_eq_ok {form : Form} {name : String} :
    nameOf form = .ok name ↔ form.asName? = some name := by
  unfold nameOf
  split <;> simp_all

theorem valueOf_eq_ok {form : Form} {value : Value} :
    valueOf form = .ok value ↔ form.toValue? = some value := by
  unfold valueOf
  split <;> simp_all

theorem draft_eq_ok {subject : Subject} {op : EntityId} {attr : String}
    {value : Except Fault Value} {d : Draft} :
    draft s subject op attr value = .ok d ↔
      ∃ a x, s.entityOf attr = .ok a ∧ value = .ok x ∧ d = ⟨subject, a, x, op⟩ := by
  simp only [draft, Outcome.bind_eq_ok, Outcome.pure_eq_ok, eq_comm (a := d)]
  constructor
  · rintro ⟨a, found, x, read, made⟩
    exact ⟨a, x, found, read, made⟩
  · rintro ⟨a, x, found, read, made⟩
    exact ⟨a, found, x, read, made⟩

theorem yields_of_optionalDraft {subject : Subject} {op : EntityId} {form : Form} {key : String}
    (key_mem : key ∈ [v.documentation, v.history]) (assertion : s.entityOf v.assertOperation = .ok op)
    {ds : List Draft} (ok : optionalDraft s subject op form key = .ok ds) :
    ∀ d ∈ ds, Operation.Yields v s (.declaration form) d := by
  intro d member
  unfold optionalDraft at ok
  split at ok
  next told found =>
    obtain ⟨only, drafted, rfl⟩ := Outcome.map_eq_ok.mp ok
    obtain rfl := List.mem_singleton.mp member
    obtain ⟨a, x, attr, read, rfl⟩ := draft_eq_ok.mp drafted
    exact .option key_mem found attr (valueOf_eq_ok.mp read) assertion
  next =>
    obtain rfl := Except.ok.inj ok
    cases member

/-- A declaration that lacks its name, kind or cardinality is dropped. Any other one yields a draft
about each of these, and one for each of the two things more that it says. -/
theorem declare_cases {number : Nat} {form : Form} {ds : List Draft}
    (ok : declare v s number form = .ok ds) :
    (ds = [] ∧ ∃ key ∈ [v.identity, v.valueKind, v.cardinality], form.get? key = none) ∨
      ∃ (op : EntityId) (identity kind cardinality : Form) (name kindName cardinalityName : String)
          (named ofKind ofCardinality : Draft) (documentation history : List Draft),
        s.entityOf v.assertOperation = .ok op ∧
        (form.get? v.identity = some identity ∧ identity.asName? = some name ∧
          draft s (.new (.unnamed number)) op v.identity (.ok (.text name)) = .ok named) ∧
        (form.get? v.valueKind = some kind ∧ kind.asName? = some kindName ∧
          draft s (.new (.unnamed number)) op v.valueKind ((s.entityOf kindName).map .ref)
            = .ok ofKind) ∧
        (form.get? v.cardinality = some cardinality ∧
          cardinality.asName? = some cardinalityName ∧
          draft s (.new (.unnamed number)) op v.cardinality
            ((s.entityOf cardinalityName).map .ref) = .ok ofCardinality) ∧
        optionalDraft s (.new (.unnamed number)) op form v.documentation = .ok documentation ∧
        optionalDraft s (.new (.unnamed number)) op form v.history = .ok history ∧
        ds = named :: ofKind :: ofCardinality :: (documentation ++ history) := by
  unfold declare at ok
  split at ok
  next identity kind cardinality identity_found kind_found cardinality_found =>
    rw [Outcome.bind_eq_ok] at ok
    obtain ⟨op, assertion, ok⟩ := ok
    cases read : identity.asName? with
    | none => simp [read] at ok
    | some name =>
    simp only [read, Outcome.bind_eq_ok, Outcome.pure_eq_ok, Except.ok.injEq, nameOf_eq_ok] at ok
    obtain ⟨_, rfl, named, named_ok, kindName, kind_read, ofKind, kind_ok, cardinalityName,
      cardinality_read, ofCardinality, cardinality_ok, documentation, documentation_ok, history,
      history_ok, rfl⟩ := ok
    exact .inr ⟨op, identity, kind, cardinality, name, kindName, cardinalityName, named, ofKind,
      ofCardinality, documentation, history, assertion, ⟨identity_found, read, named_ok⟩,
      ⟨kind_found, kind_read, kind_ok⟩, ⟨cardinality_found, cardinality_read, cardinality_ok⟩,
      documentation_ok, history_ok, rfl⟩
  next incomplete =>
    obtain rfl := Except.ok.inj ok
    refine .inl ⟨rfl, ?_⟩
    -- if none of the three were missing, the declaration would have been read
    by_contra complete
    simp only [List.mem_cons, List.not_mem_nil, or_false, exists_eq_or_imp, exists_eq_left, not_or,
      ← ne_eq, Option.ne_none_iff_exists'] at complete
    obtain ⟨⟨identity, found⟩, ⟨kind, kind_found⟩, ⟨cardinality, cardinality_found⟩⟩ := complete
    exact incomplete identity kind cardinality found kind_found cardinality_found

theorem yields_of_declare {number : Nat} {form : Form} {ds : List Draft}
    (ok : declare v s number form = .ok ds) :
    ∀ d ∈ ds, Operation.Yields v s (.declaration form) d := by
  rcases declare_cases ok with ⟨rfl, _⟩ | ⟨op, identity, kind, cardinality, name, kindName,
    cardinalityName, named, ofKind, ofCardinality, documentation, history, assertion,
    ⟨identity_found, read, named_ok⟩, ⟨kind_found, kind_read, kind_ok⟩,
    ⟨cardinality_found, cardinality_read, cardinality_ok⟩, documentation_ok, history_ok, rfl⟩
  · simp
  · intro d member
    simp only [List.mem_cons, List.mem_append] at member
    -- name, kind and cardinality are there in any case
    rcases member with rfl | rfl | rfl | described | kept
    · obtain ⟨a, _, attr, ⟨rfl⟩, rfl⟩ := draft_eq_ok.mp named_ok
      exact .name identity_found read attr rfl assertion
    · obtain ⟨a, _, attr, value, rfl⟩ := draft_eq_ok.mp kind_ok
      obtain ⟨e, target, rfl⟩ := Outcome.map_eq_ok.mp value
      exact .reference (by simp) kind_found kind_read target attr rfl assertion
    · obtain ⟨a, _, attr, value, rfl⟩ := draft_eq_ok.mp cardinality_ok
      obtain ⟨e, target, rfl⟩ := Outcome.map_eq_ok.mp value
      exact .reference (by simp) cardinality_found cardinality_read target attr rfl assertion
    · exact yields_of_optionalDraft (by simp) assertion documentation_ok d described
    · exact yields_of_optionalDraft (by simp) assertion history_ok d kept

theorem yields_of_ofTuple {items : List Form} {ds : List Draft} (ok : ofTuple v s items = .ok ds) :
    ∀ d ∈ ds, Operation.Yields v s (.tuple items) d := by
  unfold ofTuple at ok
  split at ok
  next operation entity attrForm told =>
    simp only [Outcome.bind_eq_ok] at ok
    obtain ⟨opName, op_read, subject, _, ok⟩ := ok
    -- a retraction about an entity without facts yields no draft
    have kept : ∃ keep : Bool, (if keep then do
        let attr ← nameOf attrForm
        let attr ← s.entityOf attr
        let value ← valueOf told
        let op ← s.entityOf opName
        return [⟨subject, attr, value, op⟩]
      else return []) = Except.ok ds := by
      split at ok
      · obtain ⟨keep, _, ok⟩ := Outcome.bind_eq_ok.mp ok
        exact ⟨keep, ok⟩
      · exact ⟨true, ok⟩
    obtain ⟨keep, ok⟩ := kept
    split at ok
    · simp only [Outcome.bind_eq_ok, Outcome.pure_eq_ok] at ok
      obtain ⟨attrName, attr_read, a, attr, x, value, op, op_found, rfl⟩ := ok
      intro d member
      obtain rfl := List.mem_singleton.mp member
      exact .tuple (nameOf_eq_ok.mp op_read) (nameOf_eq_ok.mp attr_read) attr
        (valueOf_eq_ok.mp value) op_found
    · obtain rfl := Outcome.pure_eq_ok.mp ok
      simp
  next =>
    obtain rfl := Except.ok.inj ok
    simp

/-- The entries of a map that are about other things than its entity are entries of the map, under
their names. -/
theorem splitEntries_mem {entries : List (Form × Form)} {subject : Option Subject}
    {others : List (String × Form)} (ok : splitEntries v entries = .ok (subject, others)) :
    ∀ other ∈ others, other.1 ≠ v.entityKey ∧
      ∃ key, (key, other.2) ∈ entries ∧ key.asName? = some other.1 := by
  induction entries generalizing subject others with
  | nil =>
    cases ok
    simp
  | cons entry rest ih =>
    rw [splitEntries, Outcome.bind_eq_ok] at ok
    obtain ⟨name, key_read, ok⟩ := ok
    -- what holds of the other entries holds of them here
    have tail : ∀ {later : Option Subject} {tail : List (String × Form)},
        splitEntries v rest = .ok (later, tail) → ∀ other ∈ tail, other.1 ≠ v.entityKey ∧
          ∃ key, (key, other.2) ∈ entry :: rest ∧ key.asName? = some other.1 := by
      intro later tail split_rest other member
      obtain ⟨apart, key, inside, read⟩ := ih split_rest other member
      exact ⟨apart, key, List.mem_cons_of_mem entry inside, read⟩
    split at ok
    · simp only [Outcome.bind_eq_ok] at ok
      obtain ⟨found, _, ⟨later, others'⟩, split_rest, ok⟩ := ok
      obtain ⟨rfl, rfl⟩ := Prod.mk.inj (Outcome.pure_eq_ok.mp ok)
      exact tail split_rest
    next apart =>
      simp only [Outcome.bind_eq_ok] at ok
      obtain ⟨⟨later, others'⟩, split_rest, ok⟩ := ok
      obtain ⟨rfl, rfl⟩ := Prod.mk.inj (Outcome.pure_eq_ok.mp ok)
      intro other member
      rcases List.mem_cons.mp member with rfl | member
      · exact ⟨apart, entry.1, List.mem_cons_self, nameOf_eq_ok.mp key_read⟩
      · exact tail split_rest other member

theorem yields_of_ofEntries {number : Nat} {entries : List (Form × Form)} {ds : List Draft}
    (ok : ofEntries v s number entries = .ok ds) :
    ∀ d ∈ ds, Operation.Yields v s (.entries entries) d := by
  simp only [ofEntries, Outcome.bind_eq_ok] at ok
  obtain ⟨⟨subject, others⟩, split_ok, op, assertion, drafted⟩ := ok
  intro d member
  obtain ⟨other, other_member, draft_ok⟩ :=
    Outcome.exists_left_of_mem (Outcome.mapM_eq_ok.mp drafted) member
  obtain ⟨apart, key, inside, read⟩ := splitEntries_mem split_ok other other_member
  obtain ⟨a, x, attr, value, rfl⟩ := draft_eq_ok.mp draft_ok
  exact .entry inside read apart attr (valueOf_eq_ok.mp value) assertion

/-- The drafts of a request are those of its operations. -/
theorem drafts_parts {ds : List Draft} (ok : drafts v s request = .ok ds) :
    ∃ parts, ds = parts.flatten ∧
      List.Forall₂ (fun place part => place.1.drafts v s place.2 = .ok part)
        (operations request).zipIdx parts := by
  simp only [drafts, Outcome.bind_eq_ok, Outcome.pure_eq_ok] at ok
  obtain ⟨parts, each, rfl⟩ := ok
  exact ⟨parts, rfl, Outcome.mapM_eq_ok.mp each⟩

/-- Every draft of a request is one that an operation of it yields. -/
theorem yields_of_drafts {ds : List Draft} (ok : drafts v s request = .ok ds) :
    ∀ d ∈ ds, ∃ operation ∈ operations request, operation.Yields v s d := by
  obtain ⟨parts, rfl, each⟩ := drafts_parts ok
  intro d member
  obtain ⟨part, part_member, inside⟩ := List.mem_flatten.mp member
  obtain ⟨⟨operation, number⟩, place, drafted⟩ := Outcome.exists_left_of_mem each part_member
  refine ⟨operation, List.fst_mem_of_mem_zipIdx place, ?_⟩
  cases operation with
  | declaration form => exact yields_of_declare drafted d inside
  | tuple items => exact yields_of_ofTuple drafted d inside
  | entries es => exact yields_of_ofEntries drafted d inside

end Transaction

/-- Where the value of a draft comes from. -/
inductive Value.Drawn (s : Store) (request : Form) : Value → Prop where
  | name (text : String) : Drawn s request (.text text)
  | reference {name : String} {e : EntityId} (found : s.entityOf name = .ok e) :
      Drawn s request (.ref e)
  | written {part : Form} {value : Value} (inside : request.Part part)
      (read : part.toValue? = some value) : Drawn s request value

/-- A draft that a request yields on a store. -/
structure Draft.Drawn (s : Store) (request : Form) (d : Draft) : Prop where
  attr : ∃ name, s.entityOf name = .ok d.attr
  op : ∃ name, s.entityOf name = .ok d.op
  value : d.value.Drawn s request

namespace Transaction

variable {v : Vocabulary} {s : Store} {request : Form}

/-- What an operation yields is drawn from the store and from what is written in the operation. -/
theorem Operation.Yields.drawn {operation : Operation} {d : Draft} (yields : operation.Yields v s d)
    (inside : request.Part operation.form) : d.Drawn s request := by
  cases yields with
  | name _ _ attr value op => exact ⟨⟨_, attr⟩, ⟨_, op⟩, value ▸ .name _⟩
  | reference _ _ _ target attr value op => exact ⟨⟨_, attr⟩, ⟨_, op⟩, value ▸ .reference target⟩
  | option _ found attr value op =>
    exact ⟨⟨_, attr⟩, ⟨_, op⟩, .written (inside.get? found) value⟩
  | entry member _ _ attr value op =>
    exact ⟨⟨_, attr⟩, ⟨_, op⟩, .written (inside.value member) value⟩
  | tuple _ _ attr value op =>
    exact ⟨⟨_, attr⟩, ⟨_, op⟩, .written (inside.item (by simp)) value⟩

/-- Every draft of a request is drawn from the store and the request. -/
theorem drafts_drawn {ds : List Draft} (ok : drafts v s request = .ok ds) :
    ∀ d ∈ ds, d.Drawn s request := by
  intro d member
  obtain ⟨operation, among, yields⟩ := yields_of_drafts ok d member
  exact yields.drawn (operations_part among)

/-! ### What drafts depend on -/

section

variable {t : Store} (names : ∀ name, s.entityOf name = t.entityOf name)

include names

/-- Stores that find the same entities for names take an operation apart alike, if they also agree
on which of the entities it refers to have facts. -/
theorem operationDrafts_congr (number : Nat) {operation : Operation}
    (facts : ∀ form subject, operation.form.Part form → subjectOf form = .ok subject →
      hasFacts s subject = hasFacts t subject) :
    operation.drafts v s number = operation.drafts v t number := by
  have entityOf : s.entityOf = t.entityOf := funext names
  -- declarations and maps ask for names only, a retraction also for the facts about its entity
  cases operation with
  | declaration form =>
    unfold Operation.drafts declare optionalDraft draft
    simp only [entityOf]
  | entries es =>
    unfold Operation.drafts ofEntries draft
    simp only [entityOf]
  | tuple items =>
    show ofTuple v s items = ofTuple v t items
    unfold ofTuple
    split
    next operation entity attr value =>
      have part : (Form.list [operation, entity, attr, value]).Part entity :=
        .item .whole (by simp)
      cases nameOf operation with
      | error fault => rfl
      | ok name =>
      cases about : subjectOf entity with
      | error fault => rfl
      | ok subject =>
        simp only [Outcome.ok_bind, entityOf, facts entity subject part about]
    next => rfl

theorem drafts_congr
    (facts : ∀ form subject, request.Part form → subjectOf form = .ok subject →
      hasFacts s subject = hasFacts t subject) :
    drafts v s request = drafts v t request := by
  unfold drafts
  have parts : ∀ place ∈ (operations request).zipIdx,
      place.1.drafts v s place.2 = place.1.drafts v t place.2 := by
    intro place member
    have written := operations_part (List.fst_mem_of_mem_zipIdx member)
    apply operationDrafts_congr names
    intro form subject inside
    exact facts form subject (written.trans inside)
  rw [Outcome.mapM_congr parts]

end

end Transaction

end Factbase
