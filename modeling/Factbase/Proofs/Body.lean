import Factbase.Proofs.Outcome
import Factbase.Service.Body

/-!
# Factbase.Proofs.Body

What the body of a request says. A body is read from its start, entry by entry, but what it says does
not depend on the order of its entries: each key that is known stands in it at most once, each other
key before a value that is well formed. A list says the same by the places of its items.
-/

namespace Factbase.Service.Body

open Json (Outline)

/-! ### Parts of a body -/

inductive SaysText : Outline → String → Prop where
  | text (s : String) : SaysText (.text (some s)) s

/-- The number of a transaction, or null for none. -/
inductive SaysTransaction : Outline → Option Nat → Prop where
  | null : SaysTransaction .null none
  | number (n : Nat) : SaysTransaction (.number (some (.int n))) (some n)

/-- A list of values, in which lists and objects are nested no deeper than 125. -/
inductive SaysValues : Outline → List Json → Prop where
  | list {items : List Outline} {values : List Json}
      (told : List.Forall₂ (fun item value => item.toJson Json.parse 125 = .ok value) items values) :
      SaysValues (.list items) values

theorem text_eq_ok {o : Outline} {s : String} : text o = .ok s ↔ SaysText o s := by
  constructor
  · intro ok
    unfold text Outline.asText at ok
    split at ok
    · cases ok
      exact .text s
    · cases ok
  · rintro ⟨⟩
    rfl

theorem transaction_eq_ok {o : Outline} {tx : Option Nat} :
    transaction o = .ok tx ↔ SaysTransaction o tx := by
  constructor
  · intro ok
    unfold transaction at ok
    split at ok
    · cases ok
      exact .null
    next n =>
      split at ok
      next positive =>
        cases ok
        have number := SaysTransaction.number n.toNat
        rwa [Int.toNat_of_nonneg positive] at number
      next => cases ok
    · cases ok
  · rintro (_ | n)
    · rfl
    · simp [transaction]

theorem itemsToJson_eq_ok {parse : String → Option Json} {depth : Nat} {items : List Outline}
    {values : List Json} : Outline.itemsToJson parse depth items = .ok values ↔
      List.Forall₂ (fun item value => item.toJson parse depth = .ok value) items values := by
  rw [← Outcome.mapM_eq_ok]
  suffices same : Outline.itemsToJson parse depth items = items.mapM (·.toJson parse depth) by
    rw [same]
  induction items with
  | nil => rfl
  | cons item rest ih => rw [Outline.itemsToJson, ih, List.mapM_cons]

theorem reading_eq_ok {α : Type} {outcome : Except Outline.Flaw α} {x : α} :
    reading outcome = .ok x ↔ outcome = .ok x := by
  cases outcome <;> simp [reading, Except.mapError]

theorem values_eq_ok {o : Outline} {values : List Json} :
    Body.values o = .ok values ↔ SaysValues o values := by
  constructor
  · intro ok
    unfold Body.values at ok
    split at ok
    · exact .list (itemsToJson_eq_ok.mp (reading_eq_ok.mp ok))
    · cases ok
  · rintro ⟨told⟩
    exact reading_eq_ok.mpr (itemsToJson_eq_ok.mpr told)

/-! ### Places -/

/-- A place before and after some outlines are read into it. It is set at most once. -/
inductive Fills {α : Type} (Says : Outline → α → Prop) :
    Option α → List Outline → Option α → Prop where
  | kept (place : Option α) : Fills Says place [] place
  | set {o : Outline} {x : α} (told : Says o x) : Fills Says none [o] (some x)

section Places

variable {α : Type} {Says : Outline → α → Prop}

theorem fills_nil {place place' : Option α} : Fills Says place [] place' ↔ place = place' := by
  constructor
  · rintro ⟨⟩
    rfl
  · rintro rfl
    exact .kept place

theorem fills_one {o : Outline} {place : Option α} :
    Fills Says none [o] place ↔ ∃ x, Says o x ∧ place = some x := by
  constructor
  · rintro ⟨⟩
    next x told => exact ⟨x, told, rfl⟩
  · rintro ⟨x, told, rfl⟩
    exact .set told

theorem not_fills_more {o o' : Outline} {rest : List Outline} {place place' : Option α} :
    ¬ Fills Says place (o :: o' :: rest) place' := nofun

theorem fills_append {place last : Option α} {before after : List Outline} :
    Fills Says place (before ++ after) last ↔
      ∃ between, Fills Says place before between ∧ Fills Says between after last := by
  constructor
  · intro fills
    match before, fills with
    | [], fills => exact ⟨place, .kept place, fills⟩
    | [o], .set told => exact ⟨_, .set told, .kept _⟩
  · rintro ⟨_, _ | told, after_fills⟩
    · exact after_fills
    · cases after_fills
      exact .set told

/-- Setting a place reads one outline into it. -/
theorem set_eq_ok {read : Outline → Except Rejection α} (reads : ∀ o x, read o = .ok x ↔ Says o x)
    {place place' : Option α} {o : Outline} :
    set place read o = .ok place' ↔ Fills Says place [o] place' := by
  cases place with
  | some x =>
    constructor
    · intro ok
      cases ok
    · rintro ⟨⟩
  | none =>
    show (read o).map some = .ok place' ↔ _
    rw [Outcome.map_eq_ok, fills_one]
    simp only [reads, eq_comm]

end Places

/-! ### Entries -/

/-- The values under a key of an object. -/
def under (key : String) (entries : List (Option String × Outline)) : List Outline :=
  entries.filterMap fun entry => if entry.1 = some key then some entry.2 else none

/-- Entries that can be read as far as keys go: each has one, and what stands under a key that is not
known is well formed. -/
structure Legible (known : List String) (entries : List (Option String × Outline)) : Prop where
  keyed : ∀ entry ∈ entries, ∃ key, entry.1 = some key
  whole : ∀ key o, (some key, o) ∈ entries → key ∉ known → o.isWhole = true

theorem under_cons (key : String) (entry : Option String × Outline)
    (rest : List (Option String × Outline)) :
    under key (entry :: rest) = under key [entry] ++ under key rest := by
  unfold under
  rw [← List.filterMap_append, List.singleton_append]

theorem under_one (key other : String) (o : Outline) :
    under key [(some other, o)] = if other = key then [o] else [] := by
  by_cases same : other = key <;> simp [under, same]

section Entries

variable {known : List String} {rest : List (Option String × Outline)} {key : String} {o : Outline}

theorem legible_nil : Legible known [] := ⟨by simp, by simp⟩

theorem not_legible_keyless : ¬ Legible known ((none, o) :: rest) := by
  intro legible
  obtain ⟨key, keyless⟩ := legible.keyed (none, o) List.mem_cons_self
  cases keyless

theorem legible_cons : Legible known ((some key, o) :: rest) ↔
    (key ∉ known → o.isWhole = true) ∧ Legible known rest := by
  constructor
  · rintro ⟨keyed, whole⟩
    refine ⟨whole key o List.mem_cons_self, ?_, ?_⟩
    · exact fun entry member => keyed entry (List.mem_cons_of_mem _ member)
    · exact fun key o member => whole key o (List.mem_cons_of_mem _ member)
  · rintro ⟨first, keyed, whole⟩
    refine ⟨?_, ?_⟩
    · rintro entry (_ | ⟨_, member⟩)
      · exact ⟨key, rfl⟩
      · exact keyed entry member
    · rintro other o' (_ | ⟨_, member⟩)
      · exact first
      · exact whole other o' member

theorem skip_eq_ok {x : Unit} : skip o = .ok x ↔ o.isWhole = true := by
  unfold skip
  split <;> simp [*]

/-- Entries can be read when they are legible and what is read of them one after another fits
together: that of the first entry, and that of the others. -/
theorem readEntries_eq_ok {σ : Type} {read : σ → String → Outline → Except Rejection σ}
    (Reads : σ → List (Option String × Outline) → σ → Prop)
    (nil : ∀ {state last}, Reads state [] last ↔ state = last)
    (cons : ∀ {state last entry rest}, Reads state (entry :: rest) last ↔
      ∃ next, Reads state [entry] next ∧ Reads next rest last)
    (one : ∀ {state next key o}, read state key o = .ok next ↔
      (key ∉ known → o.isWhole = true) ∧ Reads state [(some key, o)] next)
    {entries : List (Option String × Outline)} {state last : σ} :
    readEntries read state entries = .ok last ↔
      Legible known entries ∧ Reads state entries last := by
  induction entries generalizing state with
  | nil =>
    rw [readEntries, Except.ok.injEq, nil]
    exact ⟨fun same => ⟨legible_nil, same⟩, And.right⟩
  | cons entry rest ih =>
    obtain ⟨_ | key, o⟩ := entry
    · constructor
      · intro ok
        cases ok
      · exact fun ⟨legible, _⟩ => absurd legible not_legible_keyless
    · rw [readEntries, Outcome.bind_eq_ok, legible_cons, cons]
      simp only [one, ih]
      constructor
      · rintro ⟨next, ⟨whole, first⟩, legible, others⟩
        exact ⟨⟨whole, legible⟩, next, first, others⟩
      · rintro ⟨⟨whole, legible⟩, next, first, others⟩
        exact ⟨next, ⟨whole, first⟩, legible, others⟩

end Entries

/-! ### Queries -/

/-- What is read of the entries of a query. -/
@[mk_iff]
structure ReadsQuery (before : QueryEntries) (entries : List (Option String × Outline))
    (after : QueryEntries) : Prop where
  query : Fills SaysText before.query (under "query" entries) after.query
  asOf : Fills SaysTransaction before.asOf (under "as_of" entries) after.asOf
  params : Fills SaysValues before.params (under "params" entries) after.params

theorem readsQuery_nil {before after : QueryEntries} :
    ReadsQuery before [] after ↔ before = after := by
  cases before
  cases after
  simp [readsQuery_iff, under, fills_nil]

theorem readsQuery_cons {before after : QueryEntries} {entry : Option String × Outline}
    {rest : List (Option String × Outline)} : ReadsQuery before (entry :: rest) after ↔
      ∃ between, ReadsQuery before [entry] between ∧ ReadsQuery between rest after := by
  constructor
  · rintro ⟨query, asOf, params⟩
    rw [under_cons, fills_append] at query asOf params
    obtain ⟨query₁, query, query'⟩ := query
    obtain ⟨asOf₁, asOf, asOf'⟩ := asOf
    obtain ⟨params₁, params, params'⟩ := params
    exact ⟨⟨query₁, asOf₁, params₁⟩, ⟨query, asOf, params⟩, ⟨query', asOf', params'⟩⟩
  · rintro ⟨between, first, others⟩
    constructor
    all_goals rw [under_cons, fills_append]
    · exact ⟨_, first.query, others.query⟩
    · exact ⟨_, first.asOf, others.asOf⟩
    · exact ⟨_, first.params, others.params⟩

theorem queryEntry_eq_ok {before after : QueryEntries} {key : String} {o : Outline} :
    queryEntry before key o = .ok after ↔
      (key ∉ ["query", "as_of", "params"] → o.isWhole = true) ∧
        ReadsQuery before [(some key, o)] after := by
  cases before
  cases after
  rw [readsQuery_iff]
  unfold queryEntry
  -- an entry is read into the place of its key, and leaves the other two as they are
  split_ifs with query asOf params
  · subst query
    simp [Outcome.bind_eq_ok, set_eq_ok fun _ _ => text_eq_ok, under_one, fills_nil]
  · subst asOf
    simp [Outcome.bind_eq_ok, set_eq_ok fun _ _ => transaction_eq_ok, under_one, fills_nil,
      and_left_comm]
  · subst params
    simp [Outcome.bind_eq_ok, set_eq_ok fun _ _ => values_eq_ok, under_one, fills_nil, and_comm,
      and_assoc]
  · simp [Outcome.bind_eq_ok, skip_eq_ok, under_one, fills_nil, *]

/-- What a query is read from: a text, perhaps the number of a transaction, and perhaps a list of
values. -/
@[mk_iff]
structure SaysParts (query asOf params : List Outline) (body : QueryBody) : Prop where
  query : Fills SaysText none query (some body.query)
  asOf : ∃ tx, Fills SaysTransaction none asOf tx ∧ tx.getD none = body.asOf
  params : ∃ values, Fills SaysValues none params values ∧ values.getD [] = body.params

/-- A body that says a query, by the keys of an object or by the places of a list. -/
inductive SaysQuery : Outline → QueryBody → Prop where
  | object {entries : List (Option String × Outline)} {body : QueryBody}
      (legible : Legible ["query", "as_of", "params"] entries)
      (parts : SaysParts (under "query" entries) (under "as_of" entries) (under "params" entries)
        body) : SaysQuery (.object entries) body
  | list {items : List Outline} {body : QueryBody}
      (parts : SaysParts (items.take 1) ((items.drop 1).take 1) (items.drop 2) body) :
      SaysQuery (.list items) body

theorem query_object_eq_ok {entries : List (Option String × Outline)} {body : QueryBody} :
    query (.object entries) = .ok body ↔ Legible ["query", "as_of", "params"] entries ∧
      SaysParts (under "query" entries) (under "as_of" entries) (under "params" entries) body := by
  have entries_ok : ∀ {after}, readEntries queryEntry ⟨none, none, none⟩ entries = .ok after ↔
      Legible ["query", "as_of", "params"] entries ∧ ReadsQuery ⟨none, none, none⟩ entries after :=
    readEntries_eq_ok ReadsQuery readsQuery_nil readsQuery_cons queryEntry_eq_ok
  rw [query]
  constructor
  · intro ok
    obtain ⟨after, read, ok⟩ := Outcome.bind_eq_ok.mp ok
    obtain ⟨legible, query, asOf, params⟩ := entries_ok.mp read
    split at ok
    · cases ok
    next text given =>
      cases ok
      rw [given] at query
      exact ⟨legible, query, ⟨_, asOf, rfl⟩, ⟨_, params, rfl⟩⟩
  · rintro ⟨legible, query, ⟨tx, asOf, same⟩, ⟨values, params, same'⟩⟩
    have reads : ReadsQuery ⟨none, none, none⟩ entries ⟨some body.query, tx, values⟩ :=
      ⟨query, asOf, params⟩
    simp only [entries_ok.mpr ⟨legible, reads⟩, Outcome.ok_bind, same, same']

theorem query_list_eq_ok {items : List Outline} {body : QueryBody} :
    query (.list items) = .ok body ↔
      SaysParts (items.take 1) ((items.drop 1).take 1) (items.drop 2) body := by
  obtain ⟨text, tx, values⟩ := body
  rw [saysParts_iff]
  -- a fourth item is one too many
  rcases items with _ | ⟨first, _ | ⟨second, _ | ⟨third, _ | ⟨fourth, others⟩⟩⟩⟩
  all_goals simp [query, Outcome.bind_eq_ok, text_eq_ok, transaction_eq_ok, values_eq_ok, fills_nil,
    fills_one, not_fills_more]

/-- The bodies that are read as a query are those that say one. -/
theorem query_eq_ok {o : Outline} {body : QueryBody} : query o = .ok body ↔ SaysQuery o body := by
  constructor
  · intro ok
    cases o with
    | object entries =>
      obtain ⟨legible, parts⟩ := query_object_eq_ok.mp ok
      exact .object legible parts
    | list items => exact .list (query_list_eq_ok.mp ok)
    | _ => cases ok
  · rintro (⟨legible, parts⟩ | ⟨parts⟩)
    · exact query_object_eq_ok.mpr ⟨legible, parts⟩
    · exact query_list_eq_ok.mpr parts

/-! ### Transactions -/

/-- A body that says a transaction. -/
inductive SaysTransact : Outline → String → Prop where
  | object {entries : List (Option String × Outline)} {tx : String} (legible : Legible ["tx"] entries)
      (text : Fills SaysText none (under "tx" entries) (some tx)) : SaysTransact (.object entries) tx
  | list {items : List Outline} {tx : String} (text : Fills SaysText none items (some tx)) :
      SaysTransact (.list items) tx

theorem transactEntry_eq_ok {before after : Option String} {key : String} {o : Outline} :
    transactEntry before key o = .ok after ↔
      (key ∉ ["tx"] → o.isWhole = true) ∧
        Fills SaysText before (under "tx" [(some key, o)]) after := by
  unfold transactEntry
  split_ifs with tx
  · subst tx
    simp [set_eq_ok fun _ _ => text_eq_ok, under_one]
  · simp [Outcome.bind_eq_ok, skip_eq_ok, under_one, fills_nil, *]

/-- The bodies that are read as a transaction are those that say one. -/
theorem transact_eq_ok {o : Outline} {tx : String} : transact o = .ok tx ↔ SaysTransact o tx := by
  have entries_ok : ∀ {entries after}, readEntries transactEntry none entries = .ok after ↔
      Legible ["tx"] entries ∧ Fills SaysText none (under "tx" entries) after :=
    readEntries_eq_ok (fun before entries after => Fills SaysText before (under "tx" entries) after)
      fills_nil (by intros; rw [under_cons, fills_append]) transactEntry_eq_ok
  constructor
  · intro ok
    unfold transact at ok
    split at ok
    next entries =>
      obtain ⟨after, read, ok⟩ := Outcome.bind_eq_ok.mp ok
      obtain ⟨legible, text⟩ := entries_ok.mp read
      split at ok
      · cases ok
      · cases ok
        exact .object legible text
    · cases ok
    next first rest =>
      obtain ⟨text, said, ok⟩ := Outcome.bind_eq_ok.mp ok
      split at ok
      next alone =>
        cases ok
        rw [List.isEmpty_iff.mp alone]
        exact .list (.set (text_eq_ok.mp said))
      next => cases ok
    · cases ok
  · rintro (⟨legible, text⟩ | ⟨_ | told⟩)
    · rw [transact, entries_ok.mpr ⟨legible, text⟩]
      rfl
    · rw [transact, text_eq_ok.mpr told]
      rfl

end Factbase.Service.Body
