import Factbase.Proofs.Log
import Factbase.Store.Indexed

/-!
# Factbase.Proofs.Indexed

The indexed store is its log. `Indexed.Coherent` says that every index, and every number and name
kept beside the log, tells what the log tells; inserting a fact keeps it so, and a coherent store
answers every read as its log does.
-/

namespace Factbase.Store

/-! ### Indexes -/

/-- An index files the position of each fact of a log under the key of that fact. -/
structure Index.Files {κ : Type} [BEq κ] [Hashable κ] (index : Index κ) (log : List Fact)
    (key : Fact → κ) : Prop where
  /-- No position lies beyond the log. -/
  within : ∀ k, ∀ i ∈ (index.positions k).toList, i < log.length
  /-- The positions filed under a key show the facts of that key, in insertion order. -/
  shows : ∀ k, (index.positions k).toList.filterMap (log[·]?) = log.filter (key · == k)

namespace Index.Files

variable {κ : Type} [BEq κ] [Hashable κ]

theorem empty (key : Fact → κ) : (Index.empty : Index κ).Files [] key where
  within k i member := by simp at member
  shows k := by simp

theorem filterMap_snoc {log : List Fact} {positions : List Nat}
    (within : ∀ i ∈ positions, i < log.length) (f : Fact) :
    positions.filterMap ((log ++ [f])[·]?) = positions.filterMap (log[·]?) := by
  apply List.filterMap_congr
  intro i member
  exact List.getElem?_append_left (within i member)

/-- Filing the position behind a log takes in one more fact. -/
theorem file [EquivBEq κ] [LawfulHashable κ] {index : Index κ} {log : List Fact} {key : Fact → κ}
    (files : index.Files log key) (f : Fact) :
    (index.file (key f) log.length).Files (log ++ [f]) key := by
  constructor
  · intro k i member
    rw [List.length_append, List.length_singleton]
    rw [positions_file] at member
    split at member
    · simp only [Array.toList_push, List.mem_append, List.mem_singleton] at member
      rcases member with old | rfl
      · exact Nat.lt_succ_of_lt (files.within _ i old)
      · exact Nat.lt_succ_self _
    · exact Nat.lt_succ_of_lt (files.within k i member)
  · intro k
    rw [positions_file, List.filter_append]
    by_cases same : (key f == k) = true
    · rw [if_pos same, Array.toList_push, List.filterMap_append,
        filterMap_snoc (files.within (key f)), files.shows]
      -- both keys file the same facts, since they are equal as keys
      have keys : log.filter (key · == key f) = log.filter (key · == k) := by
        apply List.filter_congr
        intro g _
        exact BEq.congr_right same
      simp [keys, same]
    · rw [if_neg same, filterMap_snoc (files.within k), files.shows]
      simp [same]

/-- As many positions are filed under a key as the log has facts of that key. -/
theorem size_positions {index : Index κ} {log : List Fact} {key : Fact → κ}
    (files : index.Files log key) (k : κ) :
    (index.positions k).size = log.countP (key · == k) := by
  rw [List.countP_eq_length_filter, ← files.shows k, ← Array.length_toList]
  have within := files.within k
  generalize (index.positions k).toList = positions at within
  induction positions with
  | nil => rfl
  | cons i rest ih =>
    have bound : i < log.length := within i (by simp)
    rw [List.filterMap_cons_some (List.getElem?_eq_getElem bound), List.length_cons,
      List.length_cons, ih fun j member => within j (by simp [member])]

end Index.Files

namespace Indexed

/-! ### Coherence -/

/-- Everything that is kept beside the log tells what the log tells. -/
structure Coherent (s : Indexed) : Prop where
  byEntity : s.byEntity.Files s.facts Fact.entity
  byAttr : s.byAttr.Files s.facts Fact.attr
  byValue : s.byValue.Files s.facts Fact.value
  byTx : s.byTx.Files s.facts Fact.tx
  byEntityAttr : s.byEntityAttr.Files s.facts fun f => (f.entity, f.attr)
  names : ∀ e, s.names[e]? = Log.nameOf s.facts e
  entities : ∀ name, s.entities[name]? = Log.entityOf s.facts name
  lastEntity : s.lastEntity = Log.lastEntity s.facts
  lastTx : s.lastTx = Log.lastTx s.facts

theorem coherent_empty : Coherent empty where
  byEntity := .empty _
  byAttr := .empty _
  byValue := .empty _
  byTx := .empty _
  byEntityAttr := .empty _
  names e := by rw [facts_empty]; simp [empty, Log.nameOf]
  entities name := by rw [facts_empty]; simp [empty, Log.entityOf]
  lastEntity := rfl
  lastTx := rfl

/-- Recording a name changes nothing but the two maps of names. -/
theorem recordName_keeps {α : Type} (view : Indexed → α)
    (blind : ∀ s names entities, view { s with names, entities } = view s)
    (s : Indexed) (f : Fact) : view (s.recordName f) = view s := by
  unfold recordName
  split
  · rfl
  · exact blind s _ _

/-- A new entry of a map of first occurrences comes after the ones it has. -/
theorem getElem?_insertIfNew_or {κ α : Type} [BEq κ] [Hashable κ] [LawfulBEq κ]
    [LawfulHashable κ] [DecidableEq κ] (m : Std.HashMap κ α) (k a : κ) (x : α) :
    (m.insertIfNew k x)[a]? = m[a]?.or (if k = a then some x else none) := by
  rw [Std.HashMap.getElem?_insertIfNew]
  by_cases same : k = a
  · subst same
    by_cases known : k ∈ m
    · simp [known]
    · simp [known]
  · simp [same]

theorem names_recordName (s : Indexed) (f : Fact) (e : EntityId) :
    (s.recordName f).names[e]? = s.names[e]?.or (Log.nameOf [f] e) := by
  unfold recordName
  rw [Log.nameOf_singleton]
  split
  next unnamed => simp [unnamed]
  next name named => rw [getElem?_insertIfNew_or, named]

theorem entities_recordName (s : Indexed) (f : Fact) (name : String) :
    (s.recordName f).entities[name]? = s.entities[name]?.or (Log.entityOf [f] name) := by
  unfold recordName
  rw [Log.entityOf_singleton]
  split
  next unnamed => simp [unnamed]
  next other named =>
    rw [getElem?_insertIfNew_or, named]
    simp [Option.some.injEq]

theorem Coherent.insert {s : Indexed} (coherent : s.Coherent) (f : Fact) :
    (s.insert f).Coherent := by
  have position : s.log.size = s.facts.length := by simp [facts]
  -- first the five indexes, then the names, then the greatest numbers
  constructor
  · rw [facts_insert, Indexed.insert, recordName_keeps Indexed.byEntity fun _ _ _ => rfl, position]
    exact coherent.byEntity.file f
  · rw [facts_insert, Indexed.insert, recordName_keeps Indexed.byAttr fun _ _ _ => rfl, position]
    exact coherent.byAttr.file f
  · rw [facts_insert, Indexed.insert, recordName_keeps Indexed.byValue fun _ _ _ => rfl, position]
    exact coherent.byValue.file f
  · rw [facts_insert, Indexed.insert, recordName_keeps Indexed.byTx fun _ _ _ => rfl, position]
    exact coherent.byTx.file f
  · rw [facts_insert, Indexed.insert, recordName_keeps Indexed.byEntityAttr fun _ _ _ => rfl,
      position]
    exact coherent.byEntityAttr.file f
  · intro e
    rw [facts_insert, Indexed.insert, names_recordName, Log.nameOf_append]
    exact congrArg (Option.or · _) (coherent.names e)
  · intro name
    rw [facts_insert, Indexed.insert, entities_recordName, Log.entityOf_append]
    exact congrArg (Option.or · _) (coherent.entities name)
  · rw [facts_insert, Indexed.insert, recordName_keeps Indexed.lastEntity fun _ _ _ => rfl,
      Log.lastEntity_snoc, ← coherent.lastEntity]
    rfl
  · rw [facts_insert, Indexed.insert, recordName_keeps Indexed.lastTx fun _ _ _ => rfl,
      Log.lastTx_snoc, ← coherent.lastTx]
    rfl

theorem Coherent.insertAll {s : Indexed} (coherent : s.Coherent) (fs : List Fact) :
    (s.insertAll fs).Coherent := by
  induction fs generalizing s with
  | nil => exact coherent
  | cons f rest ih => exact ih (coherent.insert f)

theorem coherent_ofLog (fs : List Fact) : (empty.insertAll fs).Coherent :=
  coherent_empty.insertAll fs

@[simp] theorem facts_ofLog (fs : List Fact) : (empty.insertAll fs).facts = fs := by
  rw [facts_insertAll, facts_empty, List.nil_append]

/-! ### Reads -/

theorem shortest_mem {offers : List (Array Nat)} {positions : Array Nat}
    (least : shortest offers = some positions) : positions ∈ offers := by
  induction offers generalizing positions with
  | nil => cases least
  | cons first rest ih =>
    rw [shortest] at least
    split at least
    next => simp_all
    next other found =>
      obtain rfl := Option.some.inj least
      split
      · exact List.mem_cons_of_mem _ (ih found)
      · exact List.mem_cons_self

theorem fits_of_isMatch {p : Pattern} {f : Fact} (matched : p.isMatch f = true) :
    Pattern.fits p.entity f.entity = true ∧ Pattern.fits p.attr f.attr = true ∧
      Pattern.fits p.value f.value = true ∧ Pattern.fits p.tx f.tx = true ∧
      Pattern.fits p.op f.op = true := by
  simpa only [Pattern.isMatch, Bool.and_eq_true, and_assoc] using matched

/-- The positions that a place offers show at least the facts that fill the place. -/
theorem Index.Files.offers {κ : Type} [BEq κ] [EquivBEq κ] [Hashable κ] {index : Index κ}
    {log : List Fact} {key : Fact → κ} (files : index.Files log key) {p : Pattern} {k : κ}
    (filled : ∀ f, p.isMatch f = true → Pattern.fits (some k) (key f) = true) :
    ∃ q : Fact → Bool, (index.positions k).toList.filterMap (log[·]?) = log.filter q ∧
      ∀ f, p.isMatch f = true → q f = true :=
  ⟨(key · == k), files.shows k, fun f matched => BEq.symm (filled f matched)⟩

/-- Whichever positions are offered for a pattern, they show facts in insertion order and leave
out none that matches. -/
theorem Coherent.offers_show {s : Indexed} (coherent : s.Coherent) {p : Pattern}
    {positions : Array Nat} (offered : positions ∈ s.offers p) :
    ∃ q : Fact → Bool, positions.toList.filterMap (s.facts[·]?) = s.facts.filter q ∧
      ∀ f, p.isMatch f = true → q f = true := by
  simp only [offers, List.append_assoc, List.mem_append, Option.mem_toList,
    Option.map_eq_some_iff] at offered
  -- the positions come from the pair of entity and attribute, or from one of the four places
  rcases offered with both | ⟨e, bound, rfl⟩ | ⟨a, bound, rfl⟩ | ⟨v, bound, rfl⟩ | ⟨t, bound, rfl⟩
  · split at both
    next e a boundE boundA =>
      obtain rfl := List.mem_singleton.mp both
      apply Index.Files.offers coherent.byEntityAttr
      intro f matched
      have filled := fits_of_isMatch matched
      rw [boundE, boundA] at filled
      simp only [Pattern.fits, beq_iff_eq] at filled ⊢
      rw [filled.1, filled.2.1]
    next => cases both
  · apply Index.Files.offers coherent.byEntity
    intro f matched
    exact bound ▸ (fits_of_isMatch matched).1
  · apply Index.Files.offers coherent.byAttr
    intro f matched
    exact bound ▸ (fits_of_isMatch matched).2.1
  · apply Index.Files.offers coherent.byValue
    intro f matched
    exact bound ▸ (fits_of_isMatch matched).2.2.1
  · apply Index.Files.offers coherent.byTx
    intro f matched
    exact bound ▸ (fits_of_isMatch matched).2.2.2.1

/-- A lookup finds what a scan of the whole log finds, whichever index it walks. -/
theorem Coherent.lookup_eq {s : Indexed} (coherent : s.Coherent) (p : Pattern)
    (asOf : EntityId) : s.lookup p asOf = Log.lookup s.facts p asOf := by
  rw [lookup, candidates, Log.lookup]
  split
  next => rfl
  next positions chosen =>
    obtain ⟨q, shown, kept⟩ := coherent.offers_show (shortest_mem chosen)
    have walk : positions.toList.filterMap (fun i => s.log[i]?) = s.facts.filter q := by
      rw [← shown]
      simp only [facts, Array.getElem?_toList]
    -- what the index leaves out would not have matched
    rw [walk, List.filter_filter]
    apply List.filter_congr
    intro f _
    by_cases matched : p.isMatch f = true
    · simp [kept f matched]
    · simp [matched]

theorem Coherent.nameOf_eq {s : Indexed} (coherent : s.Coherent) (e : EntityId) :
    s.nameOf e = Log.nameOf s.facts e :=
  coherent.names e

theorem Coherent.entityOf_eq {s : Indexed} (coherent : s.Coherent) (name : String) :
    s.entityOf name = Log.entityOf s.facts name :=
  coherent.entities name

theorem Coherent.count_eq {s : Indexed} (coherent : s.Coherent) (e : EntityId) :
    s.count e = Log.count s.facts e :=
  coherent.byEntity.size_positions e

theorem size_eq (s : Indexed) : s.size = s.facts.length := by
  simp [size, facts]

theorem Coherent.identities_eq {s : Indexed} (coherent : s.Coherent) :
    s.identities = Log.identities s.facts := by
  have walk : s.identities =
      ((s.byAttr.positions nameAttribute).toList.filterMap (s.facts[·]?)).filterMap
        fun f => f.value.asText?.map (f.entity, ·) := by
    rw [List.filterMap_filterMap, identities]
    simp only [facts, Array.getElem?_toList]
  rw [walk, coherent.byAttr.shows, List.filterMap_filter, Log.identities]
  apply List.filterMap_congr
  intro f _
  by_cases naming : f.attr = nameAttribute <;> simp [Fact.name?, naming]

end Indexed

end Factbase.Store
