import Factbase.Database
import Factbase.Proofs.Join

/-!
# Factbase.Proofs.ClauseOrder

The order of clauses. A query on an indexed store goes through all tuples of facts, one for each
clause; reordering the clauses reorders the places of each tuple and the tuples themselves. Whether
a tuple is consistent does not depend on the order of its places, and if it is, then whichever
occurrence of a variable comes first shows an equal value.
-/

namespace Factbase

namespace Query

/-! ### Answers in any order -/

/-- Two rows of answers that have values in the same places, and equal ones. -/
def SameRow : AnswerRow → AnswerRow → Prop :=
  List.Forall₂ (Option.Rel fun x y => (x == y) = true)

/-- Two attempts to answer a query that both fail, both find that there is no answer, or yield rows
that correspond to one another one by one, in whatever order they stand. -/
inductive SameAnswer : Except Fault (Option (List AnswerRow)) →
    Except Fault (Option (List AnswerRow)) → Prop where
  | failed (fault other : Fault) : SameAnswer (.error fault) (.error other)
  | unanswered : SameAnswer (.ok none) (.ok none)
  | answered {rows others : List AnswerRow} (same : Multiset.Rel SameRow rows others) :
      SameAnswer (.ok (some rows)) (.ok (some others))

/-- Two queries that differ at most in the order of their clauses. -/
structure Reordered (q q' : Query) : Prop where
  find : q.find = q'.find
  inputs : q.inputs = q'.inputs
  clauses : Option.Rel List.Perm q.clauses q'.clauses

/-! ### Occurrences in any order -/

theorem Consistent.perm {xs ys : List (String × Value)} (perm : xs.Perm ys) :
    Consistent xs ↔ Consistent ys := by
  simp only [Consistent, perm.mem_iff]

/-- Whichever occurrence of a variable comes first, it shows an equal value. -/
theorem Consistent.lookup_perm {xs ys : List (String × Value)} (consistent : Consistent xs)
    (perm : xs.Perm ys) (name : String) :
    Option.Rel (fun x y => (x == y) = true) (xs.lookup name) (ys.lookup name) := by
  cases found : xs.lookup name with
  | none =>
    have absent : ys.lookup name = none := by
      rw [List.lookup_eq_none_iff] at found ⊢
      exact fun entry member => found entry (perm.mem_iff.mpr member)
    rw [absent]
    exact .none
  | some x =>
    have first : (name, x) ∈ xs := Outcome.mem_of_lookup found
    cases other : ys.lookup name with
    | none =>
      have absent := List.lookup_eq_none_iff.mp other (name, x) (perm.mem_iff.mp first)
      simp at absent
    | some y =>
      have second : (name, y) ∈ xs := perm.mem_iff.mpr (Outcome.mem_of_lookup other)
      exact .some (consistent _ first _ second rfl)

/-! ### Tuples in any order -/

/-- Apart from any order, the tuples of some lists are their sections. -/
theorem coe_tuples {α : Type} (xss : List (List α)) :
    (tuples xss : Multiset (List α)).map Multiset.ofList
      = Multiset.Sections (xss.map Multiset.ofList : List (Multiset α)) := by
  induction xss with
  | nil => rfl
  | cons xs rest ih =>
    rw [tuples_cons, List.map_cons, ← Multiset.cons_coe, Multiset.sections_cons, ← ih,
      ← Multiset.coe_bind, Multiset.map_bind]
    congr 1
    funext x
    rw [← Multiset.map_coe, Multiset.map_map, Multiset.map_map]
    rfl

/-- The tuples of some lists in another order are the same tuples, each in that order. -/
theorem tuples_perm {α : Type} {xss yss : List (List α)} (perm : xss.Perm yss) :
    Multiset.Rel List.Perm (tuples xss : Multiset (List α)) (tuples yss) := by
  -- sections forget in which order the lists stand
  have sections : (tuples xss : Multiset (List α)).map Multiset.ofList
      = (tuples yss : Multiset (List α)).map Multiset.ofList := by
    rw [coe_tuples, coe_tuples, Multiset.coe_eq_coe.mpr (perm.map _)]
  simpa only [Multiset.coe_eq_coe] using Multiset.rel_map.mp (Multiset.rel_eq.mpr sections)

/-- Tuples that correspond show rows that correspond, as far as they are consistent. -/
theorem rel_shown {ts ts' : Multiset (List (List (String × Value)))}
    (same : Multiset.Rel List.Perm ts ts') (find : List String) :
    Multiset.Rel SameRow
      ((ts.filter fun t => Consistent t.flatten).map fun t =>
        find.map fun name => t.flatten.lookup name)
      ((ts'.filter fun t => Consistent t.flatten).map fun t =>
        find.map fun name => t.flatten.lookup name) := by
  induction same with
  | zero => exact .zero
  | @cons t t' rest rest' perm _ ih =>
    have places : t.flatten.Perm t'.flatten := perm.flatten
    by_cases consistent : Consistent t.flatten
    · have other : Consistent t'.flatten := (Consistent.perm places).mp consistent
      simp only [consistent, other, Multiset.filter_cons_of_pos, Multiset.map_cons]
      refine .cons ?_ ih
      rw [SameRow, List.forall₂_map_left_iff, List.forall₂_map_right_iff]
      exact List.forall₂_same.mpr fun name _ => consistent.lookup_perm places name
    · have other : ¬ Consistent t'.flatten := mt (Consistent.perm places).mpr consistent
      simp only [consistent, other, not_false_eq_true, Multiset.filter_cons_of_neg]
      exact ih

/-! ### Evaluation -/

/-- The facts that a clause is about on an indexed store as of a transaction. -/
def Compiled.found (s : Store.Indexed) (retract asOf : EntityId) (c : Compiled) : List Fact :=
  match c.2 with
  | none => []
  | some p => Fact.standing retract (s.lookup p asOf)

/-- What the variables of a clause stand for in each of the facts that it is about. -/
def Compiled.readings (v : Vocabulary) (s : Store.Indexed) (retract asOf : EntityId)
    (c : Compiled) : List (List (String × Value)) :=
  (c.found s retract asOf).map (c.1.entries v (.indexed s))

theorem tuples_readings (v : Vocabulary) (s : Store.Indexed) (retract asOf : EntityId)
    (cs : List Compiled) :
    (tuples (cs.map (Compiled.found s retract asOf))).map
        (List.zipWith (Clause.entries v (.indexed s)) (cs.map Prod.fst))
      = tuples (cs.map (Compiled.readings v s retract asOf)) := by
  induction cs with
  | nil => rfl
  | cons c rest ih =>
    simp only [List.map_cons, tuples_cons, ← ih, Compiled.readings, List.map_flatMap,
      List.flatMap_map, List.map_map]
    rfl

/-- On an indexed store, compiled clauses are answered by the consistent tuples of their
readings. -/
theorem joinAll_indexed (v : Vocabulary) (s : Store.Indexed) (retract asOf : EntityId)
    (cs : List Compiled) :
    joinAll (rows v (.indexed s) retract asOf) cs [[]]
      = .ok ((tuples (cs.map (Compiled.readings v s retract asOf))).filterMap
          fun t => Bindings.merge [] t.flatten) := by
  have found : ∀ c ∈ cs, rows v (.indexed s) retract asOf c
      = .ok ((c.found s retract asOf).filterMap (c.1.bindings v (.indexed s))) := by
    intro c _
    unfold rows Compiled.found
    cases c.2 <;> rfl
  rw [joinAll_eq found [[]], List.flatMap_singleton, ← tuples_readings, List.filterMap_map]
  rfl

/-- Compiled clauses in another order are joined to rows that correspond. -/
theorem exists_joined_perm (v : Vocabulary) (s : Store.Indexed) (retract asOf : EntityId)
    {cs cs' : List Compiled} (perm : cs.Perm cs') (find : List String) :
    ∃ joined joined', joinAll (rows v (.indexed s) retract asOf) cs [[]] = .ok joined ∧
      joinAll (rows v (.indexed s) retract asOf) cs' [[]] = .ok joined' ∧
      Multiset.Rel SameRow (joined.map fun row => find.map fun name => row.lookup name)
        (joined'.map fun row => find.map fun name => row.lookup name) := by
  refine ⟨_, _, joinAll_indexed v s retract asOf cs, joinAll_indexed v s retract asOf cs', ?_⟩
  have tuples := tuples_perm (perm.map (Compiled.readings v s retract asOf))
  rw [map_filterMap_merge, map_filterMap_merge]
  simpa using rel_shown tuples find

/-- Steps over items in another order succeed alike, with the same results in that order. -/
theorem exists_mapM_perm {α β ε : Type} {step : α → Except ε β} {xs xs' : List α}
    (perm : xs.Perm xs') {ys : List β} (ok : xs.mapM step = .ok ys) :
    ∃ ys', xs'.mapM step = .ok ys' ∧ ys.Perm ys' := by
  obtain ⟨ys', others, same⟩ := List.perm_comp_forall₂ perm.symm (Outcome.mapM_eq_ok.mp ok)
  exact ⟨ys', Outcome.mapM_eq_ok.mpr others, same.symm⟩

end Query

namespace Database

/-- Reordering the clauses of a query to an indexed store changes nothing but the order of the rows,
and which one of equal values they show. -/
theorem query_reordered {db : Database} (indexed : db.store.backend = .indexed) {q q' : Query}
    (reordered : q.Reordered q') (asOf : Option EntityId) (params : List Form) :
    Query.SameAnswer (db.query q asOf params) (db.query q' asOf params) := by
  obtain ⟨store, v⟩ := db
  cases store with
  | table t => cases indexed
  | indexed s =>
  obtain ⟨find, inputs, clauses⟩ := q
  obtain ⟨find', inputs', clauses'⟩ := q'
  obtain ⟨rfl, rfl, clauses⟩ := reordered
  cases clauses with
  | none => exact .unanswered
  | @some clauses clauses' perm =>
  -- parameters take the places of inputs, which are the same
  have parameters : Query.parameters ⟨find, inputs, some clauses'⟩ params
      = Query.parameters ⟨find, inputs, some clauses⟩ params := rfl
  unfold query Store.answer
  dsimp only
  rw [parameters]
  generalize Query.compile (.indexed s) (Query.parameters ⟨find, inputs, some clauses⟩ params)
    = compile
  cases (Store.indexed s).entityOf v.retractOperation with
  | error fault => exact .failed fault fault
  | ok retract =>
  rw [Outcome.ok_bind, Outcome.ok_bind]
  -- each clause is compiled by itself, whatever stands before it
  cases compiled : clauses.mapM compile with
  | error fault =>
    cases other : clauses'.mapM compile with
    | error fault' => exact .failed fault fault'
    | ok cs' =>
      -- what can be compiled in one order can be in the other
      obtain ⟨cs, ok, _⟩ := Query.exists_mapM_perm perm.symm other
      cases compiled.symm.trans ok
  | ok cs =>
    obtain ⟨cs', other, same⟩ := Query.exists_mapM_perm perm compiled
    obtain ⟨joined, joined', ok, ok', rel⟩ :=
      Query.exists_joined_perm v s retract (Query.effectiveTx (.indexed s) asOf) same find
    rw [other, Outcome.ok_bind, Outcome.ok_bind, ← same.isEmpty_eq]
    split
    · exact .unanswered
    · rw [ok, ok']
      exact .answered rel

/-- Whom someone likes is the same in either order of two clauses, whether it is shown as the number
that one of them binds or as the reference that the other does. -/
theorem query_reordered_likes :
    let db : Database := ⟨Store.ofLog [⟨2, 0, .text ":db.operation/retract", 1, 1⟩,
      ⟨7, 0, .text ":likes", 1, 1⟩, ⟨8, 7, .int 9, 1, 1⟩, ⟨9, 7, .int 8, 1, 1⟩], .standard⟩
    let likes := [Form.symbol "?x", .keyword "likes", .symbol "?y"]
    let liked := [Form.symbol "?y", .keyword "likes", .int 8]
    let q : Query := ⟨["?y"], [], some [likes, liked]⟩
    let q' : Query := ⟨["?y"], [], some [liked, likes]⟩
    db.store.backend = .indexed ∧ q.Reordered q' ∧
      Query.SameAnswer (db.query q none []) (db.query q' none []) := by
  intro db likes liked q q'
  have swapped : q.Reordered q' := ⟨rfl, rfl, .some (.swap ..)⟩
  exact ⟨rfl, swapped, query_reordered rfl swapped none []⟩

end Database

end Factbase
