import Factbase.Proofs.Outcome
import Factbase.Query.Bindings

/-!
# Factbase.Proofs.Bindings

Rows of bindings, seen from the occurrences they were made of. Merging keeps the value that a
variable was bound to first and fails where a later one differs from it; since equality of values
is transitive, it makes no difference whether occurrences are merged one by one or as a row.
-/

namespace Factbase.Query

/-- Whether each variable stands for equal values wherever it occurs. -/
def Consistent (occurrences : List (String × Value)) : Prop :=
  ∀ x ∈ occurrences, ∀ y ∈ occurrences, x.1 = y.1 → (x.2 == y.2) = true

instance (occurrences : List (String × Value)) : Decidable (Consistent occurrences) :=
  inferInstanceAs (Decidable (∀ x ∈ occurrences, ∀ y ∈ occurrences, _))

namespace Bindings

/-! ### One occurrence -/

theorem bind_of_bound {row : Bindings} {entry : String × Value} {value : Value}
    (bound : row.lookup entry.1 = some value) :
    bind row entry = if value == entry.2 then some row else none := by
  rw [bind, bound]

theorem bind_of_new {row : Bindings} {entry : String × Value} (new : row.lookup entry.1 = none) :
    bind row entry = some (row ++ [entry]) := by
  rw [bind, new]

/-- Another occurrence of a bound variable is not the first one. -/
theorem lookup_insert_of_bound {row rest : List (String × Value)} {entry : String × Value}
    {value : Value} (bound : row.lookup entry.1 = some value) (name : String) :
    (row ++ entry :: rest).lookup name = (row ++ rest).lookup name := by
  rw [List.lookup_append, List.lookup_append, List.lookup_cons]
  by_cases same : name = entry.1
  · subst same
    rw [bound, Option.some_or, Option.some_or]
  · rw [beq_false_of_ne same]

/-! ### Many occurrences -/

theorem merge_nil (row : Bindings) : merge row [] = some row := rfl

theorem merge_cons (row : Bindings) (entry : String × Value) (rest : List (String × Value)) :
    merge row (entry :: rest) = (bind row entry).bind (merge · rest) :=
  List.foldlM_cons

theorem merge_append (row : Bindings) (first second : List (String × Value)) :
    merge row (first ++ second) = (merge row first).bind (merge · second) :=
  List.foldlM_append

theorem merge_snoc (row : Bindings) (init : List (String × Value)) (entry : String × Value) :
    merge row (init ++ [entry]) = (merge row init).bind (bind · entry) := by
  rw [merge_append]
  congr 1
  funext merged
  rw [merge_cons]
  cases bind merged entry <;> rfl

/-- A merged row binds each variable to its value at the first occurrence. -/
theorem lookup_merge {row merged : Bindings} {occurrences : List (String × Value)}
    (ok : merge row occurrences = some merged) (name : String) :
    merged.lookup name = (row ++ occurrences).lookup name := by
  -- the row grows with each new variable, so the claim is about all rows
  induction occurrences generalizing row with
  | nil =>
    obtain rfl := Option.some.inj ok
    rw [List.append_nil]
  | cons entry rest ih =>
    rw [merge_cons, Option.bind_eq_some_iff] at ok
    obtain ⟨next, bound, ok⟩ := ok
    cases found : row.lookup entry.1 with
    | none =>
      rw [bind_of_new found] at bound
      obtain rfl := Option.some.inj bound
      rw [ih ok, List.append_assoc, List.singleton_append]
    | some value =>
      rw [bind_of_bound found, Option.ite_none_right_eq_some] at bound
      obtain rfl := Option.some.inj bound.2
      rw [ih ok, lookup_insert_of_bound found]

/-- Merging succeeds exactly when every occurrence agrees with the first one of its variable. -/
theorem isSome_merge {row : Bindings} {occurrences : List (String × Value)} :
    (merge row occurrences).isSome ↔ ∀ entry ∈ occurrences,
      ∀ value, (row ++ occurrences).lookup entry.1 = some value → (value == entry.2) = true := by
  induction occurrences generalizing row with
  | nil => simp [merge_nil]
  | cons entry rest ih =>
    rw [merge_cons, List.forall_mem_cons]
    cases found : row.lookup entry.1 with
    | none =>
      -- the entry is the first occurrence itself
      have first : (row ++ entry :: rest).lookup entry.1 = some entry.2 := by
        rw [List.lookup_append, found, Option.none_or, List.lookup_cons_self]
      have agrees : ∀ value, (row ++ entry :: rest).lookup entry.1 = some value →
          (value == entry.2) = true := by
        intro value same
        obtain rfl := Option.some.inj (first.symm.trans same)
        exact BEq.rfl
      rw [bind_of_new found, Option.bind_some, ih, List.append_assoc, List.singleton_append]
      exact (and_iff_right agrees).symm
    | some first =>
      have bound : (row ++ entry :: rest).lookup entry.1 = some first := by
        rw [List.lookup_append, found, Option.some_or]
      rw [bind_of_bound found]
      simp only [lookup_insert_of_bound found]
      by_cases same : (first == entry.2) = true
      · have agrees : ∀ value, (row ++ rest).lookup entry.1 = some value →
            (value == entry.2) = true := by
          intro value other
          rw [← lookup_insert_of_bound found, bound] at other
          exact Option.some.inj other ▸ same
        rw [if_pos same, Option.bind_some, ih]
        exact (and_iff_right agrees).symm
      · rw [if_neg same]
        constructor
        · intro merged
          cases merged
        · intro agrees
          exact absurd (agrees.1 first (lookup_insert_of_bound found _ ▸ bound)) same

/-- From nothing, occurrences are merged exactly when they are consistent. -/
theorem isSome_merge_nil {occurrences : List (String × Value)} :
    (merge [] occurrences).isSome ↔ Consistent occurrences := by
  rw [isSome_merge]
  constructor
  · intro agrees x x_member y y_member same
    have some_first : (occurrences.lookup x.1).isSome := by
      rw [List.lookup_isSome_iff]
      exact ⟨x, x_member, BEq.rfl⟩
    obtain ⟨first, found⟩ := Option.isSome_iff_exists.mp some_first
    -- both values equal the first one
    have with_x := agrees x x_member first found
    have with_y := agrees y y_member first (same ▸ found)
    exact BEq.trans (BEq.symm with_x) with_y
  · intro consistent entry member value found
    have first : (entry.1, value) ∈ occurrences := Outcome.mem_of_lookup found
    exact consistent _ first entry member rfl

/-! ### Rows of occurrences -/

/-- A variable that a row binds is bound to an equal value after merging the row. -/
theorem lookup_of_merged {row other merged : Bindings} (ok : merge row other = some merged)
    {name : String} {value : Value} (bound : other.lookup name = some value) :
    ∃ first, merged.lookup name = some first ∧ (first == value) = true := by
  have member : (name, value) ∈ other := Outcome.mem_of_lookup bound
  have some_first : ((row ++ other).lookup name).isSome := by
    rw [List.lookup_append, bound]
    cases row.lookup name <;> rfl
  obtain ⟨first, found⟩ := Option.isSome_iff_exists.mp some_first
  have agrees := isSome_merge.mp (ok ▸ rfl) (name, value) member first found
  exact ⟨first, (lookup_merge ok name).trans found, agrees⟩

/-- Merging the row of some occurrences is merging the occurrences. -/
theorem merge_row (row : Bindings) (occurrences : List (String × Value)) :
    (merge [] occurrences).bind (merge row) = merge row occurrences := by
  -- the last occurrence meets the row of all those before it
  induction occurrences using List.reverseRecOn with
  | nil => rfl
  | append_singleton init entry ih =>
    rw [merge_snoc, merge_snoc, ← ih]
    cases merge [] init with
    | none => rfl
    | some other =>
      rw [Option.bind_some, Option.bind_some]
      cases bound : other.lookup entry.1 with
      | none => rw [bind_of_new bound, Option.bind_some, merge_snoc]
      | some value =>
        rw [bind_of_bound bound]
        cases merged : merge row other with
        | none =>
          split
          · exact merged
          · rfl
        | some together =>
          -- the variable is bound to an equal value by now
          obtain ⟨first, found, equal⟩ := lookup_of_merged merged bound
          rw [Option.bind_some, bind_of_bound found, BEq.congr_left equal]
          split
          · exact merged
          · rfl

end Bindings

end Factbase.Query
