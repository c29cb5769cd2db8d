import Mathlib

/-!
# Factbase.Proofs.Outcome

Chains of steps that may fail, and lookups: what it takes for them to succeed.
-/

namespace Factbase.Outcome

variable {ε α β : Type}

@[simp] theorem ok_bind (x : α) (next : α → Except ε β) : (.ok x >>= next) = next x := rfl

@[simp] theorem error_bind (fault : ε) (next : α → Except ε β) :
    (.error fault >>= next) = .error fault := rfl

@[simp] theorem pure_eq (x : α) : (pure x : Except ε α) = .ok x := rfl

theorem pure_eq_ok {x y : α} : (pure x : Except ε α) = .ok y ↔ x = y :=
  Except.ok.injEq x y ▸ Iff.rfl

theorem bind_eq_ok {step : Except ε α} {next : α → Except ε β} {y : β} :
    step >>= next = .ok y ↔ ∃ x, step = .ok x ∧ next x = .ok y := by
  cases step with
  | error fault => simp
  | ok x => simp

theorem map_eq_ok {step : Except ε α} {f : α → β} {y : β} :
    step.map f = .ok y ↔ ∃ x, step = .ok x ∧ f x = y := by
  cases step with
  | error fault => simp [Except.map]
  | ok x => simp [Except.map]

theorem map_ok (f : α → β) (x : α) : (Except.ok x : Except ε α).map f = .ok (f x) := rfl

theorem map_bind {γ : Type} (step : Except ε α) (next : α → Except ε β) (f : β → γ) :
    (step >>= next).map f = step >>= fun x => (next x).map f := by
  cases step <;> rfl

theorem bind_map {γ : Type} (step : Except ε α) (f : α → β) (next : β → Except ε γ) :
    step.map f >>= next = step >>= fun x => next (f x) := by
  cases step <;> rfl

theorem toOption_eq_some {step : Except ε α} {x : α} : step.toOption = some x ↔ step = .ok x := by
  cases step <;> simp [Except.toOption]

theorem toOption_bind (step : Except ε α) (next : α → Except ε β) :
    (step >>= next).toOption = step.toOption.bind fun x => (next x).toOption := by
  cases step <;> rfl

theorem toOption_map (step : Except ε α) (f : α → β) :
    (step.map f).toOption = step.toOption.map f := by
  cases step <;> rfl

/-- Steps over a list yield what each of them yields for its item. -/
theorem mapM_eq_ok {step : α → Except ε β} {xs : List α} {ys : List β} :
    xs.mapM step = .ok ys ↔ List.Forall₂ (fun x y => step x = .ok y) xs ys := by
  induction xs generalizing ys with
  | nil =>
    rw [List.mapM_nil, pure_eq_ok, List.forall₂_nil_left_iff]
    exact eq_comm
  | cons x rest ih =>
    simp only [List.mapM_cons, bind_eq_ok, pure_eq_ok, ih, List.forall₂_cons_left_iff]
    constructor
    · rintro ⟨y, first, ys, others, rfl⟩
      exact ⟨y, ys, first, others, rfl⟩
    · rintro ⟨y, ys, first, others, rfl⟩
      exact ⟨y, first, ys, others, rfl⟩

/-- What stands in the second of two related lists is related to something in the first. -/
theorem exists_left_of_mem {related : α → β → Prop} {xs : List α} {ys : List β}
    (lists : List.Forall₂ related xs ys) {y : β} (member : y ∈ ys) : ∃ x ∈ xs, related x y := by
  induction lists with
  | nil => cases member
  | @cons x _ rest _ first _ ih =>
    rcases List.mem_cons.mp member with rfl | later
    · exact ⟨x, List.mem_cons_self, first⟩
    · obtain ⟨source, source_member, same⟩ := ih later
      exact ⟨source, List.mem_cons_of_mem x source_member, same⟩

theorem exists_right_of_mem {related : α → β → Prop} {xs : List α} {ys : List β}
    (lists : List.Forall₂ related xs ys) {x : α} (member : x ∈ xs) : ∃ y ∈ ys, related x y :=
  exists_left_of_mem lists.flip member

/-- Related lists are related place by place. -/
theorem exists_right_at {related : α → β → Prop} {xs : List α} {ys : List β}
    (lists : List.Forall₂ related xs ys) {i : Nat} {x : α} (at_ : xs[i]? = some x) :
    ∃ y, ys[i]? = some y ∧ related x y := by
  induction lists generalizing i with
  | nil => cases at_
  | cons first _ ih =>
    cases i with
    | zero =>
      obtain rfl := Option.some.inj at_
      exact ⟨_, rfl, first⟩
    | succ i => exact ih at_

/-- Steps that all succeed with a known result yield those results. -/
theorem mapM_of_ok {step : α → Except ε β} {f : α → β} {xs : List α}
    (ok : ∀ x ∈ xs, step x = .ok (f x)) : xs.mapM step = .ok (xs.map f) := by
  rw [mapM_eq_ok, List.forall₂_map_right_iff]
  exact List.forall₂_same.mpr ok

/-- Steps over a list succeed when each of them does. -/
theorem exists_mapM {step : α → Except ε β} {xs : List α} (each : ∀ x ∈ xs, ∃ y, step x = .ok y) :
    ∃ ys, xs.mapM step = .ok ys := by
  induction xs with
  | nil => exact ⟨[], rfl⟩
  | cons x rest ih =>
    obtain ⟨y, first⟩ := each x List.mem_cons_self
    obtain ⟨ys, others⟩ := ih fun y member => each y (List.mem_cons_of_mem x member)
    exact ⟨y :: ys, by rw [List.mapM_cons, first, ok_bind, others]; rfl⟩

theorem mapM_congr {step other : α → Except ε β} {xs : List α}
    (same : ∀ x ∈ xs, step x = other x) : xs.mapM step = xs.mapM other := by
  induction xs with
  | nil => rfl
  | cons x rest ih =>
    rw [List.mapM_cons, List.mapM_cons, same x List.mem_cons_self,
      ih fun y member => same y (List.mem_cons_of_mem x member)]

/-- Steps that rename what they yield rename all that a list of them yields. -/
theorem mapM_map {γ : Type} (step : α → Except ε β) (f : β → γ) (xs : List α) :
    xs.mapM (fun x => (step x).map f) = (xs.mapM step).map (List.map f) := by
  induction xs with
  | nil => rfl
  | cons x rest ih =>
    rw [List.mapM_cons, List.mapM_cons, ih, bind_map, map_bind]
    cases step x with
    | error fault => rfl
    | ok y => cases rest.mapM step <;> rfl

/-- Steps over a list fail with the fault of the first one that fails. -/
theorem mapM_eq_error {step : α → Except ε β} {xs : List α} {fault : ε} :
    xs.mapM step = .error fault ↔ ∃ before x after, xs = before ++ x :: after ∧
      (∀ y ∈ before, ∃ z, step y = .ok z) ∧ step x = .error fault := by
  induction xs with
  | nil =>
    constructor
    · intro failed
      cases failed
    · rintro ⟨before, x, after, split_at, _⟩
      cases before <;> cases split_at
  | cons x rest ih =>
    rw [List.mapM_cons]
    constructor
    · intro failed
      cases first : step x with
      | error fault' =>
        rw [first] at failed
        cases failed
        exact ⟨[], x, rest, rfl, by simp, first⟩
      | ok y =>
        -- the step that fails comes later
        have later : rest.mapM step = .error fault := by
          cases others : rest.mapM step with
          | error fault' =>
            rw [first, others] at failed
            cases failed
            rfl
          | ok ys =>
            rw [first, others] at failed
            cases failed
        obtain ⟨before, z, after, rfl, earlier, at_⟩ := ih.mp later
        exact ⟨x :: before, z, after, rfl, List.forall_mem_cons.mpr ⟨⟨y, first⟩, earlier⟩, at_⟩
    · rintro ⟨before, z, after, split_at, earlier, at_⟩
      cases before with
      | nil =>
        obtain ⟨rfl, rfl⟩ := List.cons.inj split_at
        rw [at_]
        rfl
      | cons y before =>
        obtain ⟨rfl, rfl⟩ := List.cons.inj split_at
        obtain ⟨⟨w, first⟩, earlier⟩ := List.forall_mem_cons.mp earlier
        rw [first, ih.mpr ⟨before, z, after, rfl, earlier, at_⟩]
        rfl

/-! ### Lookups -/

theorem mem_of_lookup [BEq α] [LawfulBEq α] {entries : List (α × β)} {key : α} {x : β}
    (found : entries.lookup key = some x) : (key, x) ∈ entries := by
  obtain ⟨before, after, split_at, _⟩ := List.lookup_eq_some_iff.mp found
  rw [split_at]
  exact List.mem_append_right before List.mem_cons_self

theorem lookup_eq_none [BEq α] [LawfulBEq α] {entries : List (α × β)} {key : α} :
    entries.lookup key = none ↔ ¬∃ x, (key, x) ∈ entries := by
  rw [List.lookup_eq_none_iff]
  constructor
  · rintro absent ⟨x, member⟩
    simpa using absent (key, x) member
  · rintro absent ⟨other, x⟩ member
    have differ : key ≠ other := by
      rintro rfl
      exact absent ⟨x, member⟩
    simpa using differ

end Factbase.Outcome
