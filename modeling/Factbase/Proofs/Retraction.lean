import Factbase.Fact.Retraction
import Factbase.Proofs.Log

/-!
# Factbase.Proofs.Retraction

What stands among some facts. The latest retraction of a place decides for all of them: a fact is
hidden by some later retraction of its entity and attribute exactly when the latest one hides it.
-/

namespace Factbase.Fact

/-- Whether a fact is a retraction that hides another one: it is about the same entity and
attribute, whatever value it carries, and later. -/
def Hides (retract : EntityId) (g f : Fact) : Prop :=
  g.op = retract ∧ g.entity = f.entity ∧ g.attr = f.attr ∧ f.tx < g.tx

instance (retract : EntityId) (g f : Fact) : Decidable (g.Hides retract f) :=
  inferInstanceAs (Decidable (_ ∧ _))

/-- The transactions of the retractions among some facts on an entity and attribute. -/
def retractionsOf (retract : EntityId) (facts : List Fact) (place : EntityId × EntityId) :
    List EntityId :=
  (facts.filter fun g => g.op == retract && (g.entity, g.attr) == place).map Fact.tx

theorem mem_retractionsOf {retract : EntityId} {facts : List Fact} {f : Fact} {t : EntityId} :
    t ∈ retractionsOf retract facts (f.entity, f.attr) ↔
      ∃ g ∈ facts, g.op = retract ∧ g.entity = f.entity ∧ g.attr = f.attr ∧ g.tx = t := by
  simp only [retractionsOf, List.mem_map, List.mem_filter, Bool.and_eq_true, beq_iff_eq,
    Prod.mk.injEq]
  constructor
  · rintro ⟨g, ⟨member, op, entity, attr⟩, tx⟩
    exact ⟨g, member, op, entity, attr, tx⟩
  · rintro ⟨g, member, op, entity, attr, tx⟩
    exact ⟨g, ⟨member, op, entity, attr⟩, tx⟩

theorem latestRetractions_snoc (retract : EntityId) (facts : List Fact) (f : Fact) :
    latestRetractions retract (facts ++ [f]) =
      if f.op = retract then recordRetraction (latestRetractions retract facts) f
      else latestRetractions retract facts := by
  by_cases retraction : f.op = retract <;>
    simp [latestRetractions, List.filter_append, List.foldl_append, retraction]

/-- What is recorded of a place is the greatest transaction of its retractions. -/
theorem getElem?_latestRetractions (retract : EntityId) (facts : List Fact)
    (place : EntityId × EntityId) :
    (latestRetractions retract facts)[place]? = (retractionsOf retract facts place).max? := by
  induction facts using List.reverseRecOn with
  | nil => simp [latestRetractions, retractionsOf]
  | append_singleton init f ih =>
    rw [latestRetractions_snoc]
    by_cases retraction : f.op = retract
    · rw [if_pos retraction, recordRetraction, Std.HashMap.getElem?_insert]
      by_cases here : (f.entity, f.attr) = place
      · -- one more retraction of this place raises the record
        subst here
        have one_more : retractionsOf retract (init ++ [f]) (f.entity, f.attr)
            = retractionsOf retract init (f.entity, f.attr) ++ [f.tx] := by
          simp [retractionsOf, List.filter_append, retraction]
        rw [if_pos BEq.rfl, one_more, Log.max?_snoc, ← ih, Std.HashMap.getD_eq_getD_getElem?]
      · have elsewhere : ((f.entity, f.attr) == place) = false := by simpa using here
        have no_more : retractionsOf retract (init ++ [f]) place
            = retractionsOf retract init place := by
          simp [retractionsOf, List.filter_append, elsewhere]
        rw [elsewhere, if_neg Bool.false_ne_true, no_more, ih]
    · have no_more : retractionsOf retract (init ++ [f]) place
          = retractionsOf retract init place := by
        simp [retractionsOf, List.filter_append, retraction]
      rw [if_neg retraction, no_more, ih]

/-- A fact stands when it is no retraction and no retraction among the facts hides it. -/
theorem stands_iff {retract : EntityId} {facts : List Fact} {f : Fact} :
    stands retract (latestRetractions retract facts) f = true ↔
      f.op ≠ retract ∧ ∀ g ∈ facts, ¬ g.Hides retract f := by
  rw [stands, getElem?_latestRetractions, Bool.and_eq_true, bne_iff_ne]
  apply and_congr_right
  intro _
  cases latest : (retractionsOf retract facts (f.entity, f.attr)).max? with
  | none =>
    have unretracted := List.max?_eq_none_iff.mp latest
    constructor
    · rintro _ g member ⟨op, entity, attr, _⟩
      have recorded := mem_retractionsOf.mpr ⟨g, member, op, entity, attr, rfl⟩
      rw [unretracted] at recorded
      cases recorded
    · intro _
      rfl
  | some t =>
    obtain ⟨recorded, greatest⟩ := Log.max?_eq_some.mp latest
    rw [decide_eq_true_eq]
    constructor
    · rintro le g member ⟨op, entity, attr, later⟩
      have earlier := greatest g.tx (mem_retractionsOf.mpr ⟨g, member, op, entity, attr, rfl⟩)
      exact absurd later (Nat.not_lt.mpr (Nat.le_trans earlier le))
    · intro unhidden
      obtain ⟨g, member, op, entity, attr, rfl⟩ := mem_retractionsOf.mp recorded
      exact Nat.le_of_not_lt fun later => unhidden g member ⟨op, entity, attr, later⟩

/-- What stands among some facts are those that are no retraction and that none of them hides. -/
theorem mem_standing {retract : EntityId} {facts : List Fact} {f : Fact} :
    f ∈ standing retract facts ↔
      f ∈ facts ∧ f.op ≠ retract ∧ ∀ g ∈ facts, ¬ g.Hides retract f := by
  rw [standing, List.mem_filter, stands_iff]

/-- What stands among some facts, said without the record of their latest retractions. -/
theorem standing_eq : standing = fun retract facts =>
    facts.filter fun f => decide (f.op ≠ retract ∧ ∀ g ∈ facts, ¬ g.Hides retract f) := by
  funext retract facts
  apply List.filter_congr
  intro f _
  rw [Bool.eq_iff_iff, stands_iff, decide_eq_true_eq]

end Factbase.Fact
