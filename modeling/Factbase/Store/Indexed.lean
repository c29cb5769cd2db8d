import Factbase.Fact.Listing
import Factbase.Store.Index

/-!
# Factbase.Store.Indexed

A log of facts with hashed indexes beside it. A lookup walks the shortest list of positions that
the bound places of its pattern offer, so an index only ever saves work.
-/

namespace Factbase.Store

/-- A log of facts and the indexes over its positions. -/
structure Indexed where
  log : Array Fact
  byEntity : Index EntityId
  byAttr : Index EntityId
  byValue : Index Value
  byTx : Index EntityId
  byEntityAttr : Index (EntityId × EntityId)
  names : Std.HashMap EntityId String
  entities : Std.HashMap String EntityId
  lastEntity : Option EntityId
  lastTx : Option EntityId

namespace Indexed

def empty : Indexed where
  log := #[]
  byEntity := .empty
  byAttr := .empty
  byValue := .empty
  byTx := .empty
  byEntityAttr := .empty
  names := {}
  entities := {}
  lastEntity := none
  lastTx := none

def facts (s : Indexed) : List Fact := s.log.toList

/-! ### Writing -/

/-- The greater of a number that may be missing and another. -/
def raise (last : Option EntityId) (n : EntityId) : Option EntityId :=
  some (max (last.getD n) n)

/-- Remembers the name a fact gives, unless its entity, or the name, has been met before. -/
def recordName (s : Indexed) (f : Fact) : Indexed :=
  match f.name? with
  | none => s
  | some name =>
    { s with
      names := s.names.insertIfNew f.entity name
      entities := s.entities.insertIfNew name f.entity }

/-- Adds a fact at the end of the log and files its position everywhere. -/
def insert (s : Indexed) (f : Fact) : Indexed :=
  let position := s.log.size
  recordName
    { s with
      log := s.log.push f
      byEntity := s.byEntity.file f.entity position
      byAttr := s.byAttr.file f.attr position
      byValue := s.byValue.file f.value position
      byTx := s.byTx.file f.tx position
      byEntityAttr := s.byEntityAttr.file (f.entity, f.attr) position
      lastEntity := raise s.lastEntity f.entity
      lastTx := raise s.lastTx f.tx }
    f

def insertAll (s : Indexed) (fs : List Fact) : Indexed :=
  fs.foldl insert s

@[simp] theorem facts_empty : empty.facts = [] := rfl

@[simp] theorem log_recordName (s : Indexed) (f : Fact) : (s.recordName f).log = s.log := by
  unfold recordName
  split <;> rfl

/-- A fact that is inserted comes last. -/
@[simp] theorem facts_insert (s : Indexed) (f : Fact) : (s.insert f).facts = s.facts ++ [f] := by
  simp [facts, insert]

@[simp] theorem facts_insertAll (s : Indexed) (fs : List Fact) :
    (s.insertAll fs).facts = s.facts ++ fs := by
  induction fs generalizing s with
  | nil => simp [insertAll]
  | cons f rest ih =>
    have step := ih (s.insert f)
    simp only [insertAll, List.foldl_cons] at step ⊢
    simp [step]

/-! ### Reading -/

/-- The lists of positions that the bound places of a pattern offer. -/
def offers (s : Indexed) (p : Pattern) : List (Array Nat) :=
  (match p.entity, p.attr with
    | some e, some a => [s.byEntityAttr.positions (e, a)]
    | _, _ => [])
  ++ (p.entity.map s.byEntity.positions).toList
  ++ (p.attr.map s.byAttr.positions).toList
  ++ (p.value.map s.byValue.positions).toList
  ++ (p.tx.map s.byTx.positions).toList

/-- The shortest of some lists of positions, the first of equally short ones. -/
def shortest : List (Array Nat) → Option (Array Nat)
  | [] => none
  | ps :: rest =>
    match shortest rest with
    | none => some ps
    | some qs => some (if qs.size < ps.size then qs else ps)

/-- The facts that can match a pattern. -/
def candidates (s : Indexed) (p : Pattern) : List Fact :=
  match shortest (s.offers p) with
  | none => s.facts
  | some positions => positions.toList.filterMap fun i => s.log[i]?

def lookup (s : Indexed) (p : Pattern) (asOf : EntityId) : List Fact :=
  (s.candidates p).filter fun f => decide (f.tx ≤ asOf) && p.isMatch f

def nameOf (s : Indexed) (e : EntityId) : Option String := s.names[e]?

def entityOf (s : Indexed) (name : String) : Option EntityId := s.entities[name]?

def count (s : Indexed) (e : EntityId) : Nat := (s.byEntity.positions e).size

def size (s : Indexed) : Nat := s.log.size

def identities (s : Indexed) : List (EntityId × String) :=
  (s.byAttr.positions nameAttribute).toList.filterMap fun i =>
    s.log[i]?.bind fun f => f.value.asText?.map (f.entity, ·)

def list (s : Indexed) (listing : Listing) : List Fact :=
  listing.arrange Fact.order s.facts

end Indexed

end Factbase.Store
