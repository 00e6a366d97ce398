import FuzzyAlgebra.FuzzySet.Basic
import Std.Data.HashMap

/-!
# Depth

The height of the graph below a set, found by a walk with a list of pending sets and a table of
heights by key. A set that occurs many times is expanded once, however many paths lead to it.
-/

namespace FuzzyAlgebra

namespace FuzzySet

variable {τ : Type}

/-- The height of the graph below a set; one for a primitive set. -/
def height : FuzzySet τ → Nat
  | primitive .. => 1
  | unary _ _ operand => operand.height + 1
  | binary _ _ first second => max first.height second.height + 1

def treeSize : FuzzySet τ → Nat
  | primitive .. => 1
  | unary _ _ operand => operand.treeSize + 1
  | binary _ _ first second => first.treeSize + second.treeSize + 1

end FuzzySet

/-- A walk over the graph of a set: what is still to do, the next first, and the heights found. -/
structure HeightWalk (τ : Type) where
  /-- A set is marked once its operands have been put in front of it. -/
  pending : List (FuzzySet τ × Bool)
  heights : Std.HashMap Nat Nat

namespace HeightWalk

variable {τ : Type}

def start (s : FuzzySet τ) : HeightWalk τ := ⟨[(s, false)], ∅⟩

/-- The operands without a height, to be done before the set itself, the last of them first. -/
def unknownOperands (heights : Std.HashMap Nat Nat) (s : FuzzySet τ) : List (FuzzySet τ × Bool) :=
  (s.operands.filter fun o => !heights.contains o.key).reverse.map fun o => (o, false)

def heightOver (heights : Std.HashMap Nat Nat) (s : FuzzySet τ) : Nat :=
  1 + (s.operands.map fun o => heights.getD o.key 0).foldl max 0

/-- What becomes of the walk when the next pending set is taken off. -/
def visit (s : FuzzySet τ) (expanded : Bool) (rest : List (FuzzySet τ × Bool))
    (heights : Std.HashMap Nat Nat) : HeightWalk τ :=
  if heights.contains s.key then ⟨rest, heights⟩
  else if expanded || s.operands.isEmpty then ⟨rest, heights.insert s.key (heightOver heights s)⟩
  else ⟨unknownOperands heights s ++ (s, true) :: rest, heights⟩

/-- The work left for a pending set: a set that is not expanded still has its whole tree to do. -/
def work : FuzzySet τ × Bool → Nat
  | (s, false) => 2 * s.treeSize
  | (_, true) => 1

def totalWork : List (FuzzySet τ × Bool) → Nat
  | [] => 0
  | p :: rest => work p + totalWork rest

theorem treeSize_pos (s : FuzzySet τ) : 0 < s.treeSize := by
  cases s <;> simp [FuzzySet.treeSize]

theorem work_pos (p : FuzzySet τ × Bool) : 0 < work p := by
  obtain ⟨s, expanded⟩ := p
  cases expanded
  · exact Nat.mul_pos (by decide) (treeSize_pos s)
  · simp [work]

theorem totalWork_cons (p : FuzzySet τ × Bool) (rest : List (FuzzySet τ × Bool)) :
    totalWork (p :: rest) = work p + totalWork rest := rfl

theorem totalWork_append (xs ys : List (FuzzySet τ × Bool)) :
    totalWork (xs ++ ys) = totalWork xs + totalWork ys := by
  induction xs with
  | nil => simp [totalWork]
  | cons p rest ih => rw [List.cons_append, totalWork_cons, totalWork_cons, ih, Nat.add_assoc]

theorem totalWork_unknownOperands_le (heights : Std.HashMap Nat Nat) (s : FuzzySet τ) :
    totalWork (unknownOperands heights s) + 2 ≤ 2 * s.treeSize := by
  cases s with
  | primitive => simp [unknownOperands, FuzzySet.operands, totalWork, FuzzySet.treeSize]
  | unary label operation operand =>
    simp only [unknownOperands, FuzzySet.operands, FuzzySet.treeSize]
    cases h : heights.contains operand.key <;>
      simp [List.filter, h, totalWork, work, Nat.mul_add]
  | binary label operation first second =>
    simp only [unknownOperands, FuzzySet.operands, FuzzySet.treeSize]
    cases h : heights.contains first.key <;> cases k : heights.contains second.key <;>
      simp [List.filter, h, k, totalWork, work] <;> omega

theorem totalWork_visit_lt (s : FuzzySet τ) (expanded : Bool) (rest : List (FuzzySet τ × Bool))
    (heights : Std.HashMap Nat Nat) :
    totalWork (visit s expanded rest heights).pending < totalWork ((s, expanded) :: rest) := by
  have hpos := work_pos (s, expanded)
  unfold visit
  split
  · rw [totalWork_cons]
    exact Nat.lt_add_of_pos_left hpos
  · split
    · rw [totalWork_cons]
      exact Nat.lt_add_of_pos_left hpos
    · rename_i h
      have hfalse : expanded = false := by
        cases expanded
        · rfl
        · simp at h
      subst hfalse
      have hle := totalWork_unknownOperands_le heights s
      simp only [totalWork_append, totalWork_cons, work]
      omega

def settle (pending : List (FuzzySet τ × Bool)) (heights : Std.HashMap Nat Nat) :
    Std.HashMap Nat Nat :=
  match pending with
  | [] => heights
  | (s, expanded) :: rest =>
    let next := visit s expanded rest heights
    settle next.pending next.heights
termination_by totalWork pending
decreasing_by exact totalWork_visit_lt s expanded rest heights

def finish (walk : HeightWalk τ) : Std.HashMap Nat Nat := settle walk.pending walk.heights

end HeightWalk

namespace FuzzySet

def depth {τ : Type} (s : FuzzySet τ) : Nat := (HeightWalk.start s).finish.getD s.key 0

end FuzzySet

end FuzzyAlgebra
