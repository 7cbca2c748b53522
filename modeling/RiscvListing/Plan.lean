import RiscvListing.Instruction.Resolve

/-!
# Cutting work into pieces

Words do not depend on each other, so a long list may be cut into pieces that are decoded side by
side.

* `Plan`: how a list is cut, piece by piece.
* `Plan.map`: applies a function to every element, one task per piece.
* `Plan.balanced`: the plan that halves the list a given number of times.
* `Host`: the number of processors, the choice of plans, and which pools of decoders cannot be
  built.
* `Machine`: a host on which every pool can be built.
* `decodeAll`: decodes a list by a plan.

Main statement: `Plan.map_eq_map`, the plan has no influence on the result.
-/

namespace RiscvListing

/-- A way of cutting a list: not at all, or at an index, each part being cut further. -/
inductive Plan where
  /-- The list is not cut. -/
  | whole
  /-- The first `index` elements form the left part and the others the right part. -/
  | cut (index : Nat) (left right : Plan)
  deriving DecidableEq, Repr

namespace Plan

/-- Applies `f` to every element; the right part of a cut is a task of its own. -/
def map {α β : Type} (f : α → β) : Plan → List α → List β
  | .whole, xs => xs.map f
  | .cut index left right, xs =>
    let later := Task.spawn fun _ => right.map f (xs.drop index)
    left.map f (xs.take index) ++ later.get

/-- Whatever the plan, the result is that of the plain map. -/
@[simp] theorem map_eq_map {α β : Type} (f : α → β) (plan : Plan) (xs : List α) :
    plan.map f xs = xs.map f := by
  induction plan generalizing xs with
  | whole => rfl
  | cut index left right ihl ihr =>
    show left.map f (xs.take index) ++ right.map f (xs.drop index) = _
    rw [ihl, ihr, ← List.map_append, List.take_append_drop]

/-- Halves a list of the given length, and its halves, so many times. -/
def balanced : (levels length : Nat) → Plan
  | 0, _ => .whole
  | levels + 1, length =>
    .cut (length / 2) (balanced levels (length / 2)) (balanced levels (length - length / 2))

end Plan

/-- What the decoders run on. -/
structure Host where
  /-- The number of processors. -/
  processors : Nat
  /-- The plan for a number of decoders and a list of a given length. -/
  plan : (jobs length : Nat) → Plan := fun jobs length =>
    Plan.balanced (min (Nat.log2 jobs + 1) 8) length
  /-- Why a pool of so many decoders cannot be built, if it cannot. -/
  poolError : (jobs : Nat) → Option String := fun _ => none

/-- A host on which every pool of decoders can be built. -/
structure Machine extends Host where
  /-- No pool fails. -/
  poolBuilds : ∀ jobs, poolError jobs = none := by exact fun _ => rfl

instance : Coe Machine Host := ⟨Machine.toHost⟩

/-- Decodes words by a plan, in the order of the list. -/
def decodeAll (plan : Plan) (words : List Word) : List (Except Rejection Instruction) :=
  plan.map decode words

end RiscvListing
