import Mathlib.Data.List.Basic

/-! Hardware queues: a FIFO of fixed depth whose bound is part of the value. -/

namespace Rp2350Stepper.Data

/-- A first-in first-out queue which never holds more than `depth` items. -/
structure Fifo (α : Type) (depth : Nat) where
  items : List α
  bounded : items.length ≤ depth
deriving DecidableEq, Repr

namespace Fifo

variable {α : Type} {depth : Nat}

/-- Two FIFOs with the same items are the same. -/
@[ext] theorem ext {left right : Fifo α depth} (items : left.items = right.items) :
    left = right := by
  cases left
  cases right
  cases items
  rfl

/-- A FIFO without items. -/
def empty : Fifo α depth := ⟨[], Nat.zero_le _⟩

/-- It has none. -/
@[simp] theorem items_empty : (empty : Fifo α depth).items = [] := rfl

/-- No further item is taken. -/
def isFull (fifo : Fifo α depth) : Bool := fifo.items.length == depth

/-- Append an item, or nothing when the queue is full. -/
def push? (fifo : Fifo α depth) (item : α) : Option (Fifo α depth) :=
  if room : fifo.items.length < depth then
    some ⟨fifo.items ++ [item], by simp only [List.length_append, List.length_singleton]; omega⟩
  else none

/-- Take the oldest item, or nothing when the queue is empty. -/
def pop? (fifo : Fifo α depth) : Option (α × Fifo α depth) :=
  match fifo with
  | ⟨[], _⟩ => none
  | ⟨item :: rest, bounded⟩ => some (item, ⟨rest, by simp at bounded; omega⟩)

/-- A push succeeds exactly when there is room, and appends at the tail. -/
theorem push?_eq_some_iff {fifo next : Fifo α depth} {item : α} :
    fifo.push? item = some next ↔
      fifo.items.length < depth ∧ next.items = fifo.items ++ [item] := by
  unfold push?
  split
  · rename_i room
    simp only [Option.some.injEq]
    constructor
    · rintro rfl
      exact ⟨room, rfl⟩
    · rintro ⟨_, same⟩
      exact ext same.symm
  · rename_i full
    simp [full]

/-- Only a full FIFO refuses an item. -/
theorem push?_eq_none_iff {fifo : Fifo α depth} {item : α} :
    fifo.push? item = none ↔ fifo.isFull = true := by
  have bounded := fifo.bounded
  unfold push? isFull
  split
  · rename_i room
    simp only [reduceCtorEq, beq_iff_eq, false_iff]
    omega
  · simp only [beq_iff_eq, true_iff]
    omega

/-- A pop removes the head and keeps the order of the rest. -/
theorem pop?_eq_some_iff {fifo next : Fifo α depth} {item : α} :
    fifo.pop? = some (item, next) ↔ fifo.items = item :: next.items := by
  obtain ⟨items, bounded⟩ := fifo
  cases items with
  | nil => simp [pop?]
  | cons head rest =>
      simp only [pop?, Option.some.injEq, Prod.mk.injEq, List.cons.injEq]
      constructor
      · rintro ⟨rfl, rfl⟩
        exact ⟨rfl, rfl⟩
      · rintro ⟨rfl, same⟩
        exact ⟨rfl, ext same⟩

/-- Only an empty one has none to give. -/
theorem pop?_eq_none_iff {fifo : Fifo α depth} : fifo.pop? = none ↔ fifo.items = [] := by
  obtain ⟨items, bounded⟩ := fifo
  cases items <;> simp [pop?]

end Fifo
end Rp2350Stepper.Data
