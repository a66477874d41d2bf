import Mathlib.Data.List.FinRange
import Mathlib.Logic.Basic

/-!
# Tables with a fixed number of slots

A slot is free or holds one entry. Searches go through the slots in order and stop
at the first hit, as a loop with a `break` does; a full table makes room by
evicting the entry with the smallest age, the first of them on a tie.
-/

namespace Rp2350Stepper.Data

/-- `size` slots, each free or holding an entry. -/
abbrev SlotTable (Entry : Type) (size : Nat) : Type := Fin size → Option Entry

namespace SlotTable

variable {Entry : Type} {size : Nat}

/-- A table without entries. -/
def empty : SlotTable Entry size := fun _ => none

/-- Some slot holds the entry. -/
def Holds (table : SlotTable Entry size) (entry : Entry) : Prop := ∃ slot, table slot = some entry

/-- A slot becomes free. -/
def release (table : SlotTable Entry size) (slot : Fin size) : SlotTable Entry size :=
  fun other => if other = slot then none else table other

/-- A slot gets an entry. -/
def fill (table : SlotTable Entry size) (slot : Fin size) (entry : Entry) :
    SlotTable Entry size :=
  fun other => if other = slot then some entry else table other

/-- An entry may make room: every slot is in use and no entry is older. -/
def Evictable (table : SlotTable Entry size) (age : Entry → Int) (entry : Entry) : Prop :=
  (∀ slot, ∃ held, table slot = some held) ∧
    ∀ slot held, table slot = some held → age entry ≤ age held

/-- The first slot whose entry satisfies a test, with the entry. -/
def find? (table : SlotTable Entry size) (test : Entry → Bool) : Option (Fin size × Entry) :=
  (List.finRange size).findSome? fun slot =>
    (table slot).bind fun entry => if test entry then some (slot, entry) else none

/-- The first free slot. -/
def free? (table : SlotTable Entry size) : Option (Fin size) :=
  (List.finRange size).find? fun slot => (table slot).isNone

/-- The age of a slot's entry; a free slot has none and counts as 0. -/
def ageAt (table : SlotTable Entry size) (age : Entry → Int) (slot : Fin size) : Int :=
  (table slot).elim 0 age

/-- The slot a loop over the others leaves with, starting from the first one and
moving on to any smaller age. -/
def oldest (table : SlotTable Entry (size + 1)) (age : Entry → Int) : Fin (size + 1) :=
  (List.finRange size).foldl (fun slot other =>
    if table.ageAt age other.succ < table.ageAt age slot then other.succ else slot) 0

/-! ### Slots after an operation -/

/-- The slot is free. -/
@[simp] theorem release_self (table : SlotTable Entry size) (slot : Fin size) :
    table.release slot slot = none := if_pos rfl

/-- The other slots are as before. -/
theorem release_of_ne (table : SlotTable Entry size) {slot other : Fin size}
    (different : other ≠ slot) : table.release slot other = table other :=
  if_neg different

/-- The slot has its entry. -/
@[simp] theorem fill_self (table : SlotTable Entry size) (slot : Fin size) (entry : Entry) :
    table.fill slot entry slot = some entry := if_pos rfl

/-- The other slots are as before. -/
theorem fill_of_ne (table : SlotTable Entry size) {slot other : Fin size} (entry : Entry)
    (different : other ≠ slot) : table.fill slot entry other = table other :=
  if_neg different

/-- What a released table holds was there before, in another slot. -/
theorem release_eq_some {table : SlotTable Entry size} {slot other : Fin size} {entry : Entry} :
    table.release slot other = some entry ↔ other ≠ slot ∧ table other = some entry := by
  by_cases same : other = slot
  · subst same
    simp
  · simp [release_of_ne table same, same]

/-- Releasing a free slot changes nothing. -/
theorem release_of_none {table : SlotTable Entry size} {slot : Fin size}
    (free : table slot = none) : table.release slot = table := by
  funext other
  by_cases same : other = slot
  · subst same
    rw [release_self, free]
  · exact table.release_of_ne same

/-- What was in a slot before it is filled does not matter. -/
theorem fill_release (table : SlotTable Entry size) (slot : Fin size) (entry : Entry) :
    (table.release slot).fill slot entry = table.fill slot entry := by
  funext other
  by_cases same : other = slot
  · subst same
    rw [fill_self, fill_self]
  · rw [fill_of_ne _ entry same, fill_of_ne _ entry same, release_of_ne table same]

/-- What a filled table holds is the new entry or was there before, in another slot. -/
theorem fill_eq_some {table : SlotTable Entry size} {slot other : Fin size}
    {new entry : Entry} :
    table.fill slot new other = some entry ↔
      (other = slot ∧ new = entry) ∨ (other ≠ slot ∧ table other = some entry) := by
  by_cases same : other = slot
  · subst same
    simp
  · simp [fill_of_ne table new same, same]

/-- Filling a slot keeps every entry but the one evicted from it. -/
theorem fill_or {table : SlotTable Entry size} {slot other : Fin size} {new entry : Entry}
    {evicted : Entry → Prop} (room : ∀ entry, table slot = some entry → evicted entry)
    (held : table other = some entry) :
    table.fill slot new other = some entry ∨ evicted entry := by
  by_cases here : other = slot
  · subst here
    exact .inr (room entry held)
  · exact .inl (fill_eq_some.mpr (.inr ⟨here, held⟩))

/-! ### Searches -/

/-- What is found is in its slot and passes the test. -/
theorem find?_eq_some {table : SlotTable Entry size} {test : Entry → Bool} {slot : Fin size}
    {entry : Entry} (found : table.find? test = some (slot, entry)) :
    table slot = some entry ∧ test entry = true := by
  obtain ⟨other, _, hit⟩ := List.exists_of_findSome?_eq_some found
  obtain ⟨held, here, passes⟩ := Option.bind_eq_some_iff.mp hit
  by_cases tested : test held = true
  · simp only [tested, if_true, Option.some.injEq, Prod.mk.injEq] at passes
    obtain ⟨rfl, rfl⟩ := passes
    exact ⟨here, tested⟩
  · simp [tested] at passes

/-- Nothing is found if nothing passes. -/
theorem find?_eq_none {table : SlotTable Entry size} {test : Entry → Bool} :
    table.find? test = none ↔ ∀ slot entry, table slot = some entry → test entry = false := by
  simp only [find?, List.findSome?_eq_none_iff, List.mem_finRange, true_imp_iff,
    Option.bind_eq_none_iff, ite_eq_right_iff, reduceCtorEq, imp_false, Bool.not_eq_true]

/-- The slot which is found is free. -/
theorem free?_eq_some {table : SlotTable Entry size} {slot : Fin size}
    (found : table.free? = some slot) : table slot = none := by
  have free := List.find?_some found
  simpa using free

/-- No slot is free exactly when each holds an entry. -/
theorem free?_eq_none {table : SlotTable Entry size} :
    table.free? = none ↔ ∀ slot, ∃ entry, table slot = some entry := by
  simp only [free?, List.find?_eq_none, List.mem_finRange, true_imp_iff,
    Option.isNone_iff_eq_none, ← ne_eq, Option.ne_none_iff_exists']

/-! ### The oldest entry -/

/-- In a full table the oldest slot holds an entry which may make room. -/
theorem oldest_spec {table : SlotTable Entry (size + 1)} (age : Entry → Int)
    (full : ∀ slot, ∃ entry, table slot = some entry) :
    ∃ entry, table (table.oldest age) = some entry ∧ table.Evictable age entry := by
  have scanned : ∀ (slots : List (Fin size)) (start : Fin (size + 1)),
      table.ageAt age (slots.foldl (fun slot other =>
        if table.ageAt age other.succ < table.ageAt age slot then other.succ else slot) start) ≤
        table.ageAt age start ∧
      ∀ slot ∈ slots, table.ageAt age (slots.foldl (fun slot other =>
        if table.ageAt age other.succ < table.ageAt age slot then other.succ else slot) start) ≤
        table.ageAt age slot.succ := by
    intro slots
    induction slots with
    | nil => simp
    | cons slot rest inductionHypothesis =>
        intro start
        rw [List.foldl_cons]
        obtain ⟨below, others⟩ := inductionHypothesis
          (if table.ageAt age slot.succ < table.ageAt age start then slot.succ else start)
        have chosen : table.ageAt age
            (if table.ageAt age slot.succ < table.ageAt age start then slot.succ else start) ≤
              table.ageAt age start ∧
            table.ageAt age
            (if table.ageAt age slot.succ < table.ageAt age start then slot.succ else start) ≤
              table.ageAt age slot.succ := by
          split <;> constructor <;> omega
        refine ⟨below.trans chosen.1, ?_⟩
        intro other member
        rcases List.mem_cons.mp member with rfl | later
        · exact below.trans chosen.2
        · exact others other later
  obtain ⟨first, others⟩ := scanned (List.finRange size) 0
  obtain ⟨entry, held⟩ := full (table.oldest age)
  have least : table.ageAt age (table.oldest age) = age entry := by
    rw [ageAt, held, Option.elim_some]
  refine ⟨entry, held, full, ?_⟩
  intro slot other here
  have old : table.ageAt age slot = age other := by
    rw [ageAt, here, Option.elim_some]
  rw [← least, ← old]
  induction slot using Fin.cases with
  | zero => exact first
  | succ slot => exact others slot (List.mem_finRange slot)

/-- When what passes a test still fills the table, everything in it passes the test. -/
theorem Evictable.of_filter {table kept : SlotTable Entry size} {age : Entry → Int}
    {entry : Entry} {test : Entry → Bool} (filtered : ∀ slot, kept slot = (table slot).filter test)
    (evictable : kept.Evictable age entry) :
    table.Evictable age entry ∧ ∀ slot held, table slot = some held → test held = true := by
  have passed : ∀ slot, ∃ held, table slot = some held ∧ test held = true := by
    intro slot
    obtain ⟨held, here⟩ := evictable.1 slot
    rw [filtered, Option.filter_eq_some_iff] at here
    exact ⟨held, here⟩
  have all : ∀ slot held, table slot = some held → test held = true := by
    intro slot held here
    obtain ⟨other, same, passes⟩ := passed slot
    rw [here, Option.some.injEq] at same
    exact same ▸ passes
  refine ⟨⟨fun slot => ?_, fun slot held here => ?_⟩, all⟩
  · obtain ⟨held, here, _⟩ := passed slot
    exact ⟨held, here⟩
  · apply evictable.2 slot held
    rw [filtered, here]
    simp [Option.filter, all slot held here]

end SlotTable
end Rp2350Stepper.Data
