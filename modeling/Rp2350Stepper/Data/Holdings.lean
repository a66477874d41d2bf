import Mathlib.Data.Fintype.Card
import Rp2350Stepper.Data.SlotTable
import Rp2350Stepper.Semantics.Execution

/-!
# References held through a table

A history takes and gives back references to resources; a table holds one for each
occupied slot. `Holdings` relates the two, together with the discipline that no
resource is taken twice before it is given back, and is preserved when an entry is
put into a free slot with a fresh resource and when an entry is released.
-/

namespace Rp2350Stepper.Data

open Rp2350Stepper.Semantics

/-- What an event does to the references of a resource. -/
inductive Use (Resource : Type) where
  | taken (resource : Resource)
  | givenBack (resource : Resource)
deriving DecidableEq

section

variable {Event Resource Entry : Type} [DecidableEq Resource] {size : Nat}
  (use : Event → Option (Use Resource)) (owner : Entry → Resource)

/-- The references of a resource a history has taken and not given back. -/
def references (history : List Event) (resource : Resource) : Int :=
  (history.countP fun event => use event = some (.taken resource)) -
    (history.countP fun event => use event = some (.givenBack resource))

/-- A reference is taken when there is none and given back when there is one. -/
def Disciplined (before : List Event) (event : Event) : Prop :=
  match use event with
  | some (.taken resource) => references use before resource = 0
  | some (.givenBack resource) => references use before resource = 1
  | none => True

/-- The table holds exactly the references of a disciplined history, each in one slot. -/
structure Holdings (table : SlotTable Entry size) (history : List Event) : Prop where
  disciplined : Recorded (Disciplined use) history
  held : ∀ slot entry, table slot = some entry → references use history (owner entry) = 1
  unheld : ∀ resource, (∀ slot entry, table slot = some entry → owner entry ≠ resource) →
    references use history resource = 0
  distinct : ∀ slot slot' entry entry', table slot = some entry → table slot' = some entry' →
    owner entry = owner entry' → slot = slot'

variable {use owner}

/-- One more event takes a reference, drops one, or does neither. -/
theorem references_append (history : List Event) (event : Event) (resource : Resource) :
    references use (history ++ [event]) resource = references use history resource +
      (if use event = some (.taken resource) then 1 else 0) -
      (if use event = some (.givenBack resource) then 1 else 0) := by
  simp only [references, List.countP_append, List.countP_singleton, decide_eq_true_eq]
  split <;> split <;> simp <;> omega

namespace Holdings

variable {table : SlotTable Entry size} {history : List Event}

/-- Nothing is held at the start. -/
theorem empty : Holdings use owner (SlotTable.empty : SlotTable Entry size) [] where
  disciplined := .nil
  held := by simp [SlotTable.empty]
  unheld := by simp [references]
  distinct := by simp [SlotTable.empty]

variable (holdings : Holdings use owner table history)

include holdings

/-- An event which touches no reference. -/
theorem other {event : Event} (unused : use event = none) :
    Holdings use owner table (history ++ [event]) := by
  have same (resource : Resource) :
      references use (history ++ [event]) resource = references use history resource := by
    simp [references_append, unused]
  refine ⟨holdings.disciplined.append_singleton (by simp [Disciplined, unused]), ?_, ?_,
    holdings.distinct⟩
  · intro slot entry here
    rw [same, holdings.held slot entry here]
  · intro resource absent
    rw [same, holdings.unheld resource absent]

/-- Events which concern no resource. -/
theorem others {events : List Event} (unused : ∀ event ∈ events, use event = none) :
    Holdings use owner table (history ++ events) := by
  induction events generalizing history with
  | nil => simpa using holdings
  | cons event rest inductionHypothesis =>
      have first := holdings.other (unused event (by simp))
      simpa using inductionHypothesis first fun event member => unused event (by simp [member])

/-- A reference is given back as its slot is freed. -/
theorem release {event : Event} {slot : Fin size} {entry : Entry} (here : table slot = some entry)
    (givenBack : use event = some (.givenBack (owner entry))) :
    Holdings use owner (table.release slot) (history ++ [event]) := by
  refine ⟨holdings.disciplined.append_singleton ?_, ?_, ?_, ?_⟩
  · simpa [Disciplined, givenBack] using holdings.held slot entry here
  · intro slot' entry' kept
    obtain ⟨different, held⟩ := SlotTable.release_eq_some.mp kept
    have other : owner entry ≠ owner entry' := fun same =>
      different (holdings.distinct slot' slot entry' entry held here same.symm)
    simp [references_append, givenBack, other, holdings.held slot' entry' held]
  · intro resource absent
    by_cases same : owner entry = resource
    · subst same
      simp [references_append, givenBack, holdings.held slot entry here]
    · have before := holdings.unheld resource fun slot' entry' held owned => by
        by_cases this : slot' = slot
        · subst this
          rw [here, Option.some.injEq] at held
          exact same (held ▸ owned)
        · exact absent slot' entry' (SlotTable.release_eq_some.mpr ⟨this, held⟩) owned
      simp [references_append, givenBack, same, before]
  · intro first second entry entry' kept kept'
    exact holdings.distinct first second entry entry' (SlotTable.release_eq_some.mp kept).2
      (SlotTable.release_eq_some.mp kept').2

/-- A reference to a resource nothing holds is taken as a free slot is filled. -/
theorem fill (event : Event) (slot : Fin size) (entry : Entry) (free : table slot = none)
    (fresh : ∀ slot held, table slot = some held → owner held ≠ owner entry)
    (taken : use event = some (.taken (owner entry))) :
    Holdings use owner (table.fill slot entry) (history ++ [event]) := by
  have none := holdings.unheld (owner entry) fresh
  refine ⟨holdings.disciplined.append_singleton ?_, ?_, ?_, ?_⟩
  · simpa [Disciplined, taken] using none
  · intro slot' entry' here
    rcases SlotTable.fill_eq_some.mp here with ⟨_, rfl⟩ | ⟨_, held⟩
    · simp [references_append, taken, none]
    · simp [references_append, taken, (fresh slot' entry' held).symm,
        holdings.held slot' entry' held]
  · intro resource absent
    have other := absent slot entry (table.fill_self slot entry)
    have before := holdings.unheld resource fun slot' entry' held => by
      refine absent slot' entry' (SlotTable.fill_eq_some.mpr (.inr ⟨?_, held⟩))
      rintro rfl
      simp [free] at held
    simp [references_append, taken, other, before]
  · intro first second entry' entry'' here here'
    rcases SlotTable.fill_eq_some.mp here with ⟨rfl, rfl⟩ | ⟨_, held⟩ <;>
      rcases SlotTable.fill_eq_some.mp here' with ⟨rfl, rfl⟩ | ⟨_, held'⟩
    · exact fun _ => rfl
    · exact fun same => absurd same.symm (fresh second entry'' held')
    · exact fun same => absurd same (fresh first entry' held)
    · exact holdings.distinct first second entry' entry'' held held'

/-- No more references are held than there are slots. -/
theorem card_le (resources : Finset Resource)
    (all : ∀ resource ∈ resources, references use history resource ≠ 0) :
    resources.card ≤ size := by
  have slotted : ∀ resource : resources, ∃ slot entry, table slot = some entry ∧
      owner entry = resource := by
    intro resource
    by_contra absent
    refine all resource resource.2 (holdings.unheld resource fun slot entry held owned => ?_)
    exact absent ⟨slot, entry, held, owned⟩
  choose slot entry held owned using slotted
  have injective : Function.Injective slot := by
    intro first second same
    have entries : entry first = entry second := by
      have this := held first
      rw [same, held second, Option.some.injEq] at this
      exact this.symm
    exact Subtype.ext ((owned first).symm.trans ((congrArg owner entries).trans (owned second)))
  simpa using Fintype.card_le_of_injective slot injective

end Holdings
end
end Rp2350Stepper.Data
