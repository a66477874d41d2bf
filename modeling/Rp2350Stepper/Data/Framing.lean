import Mathlib.Data.List.Forall2

/-!
# Streams of records

A reader takes the first record off a stream of symbols. A chunk of the stream is framed
when the reader takes just this chunk off, whatever follows it; a stream of framed chunks
decodes to their records, in order and with nothing left over.
-/

namespace Rp2350Stepper.Data

variable {σ ρ : Type}

/-- Read records until nothing is left, at most so many. -/
def readRecords (read? : List σ → Option (ρ × List σ)) : Nat → List σ → Option (List ρ)
  | _, [] => some []
  | 0, _ :: _ => none
  | count + 1, stream => do
      let (record, rest) ← read? stream
      let records ← readRecords read? count rest
      return record :: records

/-- The records of a whole stream, each of which takes at least one symbol. -/
def decode (read? : List σ → Option (ρ × List σ)) (stream : List σ) : Option (List ρ) :=
  readRecords read? stream.length stream

/-- The reader takes exactly this chunk off any stream which begins with it. -/
structure Framed (read? : List σ → Option (ρ × List σ)) (chunk : List σ) (record : ρ) : Prop where
  nonempty : chunk ≠ []
  reads : ∀ rest, read? (chunk ++ rest) = some (record, rest)

variable {read? : List σ → Option (ρ × List σ)}

/-- One record is read, and then the others. -/
theorem Framed.readRecords_append {chunk : List σ} {record : ρ} (framed : Framed read? chunk record)
    (count : Nat) (rest : List σ) :
    readRecords read? (count + 1) (chunk ++ rest) =
      (readRecords read? count rest).map (record :: ·) := by
  obtain ⟨symbol, symbols, shape⟩ := List.exists_cons_of_ne_nil framed.nonempty
  have nonempty : chunk ++ rest = symbol :: (symbols ++ rest) := by rw [shape, List.cons_append]
  have unfolded : readRecords read? (count + 1) (chunk ++ rest) =
      (read? (chunk ++ rest)).bind fun (record, rest) =>
        (readRecords read? count rest).bind fun records => some (record :: records) := by
    rw [nonempty]
    rfl
  rw [unfolded, framed.reads, Option.map_eq_bind]
  rfl

/-- A stream of framed chunks decodes to their records. -/
theorem decode_flatten {chunks : List (List σ)} {records : List ρ}
    (framed : List.Forall₂ (Framed read?) chunks records) :
    decode read? chunks.flatten = some records := by
  suffices general : ∀ count, chunks.flatten.length ≤ count →
      readRecords read? count chunks.flatten = some records from general _ (Nat.le_refl _)
  induction framed with
  | nil => exact fun _ _ => readRecords.eq_1 ..
  | cons first _ inductionHypothesis =>
      intro count enough
      have positive := List.length_pos_iff.mpr first.nonempty
      rw [List.flatten_cons, List.length_append] at enough
      obtain ⟨count, rfl⟩ : ∃ less, count = less + 1 := ⟨count - 1, by omega⟩
      rw [List.flatten_cons, first.readRecords_append, inductionHypothesis count (by omega)]
      rfl

end Rp2350Stepper.Data
