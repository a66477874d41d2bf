import Mathlib.Data.List.Basic

/-!
# Cyclic redundancy checks, bit by bit

A check is a register which is shifted once for each bit of a message and, when the bit
shifted out differs from the message's, meets the polynomial. A register which shifts left
and one which shifts right compute the same check with their bits reversed. Both are linear
in the register and the message together, so what one bit of the message contributes to the
check does not depend on the others.
-/

namespace Rp2350Stepper.Data.Crc

variable {w : Nat}

/-- One bit of a message, into a register which shifts left. -/
def shiftLeft (poly crc : BitVec w) (bit : Bool) : BitVec w :=
  (crc <<< 1) ^^^ if crc.msb = bit then 0#w else poly

/-- One bit of a message, into a register which shifts right. -/
def shiftRight (poly crc : BitVec w) (bit : Bool) : BitVec w :=
  (crc >>> 1) ^^^ if crc.getLsbD 0 = bit then 0#w else poly

/-- A message, into a register which shifts left. -/
def left (poly crc : BitVec w) (message : List Bool) : BitVec w :=
  message.foldl (shiftLeft poly) crc

/-- A message, into a register which shifts right. -/
def right (poly crc : BitVec w) (message : List Bool) : BitVec w :=
  message.foldl (shiftRight poly) crc

/-! ### Reversal -/

/-- The reverse of a sum. -/
theorem reverse_xor (x y : BitVec w) : (x ^^^ y).reverse = x.reverse ^^^ y.reverse := by
  ext index bound
  simp [BitVec.getElem_reverse, BitVec.getMsbD_xor]

/-- The reverse of a shift. -/
theorem reverse_shiftLeft_one (x : BitVec w) : (x <<< 1).reverse = x.reverse >>> 1 := by
  ext index bound
  rw [BitVec.getElem_reverse, BitVec.getMsbD_shiftLeft, BitVec.getElem_ushiftRight,
    BitVec.getLsbD_reverse, Nat.add_comm]

/-- One bit into the reversed register. -/
theorem reverse_shiftLeft (poly crc : BitVec w) (bit : Bool) :
    (shiftLeft poly crc bit).reverse = shiftRight poly.reverse crc.reverse bit := by
  have out : crc.reverse.getLsbD 0 = crc.msb := by
    rw [BitVec.getLsbD_reverse, BitVec.msb]
  rw [shiftLeft, shiftRight, reverse_xor, reverse_shiftLeft_one, out]
  split
  · rw [BitVec.reverse_eq_zero_iff.mpr rfl]
  · rfl

/-- A left-shifting and a right-shifting register run in step, each the other's reversal. -/
theorem reverse_left (poly crc : BitVec w) (message : List Bool) :
    (left poly crc message).reverse = right poly.reverse crc.reverse message := by
  induction message generalizing crc with
  | nil => rfl
  | cons bit rest inductionHypothesis =>
      rw [left, List.foldl_cons, ← left, inductionHypothesis, reverse_shiftLeft]
      rfl

/-! ### Linearity -/

/-- One step is additive. -/
theorem shiftRight_xor (poly crc crc' : BitVec w) (bit bit' : Bool) :
    shiftRight poly (crc ^^^ crc') (bit ^^ bit') =
      shiftRight poly crc bit ^^^ shiftRight poly crc' bit' := by
  simp only [shiftRight, BitVec.ushiftRight_xor_distrib, BitVec.getLsbD_xor]
  ext index bound
  cases crc.getLsbD 0 <;> cases crc'.getLsbD 0 <;> cases bit <;> cases bit' <;>
    simp [Bool.xor_comm, Bool.xor_left_comm]

theorem right_xor (poly crc crc' : BitVec w) {message message' : List Bool}
    (same : message.length = message'.length) :
    right poly (crc ^^^ crc') (List.zipWith xor message message') =
      right poly crc message ^^^ right poly crc' message' := by
  induction message generalizing crc crc' message' with
  | nil =>
      obtain rfl := List.eq_nil_of_length_eq_zero same.symm
      rfl
  | cons bit rest inductionHypothesis =>
      cases message' with
      | nil => simp at same
      | cons bit' rest' =>
          have shorter : rest.length = rest'.length := by simpa using same
          have further := inductionHypothesis (shiftRight poly crc bit)
            (shiftRight poly crc' bit') shorter
          rw [← shiftRight_xor] at further
          exact further

/-! ### Additive tests of a word -/

/-- A test whose outcome on an exclusive or is that of its outcomes. -/
def Additive (test : BitVec w → Bool) : Prop :=
  ∀ x y, test (x ^^^ y) = (test x ^^ test y)

namespace Additive

variable {test test' : BitVec w → Bool}

/-- An additive test fails on zero. -/
theorem zero (additive : Additive test) : test 0#w = false := by
  have twice := additive 0#w 0#w
  rwa [BitVec.xor_self, Bool.xor_self] at twice

/-- Additive tests which agree on every word of one bit are the same. -/
theorem ext (additive : Additive test) (additive' : Additive test')
    (bits : ∀ index < w, test (BitVec.twoPow w index) = test' (BitVec.twoPow w index)) :
    test = test' := by
  have below : ∀ count (word : BitVec w), (∀ index, count ≤ index → word.getLsbD index = false) →
      test word = test' word := by
    intro count
    induction count with
    | zero =>
        intro word clear
        have none : word = 0#w := by
          ext index bound
          rw [← BitVec.getLsbD_eq_getElem, clear index (Nat.zero_le _), BitVec.getElem_zero]
        rw [none, additive.zero, additive'.zero]
    | succ count inductionHypothesis =>
        intro word clear
        cases highest : word.getLsbD count with
        | false =>
            apply inductionHypothesis
            intro index above
            rcases Nat.eq_or_lt_of_le above with rfl | above
            · exact highest
            · exact clear index above
        | true =>
            have within : count < w := BitVec.lt_of_getLsbD highest
            have rest : test (word ^^^ BitVec.twoPow w count) =
                test' (word ^^^ BitVec.twoPow w count) := by
              apply inductionHypothesis
              intro index above
              rw [BitVec.getLsbD_xor, BitVec.getLsbD_twoPow]
              rcases Nat.eq_or_lt_of_le above with rfl | above
              · simp [highest, within]
              · simp [clear index above, Nat.ne_of_lt above]
            rw [additive, additive', bits count within] at rest
            exact Bool.xor_left_inj.mp rest
  funext word
  exact below w word fun index above => BitVec.getLsbD_of_ge word index above

/-- The sum of two additive tests. -/
theorem xor (additive : Additive test) (additive' : Additive test') :
    Additive fun word => test word ^^ test' word := by
  intro x y
  simp only [additive x y, additive' x y]
  cases test x <;> cases test' x <;> cases test y <;> cases test' y <;> rfl

end Additive

/-- The parity of a word. -/
def parity (word : BitVec w) : Bool :=
  (List.range w).foldl (fun sum index => sum ^^ word.getLsbD index) false

/-- A parity is additive. -/
theorem parity_additive : @Additive w parity := by
  intro x y
  have folded : ∀ (indices : List Nat) (sum sum' : Bool),
      indices.foldl (fun sum index => sum ^^ (x ^^^ y).getLsbD index) (sum ^^ sum') =
      (indices.foldl (fun sum index => sum ^^ x.getLsbD index) sum ^^
        indices.foldl (fun sum index => sum ^^ y.getLsbD index) sum') := by
    intro indices
    induction indices with
    | nil => exact fun _ _ => rfl
    | cons index rest inductionHypothesis =>
        intro sum sum'
        simp only [List.foldl_cons, ← inductionHypothesis, BitVec.getLsbD_xor]
        congr 1
        cases sum <;> cases sum' <;> simp
  exact folded (List.range w) false false

/-- The parity of the bits a mask selects. -/
theorem parity_and_additive (mask : BitVec w) : Additive fun word => parity (word &&& mask) := by
  intro x y
  have distributes : (x ^^^ y) &&& mask = (x &&& mask) ^^^ (y &&& mask) := by
    ext index bound
    simp [Bool.and_xor_distrib_right]
  simp only [distributes]
  exact parity_additive _ _

/-! ### Words as messages -/

/-- A word as a message, its least significant bit first. -/
def bits (word : BitVec w) : List Bool := (List.range w).map word.getLsbD

/-- A word has as many bits as it is wide. -/
theorem length_bits (word : BitVec w) : (bits word).length = w := by
  rw [bits, List.length_map, List.length_range]

/-- The bits of a sum. -/
theorem bits_xor (x y : BitVec w) : bits (x ^^^ y) = List.zipWith xor (bits x) (bits y) := by
  rw [bits, bits, bits, List.zipWith_map_left, List.zipWith_map_right, List.zipWith_self]
  exact List.map_congr_left fun _ _ => BitVec.getLsbD_xor

/-- The bits of two words, the low one first. -/
theorem bits_append {v : Nat} (x : BitVec w) (y : BitVec v) : bits (x ++ y) = bits y ++ bits x := by
  have low_first : List.range (w + v) = List.range v ++ (List.range w).map (v + ·) := by
    rw [Nat.add_comm, List.range_add]
  rw [bits, bits, bits, low_first, List.map_append, List.map_map]
  congr 1
  · apply List.map_congr_left
    intro index below
    rw [BitVec.getLsbD_append, if_pos (List.mem_range.mp below)]
  · apply List.map_congr_left
    intro index _
    rw [Function.comp_apply, BitVec.getLsbD_append, if_neg (by omega), Nat.add_sub_cancel_left]

/-- A bit of the check of a word, beside that of the check of no bits, is additive. -/
theorem right_bits_additive {width : Nat} (poly crc : BitVec width) (index : Nat) :
    Additive fun word : BitVec w => (right poly crc (bits word)).getLsbD index ^^
      (right poly crc (bits 0#w)).getLsbD index := by
  have apart : ∀ x y : BitVec w, right poly crc (bits (x ^^^ y)) =
      right poly crc (bits x) ^^^ right poly (BitVec.ofNat width 0) (bits y) := by
    intro x y
    have same : (bits x).length = (bits y).length := by rw [length_bits, length_bits]
    rw [← right_xor poly crc (BitVec.ofNat width 0) same, BitVec.xor_zero, bits_xor]
  intro x y
  have alone := apart 0#w y
  rw [BitVec.zero_xor] at alone
  simp only [apart x y, alone, BitVec.getLsbD_xor]
  cases (right poly crc (bits x)).getLsbD index <;>
    cases (right poly crc (bits 0#w)).getLsbD index <;>
    cases (right poly (BitVec.ofNat width 0) (bits y)).getLsbD index <;> rfl

end Rp2350Stepper.Data.Crc
