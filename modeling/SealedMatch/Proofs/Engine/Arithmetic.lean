/-
Module: SealedMatch.Proofs.Engine.Arithmetic
Purpose: In the clear, operations on digits are arithmetic on residues.
Trusted boundary: none
Main exports: ClearEngine.Roomy, ClearEngine.Sized, ClearEngine.ofInteger,
  ClearEngine.ofNumbers, ClearEngine.HasRoom, ClearEngine.publicZero_eq,
  ClearEngine.widen_ofInteger, ClearEngine.add_ofNumbers, ClearEngine.add_ofInteger,
  ClearEngine.atLeast_ofInteger, ClearEngine.decryptInteger_ofInteger
-/
import SealedMatch.Proofs.Engine.Clear
import SealedMatch.Proofs.Radix.Digits

namespace SealedMatch

namespace ClearEngine

open SimulatedEngine (expectKey ordering dominant)

/-- Two digits and a carry fit one block, and blocks are words. -/
structure Roomy (k : ClearEngine) : Prop where
  radix_pos : 2 ≤ k.messageModulus
  total_le : k.totalModulus ≤ 2 ^ 31
  room : 2 * k.messageModulus ≤ k.totalModulus

/-- Digits are messages, there are two of them at least, and messages are words. -/
structure Sized (k : ClearEngine) : Prop where
  radix_pos : 2 ≤ k.messageModulus
  total_le : k.totalModulus ≤ 2 ^ 31
  radix_le : k.messageModulus ≤ k.totalModulus

variable {k : ClearEngine}

theorem Roomy.sized (h : k.Roomy) : k.Sized := by
  have room := h.room
  exact ⟨h.radix_pos, h.total_le, by omega⟩

theorem Roomy.pos (h : k.Roomy) : 0 < k.messageModulus := Nat.zero_lt_of_lt h.radix_pos

theorem Roomy.pos_int (h : k.Roomy) : (0 : Int) < k.messageModulus := Int.natCast_pos.2 h.pos

/-- The digits of a number as blocks. -/
def ofDigits (ds : List Int) : List ClearBlock := ds.map fun d => ⟨.large, d.toNat⟩

/-- The residue of a number in so many digits. -/
def ofInteger (k : ClearEngine) (width : Nat) (v : Int) : RadixInteger ClearBlock :=
  ⟨ofDigits (digits k.messageModulus width v)⟩

@[simp] theorem width_ofInteger (width : Nat) (v : Int) : (k.ofInteger width v).width = width := by
  simp [RadixInteger.width, ofInteger, ofDigits]

/-! ### Zeros -/

theorem zeros_eq (count : Int) : zeros count = ofDigits (List.replicate count.toNat 0) := by
  simp [zeros, ofDigits]

theorem publicZero_eq (width : Int) : publicZero width = k.ofInteger width.toNat 0 := by
  unfold publicZero ofInteger
  rw [zeros_eq, digits_zero]

/-- Widening keeps the residue. -/
theorem widen_ofInteger (hr : 0 < k.messageModulus) {width wide : Nat} (hle : width ≤ wide)
    (v : Int) :
    widen (k.ofInteger width v) wide =
      .ok (k.ofInteger wide (v % (k.messageModulus : Int) ^ width)) := by
  have enough : ¬ (wide : Int) < (k.ofInteger width v).width := by
    rw [width_ofInteger]
    omega
  unfold widen
  rw [if_neg enough, width_ofInteger, zeros_eq]
  have count : ((wide : Int) - width).toNat = wide - width := by omega
  have sum : width + (wide - width) = wide := by omega
  unfold ofInteger ofDigits
  rw [count, ← List.map_append, digits_append_zeros (Int.natCast_pos.2 hr), sum]

/-! ### Addition -/

/-- Blocks under the large key that hold the numbers of a list. -/
def ofNumbers (ms : List Nat) : RadixInteger ClearBlock := ⟨ms.map fun m => ⟨.large, m⟩⟩

@[simp] theorem width_ofNumbers (ms : List Nat) : (ofNumbers ms).width = ms.length := by
  simp [RadixInteger.width, ofNumbers]

theorem ofInteger_eq_ofNumbers (k : ClearEngine) (width : Nat) (v : Int) :
    k.ofInteger width v = ofNumbers ((digits k.messageModulus width v).map Int.toNat) := by
  unfold ofInteger ofDigits ofNumbers
  rw [List.map_map]
  rfl

theorem cast_range {ds : List Nat} (hds : ∀ d ∈ ds, d < k.messageModulus) :
    ∀ d ∈ ds.map ((↑) : Nat → Int), 0 ≤ d ∧ d < k.messageModulus := by
  intro d hd
  obtain ⟨n, hn, rfl⟩ := List.mem_map.1 hd
  exact ⟨Int.natCast_nonneg n, Int.ofNat_lt.2 (hds n hn)⟩

/-- Digits are those of the number that they make up. -/
theorem ofNumbers_eq_ofInteger {ds : List Nat} (hds : ∀ d ∈ ds, d < k.messageModulus) :
    ofNumbers ds = k.ofInteger ds.length (recompose k.messageModulus (ds.map (↑))) := by
  have same := digits_recompose (cast_range hds)
  rw [List.length_map] at same
  rw [ofInteger_eq_ofNumbers, same, List.map_map]
  exact congrArg ofNumbers (List.map_id ds).symm

/-- Pairs of numbers can be added one after the other: with the carry of the pairs before it, the
sum of none of them reaches the message space. -/
def HasRoom (k : ClearEngine) : Nat → List (Nat × Nat) → Prop
  | _, [] => True
  | carry, (a, b) :: rest =>
    a + b + carry < k.totalModulus ∧ HasRoom k ((a + b + carry) / k.messageModulus) rest

/-- The number that the sums of pairs make up, digits or not. -/
def columnTotal (r : Int) (pairs : List (Nat × Nat)) : Int :=
  recompose r (pairs.map fun x => (x.1 : Int) + x.2)

theorem sumBlocks_large {a b : Nat} {carry? : Option Nat}
    (hroom : a + b + carry?.getD 0 < k.totalModulus) :
    k.sumBlocks ⟨.large, a⟩ ⟨.large, b⟩ carry? = .ok (a + b + carry?.getD 0) := by
  unfold sumBlocks
  cases carry? with
  | none => exact congrArg Except.ok (Nat.mod_eq_of_lt hroom)
  | some carry => exact congrArg Except.ok (Nat.mod_eq_of_lt hroom)

/-- Pair by pair, carries included, the digits of the sum come out. -/
theorem addFrom_eq (hr : 0 < k.messageModulus) {pairs : List (Nat × Nat)} (carry? : Option Nat)
    (hroom : k.HasRoom (carry?.getD 0) pairs) :
    k.addFrom carry? (pairs.map fun x => (⟨.large, x.1⟩, ⟨.large, x.2⟩)) =
      .ok (ofDigits (digits k.messageModulus pairs.length
        (columnTotal k.messageModulus pairs + (carry?.getD 0 : Nat)))) := by
  induction pairs generalizing carry? with
  | nil => rfl
  | cons pair pairs ih =>
      obtain ⟨a, b⟩ := pair
      obtain ⟨here, there⟩ := hroom
      generalize hsum : a + b + carry?.getD 0 = sum at here there
      have total : columnTotal k.messageModulus ((a, b) :: pairs) + (carry?.getD 0 : Nat) =
          (sum : Int) + k.messageModulus * columnTotal k.messageModulus pairs := by
        rw [← hsum]
        simp only [columnTotal, List.map_cons, recompose]
        push_cast
        ring
      have digit : ((sum : Int) + k.messageModulus * columnTotal k.messageModulus pairs) %
          k.messageModulus = (sum % k.messageModulus : Nat) := by
        rw [Int.add_mul_emod_self_left, Int.natCast_mod]
      have carry : ((sum : Int) + k.messageModulus * columnTotal k.messageModulus pairs) /
          k.messageModulus = columnTotal k.messageModulus pairs +
            (sum / k.messageModulus : Nat) := by
        rw [Int.add_mul_ediv_left _ _ (by omega), Int.natCast_div, add_comm]
      have rest := ih (some (sum / k.messageModulus)) there
      rw [← hsum] at here
      simp only [List.map_cons, List.length_cons, digits, ofDigits] at rest ⊢
      unfold addFrom
      rw [sumBlocks_large here, hsum, total, digit, carry]
      simp only [expectKey, bind, Except.bind, pure, Except.pure, if_true, rest]
      rfl

/-- Digits have room: two of them and a carry fit one block, and leave a carry again. -/
theorem hasRoom_of_digits (h : k.Roomy) {pairs : List (Nat × Nat)}
    (hpairs : ∀ x ∈ pairs, x.1 < k.messageModulus ∧ x.2 < k.messageModulus) {carry : Nat}
    (hcarry : carry ≤ 1) : k.HasRoom carry pairs := by
  induction pairs generalizing carry with
  | nil => exact trivial
  | cons pair pairs ih =>
      obtain ⟨a, b⟩ := pair
      obtain ⟨ha, hb⟩ := hpairs (a, b) (by simp)
      have room := h.room
      have next : (a + b + carry) / k.messageModulus < 2 :=
        Nat.div_lt_of_lt_mul (by omega)
      refine ⟨by omega, ih (fun x hx => hpairs x (List.mem_cons_of_mem _ hx)) (by omega)⟩

/-- Columns of one length total to what the rows make up. -/
theorem columnTotal_zip (r : Int) {as bs : List Nat} (hlength : as.length = bs.length) :
    columnTotal r (as.zip bs) = recompose r (as.map (↑)) + recompose r (bs.map (↑)) := by
  induction as generalizing bs with
  | nil =>
      obtain rfl : bs = [] := List.eq_nil_of_length_eq_zero hlength.symm
      rfl
  | cons a as ih =>
      cases bs with
      | nil => cases hlength
      | cons b bs =>
          have rest := ih (Nat.succ.inj hlength)
          simp only [columnTotal, List.zip_cons_cons, List.map_cons, recompose] at rest ⊢
          rw [rest]
          ring

/-- Addition of numbers that have room. -/
theorem add_ofNumbers (hr : 0 < k.messageModulus) {as bs : List Nat}
    (hlength : as.length = bs.length) (hroom : k.HasRoom 0 (as.zip bs)) :
    k.add (ofNumbers as) (ofNumbers bs) =
      .ok (k.ofInteger as.length (columnTotal k.messageModulus (as.zip bs))) := by
  have sum := addFrom_eq hr none hroom
  have pairs : (ofNumbers as).blocks.zip (ofNumbers bs).blocks =
      (as.zip bs).map fun x => (⟨.large, x.1⟩, ⟨.large, x.2⟩) := List.zip_map
  have count : (as.zip bs).length = as.length := by
    rw [List.length_zip, ← hlength, Nat.min_self]
  unfold add ofInteger
  rw [width_ofNumbers, width_ofNumbers, if_neg (not_not.2 hlength), pairs, sum, count]
  simp [bind, Except.bind, pure, Except.pure]

theorem ofInteger_emod (hr : 0 < k.messageModulus) (width : Nat) (v : Int) :
    k.ofInteger width (v % (k.messageModulus : Int) ^ width) = k.ofInteger width v := by
  unfold ofInteger
  rw [digits_emod (Int.natCast_pos.2 hr)]

/-- Addition of residues. -/
theorem add_ofInteger (h : k.Roomy) (width : Nat) (x y : Int) :
    k.add (k.ofInteger width x) (k.ofInteger width y) = .ok (k.ofInteger width (x + y)) := by
  have hr := h.pos
  have hr' := h.pos_int
  have clean : ∀ p ∈ ((digits k.messageModulus width x).map Int.toNat).zip
      ((digits k.messageModulus width y).map Int.toNat),
      p.1 < k.messageModulus ∧ p.2 < k.messageModulus := fun p hp =>
    ⟨toNat_digits_lt hr width x p.1 (List.of_mem_zip hp).1,
      toNat_digits_lt hr width y p.2 (List.of_mem_zip hp).2⟩
  have sum := add_ofNumbers hr (by simp) (hasRoom_of_digits h clean (Nat.zero_le 1))
  rw [columnTotal_zip _ (by simp), map_toNat_digits hr', map_toNat_digits hr',
    recompose_digits hr', recompose_digits hr', List.length_map, length_digits,
    ← ofInteger_emod hr, ← Int.add_emod, ofInteger_emod hr] at sum
  rw [ofInteger_eq_ofNumbers, ofInteger_eq_ofNumbers, sum]

/-! ### Comparison -/

/-- How a number compares with another one, where equal numbers leave the decision to `below`. -/
def comparison (v s : Int) (below : Nat) : Nat :=
  if v < s then 0 else if v = s then below else 2

theorem one_le_comparison {v s : Int} : 1 ≤ comparison v s 1 ↔ s ≤ v := by
  unfold comparison
  constructor
  · intro h
    by_contra hlt
    rw [if_pos (by omega)] at h
    exact absurd h (by decide)
  · intro h
    rw [if_neg (by omega)]
    split
    · exact le_refl 1
    · decide

/-- The ordering of two digits decides over what is less significant. -/
theorem dominant_ordering {m : Nat} {v : Int} (hm : (m : Int) = v) (s : Int) (below : Nat) :
    dominant (ordering s m) below = comparison v s below := by
  subst hm
  unfold dominant ordering comparison
  split
  · simp
  · split
    · simp
    · simp

/-- Comparing the first digits and then the rest compares the whole. -/
theorem comparison_digits {r : Int} (hr : 0 < r) (width : Nat) (v s : Int) (below : Nat) :
    comparison (v / r % r ^ width) (s / r % r ^ width) (comparison (v % r) (s % r) below) =
      comparison (v % r ^ (width + 1)) (s % r ^ (width + 1)) below := by
  have vlow := Int.emod_nonneg v hr.ne'
  have vhigh := Int.emod_lt_of_pos v hr
  have slow := Int.emod_nonneg s hr.ne'
  have shigh := Int.emod_lt_of_pos s hr
  have less := add_mul_lt_iff (A := v / r % r ^ width) (B := s / r % r ^ width)
    vlow vhigh slow shigh
  have more := add_mul_lt_iff (A := s / r % r ^ width) (B := v / r % r ^ width)
    slow shigh vlow vhigh
  unfold comparison
  rw [emod_pow_succ hr, emod_pow_succ hr]
  rcases lt_trichotomy (v / r % r ^ width) (s / r % r ^ width) with hlt | heq | hgt
  · rw [if_pos hlt, if_pos (less.2 (Or.inl hlt))]
  · rw [if_neg heq.not_lt, if_pos heq, heq]
    rcases lt_trichotomy (v % r) (s % r) with hlt' | heq' | hgt'
    · rw [if_pos hlt', if_pos (by omega)]
    · rw [if_neg heq'.not_lt, if_pos heq', if_neg (by omega), if_pos (by omega)]
    · rw [if_neg (by omega), if_neg (by omega), if_neg (by omega), if_neg (by omega)]
  · have above := more.2 (Or.inl hgt)
    rw [if_neg (by omega), if_neg (by omega), if_neg (by omega), if_neg (by omega)]

theorem compareFrom_digits (h : k.Roomy) (width : Nat) (v s : Int) (below : Nat) :
    compareFrom (some below) ((ofDigits (digits k.messageModulus width v)).zip
        (digits k.messageModulus width s)) =
      .ok (some (comparison (v % (k.messageModulus : Int) ^ width)
        (s % (k.messageModulus : Int) ^ width) below)) := by
  have hr := h.pos_int
  induction width generalizing v s below with
  | zero => simp [digits, ofDigits, compareFrom, comparison, pure, Except.pure]
  | succ width ih =>
      have here : dominant
          (ordering (s % k.messageModulus) (v % k.messageModulus).toNat) below =
            comparison (v % k.messageModulus) (s % k.messageModulus) below :=
        dominant_ordering (Int.toNat_of_nonneg (Int.emod_nonneg v hr.ne')) _ _
      have rest := ih (v / k.messageModulus) (s / k.messageModulus)
        (comparison (v % k.messageModulus) (s % k.messageModulus) below)
      simp only [digits, ofDigits, List.map_cons, List.zip_cons_cons] at rest ⊢
      unfold compareFrom
      simp only [expectKey, bind, Except.bind, pure, Except.pure, if_true]
      rw [here, rest, comparison_digits hr]

/-- Before the first digit everything is equal. -/
theorem compareFrom_none (b : ClearBlock) (digit : Int) (rest : List (ClearBlock × Int)) :
    compareFrom none ((b, digit) :: rest) = compareFrom (some 1) ((b, digit) :: rest) := by
  have same : dominant (ordering digit b.message) 1 = ordering digit b.message := by
    unfold dominant
    split
    · rename_i equal
      exact equal.symm
    · rfl
  unfold compareFrom
  simp only [same]

/-- Comparison of a residue with a number. -/
theorem atLeast_ofInteger (h : k.Roomy) (width : Nat) (v scalar : Int) :
    k.atLeast (k.ofInteger width v) scalar =
      .ok ⟨.large, if scalar ≤ v % (k.messageModulus : Int) ^ width then 1 else 0⟩ := by
  have hr := h.pos_int
  have hpow : 0 < (k.messageModulus : Int) ^ width := pow_pos hr width
  have low := Int.emod_nonneg v hpow.ne'
  have high := Int.emod_lt_of_pos v hpow
  unfold atLeast
  rw [width_ofInteger]
  by_cases hneg : scalar ≤ 0
  · rw [if_pos hneg, if_pos (by omega)]
  · by_cases hlarge : (k.messageModulus : Int) ^ width ≤ scalar
    · rw [if_neg hneg, if_pos hlarge, if_neg (by omega)]
    · rw [if_neg hneg, if_neg hlarge]
      have residue : scalar % (k.messageModulus : Int) ^ width = scalar :=
        Int.emod_eq_of_lt (by omega) (by omega)
      have compared := compareFrom_digits h width v scalar 1
      rw [residue] at compared
      cases width with
      | zero => simp at hlarge; omega
      | succ width =>
          simp only [ofInteger, digits, ofDigits, List.map_cons, List.zip_cons_cons]
            at compared ⊢
          rw [compareFrom_none, compared]
          simp only [bind, Except.bind, pure, Except.pure, one_le_comparison]

/-- Comparison of what digits make up with a number. -/
theorem atLeast_ofNumbers (h : k.Roomy) {ds : List Nat} (hds : ∀ d ∈ ds, d < k.messageModulus)
    (scalar : Int) :
    k.atLeast (ofNumbers ds) scalar = .ok ⟨.large,
      if scalar ≤ recompose k.messageModulus (ds.map (↑)) then 1 else 0⟩ := by
  have residue := recompose_emod h.pos_int (cast_range hds)
  rw [List.length_map] at residue
  rw [ofNumbers_eq_ofInteger hds, atLeast_ofInteger h, residue]

/-! ### Decryption -/

/-- Digits are decrypted to what they make up. -/
theorem decryptInteger_ofNumbers {ds : List Nat} (hds : ∀ d ∈ ds, d < k.messageModulus) :
    k.decryptInteger (ofNumbers ds) = recompose k.messageModulus (ds.map (↑)) := by
  unfold decryptInteger ofNumbers
  rw [List.map_map]
  refine congrArg (recompose _) (List.map_congr_left fun d hd => ?_)
  exact Int.emod_eq_of_lt (Int.natCast_nonneg d) (Int.ofNat_lt.2 (hds d hd))

theorem decryptInteger_ofInteger (h : k.Roomy) (width : Nat) (v : Int) :
    k.decryptInteger (k.ofInteger width v) = v % (k.messageModulus : Int) ^ width := by
  rw [ofInteger_eq_ofNumbers, decryptInteger_ofNumbers (toNat_digits_lt h.pos width v),
    map_toNat_digits h.pos_int, recompose_digits h.pos_int]

theorem decryptTruth_bit (h : k.Roomy) (p : Prop) [Decidable p] :
    k.decryptTruth ⟨.large, if p then 1 else 0⟩ = decide p := by
  have := h.radix_pos
  unfold decryptTruth
  split
  · rename_i hp
    have one : (1 : Int) % k.messageModulus = 1 := Int.emod_eq_of_lt (by decide) (by omega)
    simp [one, hp]
  · rename_i hp
    simp [hp]

end ClearEngine

end SealedMatch
