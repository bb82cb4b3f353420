/-
Module: SealedMatch.Proofs.Engine.Integers
Purpose: Encrypted integers are compared with every scalar, and added with their carries, as the
  numbers that their digits make up.
Trusted boundary: none
Main exports: SimulatedEngine.sized_clear, SimulatedEngine.roomy_clear,
  SimulatedEngine.atLeast_decides, SimulatedEngine.Represents, SimulatedEngine.Clean,
  SimulatedEngine.sumAll, SimulatedEngine.add_carries
-/
import Mathlib.Algebra.BigOperators.Group.List.Basic
import SealedMatch.Proofs.Engine.Arithmetic
import SealedMatch.Proofs.Engine.Refinement

namespace SealedMatch

namespace SimulatedEngine

open Process hiding bind bind_assoc

variable {e : SimulatedEngine} {margin : Nat}

/-! ### Room -/

/-- Digits are messages of an engine with a radix of two at least. -/
theorem sized_clear (h : e.Faithful margin) (hradix : 2 ≤ e.messageModulus) : e.clear.Sized := by
  refine ⟨hradix, ?_, ?_⟩
  · rw [clear_totalModulus, totalModulus_eq]
    exact Nat.pow_le_pow_right (by decide) h.bits_le
  · exact Nat.le_mul_of_pos_right _ (Nat.two_pow_pos _)

theorem two_le_two_pow {bits : Nat} (h : 1 ≤ bits) : 2 ≤ 2 ^ bits :=
  Nat.pow_le_pow_right (show 0 < 2 by decide) h

/-- A carry bit doubles the room of a digit. -/
theorem roomy_clear (h : e.Faithful margin) (hcarry : 1 ≤ e.parameters.carryBits)
    (hradix : 2 ≤ e.messageModulus) : e.clear.Roomy := by
  refine ⟨hradix, (sized_clear h hradix).total_le, ?_⟩
  rw [clear_totalModulus, clear_messageModulus]
  show 2 * e.messageModulus ≤ e.messageModulus * 2 ^ e.parameters.carryBits
  rw [Nat.mul_comm]
  exact Nat.mul_le_mul_left _ (two_le_two_pow hcarry)

theorem roomy_of_bits (h : e.Faithful margin) (hmessage : 1 ≤ e.parameters.messageBits)
    (hcarry : 1 ≤ e.parameters.carryBits) : e.clear.Roomy :=
  roomy_clear h hcarry (two_le_two_pow hmessage)

theorem three_le_totalModulus (h : e.clear.Roomy) : 3 ≤ e.totalModulus := by
  have two : 2 ≤ e.clear.messageModulus := h.radix_pos
  have room : 2 * e.clear.messageModulus ≤ e.totalModulus := h.room
  omega

/-! ### Ciphertexts at hand -/

/-- A ciphertext of the smallest engine, with a mask and a noise of one. -/
def sealed (message : Nat) : LweBlock :=
  ⟨.ofResidues #[1], sealBody 4 (.ofResidues #[1]) (.ofResidues #[1]) message 1, .large, false⟩

/-- The blocks of an integer of the smallest engine, the first of them public. -/
def sealedInteger (first : Nat) (rest : List Nat) : RadixInteger LweBlock :=
  ⟨smallest.publicBlock first :: rest.map sealed⟩

theorem encodes_sealed {message : Nat} (h : message < 4) :
    smallest.Encodes 6 (sealed message) ⟨.large, message⟩ :=
  ⟨h, 1, by decide, rfl, ⟨.ofResidues #[1], rfl, rfl, rfl⟩, fun marked => nomatch marked⟩

theorem encodes_sealedInteger {first : Nat} {rest : List Nat} (hfirst : first < 4)
    (hrest : ∀ m ∈ rest, m < 4) :
    RadixInteger.Each (smallest.Encodes 6) (sealedInteger first rest)
      (ClearEngine.ofNumbers (first :: rest)) := by
  refine .cons (encodes_publicBlock faithful_smallest hfirst) ?_
  rw [List.forall₂_map_left_iff, List.forall₂_map_right_iff, List.forall₂_same]
  exact fun m hm => encodes_sealed (hrest m hm)

/-! ### Comparison -/

/-- The truth value of a bit. -/
theorem decryptTruth_of_bit (h : e.Faithful margin) (roomy : e.clear.Roomy) {c : LweBlock}
    {p : Prop} [Decidable p] (hc : e.Decodes c ⟨.large, if p then 1 else 0⟩) (session : Session) :
    ((e.decryptTruth c).run session).1 = .ok (decide p) := by
  obtain ⟨t, ht, same⟩ := (decryptTruth_yields h hc).run session
  rw [ht, same, ClearEngine.decryptTruth_bit roomy]

/-- Digits are compared with any scalar as the number that they make up, which is what they are
decrypted to. Blocks may be public constants or not, and scalars may lie outside of the range. -/
theorem atLeast_decides (h : e.Faithful 2) (hmessage : 1 ≤ e.parameters.messageBits)
    (hcarry : 1 ≤ e.parameters.carryBits) {x : RadixInteger LweBlock} {ds : List Nat}
    (hx : RadixInteger.Each e.Decodes x (ClearEngine.ofNumbers ds))
    (hds : ∀ d ∈ ds, d < e.messageModulus) (scalar : Int) :
    ∃ value : Int, value = recompose e.messageModulus (ds.map (↑)) ∧
      (∀ session, ((e.decryptInteger x).run session).1 = .ok value) ∧
      ∀ session, ∃ c, ((e.atLeast x scalar).run session).1 = .ok c ∧
        e.decode c = .ok (if scalar ≤ value then 1 else 0) ∧
        ∀ later, ((e.decryptTruth c).run later).1 = .ok (decide (scalar ≤ value)) := by
  have roomy := roomy_of_bits h hmessage hcarry
  have compared := (atLeast_refines h (le_refl 2) (three_le_totalModulus roomy) hx scalar).yields
    (ClearEngine.atLeast_ofNumbers roomy hds scalar)
  refine ⟨_, rfl, fun session => ?_, fun session => ?_⟩
  · obtain ⟨value, hvalue, same⟩ := (decryptInteger_yields h hx).run session
    rw [hvalue, same]
    exact congrArg Except.ok (ClearEngine.decryptInteger_ofNumbers hds)
  · obtain ⟨c, hc, encodes⟩ := compared.run session
    have decodes := encodes.decodes (le_refl 2) h.bits_le
    exact ⟨c, hc, decodes.decode_eq, decryptTruth_of_bit h roomy decodes⟩

/-- The digits one, none and one of radix two make up five. -/
theorem atLeast_decides_five :
    smallest.Faithful 2 ∧ 1 ≤ smallest.parameters.messageBits ∧
      1 ≤ smallest.parameters.carryBits ∧
      RadixInteger.Each smallest.Decodes (sealedInteger 1 [0, 1])
        (ClearEngine.ofNumbers [1, 0, 1]) ∧
      (∀ d ∈ [1, 0, 1], d < smallest.messageModulus) ∧
      ∃ value : Int, value = recompose smallest.messageModulus ([1, 0, 1].map (↑)) ∧
        (∀ session, ((smallest.decryptInteger (sealedInteger 1 [0, 1])).run session).1 =
          .ok value) ∧
        ∀ session, ∃ c, ((smallest.atLeast (sealedInteger 1 [0, 1]) 5).run session).1 = .ok c ∧
          smallest.decode c = .ok (if 5 ≤ value then 1 else 0) ∧
          ∀ later, ((smallest.decryptTruth c).run later).1 = .ok (decide (5 ≤ value)) := by
  have faithful : smallest.Faithful 2 := faithful_smallest.of_le (by decide)
  have decodes : RadixInteger.Each smallest.Decodes (sealedInteger 1 [0, 1])
      (ClearEngine.ofNumbers [1, 0, 1]) :=
    decodes_each faithful_smallest (by decide) (encodes_sealedInteger (by decide) (by decide))
  exact ⟨faithful, by decide, by decide, decodes, by decide,
    atLeast_decides faithful (by decide) (by decide) decodes (by decide) 5⟩

/-! ### Addition -/

/-- An encrypted integer represents the residue of a number in so many digits: its blocks decode to
the digits, each of them below the radix, and it is decrypted to the residue. -/
structure Represents (e : SimulatedEngine) (x : RadixInteger LweBlock) (width : Nat) (v : Int) :
    Prop where
  width_eq : x.width = width
  decode_eq : List.Forall₂ (fun c d => e.decode c = .ok d.toNat) x.blocks
    (digits e.messageModulus width v)
  decode_lt : ∀ c ∈ x.blocks, ∃ d < e.messageModulus, e.decode c = .ok d
  decrypt_eq : ∀ session, ((e.decryptInteger x).run session).1 =
    .ok (v % (e.messageModulus : Int) ^ width)

theorem represents_of_decodes (h : e.Faithful margin) (roomy : e.clear.Roomy)
    {x : RadixInteger LweBlock} {width : Nat} {v : Int}
    (hx : RadixInteger.Each e.Decodes x (e.clear.ofInteger width v)) :
    e.Represents x width v := by
  have decoded : List.Forall₂ (fun c d => e.decode c = .ok d.toNat) x.blocks
      (digits e.messageModulus width v) := by
    have blocks : List.Forall₂ e.Decodes x.blocks
        ((digits e.messageModulus width v).map fun d => ⟨.large, d.toNat⟩) := hx
    rw [List.forall₂_map_right_iff] at blocks
    exact blocks.imp fun c d hc => hc.decode_eq
  refine ⟨?_, decoded, ?_, fun session => ?_⟩
  · rw [hx.width_eq, ClearEngine.width_ofInteger]
  · refine forall₂_left (forall₂_and_right decoded (digits_range roomy.pos_int width v)) ?_
    rintro c d ⟨hc, low, high⟩
    have high' : d < e.messageModulus := high
    exact ⟨d.toNat, by omega, hc⟩
  · obtain ⟨value, hvalue, same⟩ := (decryptInteger_yields h hx).run session
    rw [hvalue, same]
    exact congrArg Except.ok (ClearEngine.decryptInteger_ofInteger roomy width v)

/-- The blocks of an encrypted integer hide the digits of a list, of which there are so many, each
behind a noise of which six stay below one spacing. -/
structure Clean (e : SimulatedEngine) (width : Nat) (x : RadixInteger LweBlock) (ds : List Nat) :
    Prop where
  encodes : RadixInteger.Each (e.Encodes 6) x (ClearEngine.ofNumbers ds)
  length_eq : ds.length = width
  digits_lt : ∀ d ∈ ds, d < e.messageModulus

/-- Integers are added up one after the other, beginning with a public zero. -/
def sumAll (e : SimulatedEngine) (width : Int) (xs : List (RadixInteger LweBlock)) :
    Action (RadixInteger LweBlock) := do
  let zero ← e.publicZero width
  xs.foldlM e.add zero

/-- What has been added up represents the sum so far, behind noises as small as before. -/
theorem sumFrom_yields (h : e.Faithful 6) (roomy : e.clear.Roomy) {width : Nat}
    {summands : List (RadixInteger LweBlock × List Nat)}
    (hsummands : ∀ s ∈ summands, e.Clean width s.1 s.2) {sum : RadixInteger LweBlock} {v : Int}
    (hsum : RadixInteger.Each (e.Encodes 6) sum (e.clear.ofInteger width v)) :
    ((summands.map Prod.fst).foldlM e.add sum).Yields Session.Silent fun z =>
      RadixInteger.Each (e.Encodes 6) z (e.clear.ofInteger width
        (v + (summands.map fun s => recompose e.messageModulus (s.2.map (↑))).sum)) := by
  induction summands generalizing sum v with
  | nil => exact Yields.done (by simpa using hsum)
  | cons summand summands ih =>
      have clean := hsummands summand (by simp)
      have hnext := clean.encodes
      rw [ClearEngine.ofNumbers_eq_ofInteger (k := e.clear) clean.digits_lt, clean.length_eq]
        at hnext
      have added := (add_refines h (le_refl 6) hsum hnext).yields
        (ClearEngine.add_ofInteger roomy width v _)
      rw [List.map_cons, List.map_cons, List.foldlM_cons, List.sum_cons, ← add_assoc]
      apply added.bind
      intro next each
      exact ih (fun s hs => hsummands s (List.mem_cons_of_mem _ hs)) each

theorem sumAll_yields (h : e.Faithful 6) (roomy : e.clear.Roomy) {width : Nat}
    {summands : List (RadixInteger LweBlock × List Nat)}
    (hsummands : ∀ s ∈ summands, e.Clean width s.1 s.2) :
    (e.sumAll width (summands.map Prod.fst)).Yields Session.Silent fun z =>
      RadixInteger.Each (e.Encodes 6) z (e.clear.ofInteger width
        (summands.map fun s => recompose e.messageModulus (s.2.map (↑))).sum) := by
  have zero := ClearEngine.publicZero_eq (k := e.clear) width
  unfold sumAll
  apply ((publicZero_refines h width).yields rfl).bind
  intro z hz
  rw [zero, Int.toNat_natCast] at hz
  have rest := sumFrom_yields h roomy hsummands hz
  rwa [zero_add] at rest

/-- Addition propagates carries. Where no sum of two blocks and a carry reaches the message space,
as those of digits never do, it represents the number that the sums make up, and adding up digits
represents the sum of their numbers, in whatever order they are added. -/
theorem add_carries (h : e.Faithful 6) (hmessage : 1 ≤ e.parameters.messageBits)
    (hcarry : 1 ≤ e.parameters.carryBits) :
    (∀ (as bs : List Nat) (x y : RadixInteger LweBlock),
      RadixInteger.Each (e.Encodes 6) x (ClearEngine.ofNumbers as) →
      RadixInteger.Each (e.Encodes 6) y (ClearEngine.ofNumbers bs) → as.length = bs.length →
      e.clear.HasRoom 0 (as.zip bs) → ∀ session, ∃ z, ((e.add x y).run session).1 = .ok z ∧
        e.Represents z as.length (ClearEngine.columnTotal e.messageModulus (as.zip bs))) ∧
    (∀ as bs : List Nat, (∀ a ∈ as, a < e.messageModulus) → (∀ b ∈ bs, b < e.messageModulus) →
      e.clear.HasRoom 0 (as.zip bs)) ∧
    ∀ (width : Nat) (summands order : List (RadixInteger LweBlock × List Nat)),
      (∀ s ∈ summands, e.Clean width s.1 s.2) → order.Perm summands → ∀ session, ∃ z,
        ((e.sumAll width (order.map Prod.fst)).run session).1 = .ok z ∧
        e.Represents z width
          (summands.map fun s => recompose e.messageModulus (s.2.map (↑))).sum := by
  have roomy := roomy_of_bits h hmessage hcarry
  have represents : ∀ {z width v},
      RadixInteger.Each (e.Encodes 6) z (e.clear.ofInteger width v) → e.Represents z width v :=
    fun hz => represents_of_decodes h roomy (decodes_each h (by decide) hz)
  refine ⟨?_, ?_, ?_⟩
  · intro as bs x y hx hy hlength hroom session
    have added := (add_refines h (le_refl 6) hx hy).yields
      (ClearEngine.add_ofNumbers roomy.pos hlength hroom)
    obtain ⟨z, hz, each⟩ := added.run session
    exact ⟨z, hz, represents each⟩
  · intro as bs has hbs
    refine ClearEngine.hasRoom_of_digits roomy ?_ (Nat.zero_le 1)
    intro pair hpair
    obtain ⟨left, right⟩ := List.of_mem_zip hpair
    exact ⟨has _ left, hbs _ right⟩
  · intro width summands order hsummands hperm session
    obtain ⟨z, hz, each⟩ :=
      (sumAll_yields h roomy fun s hs => hsummands s (hperm.mem_iff.1 hs)).run session
    rw [(hperm.map _).sum_eq] at each
    exact ⟨z, hz, represents each⟩

/-- A block that holds three is no digit, but there is room for its carry. Three, two and one have
the sum six, of which two digits leave two. -/
theorem add_carries_sample :
    smallest.Faithful 6 ∧ 1 ≤ smallest.parameters.messageBits ∧
      1 ≤ smallest.parameters.carryBits ∧ smallest.clear.HasRoom 0 ([3, 0].zip [0, 0]) ∧
      (∀ session, ∃ z,
        ((smallest.add (sealedInteger 3 [0]) (sealedInteger 0 [0])).run session).1 = .ok z ∧
          smallest.Represents z 2 3) ∧
      ∀ session, ∃ z,
        ((smallest.sumAll 2 [sealedInteger 1 [1], sealedInteger 0 [1], sealedInteger 1 [0]]).run
          session).1 = .ok z ∧ smallest.Represents z 2 6 := by
  have room : smallest.clear.HasRoom 0 ([3, 0].zip [0, 0]) := ⟨by decide, by decide, trivial⟩
  obtain ⟨addition, _, folding⟩ := add_carries faithful_smallest (by decide) (by decide)
  have added := addition [3, 0] [0, 0] _ _ (encodes_sealedInteger (by decide) (by decide))
    (encodes_sealedInteger (by decide) (by decide)) rfl room
  have clean : ∀ first rest, first < 2 → (∀ m ∈ rest, m < 2) → rest.length = 1 →
      smallest.Clean 2 (sealedInteger first rest) (first :: rest) := by
    intro first rest hfirst hrest hlength
    refine ⟨encodes_sealedInteger (by omega) fun m hm => by have := hrest m hm; omega, ?_, ?_⟩
    · rw [List.length_cons, hlength]
    · exact List.forall_mem_cons.2 ⟨hfirst, hrest⟩
  have folded := folding 2
    [(sealedInteger 1 [0], [1, 0]), (sealedInteger 0 [1], [0, 1]), (sealedInteger 1 [1], [1, 1])]
    [(sealedInteger 1 [1], [1, 1]), (sealedInteger 0 [1], [0, 1]), (sealedInteger 1 [0], [1, 0])]
    (by simp [clean]) (List.reverse_perm _).symm
  exact ⟨faithful_smallest, by decide, by decide, room, added, folded⟩

end SimulatedEngine

end SealedMatch
