/-
Module: SealedMatch.Proofs.Engine.Decoding
Purpose: Decoding undoes encryption and follows addition while the noise stays below half a spacing.
Trusted boundary: none
Main exports: Decimal.roundHalfEven_near, decodePhase_near, maskProduct_add,
  SimulatedEngine.Faithful, SimulatedEngine.Intact, SimulatedEngine.Hides,
  SimulatedEngine.Hides.decode, SimulatedEngine.Hides.add
-/
import Mathlib.Data.Int.ModEq
import Mathlib.Algebra.Order.Ring.Int
import Mathlib.Tactic.LinearCombination
import Mathlib.Tactic.Ring
import SealedMatch.Engine.Simulated
import SealedMatch.Proofs.Outcome

namespace SealedMatch

/-! ### Rounding -/

/-- A number less than half a step away from a multiple of the step is rounded to it. -/
theorem Decimal.roundHalfEven_near {p d q : Nat} (h : 2 * |(p : Int) - q * d| < d) :
    Decimal.roundHalfEven p d = q := by
  have hd : 0 < d := by
    have := abs_nonneg ((p : Int) - q * d)
    omega
  have hdiv : d * (p / d) + p % d = p := Nat.div_add_mod p d
  have hmod : p % d < d := Nat.mod_lt p hd
  obtain ⟨hlow, hhigh⟩ := abs_lt.1 (show |(p : Int) - q * d| < ((d : Int) + 1) / 2 by omega)
  have hcases : p / d = q ∨ p / d + 1 = q := by
    rcases Nat.lt_trichotomy (p / d) q with hlt | heq | hgt
    · right
      by_contra hne
      have two : p / d + 2 ≤ q := by omega
      have : (p / d + 2) * d ≤ q * d := Nat.mul_le_mul_right d two
      have expand : (p / d + 2) * d = d * (p / d) + 2 * d := by ring
      omega
    · exact Or.inl heq
    · have one : q + 1 ≤ p / d := hgt
      have : (q + 1) * d ≤ p / d * d := Nat.mul_le_mul_right d one
      have expand : (q + 1) * d = q * d + d := by ring
      have swap : p / d * d = d * (p / d) := Nat.mul_comm _ _
      omega
  unfold Decimal.roundHalfEven
  rcases hcases with hq | hq
  · have swap : d * (p / d) = q * d := by rw [hq, Nat.mul_comm]
    have near : 2 * (p % d) < d := by omega
    simp only [near, if_true]
    exact hq
  · have swap : q * d = d * (p / d) + d := by rw [← hq]; ring
    have far : d < 2 * (p % d) := by omega
    have notNear : ¬ 2 * (p % d) < d := by omega
    simp only [notNear, far, if_true, if_false]
    exact hq

/-- The messages and as many free places above them fill the ciphertext modulus. -/
theorem spacing_mul {total : Nat} (h : 2 * total ∣ ciphertextModulus) :
    spacing total * (2 * total) = ciphertextModulus :=
  Nat.div_mul_cancel h

/-- A phase that is congruent to a multiple of the spacing up to less than half a spacing decodes to
the multiple, modulo the message space. -/
theorem decodePhase_near {total p number : Nat} {noise : Int}
    (hdvd : 2 * total ∣ ciphertextModulus)
    (hp : (p : Int) ≡ number * spacing total + noise [ZMOD ciphertextModulus])
    (hnoise : 2 * |noise| < spacing total) : decodePhase total p = number % total := by
  have hfull : (spacing total : Int) * (2 * total) = ciphertextModulus := by
    exact_mod_cast spacing_mul hdvd
  have hspacing : 0 < spacing total := by
    have := abs_nonneg noise
    omega
  obtain ⟨k, hk⟩ := hp.dvd
  -- The multiple of the modulus between both sides moves the message by whole message spaces.
  have hshift : (p : Int) = (number - 2 * total * k) * spacing total + noise := by
    linear_combination k * hfull - hk
  have hnonneg : 0 ≤ (number : Int) - 2 * total * k := by
    by_contra hneg
    have hle : (number : Int) - 2 * total * k ≤ -1 := by omega
    have hprod : ((number : Int) - 2 * total * k) * spacing total ≤ -1 * spacing total :=
      mul_le_mul_of_nonneg_right hle (by omega)
    have := abs_lt.1 (show |noise| < (spacing total : Int) by
      have := abs_nonneg noise
      omega)
    omega
  obtain ⟨q, hq⟩ := Int.eq_ofNat_of_zero_le hnonneg
  rw [hq] at hshift
  have hround : Decimal.roundHalfEven p (spacing total) = q := by
    apply Decimal.roundHalfEven_near
    rw [hshift, add_sub_cancel_left]
    exact hnoise
  have hmod : ((q : Int)) % total = (number : Int) % total := by
    rw [← hq]
    have split : (number : Int) - 2 * total * k = number + total * (-(2 * k)) := by ring
    rw [split, Int.add_mul_emod_self_left]
  unfold decodePhase
  rw [hround]
  exact_mod_cast hmod

/-! ### Masks -/

/-- The product as a sum of products. -/
theorem maskProduct_eq_sum (mask secret : WordRow) :
    maskProduct mask secret =
      (List.zipWith (· * ·) mask.residues.toList secret.residues.toList).sum := by
  unfold maskProduct
  rw [← Array.foldl_toList, Array.toList_zipWith, List.sum_eq_foldl]

theorem zipWith_mul_sum_replicate (n : Nat) (ys : List Nat) :
    (List.zipWith (· * ·) (List.replicate n 0) ys).sum = 0 := by
  induction n generalizing ys with
  | zero => simp
  | succ n ih =>
      cases ys with
      | nil => simp
      | cons y ys => simp [List.replicate_succ, ih]

/-- A mask of zeros has no product. -/
theorem maskProduct_zeros (n : Nat) (secret : WordRow) :
    maskProduct (.ofResidues (Array.replicate n 0)) secret = 0 := by
  rw [maskProduct_eq_sum]
  simp only [WordRow.ofResidues, Array.toList_replicate]
  exact zipWith_mul_sum_replicate n _

theorem zipWith_mul_sum_add (q : Nat) {xs ys zs : List Nat} (hxy : xs.length = ys.length) :
    (List.zipWith (· * ·) (List.zipWith (fun x y => (x + y) % q) xs ys) zs).sum ≡
      (List.zipWith (· * ·) xs zs).sum + (List.zipWith (· * ·) ys zs).sum [MOD q] := by
  induction xs generalizing ys zs with
  | nil =>
      cases ys with
      | nil => simp [Nat.ModEq]
      | cons y ys => simp at hxy
  | cons x xs ih =>
      cases ys with
      | nil => simp at hxy
      | cons y ys =>
          cases zs with
          | nil => simp [Nat.ModEq]
          | cons z zs =>
              have rest := @ih ys zs (Nat.succ.inj hxy)
              have here : (x + y) % q * z ≡ x * z + y * z [MOD q] := by
                rw [← Nat.add_mul]
                exact (Nat.mod_modEq (x + y) q).mul_right z
              simp only [List.zipWith_cons_cons, List.sum_cons]
              have both := here.add rest
              have order : x * z + y * z +
                  ((List.zipWith (· * ·) xs zs).sum + (List.zipWith (· * ·) ys zs).sum) =
                  x * z + (List.zipWith (· * ·) xs zs).sum +
                    (y * z + (List.zipWith (· * ·) ys zs).sum) := by ring
              rw [order] at both
              exact both

/-- Products follow the addition of masks. -/
theorem maskProduct_add {a b secret : WordRow} (h : a.size = b.size) :
    maskProduct (.ofResidues (Array.zipWith (fun x y => (x + y) % ciphertextModulus)
        a.residues b.residues)) secret ≡
      maskProduct a secret + maskProduct b secret [MOD ciphertextModulus] := by
  rw [maskProduct_eq_sum, maskProduct_eq_sum, maskProduct_eq_sum]
  simp only [WordRow.ofResidues, Array.toList_zipWith]
  exact zipWith_mul_sum_add ciphertextModulus (by simpa [WordRow.size] using h)

/-! ### Numbers behind a noise -/

namespace SimulatedEngine

/-- What the exactness of an engine rests on. `margin` noises at once stay below one spacing. -/
structure Faithful (e : SimulatedEngine) (margin : Nat) : Prop where
  /-- No fault is planted at the entry of an operation. -/
  unguarded : e.guard = SimulatedEngine.unguarded
  /-- Messages, carries and the padding bit fit the ciphertext modulus. -/
  bits_le : e.parameters.messageBits + e.parameters.carryBits ≤ 31
  /-- Public constants have masks of the size of the large key. -/
  large_size : e.keys.large.size = e.parameters.polynomialSize.toNat
  noise_lt : ∀ key position, margin * |e.tape.noise key position| < spacing e.totalModulus

/-- What is left to rely on if nothing is known of the noise, nor of the room for messages. -/
structure Intact (e : SimulatedEngine) : Prop where
  unguarded : e.guard = SimulatedEngine.unguarded
  large_size : e.keys.large.size = e.parameters.polynomialSize.toNat

variable {e : SimulatedEngine}

theorem Faithful.intact {margin : Nat} (h : e.Faithful margin) : e.Intact :=
  ⟨h.unguarded, h.large_size⟩

theorem totalModulus_eq (e : SimulatedEngine) :
    e.totalModulus = 2 ^ (e.parameters.messageBits + e.parameters.carryBits) :=
  (pow_add 2 _ _).symm

theorem totalModulus_pos (e : SimulatedEngine) : 0 < e.totalModulus := by
  rw [totalModulus_eq]
  exact Nat.two_pow_pos _

theorem two_mul_totalModulus_dvd
    (h : e.parameters.messageBits + e.parameters.carryBits ≤ 31) :
    2 * e.totalModulus ∣ ciphertextModulus := by
  rw [totalModulus_eq, ← pow_succ']
  exact pow_dvd_pow 2 (by omega)

theorem Faithful.of_le {margin fewer : Nat} (h : e.Faithful margin) (hle : fewer ≤ margin) :
    e.Faithful fewer := by
  refine ⟨h.unguarded, h.bits_le, h.large_size, fun key position => ?_⟩
  have less : (fewer : Int) * |e.tape.noise key position| ≤ margin * |e.tape.noise key position| :=
    mul_le_mul_of_nonneg_right (by exact_mod_cast hle) (abs_nonneg _)
  exact lt_of_le_of_lt less (h.noise_lt key position)

/-- What an engine is made of, if one can be made. -/
theorem ofTape_eq_ok {p : LweParameters} {tape : Tape} {guard : EngineCall → Action Unit}
    (he : ofTape p tape guard = .ok e) :
    e.parameters = p ∧ e.tape = tape ∧ e.guard = guard ∧
      e.keys.large.size = p.polynomialSize.toNat ∧ p.totalModulus ≤ 2 ^ 63 := by
  unfold ofTape at he
  split at he
  · cases he
  · obtain ⟨_, hrow, he⟩ := bind_eq_ok he
    cases he
    refine ⟨rfl, rfl, rfl, by simp [secretAt, WordRow.size, WordRow.ofResidues], ?_⟩
    by_contra long
    unfold requireRow at hrow
    rw [if_pos (by omega)] at hrow
    cases hrow

theorem intact_ofTape {p : LweParameters} {tape : Tape}
    (he : ofTape p tape SimulatedEngine.unguarded = .ok e) : e.Intact := by
  obtain ⟨rfl, _, hguard, hsize, _⟩ := ofTape_eq_ok he
  exact ⟨hguard, hsize⟩

/-- An engine on a tape is exact if the noises of the tape are small enough. -/
theorem faithful_ofTape {p : LweParameters} {tape : Tape} {margin : Nat}
    (he : ofTape p tape SimulatedEngine.unguarded = .ok e)
    (hbits : p.messageBits + p.carryBits ≤ 31)
    (hnoise : ∀ key position, margin * |tape.noise key position| < spacing p.totalModulus) :
    e.Faithful margin := by
  obtain ⟨rfl, rfl, hguard, hsize, _⟩ := ofTape_eq_ok he
  exact ⟨hguard, hbits, hsize, hnoise⟩

/-- A small engine with a message bit, a carry bit and a noise of one everywhere. -/
def smallest : SimulatedEngine where
  parameters := ⟨"SMALLEST", .classic, 1, 1, 1, 1, 0.0, 0.0, 1, 128⟩
  keys := ⟨.ofResidues #[1], .ofResidues #[1]⟩
  tape := ⟨fun _ => 1, fun _ _ => 1⟩
  guard := SimulatedEngine.unguarded

theorem faithful_smallest : smallest.Faithful 6 where
  unguarded := rfl
  bits_le := by decide
  large_size := rfl
  noise_lt := by
    intro key position
    show (6 : Int) * |1| < (spacing 4 : Nat)
    decide

/-- A ciphertext hides a number under a key, behind a noise. The number may lie beyond the message
space, as that of a sum may. -/
structure Hides (e : SimulatedEngine) (c : LweBlock) (key : KeyLabel) (number : Nat)
    (noise : Int) : Prop where
  key_eq : c.key = key
  body_eq : ∃ secret, e.keys.find? key = some secret ∧ c.mask.size = secret.size ∧
    c.body = sealBody e.totalModulus c.mask secret number noise
  /-- Only public constants and their sums are marked trivial. -/
  large_of_trivial : c.trivial = true → key = .large

theorem isWord_sealBody (total : Nat) (mask secret : WordRow) (message noise : Int) :
    isWord (sealBody total mask secret message noise) = true := by
  unfold sealBody ciphertextModulus
  have low := Int.emod_nonneg
    ((maskProduct mask secret : Int) + message * spacing total + noise)
    (show ((2 ^ 32 : Nat) : Int) ≠ 0 by decide)
  have high := Int.emod_lt_of_pos
    ((maskProduct mask secret : Int) + message * spacing total + noise)
    (show (0 : Int) < ((2 ^ 32 : Nat) : Int) by decide)
  exact isWord_iff.2 (by omega)

/-- What is left of a sealed body without the mask is the message and the noise. -/
theorem phase_sealBody (total : Nat) (mask secret : WordRow) (number : Nat) (noise : Int) :
    (phase (sealBody total mask secret number noise) (maskProduct mask secret) : Int) ≡
      number * spacing total + noise [ZMOD ciphertextModulus] := by
  have hpos : (0 : Int) < ciphertextModulus := by decide
  have nonneg := Int.emod_nonneg
    (sealBody total mask secret number noise - maskProduct mask secret) hpos.ne'
  unfold phase
  rw [Int.toNat_of_nonneg nonneg]
  unfold sealBody
  refine (Int.mod_modEq _ _).trans ?_
  have inner : ((maskProduct mask secret : Int) + number * spacing total + noise) %
      ciphertextModulus ≡ maskProduct mask secret + number * spacing total + noise
        [ZMOD ciphertextModulus] := Int.mod_modEq _ _
  have difference := inner.sub_right (maskProduct mask secret : Int)
  have order : (maskProduct mask secret : Int) + number * spacing total + noise -
      maskProduct mask secret = number * spacing total + noise := by ring
  rw [order] at difference
  exact difference

/-- A hidden number is decoded modulo the message space, if the noise stays below half a
spacing. -/
theorem Hides.decodeBody {c : LweBlock} {key : KeyLabel} {number : Nat} {noise : Int}
    (h : e.Hides c key number noise)
    (hbits : e.parameters.messageBits + e.parameters.carryBits ≤ 31)
    (hnoise : 2 * |noise| < spacing e.totalModulus) {secret : WordRow}
    (hsecret : e.keys.find? key = some secret) :
    e.decodeBody c.body (maskProduct c.mask secret) = number % e.totalModulus := by
  obtain ⟨secret', hsecret', _, hbody⟩ := h.body_eq
  rw [hsecret] at hsecret'
  cases hsecret'
  unfold SimulatedEngine.decodeBody
  rw [hbody]
  exact decodePhase_near (two_mul_totalModulus_dvd hbits) (phase_sealBody _ _ _ _ _) hnoise

theorem Hides.isWord_body {c : LweBlock} {key : KeyLabel} {number : Nat} {noise : Int}
    (h : e.Hides c key number noise) : isWord c.body = true := by
  obtain ⟨secret, _, _, hbody⟩ := h.body_eq
  rw [hbody]
  exact isWord_sealBody _ _ _ _ _

theorem Hides.decode {c : LweBlock} {key : KeyLabel} {number : Nat} {noise : Int}
    (h : e.Hides c key number noise)
    (hbits : e.parameters.messageBits + e.parameters.carryBits ≤ 31)
    (hnoise : 2 * |noise| < spacing e.totalModulus) :
    e.decode c = .ok (number % e.totalModulus) := by
  obtain ⟨secret, hsecret, hsize, _⟩ := h.body_eq
  have decoded := h.decodeBody hbits hnoise hsecret
  unfold SimulatedEngine.decode secretFor SimulatedEngine.secret
  rw [h.key_eq, hsecret, h.isWord_body]
  simp [bind, Except.bind, hsize, pure, Except.pure, decoded]

/-- Sums of ciphertexts hide the sums of numbers behind the sums of noises. -/
theorem Hides.add {a b : LweBlock} {key : KeyLabel} {m n : Nat} {x y : Int}
    (ha : e.Hides a key m x) (hb : e.Hides b key n y) :
    ∃ c, addUnderOneKey a b = .ok c ∧ e.Hides c key (m + n) (x + y) := by
  obtain ⟨secret, hsecret, hsizeA, hbodyA⟩ := ha.body_eq
  obtain ⟨secret', hsecret', hsizeB, hbodyB⟩ := hb.body_eq
  rw [hsecret] at hsecret'
  cases hsecret'
  have sizes : a.mask.size = b.mask.size := hsizeA.trans hsizeB.symm
  let mask : WordRow := .ofResidues (Array.zipWith (fun x y => (x + y) % ciphertextModulus)
    a.mask.residues b.mask.residues)
  refine ⟨⟨mask, (a.body + b.body) % ciphertextModulus, a.key, a.trivial && b.trivial⟩, ?_, ?_⟩
  · have sizes' : a.mask.residues.size = b.mask.residues.size := sizes
    unfold addUnderOneKey expectKey addCiphertexts
    rw [ha.key_eq, hb.key_eq]
    simp [bind, Except.bind, pure, Except.pure, Except.mapError, sizes', mask]
  · refine ⟨ha.key_eq, ⟨secret, hsecret, ?_, ?_⟩, ?_⟩
    · have sizeMask : mask.size = min a.mask.size b.mask.size := by
        simp [mask, WordRow.size, WordRow.ofResidues]
      show mask.size = secret.size
      omega
    · have product : (maskProduct mask secret : Int) ≡
          maskProduct a.mask secret + maskProduct b.mask secret [ZMOD ciphertextModulus] := by
        exact_mod_cast Int.natCast_modEq_iff.2 (@maskProduct_add _ _ secret sizes)
      have bodyA : a.body ≡ maskProduct a.mask secret + m * spacing e.totalModulus + x
          [ZMOD ciphertextModulus] := by
        rw [hbodyA]
        exact Int.mod_modEq _ _
      have bodyB : b.body ≡ maskProduct b.mask secret + n * spacing e.totalModulus + y
          [ZMOD ciphertextModulus] := by
        rw [hbodyB]
        exact Int.mod_modEq _ _
      have sum := bodyA.add bodyB
      have target := (product.add_right (((m + n : Nat) : Int) * spacing e.totalModulus)).add_right
        (x + y)
      refine (sum.trans ?_)
      refine Int.ModEq.trans ?_ target.symm
      have order : (maskProduct a.mask secret : Int) + m * spacing e.totalModulus + x +
          (maskProduct b.mask secret + n * spacing e.totalModulus + y) =
          maskProduct a.mask secret + maskProduct b.mask secret +
            ((m + n : Nat) : Int) * spacing e.totalModulus + (x + y) := by
        push_cast
        ring
      rw [order]
    · intro trivial
      exact ha.large_of_trivial (Bool.and_eq_true_iff.1 trivial).1

/-- A public constant hides its number without any noise. -/
theorem hides_publicBlock (hsize : e.keys.large.size = e.parameters.polynomialSize.toNat)
    (number : Nat) : e.Hides (e.publicBlock number) .large number 0 := by
  refine ⟨rfl, ⟨e.keys.large, rfl, ?_, ?_⟩, fun _ => rfl⟩
  · rw [hsize]
    simp [publicBlock, WordRow.size, WordRow.ofResidues]
  · unfold sealBody publicBlock
    rw [maskProduct_zeros]
    simp

end SimulatedEngine

end SealedMatch
