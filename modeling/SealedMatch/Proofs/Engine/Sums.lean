/-
Module: SealedMatch.Proofs.Engine.Sums
Purpose: Ciphertexts under one key, added up in any bracketing, decode to the sum of their messages.
Trusted boundary: none
Main exports: Bracketing, Summand, SimulatedEngine.addUp_hides, sealInWords_eq, phaseInWords_eq,
  SimulatedEngine.sums_decode
-/
import Mathlib.Algebra.BigOperators.Ring.Finset
import SealedMatch.Proofs.Engine.Encoding

namespace SealedMatch

/-! ### Arithmetic in words -/

/-- The product of a mask and a secret in words. Products and partial sums may both wrap around. -/
def productInWords (mask secret : WordRow) : Int :=
  ((List.zipWith (· * ·) mask.residues.toList secret.residues.toList).map Nat.cast).foldl
    (fun sum x => wrap64 (sum + wrap64 x)) 0

/-- The body of an encryption, computed in words. -/
def sealInWords (totalModulus : Nat) (mask secret : WordRow) (message noise : Int) : Int :=
  wrap64 (wrap64 (productInWords mask secret + wrap64 (message * spacing totalModulus)) +
    wrap64 noise) % ciphertextModulus

/-- The phase of a body, computed in words. -/
def phaseInWords (body : Int) (mask secret : WordRow) : Nat :=
  (wrap64 (body - productInWords mask secret) % ciphertextModulus).toNat

/-- The sum of two entries of a mask or of two bodies, computed in words. -/
def sumInWords (x y : Int) : Int := wrap64 (x + y) % ciphertextModulus

/-- The sum of two ciphertexts with masks of one length, computed in words. -/
def addInWords (a b : LweBlock) : LweBlock where
  mask := .ofResidues
    (Array.zipWith (fun x y : Nat => (sumInWords x y).toNat) a.mask.residues b.mask.residues)
  body := sumInWords a.body b.body
  key := a.key
  trivial := a.trivial && b.trivial

/-- What wraps around at the size of a word is the same modulo the ciphertext modulus, which divides
that size. -/
theorem wrap64_modEq (n : Int) : wrap64 n ≡ n [ZMOD ciphertextModulus] := by
  have whole : wrap64 n ≡ n [ZMOD 2 ^ 64] := Int.bmod_emod
  exact whole.of_dvd (by decide)

theorem foldl_wrap64_modEq (xs : List Int) (start : Int) :
    xs.foldl (fun sum x => wrap64 (sum + wrap64 x)) start ≡ start + xs.sum
      [ZMOD ciphertextModulus] := by
  induction xs generalizing start with
  | nil => simp
  | cons x xs ih =>
      rw [List.foldl_cons, List.sum_cons, ← add_assoc]
      have step : wrap64 (start + wrap64 x) ≡ start + x [ZMOD ciphertextModulus] :=
        (wrap64_modEq _).trans ((wrap64_modEq x).add_left start)
      exact (ih _).trans (step.add_right _)

theorem productInWords_modEq (mask secret : WordRow) :
    productInWords mask secret ≡ maskProduct mask secret [ZMOD ciphertextModulus] := by
  have folded := foldl_wrap64_modEq
    ((List.zipWith (· * ·) mask.residues.toList secret.residues.toList).map Nat.cast) 0
  rw [zero_add, ← Nat.cast_list_sum, ← maskProduct_eq_sum] at folded
  exact folded

/-- Words seal the same body. -/
theorem sealInWords_eq (totalModulus : Nat) (mask secret : WordRow) (message noise : Int) :
    sealInWords totalModulus mask secret message noise =
      sealBody totalModulus mask secret message noise := by
  have hidden : wrap64 (productInWords mask secret + wrap64 (message * spacing totalModulus)) ≡
      maskProduct mask secret + message * spacing totalModulus [ZMOD ciphertextModulus] :=
    (wrap64_modEq _).trans ((productInWords_modEq mask secret).add (wrap64_modEq _))
  exact (wrap64_modEq _).trans (hidden.add (wrap64_modEq noise))

/-- Words leave the same phase. -/
theorem phaseInWords_eq (body : Int) (mask secret : WordRow) :
    phaseInWords body mask secret = phase body (maskProduct mask secret) :=
  congrArg Int.toNat ((wrap64_modEq _).trans ((productInWords_modEq mask secret).sub_left body))

theorem sumInWords_eq (x y : Int) : sumInWords x y = (x + y) % ciphertextModulus :=
  wrap64_modEq _

theorem toNat_sumInWords (x y : Nat) : (sumInWords x y).toNat = (x + y) % ciphertextModulus := by
  rw [sumInWords_eq]
  exact Int.toNat_natCast _

/-- Words add up to the same ciphertext. -/
theorem addUnderOneKey_eq {a b : LweBlock} (hkey : a.key = b.key)
    (hsize : a.mask.size = b.mask.size) :
    SimulatedEngine.addUnderOneKey a b = .ok (addInWords a b) := by
  have sizes : a.mask.residues.size = b.mask.residues.size := hsize
  unfold SimulatedEngine.addUnderOneKey SimulatedEngine.expectKey addCiphertexts addInWords
  rw [if_pos hkey, if_pos sizes]
  simp only [toNat_sumInWords]
  rw [sumInWords_eq]
  rfl

/-! ### Bracketings -/

/-- A nonempty sequence of summands, and in which order it is added up. -/
inductive Bracketing (α : Type) where
  | single (x : α)
  | sum (left right : Bracketing α)

namespace Bracketing

/-- The summands from the left to the right. -/
def leaves {α : Type} : Bracketing α → List α
  | single x => [x]
  | sum left right => left.leaves ++ right.leaves

def map {α β : Type} (f : α → β) : Bracketing α → Bracketing β
  | single x => single (f x)
  | sum left right => sum (left.map f) (right.map f)

/-- Add ciphertexts, two at a time. -/
def addUp : Bracketing LweBlock → Except Failure LweBlock
  | single c => .ok c
  | sum left right => do
    let a ← left.addUp
    let b ← right.addUp
    SimulatedEngine.addUnderOneKey a b

end Bracketing

/-- A ciphertext to be added: an encryption, with its mask, its message and its noise, or a public
constant. -/
inductive Summand where
  | encryption (mask : WordRow) (message : Nat) (noise : Int)
  | constant (message : Nat)

namespace Summand

def message : Summand → Nat
  | encryption _ message _ => message
  | constant message => message

def noise : Summand → Int
  | encryption _ _ noise => noise
  | constant _ => 0

/-- The ciphertext of a summand under a key. -/
def block (e : SimulatedEngine) (key : KeyLabel) (secret : WordRow) : Summand → LweBlock
  | encryption mask message noise =>
    ⟨mask, sealBody e.totalModulus mask secret message noise, key, false⟩
  | constant message => e.publicBlock message

/-- Masks are as long as the secret. Public constants are under the large key only. -/
def Fits (e : SimulatedEngine) (key : KeyLabel) (secret : WordRow) : Summand → Prop
  | encryption mask _ _ => mask.size = secret.size
  | constant _ => key = .large ∧ secret.size = e.parameters.polynomialSize.toNat

end Summand

/-! ### Sums -/

namespace SimulatedEngine

variable {e : SimulatedEngine} {key : KeyLabel} {secret : WordRow}

theorem hides_summand (hkey : e.keys.find? key = some secret) {x : Summand}
    (hx : x.Fits e key secret) : e.Hides (x.block e key secret) key x.message x.noise := by
  cases x with
  | encryption mask message noise =>
      exact ⟨rfl, ⟨secret, hkey, hx, rfl⟩, fun marked => nomatch marked⟩
  | constant message =>
      obtain ⟨rfl, hsize⟩ := hx
      cases hkey
      exact hides_publicBlock hsize message

/-- Messages and noises add up on their own, whatever the bracketing. -/
theorem addUp_hides (hkey : e.keys.find? key = some secret) {t : Bracketing Summand}
    (ht : ∀ x ∈ t.leaves, x.Fits e key secret) :
    ∃ c, (t.map (·.block e key secret)).addUp = .ok c ∧
      e.Hides c key (t.leaves.map (·.message)).sum (t.leaves.map (·.noise)).sum := by
  induction t with
  | single x =>
      refine ⟨_, rfl, ?_⟩
      simpa [Bracketing.leaves] using hides_summand hkey (ht x (by simp [Bracketing.leaves]))
  | sum left right hleft hright =>
      obtain ⟨a, ha, hidesA⟩ := hleft fun x hx => ht x (List.mem_append_left _ hx)
      obtain ⟨b, hb, hidesB⟩ := hright fun x hx => ht x (List.mem_append_right _ hx)
      obtain ⟨c, hc, hidesC⟩ := hidesA.add hidesB
      refine ⟨c, ?_, ?_⟩
      · rw [Bracketing.map, Bracketing.addUp, ha, ok_bind, hb, ok_bind, hc]
      · simpa [Bracketing.leaves] using hidesC

/-- The engine encrypts by drawing the mask and the noise of such a summand. -/
theorem encryptRow_summand (hkey : e.keys.find? key = some secret) (message : Nat)
    (session : Session) :
    ∃ mask noise, (Summand.encryption mask message noise).Fits e key secret ∧
      ((e.encryptRow message key).run session).1 =
        .ok ((Summand.encryption mask message noise).block e key secret) := by
  refine ⟨e.maskAt secret.size (session.position + 0 * secret.size),
    e.tape.noise key (session.position + 1 * secret.size + 0), ?_, ?_⟩
  · show WordRow.size _ = _
    simp [maskAt, WordRow.size, WordRow.ofResidues]
  · unfold encryptRow encryptRows
    rw [secret_eq_ok hkey]
    rfl

/-- Encryptions and public constants under one key, added up in any bracketing, decode to the sum of
their messages modulo the message space, if the sum of their noises stays below half a spacing. In
particular an encryption decodes to its message. That words wrap around changes nothing. -/
theorem sums_decode (e : SimulatedEngine)
    (hbits : e.parameters.messageBits + e.parameters.carryBits ≤ 31)
    (hkey : e.keys.find? key = some secret) :
    (∀ t : Bracketing Summand, (∀ x ∈ t.leaves, x.Fits e key secret) →
      2 * |(t.leaves.map (·.noise)).sum| < spacing e.totalModulus →
      ∃ c, (t.map (·.block e key secret)).addUp = .ok c ∧
        e.decode c = .ok ((t.leaves.map (·.message)).sum % e.totalModulus)) ∧
    (∀ (mask : WordRow) (message : Nat) (noise : Int), mask.size = secret.size →
      message < e.totalModulus → 2 * |noise| < spacing e.totalModulus →
      e.decode ⟨mask, sealBody e.totalModulus mask secret message noise, key, false⟩ =
        .ok message) ∧
    (∀ (message : Nat) (session : Session), ∃ mask noise,
      (Summand.encryption mask message noise).Fits e key secret ∧
      ((e.encryptRow message key).run session).1 =
        .ok ((Summand.encryption mask message noise).block e key secret)) ∧
    (∀ (mask : WordRow) (message noise : Int),
      sealInWords e.totalModulus mask secret message noise =
        sealBody e.totalModulus mask secret message noise) ∧
    (∀ (body : Int) (mask : WordRow),
      phaseInWords body mask secret = phase body (maskProduct mask secret)) ∧
    ∀ a b : LweBlock, a.key = b.key → a.mask.size = b.mask.size →
      addUnderOneKey a b = .ok (addInWords a b) := by
  refine ⟨fun t ht hnoise => ?_, fun mask message noise hsize hlt hnoise => ?_,
    encryptRow_summand hkey, fun mask => sealInWords_eq _ mask secret,
    fun body mask => phaseInWords_eq body mask secret, fun _ _ => addUnderOneKey_eq⟩
  · obtain ⟨c, hc, hides⟩ := addUp_hides hkey ht
    exact ⟨c, hc, hides.decode hbits hnoise⟩
  · let x : Summand := .encryption mask message noise
    have decoded := (hides_summand hkey (show x.Fits e key secret from hsize)).decode hbits hnoise
    rwa [show x.message % e.totalModulus = message from Nat.mod_eq_of_lt hlt] at decoded

/-- Two encryptions whose noises are too large to decode them but cancel, and a constant. -/
def cancelling : Bracketing Summand :=
  .sum (.sum (.single (.encryption (.ofResidues #[5]) 3 (2 ^ 29)))
    (.single (.encryption (.ofResidues #[2 ^ 32 - 1]) 2 (-2 ^ 29)))) (.single (.constant 3))

/-- Three, two and three add up to zero modulo four, and zero is decoded in spite of a negative
noise. -/
theorem sums_decode_cancelling :
    smallest.parameters.messageBits + smallest.parameters.carryBits ≤ 31 ∧
      smallest.keys.find? .large = some smallest.keys.large ∧
      (∀ x ∈ cancelling.leaves, x.Fits smallest .large smallest.keys.large) ∧
      2 * |(cancelling.leaves.map (·.noise)).sum| < spacing smallest.totalModulus ∧
      (∃ c, (cancelling.map (·.block smallest .large smallest.keys.large)).addUp = .ok c ∧
        smallest.decode c = .ok 0) ∧
      smallest.decode ⟨.ofResidues #[7], sealBody smallest.totalModulus (.ofResidues #[7])
        smallest.keys.large 0 (-1), .large, false⟩ = .ok 0 := by
  have fits : ∀ x ∈ cancelling.leaves, x.Fits smallest .large smallest.keys.large := by
    simp only [cancelling, Bracketing.leaves, List.nil_append, List.cons_append,
      List.forall_mem_cons]
    exact ⟨rfl, rfl, ⟨rfl, rfl⟩, by simp⟩
  have cancelled : 2 * |(cancelling.leaves.map (·.noise)).sum| < spacing smallest.totalModulus := by
    decide
  obtain ⟨added, decoded, _⟩ := sums_decode smallest (by decide)
    (show smallest.keys.find? .large = some smallest.keys.large from rfl)
  exact ⟨by decide, rfl, fits, cancelled, added cancelling fits cancelled,
    decoded _ 0 (-1) rfl (by decide) (by decide)⟩

end SimulatedEngine

end SealedMatch
