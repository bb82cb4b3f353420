/-
Module: SealedMatch.Engine.Parameters
Purpose: Parameter sets of the simulated engine.
Trusted boundary: none
Main exports: LweParameters, LweParameters.select, LweParameters.custom, LweParameters.toRecord
-/
import SealedMatch.Failure.Cause
import SealedMatch.Table.Extent

namespace SealedMatch

/-- Security estimates below this many bits count as reduced assurance. -/
def securityTarget : Int := 128

/-- How many key bits multi-bit bootstrapping takes at once. -/
def multiBitGrouping : Int := 3

/-- Parameters of an engine: the message and carry bits of a block, the sizes of both keys, and the
noise under each key as a fraction of the ciphertext modulus. -/
structure LweParameters where
  name : String
  primitive : BootstrapKind
  messageBits : Nat
  carryBits : Nat
  /-- Bits of the small key. -/
  lweDimension : Int
  /-- Bits of the large key. -/
  polynomialSize : Int
  lweNoise : Float
  glweNoise : Float
  groupingFactor : Int
  securityBits : Int

namespace LweParameters

def messageModulus (p : LweParameters) : Nat := 2 ^ p.messageBits

def carryModulus (p : LweParameters) : Nat := 2 ^ p.carryBits

def totalModulus (p : LweParameters) : Nat := p.messageModulus * p.carryModulus

/-- Whether the security estimate lies below the target. -/
def belowTarget (p : LweParameters) : Bool := p.securityBits < securityTarget

/-- Noise of a fraction `2 ^ -bits`. -/
def noiseBits (bits : Nat) : Float := Decimal.nearestDouble false 1 (2 ^ bits)

/-- The small and the large dimension for a digit length under classic bootstrapping. -/
def classicSizes? : Int → Option (Int × Int)
  | 1 => some (672, 1024)
  | 2 => some (742, 2048)
  | 3 => some (864, 8192)
  | 4 => some (996, 32768)
  | _ => none

/-- The small and the large dimension for a digit length under multi-bit bootstrapping. -/
def multiBitSizes? : Int → Option (Int × Int)
  | 1 => some (690, 1024)
  | 2 => some (888, 2048)
  | 3 => some (972, 8192)
  | 4 => some (1098, 32768)
  | _ => none

/-- As many carry bits as message bits: two digits and a carry fit a block, and a lookup can index
the square of the radix. -/
def balanced (name : String) (primitive : BootstrapKind) (bits : Int) (dimensions : Int × Int)
    (lweNoise : Float) (grouping security : Int) : LweParameters :=
  ⟨name, primitive, bits.toNat, bits.toNat, dimensions.1, dimensions.2, lweNoise, noiseBits 40,
    grouping, security⟩

/-- The fast accelerator set for two-bit digits, which stays below the security target. -/
def reducedTwoBit : LweParameters :=
  balanced "PARAM_GPU_MULTI_BIT_MESSAGE_2_CARRY_2_GROUP_3_KS_PBS_REDUCED" .multiBit 2 (744, 2048)
    (noiseBits 15) multiBitGrouping 100

/-- The set that hosts digits of `bits` bits. -/
def select (primitive : BootstrapKind) (bits : Int) (accelerated : Bool) :
    Except Failure LweParameters :=
  let message := "MESSAGE_" ++ toString bits ++ "_CARRY_" ++ toString bits
  let missing := Failure.configuration (.noParameters bits)
  match primitive with
  | .classic =>
    match classicSizes? bits with
    | none => .error missing
    | some dimensions =>
      .ok (balanced ("PARAM_" ++ message ++ "_KS_PBS") .classic bits dimensions (noiseBits 17) 1
        128)
  | .multiBit =>
    match multiBitSizes? bits with
    | none => .error missing
    | some dimensions =>
      if accelerated ∧ bits = 2 then .ok reducedTwoBit
      else
        let family := if accelerated then "PARAM_GPU_MULTI_BIT_" else "PARAM_MULTI_BIT_"
        .ok (balanced (family ++ message ++ "_GROUP_" ++ toString multiBitGrouping ++ "_KS_PBS")
          .multiBit bits dimensions (noiseBits 17) multiBitGrouping 128)

/-- A set of one's own. Numbers of bits cannot be negative, and the message space must be a number
that can be written out. -/
def custom (messageBits carryBits lweDimension polynomialSize : Int) (lweNoise glweNoise : Float)
    (securityBits : Int) : Except Failure LweParameters :=
  Except.mapError Failure.fault do
    requireShift messageBits
    requireShift carryBits
    if mostFactors ≤ messageBits.toNat + carryBits.toNat then throw .noRoom
    pure ⟨"CUSTOM", .classic, messageBits.toNat, carryBits.toNat, lweDimension, polynomialSize,
      lweNoise, glweNoise, 1, securityBits⟩

/-- The set as a record, derived quantities included. -/
def toRecord (p : LweParameters) : Record :=
  [("name", .text p.name), ("primitive", .text p.primitive.name),
    ("message_bits", .nat p.messageBits), ("carry_bits", .nat p.carryBits),
    ("lwe_dimension", .int p.lweDimension), ("polynomial_size", .int p.polynomialSize),
    ("lwe_noise_std", .float p.lweNoise), ("glwe_noise_std", .float p.glweNoise),
    ("grouping_factor", .int p.groupingFactor), ("security_bits", .int p.securityBits),
    ("message_modulus", .nat p.messageModulus), ("carry_modulus", .nat p.carryModulus),
    ("total_modulus", .nat p.totalModulus), ("large_lwe_dimension", .int p.polynomialSize),
    ("reduced_assurance", .bool p.belowTarget)]

end LweParameters

end SealedMatch
