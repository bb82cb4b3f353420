/-
Module: SealedMatch.Engine.Operation
Purpose: Names of engine operations.
Trusted boundary: none
Main exports: EngineOperation, CountedOperation
-/

namespace SealedMatch

/-- The public operations of an evaluation engine. -/
inductive EngineOperation where
  | encrypt
  | encryptAll
  | keyswitch
  | keyswitchAll
  | bootstrap
  | bootstrapAll
  | evaluateTable
  | upload
  | download
  | publicZero
  | widen
  | add
  | atLeast
  | decrypt
  | decryptInteger
  | decryptTruth
deriving DecidableEq, Repr

namespace EngineOperation

def name : EngineOperation → String
  | encrypt => "encrypt"
  | encryptAll => "encrypt_batch"
  | keyswitch => "keyswitch"
  | keyswitchAll => "keyswitch_batch"
  | bootstrap => "bootstrap"
  | bootstrapAll => "bootstrap_batch"
  | evaluateTable => "evaluate_lookup"
  | upload => "to_batch"
  | download => "from_batch"
  | publicZero => "trivial_zero"
  | widen => "extend_with_trivial_zeros"
  | add => "add"
  | atLeast => "compare_greater_or_equal"
  | decrypt => "decrypt"
  | decryptInteger => "decrypt_radix"
  | decryptTruth => "decrypt_bool"

def all : List EngineOperation :=
  [encrypt, encryptAll, keyswitch, keyswitchAll, bootstrap, bootstrapAll, evaluateTable,
    upload, download, publicZero, widen, add, atLeast, decrypt, decryptInteger, decryptTruth]

def ofName? (s : String) : Option EngineOperation := all.find? (·.name == s)

end EngineOperation

/-- The operations whose number is recorded: they carry the cost of an authentication. -/
inductive CountedOperation where
  | encrypt
  | keyswitch
  | bootstrap
deriving DecidableEq, Repr

namespace CountedOperation

def name : CountedOperation → String
  | encrypt => "encrypt"
  | keyswitch => "keyswitch"
  | bootstrap => "bootstrap"

end CountedOperation

end SealedMatch
