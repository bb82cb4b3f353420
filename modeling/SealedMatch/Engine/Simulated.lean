/-
Module: SealedMatch.Engine.Simulated
Purpose: An engine that holds the secret keys and simulates bootstrapping.
Trusted boundary: none
Main exports: EngineCall, SimulatedEngine, SimulatedEngine.ofTape, SimulatedEngine.engine
-/
import SealedMatch.Engine.Ciphertext
import SealedMatch.Engine.Interface
import SealedMatch.Engine.Parameters
import SealedMatch.Engine.Session
import SealedMatch.Engine.Tape

namespace SealedMatch

/-- A call of a public operation, with the lookup it is given if there is one. -/
structure EngineCall where
  operation : EngineOperation
  lookup? : Option DigitLookup

/-- An engine over learning with errors. Encryption, decryption and addition are the real ones; key
switching and bootstrapping decode with the source key and encrypt afresh under the target key,
which gives the same messages and resets the noise alike. `guard` is consulted at the entry of every
public operation, also when the engine calls one of its own. -/
structure SimulatedEngine where
  parameters : LweParameters
  keys : SecretKeys
  tape : Tape
  guard : EngineCall → Process Session Failure Unit

namespace SimulatedEngine

/-- A process of a simulated engine. -/
abbrev Action (α : Type) := Process Session Failure α

variable (e : SimulatedEngine)

def messageModulus : Nat := e.parameters.messageModulus

def totalModulus : Nat := e.parameters.totalModulus

/-- Enter a public operation. -/
def enter (operation : EngineOperation) : Action Unit := e.guard ⟨operation, none⟩

/-- Enter a public operation that is given a lookup. -/
def enterWith (operation : EngineOperation) (lookup : DigitLookup) : Action Unit :=
  e.guard ⟨operation, some lookup⟩

/-- Record operations, in one action. -/
def count (op : CountedOperation) (n : Nat) : Action Unit := .act (Session.count op n)

/-- Fail with an engine fault. -/
def refuse {α : Type} (fault : EngineFault) : Action α := .fail (.engine fault)

/-! ### Encrypting and decoding -/

/-- The secret of a label. -/
def secret (key : KeyLabel) : Except Failure WordRow :=
  match e.keys.find? key with
  | some secret => .ok secret
  | none => .error (.fault (.missingName key.name))

/-- The mask of `dimension` words that begins at a position of the tape. -/
def maskAt (dimension position : Nat) : WordRow :=
  .ofResidues (Array.ofFn fun i : Fin dimension => (e.tape.word (position + i.val)).toNat)

/-- The rows of a draw at a position: the masks of all messages come first, then their noises. -/
def sealRows (key : KeyLabel) (secret : WordRow) (messages : List Int) (position : Nat) :
    List (WordRow × Int) :=
  let noises := position + messages.length * secret.size
  messages.mapIdx fun i message =>
    let mask := e.maskAt secret.size (position + i * secret.size)
    let noise := e.tape.noise key (noises + i)
    (mask, sealBody e.totalModulus mask secret message noise)

/-- Encrypt messages under a key, in one action that draws all masks and noises. -/
def encryptRows (messages : List Int) (key : KeyLabel) : Action (List (WordRow × Int)) := do
  let secret ← .ofExcept (e.secret key)
  .fetch (Session.advance (messages.length * (secret.size + 1))) fun s =>
    e.sealRows key secret messages s.position

/-- Encrypt one message under a key. -/
def encryptRow (message : Int) (key : KeyLabel) : Action LweBlock := do
  match ← e.encryptRows [message] key with
  | (mask, body) :: _ => pure ⟨mask, body, key, false⟩
  | [] => .fail (.fault .listIndexOutOfRange)

/-- Encrypt messages under a key side by side. -/
def encryptBatch (messages : List Int) (key : KeyLabel) (place : Place) : Action LweBatch := do
  let secret ← .ofExcept (e.secret key)
  let rows ← e.encryptRows messages key
  pure (.ofRows secret.size rows key place)

/-- The secret of a label, by which masks of a length can be multiplied. -/
def secretFor (key : KeyLabel) (maskSize : Nat) : Except Failure WordRow := do
  let secret ← e.secret key
  if secret.size = maskSize then pure secret
  else throw (.fault (.notMultiplied secret.size maskSize))

/-- The message of a body, given the product of mask and secret. -/
def decodeBody (body : Int) (product : Nat) : Nat := decodePhase e.totalModulus (phase body product)

/-- The message of a ciphertext, whose body must be a machine word. -/
def decode (c : LweBlock) : Except Failure Nat := do
  if !isWord c.body then throw (.fault .integerTooLarge)
  let secret ← e.secretFor c.key c.mask.size
  pure (e.decodeBody c.body (maskProduct c.mask secret))

/-- The messages of a batch under a key. Where bodies and masks differ in number, a single one goes
with all of the others. -/
def decodeAll (b : LweBatch) (key : KeyLabel) : Except Failure (List Nat) := do
  let secret ← e.secretFor key b.maskSize
  let products := b.masks.map fun mask => maskProduct mask secret
  let rows ← (stretch b.bodies products).mapError .fault
  pure (rows.map fun (body, product) => e.decodeBody body product)

/-- A public constant. -/
def publicBlock (message : Int) : LweBlock where
  mask := .ofResidues (Array.replicate e.parameters.polynomialSize.toNat 0)
  body := (message * spacing e.totalModulus) % ciphertextModulus
  key := .large
  trivial := true

/-- Refuse messages outside the message space, naming the least and the greatest. -/
def requireMessages (totalModulus : Nat) : List Int → Except Failure Unit
  | [] => pure ()
  | v :: rest =>
    if !(v :: rest).all isWord then .error (.fault .integerTooLarge)
    else
      let least := rest.foldl min v
      let greatest := rest.foldl max v
      if least < 0 ∨ (totalModulus : Int) ≤ greatest then
        .error (.engine (.outsideMessageSpace totalModulus least greatest))
      else pure ()

/-- Refuse a ciphertext under another key than the expected one. -/
def expectKey (given expected : KeyLabel) (operation : EngineOperation) : Except Failure Unit :=
  if given = expected then pure () else .error (.engine (.wrongKey given expected operation))

/-! ### Single ciphertexts and batches -/

def encrypt (value : Int) : Action LweBlock := do
  e.enter .encrypt
  .ofExcept (requireMessages e.totalModulus [value])
  count .encrypt 1
  e.encryptRow value .large

def encryptAll (values : List Int) : Action LweBatch := do
  e.enter .encryptAll
  .ofExcept (requireMessages e.totalModulus values)
  count .encrypt values.length
  e.encryptBatch values .large .accelerator

def keyswitch (c : LweBlock) : Action LweBlock := do
  e.enter .keyswitch
  .ofExcept (expectKey c.key .large .keyswitch)
  count .keyswitch 1
  let message ← .ofExcept (e.decode c)
  e.encryptRow message .small

def keyswitchAll (b : LweBatch) : Action LweBatch := do
  e.enter .keyswitchAll
  .ofExcept (expectKey b.key .large .keyswitchAll)
  count .keyswitch b.length
  let messages ← .ofExcept (e.decodeAll b .large)
  e.encryptBatch (messages.map Int.ofNat) .small b.place

/-- Evaluate a function on a key-switched ciphertext; the result is taken modulo the message
space. -/
def bootstrapWith (c : LweBlock) (table : Nat → Int) : Action LweBlock := do
  .ofExcept (expectKey c.key .small .bootstrap)
  count .bootstrap 1
  let message ← .ofExcept (e.decode c)
  e.encryptRow (table message % e.totalModulus) .large

/-- The entries of a table by their position. -/
def tableEntry (table : Array Int) (message : Nat) : Int := table.getD message 0

def bootstrap (c : LweBlock) (lookup : DigitLookup) : Action LweBlock := do
  e.enterWith .bootstrap lookup
  let table ← .ofExcept (lookup.tabulate e.totalModulus)
  e.bootstrapWith c (tableEntry table)

/-- The outputs of lookups at messages, position by position. -/
def tableOutputs (lookups : List DigitLookup) (messages : List Nat) : Except Failure (List Int) :=
  (lookups.zip messages).mapM fun (lookup, message) => do
    let table ← lookup.tabulate e.totalModulus
    pure (tableEntry table message % e.totalModulus)

def bootstrapAll (b : LweBatch) (lookups : List DigitLookup) : Action LweBatch := do
  e.enter .bootstrapAll
  .ofExcept (expectKey b.key .small .bootstrapAll)
  if lookups.length ≠ b.length then
    refuse (.lookupCountMismatch lookups.length b.length)
  else
    count .bootstrap b.length
    let messages ← .ofExcept (e.decodeAll b .small)
    let outputs ← .ofExcept (e.tableOutputs lookups messages)
    if outputs.length < lookups.length then
      .fail (.fault (.tooFewItems lookups.length outputs.length))
    else e.encryptBatch outputs .large b.place

def evaluateTable (c : LweBlock) (lookup : DigitLookup) : Action LweBlock := do
  e.enterWith .evaluateTable lookup
  let switched ← e.keyswitch c
  e.bootstrap switched lookup

/-- Apply a function to a block under the large key. A public constant stays public. -/
def applyTable (c : LweBlock) (table : Nat → Int) : Action LweBlock :=
  if c.trivial then do
    let message ← .ofExcept (e.decode c)
    pure (e.publicBlock (table message))
  else do
    let switched ← e.keyswitch c
    e.bootstrapWith switched table

/-- Apply a function of two blocks under the large key. -/
def applyTables (a b : LweBlock) (f : Nat → Nat → Nat) : Action LweBlock := do
  let x ← .ofExcept (e.decode a)
  let y ← .ofExcept (e.decode b)
  if a.trivial && b.trivial then pure (e.publicBlock (f x y))
  else
    count .keyswitch 1
    count .bootstrap 1
    e.encryptRow (f x y) .large

/-! ### Transfers -/

def upload (cs : List LweBlock) : Action LweBatch := do
  e.enter .upload
  match cs with
  | [] => refuse .emptyBatch
  | c :: rest =>
    if rest.all (·.key = c.key) then
      if !rest.all (·.mask.size = c.mask.size) then .fail (.fault .notStacked)
      else if !cs.all (isWord ·.body) then .fail (.fault .integerTooLarge)
      else
        let rows := cs.map fun c => (c.mask, c.body)
        pure (.ofRows c.mask.size rows c.key .accelerator)
    else
      let names := (cs.map (·.key.name)).eraseDups.mergeSort fun a b => decide (a ≤ b)
      refuse (.mixedKeys names)

def download (b : LweBatch) : Action (List LweBlock) := do
  e.enter .download
  if b.masks.length < b.length then
    .fail (.fault (.indexOutOfBounds b.masks.length 0 b.masks.length))
  else pure ((b.masks.zip b.bodies).map fun (mask, body) => ⟨mask, body, b.key, false⟩)

/-! ### Radix arithmetic -/

/-- Public zeros, none for a negative count. -/
def publicZeros (count : Int) : List LweBlock :=
  List.replicate count.toNat (e.publicBlock 0)

def publicZero (width : Int) : Action (RadixInteger LweBlock) := do
  e.enter .publicZero
  pure ⟨e.publicZeros width⟩

def widen (x : RadixInteger LweBlock) (width : Int) : Action (RadixInteger LweBlock) := do
  e.enter .widen
  if width < x.width then refuse (.widerThanRequested x.width width)
  else pure ⟨x.blocks ++ e.publicZeros (width - x.width)⟩

/-- The sum of two blocks, which must stand under one key. -/
def addUnderOneKey (a b : LweBlock) : Except Failure LweBlock := do
  expectKey a.key b.key .add
  (addCiphertexts a b).mapError .fault

/-- The sum of two blocks and a carry, if one comes in. -/
def addWithCarry (a b : LweBlock) (carry? : Option LweBlock) : Except Failure LweBlock := do
  let sum ← addUnderOneKey a b
  match carry? with
  | some carry => addUnderOneKey sum carry
  | none => pure sum

/-- Add pairs of blocks from the least significant one on. Each sum is split into a digit and the
carry of the next pair; the carry of the last pair is dropped. -/
def addPairs : Option LweBlock → List (LweBlock × LweBlock) → Action (List LweBlock)
  | _, [] => pure []
  | carry?, (a, b) :: rest => do
    let sum ← .ofExcept (addWithCarry a b carry?)
    let digit ← e.applyTable sum fun m => (m % e.messageModulus : Nat)
    let carry ← e.applyTable sum fun m => (m / e.messageModulus : Nat)
    let digits ← addPairs (some carry) rest
    pure (digit :: digits)

def add (x y : RadixInteger LweBlock) : Action (RadixInteger LweBlock) := do
  e.enter .add
  if x.width ≠ y.width then refuse (.widthsDiffer x.width y.width)
  else
    let blocks ← e.addPairs none (x.blocks.zip y.blocks)
    pure ⟨blocks⟩

/-- How a block compares with a digit: 0 below, 1 equal, 2 above. -/
def ordering (digit : Int) (m : Nat) : Nat :=
  if (m : Int) < digit then 0 else if (m : Int) = digit then 1 else 2

/-- The ordering of a more significant block decides, unless it says equal. -/
def dominant (high low : Nat) : Nat := if high = 1 then low else high

/-- Compare blocks with the digits of a number from the least significant one on. -/
def comparePairs : Option LweBlock → List (LweBlock × Int) → Action (Option LweBlock)
  | found?, [] => pure found?
  | found?, (block, digit) :: rest => do
    let here ← e.applyTable block fun m => (ordering digit m : Nat)
    match found? with
    | none => comparePairs (some here) rest
    | some below =>
      let found ← e.applyTables here below dominant
      comparePairs (some found) rest

def atLeast (x : RadixInteger LweBlock) (scalar : Int) : Action LweBlock := do
  e.enter .atLeast
  if scalar ≤ 0 then pure (e.publicBlock 1)
  else if (e.messageModulus : Int) ^ x.width ≤ scalar then pure (e.publicBlock 0)
  else
    match ← e.comparePairs none (x.blocks.zip (digits e.messageModulus x.width scalar)) with
    | some found => e.applyTable found fun m => if 1 ≤ m then 1 else 0
    | none => .fail (.fault .listIndexOutOfRange)

/-! ### Decryption -/

def decrypt (c : LweBlock) : Action Int := do
  e.enter .decrypt
  let message ← .ofExcept (e.decode c)
  pure message

/-- The digits of all blocks. -/
def decryptBlocks : List LweBlock → Action (List Int)
  | [] => pure []
  | c :: rest => do
    let message ← e.decrypt c
    let digits ← decryptBlocks rest
    pure (message % e.messageModulus :: digits)

def decryptInteger (x : RadixInteger LweBlock) : Action Int := do
  e.enter .decryptInteger
  let digits ← e.decryptBlocks x.blocks
  pure (recompose e.messageModulus digits)

def decryptTruth (c : LweBlock) : Action Bool := do
  e.enter .decryptTruth
  let message ← e.decrypt c
  pure (message % e.messageModulus != 0)

/-- The operations of the engine. -/
def engine : CipherEngine Session LweBlock LweBatch where
  messageModulus := e.messageModulus
  totalModulus := e.totalModulus
  encrypt := e.encrypt
  encryptAll := e.encryptAll
  keyswitch := e.keyswitch
  keyswitchAll := e.keyswitchAll
  bootstrap := e.bootstrap
  bootstrapAll := e.bootstrapAll
  evaluateTable := e.evaluateTable
  upload := e.upload
  download := e.download
  publicZero := e.publicZero
  widen := e.widen
  add := e.add
  atLeast := e.atLeast
  decrypt := e.decrypt
  decryptInteger := e.decryptInteger
  decryptTruth := e.decryptTruth

/-! ### Construction -/

/-- Secret bits from the words of a tape. -/
def secretAt (tape : Tape) (dimension position : Nat) : WordRow :=
  .ofResidues (Array.ofFn fun i : Fin dimension => (tape.word (position + i.val)).toNat % 2)

/-- The noise of each key in units of the ciphertext modulus. -/
def noiseScale (p : LweParameters) (key : KeyLabel) : Float :=
  (if key = .small then p.lweNoise else p.glweNoise) * 4294967296.0

/-- A silent guard. -/
def unguarded (_ : EngineCall) : Action Unit := .done ()

/-- An engine whose keys are the first words of a tape, the large key first. There must be room to
list its messages. -/
def ofTape (p : LweParameters) (tape : Tape) (guard : EngineCall → Action Unit) :
    Except Failure SimulatedEngine :=
  if p.polynomialSize < 0 ∨ p.lweDimension < 0 then .error (.fault .negativeDimension)
  else do
    (requireRow p.totalModulus).mapError .fault
    let large := p.polynomialSize.toNat
    pure ⟨p, ⟨secretAt tape large 0, secretAt tape p.lweDimension.toNat large⟩, tape, guard⟩

/-- The place of the tape behind the keys. -/
def firstFree : Nat := e.parameters.polynomialSize.toNat + e.parameters.lweDimension.toNat

/-- The tape of a seed, with noise as the parameters say. -/
def seededTape (p : LweParameters) (seed : UInt64) : Tape := Tape.ofSeed seed (noiseScale p)

/-- The warning that goes with an engine below the security target. -/
def warnings (p : LweParameters) : List Event :=
  if p.belowTarget then
    [⟨"Parameter set below security target",
      [("parameter_set", .text p.name), ("security_bits", .int p.securityBits),
        ("target_bits", .int securityTarget)]⟩]
  else []

/-- Build an engine on a tape and let the session begin anew behind its keys. -/
def install (p : LweParameters) (tape : Tape) (guard : EngineCall → Action Unit) :
    Action SimulatedEngine := do
  let e ← .ofExcept (ofTape p tape guard)
  .act (Session.renew e.firstFree)
  .act (Session.warn (warnings p))
  pure e

/-- Build an engine from a seed, which must not be negative, on the tape that it stands for. -/
def launch (p : LweParameters) (seed : Int) (guard : EngineCall → Action Unit)
    (tapeOf : LweParameters → UInt64 → Tape := seededTape) : Action SimulatedEngine :=
  if seed < 0 then .fail (.fault .negativeSeed)
  else install p (tapeOf p (UInt64.ofInt seed)) guard

end SimulatedEngine

end SealedMatch
