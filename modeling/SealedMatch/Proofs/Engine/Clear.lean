/-
Module: SealedMatch.Proofs.Engine.Clear
Purpose: An interpreter of engine operations on messages in the clear, and what it means for an
  engine to compute what the interpreter computes.
Trusted boundary: none
Main exports: ClearBlock, ClearBatch, ClearEngine, ClearEngine.engine, CipherEngine.Evaluates,
  CipherEngine.Implements
-/
import Mathlib.Data.List.Forall2
import SealedMatch.Engine.Simulated
import SealedMatch.Proofs.Process.Always

namespace SealedMatch

/-- A block in the clear: a message, and the key that its ciphertext would stand under. -/
structure ClearBlock where
  key : KeyLabel
  message : Nat
deriving DecidableEq

/-- Messages side by side under one key. -/
structure ClearBatch where
  key : KeyLabel
  messages : List Nat
deriving DecidableEq

/-- An engine that computes on messages in the clear. There are no masks and no noise, no randomness
and no state; keys are only labels. -/
structure ClearEngine where
  messageModulus : Nat
  totalModulus : Nat

namespace ClearEngine

open SimulatedEngine (requireMessages expectKey ordering dominant)

variable (k : ClearEngine)

def encrypt (value : Int) : Except Failure ClearBlock := do
  requireMessages k.totalModulus [value]
  pure ⟨.large, value.toNat⟩

def encryptAll (values : List Int) : Except Failure ClearBatch := do
  requireMessages k.totalModulus values
  pure ⟨.large, values.map Int.toNat⟩

/-- Switching keys keeps the message. -/
def keyswitch (b : ClearBlock) : Except Failure ClearBlock := do
  expectKey b.key .large .keyswitch
  pure ⟨.small, b.message⟩

def keyswitchAll (b : ClearBatch) : Except Failure ClearBatch := do
  expectKey b.key .large .keyswitchAll
  pure ⟨.small, b.messages⟩

/-- What a lookup makes of a message: the entry of its table, modulo the message space. -/
def output (lookup : DigitLookup) (message : Nat) : Except Failure Nat := do
  let table ← lookup.tabulate k.totalModulus
  pure (table.getD message 0 % k.totalModulus).toNat

def bootstrap (b : ClearBlock) (lookup : DigitLookup) : Except Failure ClearBlock := do
  let message ← k.output lookup b.message
  expectKey b.key .small .bootstrap
  pure ⟨.large, message⟩

def bootstrapAll (b : ClearBatch) (lookups : List DigitLookup) : Except Failure ClearBatch := do
  expectKey b.key .small .bootstrapAll
  if lookups.length ≠ b.messages.length then
    .error (.engine (.lookupCountMismatch lookups.length b.messages.length))
  else
    let messages ← (lookups.zip b.messages).mapM fun x => k.output x.1 x.2
    pure ⟨.large, messages⟩

def evaluateTable (b : ClearBlock) (lookup : DigitLookup) : Except Failure ClearBlock := do
  let switched ← keyswitch b
  k.bootstrap switched lookup

/-- A batch needs a block, and all of its blocks one key. -/
def upload : List ClearBlock → Except Failure ClearBatch
  | [] => .error (.engine .emptyBatch)
  | b :: rest =>
    if rest.all (·.key = b.key) then .ok ⟨b.key, (b :: rest).map (·.message)⟩
    else
      let names := (b :: rest).map (·.key.name)
      .error (.engine (.mixedKeys (names.eraseDups.mergeSort fun x y => decide (x ≤ y))))

def download (b : ClearBatch) : List ClearBlock := b.messages.map fun m => ⟨b.key, m⟩

/-- Zero blocks, none for a negative count. -/
def zeros (count : Int) : List ClearBlock := List.replicate count.toNat ⟨.large, 0⟩

def publicZero (width : Int) : RadixInteger ClearBlock := ⟨zeros width⟩

def widen (x : RadixInteger ClearBlock) (width : Int) :
    Except Failure (RadixInteger ClearBlock) :=
  if width < x.width then .error (.engine (.widerThanRequested x.width width))
  else .ok ⟨x.blocks ++ zeros (width - x.width)⟩

/-- The sum of two blocks and an incoming carry, modulo the message space. All of them must stand
under one key; a carry stands under the large one. -/
def sumBlocks (a b : ClearBlock) : Option Nat → Except Failure Nat
  | none => do
    expectKey a.key b.key .add
    pure ((a.message + b.message) % k.totalModulus)
  | some carry => do
    expectKey a.key b.key .add
    expectKey a.key .large .add
    pure ((a.message + b.message + carry) % k.totalModulus)

/-- Add blocks from the least significant one on. Each sum leaves its remainder by the radix as a
digit and its quotient as the next carry; the last carry is dropped. -/
def addFrom : Option Nat → List (ClearBlock × ClearBlock) → Except Failure (List ClearBlock)
  | _, [] => pure []
  | carry?, (a, b) :: rest => do
    let sum ← k.sumBlocks a b carry?
    expectKey a.key .large .keyswitch
    let digits ← addFrom (some (sum / k.messageModulus)) rest
    pure (⟨.large, sum % k.messageModulus⟩ :: digits)

def add (x y : RadixInteger ClearBlock) : Except Failure (RadixInteger ClearBlock) :=
  if x.width ≠ y.width then .error (.engine (.widthsDiffer x.width y.width))
  else do
    let blocks ← k.addFrom none (x.blocks.zip y.blocks)
    pure ⟨blocks⟩

/-- Fold the orderings of blocks against digits: a more significant block decides, unless it is
equal to its digit. -/
def compareFrom : Option Nat → List (ClearBlock × Int) → Except Failure (Option Nat)
  | found?, [] => pure found?
  | found?, (block, digit) :: rest => do
    expectKey block.key .large .keyswitch
    let here := ordering digit block.message
    match found? with
    | none => compareFrom (some here) rest
    | some below => compareFrom (some (dominant here below)) rest

/-- One if an integer is at least a scalar, and zero otherwise. -/
def atLeast (x : RadixInteger ClearBlock) (scalar : Int) : Except Failure ClearBlock :=
  if scalar ≤ 0 then .ok ⟨.large, 1⟩
  else if (k.messageModulus : Int) ^ x.width ≤ scalar then .ok ⟨.large, 0⟩
  else do
    match ← compareFrom none (x.blocks.zip (digits k.messageModulus x.width scalar)) with
    | some found => pure ⟨.large, if 1 ≤ found then 1 else 0⟩
    | none => .error (.fault .listIndexOutOfRange)

def decryptInteger (x : RadixInteger ClearBlock) : Int :=
  recompose k.messageModulus (x.blocks.map fun b => ((b.message : Int) % k.messageModulus))

def decryptTruth (b : ClearBlock) : Bool := (b.message : Int) % k.messageModulus != 0

/-- The operations in the clear, as an engine. -/
def engine : CipherEngine Unit ClearBlock ClearBatch where
  messageModulus := k.messageModulus
  totalModulus := k.totalModulus
  encrypt value := .ofExcept (k.encrypt value)
  encryptAll values := .ofExcept (k.encryptAll values)
  keyswitch b := .ofExcept (keyswitch b)
  keyswitchAll b := .ofExcept (keyswitchAll b)
  bootstrap b lookup := .ofExcept (k.bootstrap b lookup)
  bootstrapAll b lookups := .ofExcept (k.bootstrapAll b lookups)
  evaluateTable b lookup := .ofExcept (k.evaluateTable b lookup)
  upload bs := .ofExcept (upload bs)
  download b := .done (download b)
  publicZero width := .done (publicZero width)
  widen x width := .ofExcept (widen x width)
  add x y := .ofExcept (k.add x y)
  atLeast x scalar := .ofExcept (k.atLeast x scalar)
  decrypt b := .done b.message
  decryptInteger x := .done (k.decryptInteger x)
  decryptTruth b := .done (k.decryptTruth b)

end ClearEngine

/-! ### Engines that compute the same under encryption -/

/-- Two encrypted integers are related block by block. -/
def RadixInteger.Each {C D : Type} (R : C → D → Prop) (x : RadixInteger C) (y : RadixInteger D) :
    Prop :=
  List.Forall₂ R x.blocks y.blocks

theorem RadixInteger.Each.width_eq {C D : Type} {R : C → D → Prop} {x : RadixInteger C}
    {y : RadixInteger D} (h : RadixInteger.Each R x y) : x.width = y.width :=
  h.length_eq

/-- On ciphertexts that stand for blocks, encrypting, switching keys, evaluating tables and moving
between the places end as in the clear: with the same failure, or with a ciphertext that stands for
the block. Whatever state an action finds, it keeps to the guarantee `G`. -/
structure CipherEngine.Evaluates {σ C B : Type} (E : CipherEngine σ C B) (G : σ → σ → Prop)
    (k : ClearEngine) (RC : C → ClearBlock → Prop) (RB : B → ClearBatch → Prop) : Prop where
  messageModulus_eq : E.messageModulus = k.messageModulus
  totalModulus_eq : E.totalModulus = k.totalModulus
  encrypt (value : Int) : Process.Refines G RC (E.encrypt value) (k.encrypt value)
  encryptAll (values : List Int) : Process.Refines G RB (E.encryptAll values) (k.encryptAll values)
  keyswitch {c b} (h : RC c b) : Process.Refines G RC (E.keyswitch c) (ClearEngine.keyswitch b)
  keyswitchAll {c b} (h : RB c b) :
    Process.Refines G RB (E.keyswitchAll c) (ClearEngine.keyswitchAll b)
  bootstrap {c b} (h : RC c b) (lookup : DigitLookup) :
    Process.Refines G RC (E.bootstrap c lookup) (k.bootstrap b lookup)
  bootstrapAll {c b} (h : RB c b) (lookups : List DigitLookup) :
    Process.Refines G RB (E.bootstrapAll c lookups) (k.bootstrapAll b lookups)
  evaluateTable {c b} (h : RC c b) (lookup : DigitLookup) :
    Process.Refines G RC (E.evaluateTable c lookup) (k.evaluateTable b lookup)
  upload {cs bs} (h : List.Forall₂ RC cs bs) :
    Process.Refines G RB (E.upload cs) (ClearEngine.upload bs)
  download {c b} (h : RB c b) :
    Process.Refines G (List.Forall₂ RC) (E.download c) (.ok (ClearEngine.download b))

/-- On ciphertexts that stand for blocks, every operation of an engine ends as in the clear, those
on integers and decryption included. -/
structure CipherEngine.Implements {σ C B : Type} (E : CipherEngine σ C B) (G : σ → σ → Prop)
    (k : ClearEngine) (RC : C → ClearBlock → Prop) (RB : B → ClearBatch → Prop) : Prop
    extends E.Evaluates G k RC RB where
  publicZero (width : Int) : Process.Refines G (RadixInteger.Each RC) (E.publicZero width)
    (.ok (ClearEngine.publicZero width))
  widen {x y} (h : RadixInteger.Each RC x y) (width : Int) :
    Process.Refines G (RadixInteger.Each RC) (E.widen x width) (ClearEngine.widen y width)
  add {x y x' y'} (h : RadixInteger.Each RC x y) (h' : RadixInteger.Each RC x' y') :
    Process.Refines G (RadixInteger.Each RC) (E.add x x') (k.add y y')
  atLeast {x y} (h : RadixInteger.Each RC x y) (scalar : Int) :
    Process.Refines G RC (E.atLeast x scalar) (k.atLeast y scalar)
  decrypt {c b} (h : RC c b) :
    Process.Refines G (fun n m => n = m) (E.decrypt c) (.ok (b.message : Int))
  decryptInteger {x y} (h : RadixInteger.Each RC x y) :
    Process.Refines G (fun n m => n = m) (E.decryptInteger x) (.ok (k.decryptInteger y))
  decryptTruth {c b} (h : RC c b) :
    Process.Refines G (fun t u => t = u) (E.decryptTruth c) (.ok (k.decryptTruth b))

/-- The engine in the clear of the same moduli. -/
def SimulatedEngine.clear (e : SimulatedEngine) : ClearEngine := ⟨e.messageModulus, e.totalModulus⟩

@[simp] theorem SimulatedEngine.clear_messageModulus (e : SimulatedEngine) :
    e.clear.messageModulus = e.messageModulus := rfl

@[simp] theorem SimulatedEngine.clear_totalModulus (e : SimulatedEngine) :
    e.clear.totalModulus = e.totalModulus := rfl

/-! ### Messages that are accepted -/

namespace SimulatedEngine

/-- Messages of the message space are accepted, if they are words at all. -/
theorem requireMessages_ok {total : Nat} (hroom : total ≤ 2 ^ 63) {values : List Int}
    (hvalues : ∀ v ∈ values, 0 ≤ v ∧ v < total) : requireMessages total values = .ok () := by
  cases values with
  | nil => rfl
  | cons v rest =>
      have words : (v :: rest).all isWord = true := by
        apply List.all_eq_true.2
        intro x hx
        obtain ⟨low, high⟩ := hvalues x hx
        exact isWord_iff.2 (by omega)
      have least : 0 ≤ rest.foldl min v :=
        (List.le_min?_iff List.min?_cons').2 fun x hx => (hvalues x hx).1
      have greatest : rest.foldl max v ≤ (total : Int) - 1 :=
        (List.max?_le_iff List.max?_cons').2 fun x hx => by
          have := (hvalues x hx).2
          omega
      simp only [requireMessages, words, Bool.not_true, Bool.false_eq_true, if_false]
      rw [if_neg (by omega)]
      rfl

end SimulatedEngine

end SealedMatch
