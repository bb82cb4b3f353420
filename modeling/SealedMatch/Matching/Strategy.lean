/-
Module: SealedMatch.Matching.Strategy
Purpose: Where the steps of the protocol run, and what that means for their order.
Trusted boundary: none
Main exports: Strategy, Arrangement, Strategy.encrypt, Arrangement.fold, strategies,
  findStrategy
-/
import SealedMatch.Engine.Simulated
import SealedMatch.Matching.Regroup
import SealedMatch.Policy.Configuration
import SealedMatch.Process.Interleave
import SealedMatch.Text.Case

namespace SealedMatch

/-- A bootstrapping flavour and a place for every step. -/
structure Strategy where
  name : String
  primitive : BootstrapKind
  /-- Where probe codes are encrypted. -/
  encryptOn : Place
  /-- Where keys are switched. -/
  keyswitchOn : Place
  /-- Where tables are evaluated. -/
  lookupOn : Place
  /-- Whether templates are compiled without leading zero digits. -/
  earlyStop : Bool
  /-- How many workers the host has, if anybody said so. -/
  maxWorkers? : Option Int
deriving DecidableEq

/-- How many workers the host has unless told otherwise. -/
def defaultWorkers : Int := 4

/-- How key switching and table evaluation are arranged. -/
inductive Arrangement where
  /-- Both on the workers of the host. -/
  | host (maxWorkers? : Option Int)
  /-- Both on the accelerator. -/
  | accelerator
  /-- One on each side. -/
  | mixed (keyswitchOn lookupOn : Place) (maxWorkers? : Option Int)
deriving DecidableEq

/-- Encrypted probe codes: single ciphertexts on the host, or one batch on the accelerator. -/
inductive Encrypted (C B : Type) where
  | singles (cs : List C)
  | batch (b : B)

namespace Encrypted

variable {σ C B : Type}

/-- Bring encrypted codes to the host. -/
def onHost (engine : CipherEngine σ C B) : Encrypted C B → Process σ Failure (List C)
  | singles cs => .done cs
  | batch b => engine.download b

/-- Bring encrypted codes to the accelerator. -/
def onAccelerator (engine : CipherEngine σ C B) : Encrypted C B → Process σ Failure B
  | singles cs => engine.upload cs
  | batch b => .done b

end Encrypted

namespace Arrangement

/-- Mixed scheduling needs two different places. -/
def ofMixed (keyswitchOn lookupOn : Place) (maxWorkers : Int) : Except Failure Arrangement :=
  if keyswitchOn = lookupOn then .error (.configuration (.samePlace keyswitchOn))
  else .ok (.mixed keyswitchOn lookupOn (some maxWorkers))

def workers? : Arrangement → Option Int
  | host n? => n?
  | accelerator => none
  | mixed _ _ n? => n?

end Arrangement

namespace Strategy

/-- One place for both steps gives a pure arrangement, two places a mixed one. -/
def arrangement (s : Strategy) : Arrangement :=
  match s.keyswitchOn, s.lookupOn with
  | .host, .host => .host s.maxWorkers?
  | .accelerator, .accelerator => .accelerator
  | k, l => .mixed k l s.maxWorkers?

end Strategy

/-! ### Streams of features

The encrypted digits come out one feature after the other, in an order that depends on the
arrangement. Whoever takes them works on each feature before asking for the next, so an arrangement
is given the receiving step and folds it over the features. -/

section Streams

variable {σ C B β : Type}

/-- Take the features of a list in order. -/
def foldFeatures (receive : β → Nat × List C → Process σ Failure β) :
    β → List (Nat × List C) → Process σ Failure β
  | b, [] => .done b
  | b, feature :: rest => (receive b feature).bind fun b => foldFeatures receive b rest

/-- Take an arrival: file it, and pass on the feature that it completes. -/
def receiveArrival (plan : LookupPlan) (receive : β → Nat × List C → Process σ Failure β)
    (state : Regrouping C × β) (arrival : Nat × Except Failure C) :
    Process σ Failure (Regrouping C × β) :=
  match arrival.2 with
  | .error e => .fail e
  | .ok result =>
    match state.1.file plan arrival.1 result with
    | .error e => .fail e
    | .ok (regrouping, none) => .done (regrouping, state.2)
    | .ok (regrouping, some feature) =>
      (receive state.2 feature).bind fun b => .done (regrouping, b)

/-- The tasks of all positions of a plan, given what to do with a ciphertext and a lookup. -/
def positionTasks (plan : LookupPlan) (task : C → DigitLookup → Process σ Failure C)
    (ciphertexts : List C) : List (Nat × Process σ Failure C) :=
  plan.lookups.mapIdx fun position lookup =>
    match ciphertexts[position]? with
    | some c => (position, task c lookup)
    | none => (position, .fail (.fault .listIndexOutOfRange))

/-- A pool must have a worker, and their number must be known. -/
def requireWorkers (maxWorkers? : Option Int) : Process σ Failure Unit :=
  match maxWorkers? with
  | none => .fail (.fault (.notOrdered "<=" (Value.list []).typeName "int"))
  | some n => if 1 ≤ n then .done () else .fail (.fault .noWorkers)

/-- Evaluate all positions on the workers of the host. Features without digits come first; the
others follow as their digits arrive. -/
def foldOnHost (plan : LookupPlan) (schedule : Schedule)
    (maxWorkers? : Option Int) (task : C → DigitLookup → Process σ Failure C) (ciphertexts : List C)
    (receive : β → Nat × List C → Process σ Failure β) (b : β) : Process σ Failure β := do
  let b ← foldFeatures receive b (plan.emptyFeatures.map fun feature => (feature, []))
  if plan.lookupCount = 0 then pure b
  else
    requireWorkers maxWorkers?
    let tasks := positionTasks plan task ciphertexts
    let (_, b) ← Process.gather (receiveArrival plan receive) schedule tasks (.empty, b)
    pure b

/-- Fold over the features in the order in which the arrangement completes them. -/
def Arrangement.fold (arrangement : Arrangement) (engine : CipherEngine σ C B) (schedule : Schedule)
    (plan : LookupPlan) (encrypted : Encrypted C B)
    (receive : β → Nat × List C → Process σ Failure β) (b : β) : Process σ Failure β :=
  match arrangement with
  | .host maxWorkers? => do
    let ciphertexts ← encrypted.onHost engine
    foldOnHost plan schedule maxWorkers? engine.evaluateTable ciphertexts receive b
  | .accelerator =>
    if plan.lookupCount = 0 then foldFeatures receive b (plan.cutOutputs [])
    else do
      let batch ← encrypted.onAccelerator engine
      let switched ← engine.keyswitchAll batch
      let evaluated ← engine.bootstrapAll switched plan.lookups
      let outputs ← engine.download evaluated
      foldFeatures receive b (plan.cutOutputs outputs)
  | .mixed keyswitchOn _ maxWorkers? =>
    if plan.lookupCount = 0 then foldFeatures receive b (plan.cutOutputs [])
    else
      match keyswitchOn with
      | .accelerator => do
        let batch ← encrypted.onAccelerator engine
        let switched ← engine.keyswitchAll batch
        let ciphertexts ← engine.download switched
        foldOnHost plan schedule maxWorkers? engine.bootstrap ciphertexts receive b
      | .host => do
        let ciphertexts ← encrypted.onHost engine
        requireWorkers maxWorkers?
        let results ← Process.interleave schedule (ciphertexts.map engine.keyswitch)
        let switched ← .ofExcept (Process.firstFailure results)
        let batch ← engine.upload switched
        let evaluated ← engine.bootstrapAll batch plan.lookups
        let outputs ← engine.download evaluated
        foldFeatures receive b (plan.cutOutputs outputs)

end Streams

namespace Strategy

variable {σ C B : Type}

/-- Encrypt codes one by one on the host. -/
def encryptSingly (engine : CipherEngine σ C B) : List Int → Process σ Failure (List C)
  | [] => .done []
  | code :: rest => do
    let c ← engine.encrypt code
    let cs ← encryptSingly engine rest
    pure (c :: cs)

/-- Encrypt the probe codes where the strategy says. -/
def encrypt (s : Strategy) (engine : CipherEngine σ C B) (codes : List Int) :
    Process σ Failure (Encrypted C B) :=
  match s.encryptOn with
  | .accelerator => do
    let b ← engine.encryptAll codes
    pure (.batch b)
  | .host => do
    let cs ← encryptSingly engine codes
    pure (.singles cs)

/-! ### Assurance -/

/-- Multi-bit bootstrapping on the accelerator with two-bit digits stays below the security
target. -/
def lowersAssurance (s : Strategy) (c : MatchPolicy) : Bool :=
  s.primitive = .multiBit && s.lookupOn = .accelerator && c.digitSystem.blockLength = 2

/-- Refuse reduced assurance unless it is allowed; if it is, leave a warning. -/
def requireAssurance (s : Strategy) (c : MatchPolicy) (allow : Bool) :
    Except Failure (List Event) :=
  if !s.lowersAssurance c then .ok []
  else if !allow then
    .error (.configuration
      (.reducedAssurance s.name c.datasetName c.digitSystem.blockLength))
  else
    .ok
      [⟨"Running reduced-assurance strategy",
        [("strategy", .text s.name), ("dataset_name", .text c.datasetName),
          ("block_length", .nat c.digitSystem.blockLength)]⟩]

/-- The parameters of the engine that a strategy needs for a configuration. -/
def parameters (s : Strategy) (c : MatchPolicy) : Except Failure LweParameters :=
  LweParameters.select s.primitive c.digitSystem.blockLength (s.lookupOn = .accelerator)

/-- The strategy as a record. -/
def toRecord (s : Strategy) : Record :=
  [("name", .text s.name), ("primitive", .text s.primitive.name),
    ("encrypt_placement", .text s.encryptOn.name),
    ("keyswitch_placement", .text s.keyswitchOn.name),
    ("lookup_placement", .text s.lookupOn.name), ("early_stop", .bool s.earlyStop),
    ("max_workers", Value.ofOption (s.maxWorkers?.map .int))]

end Strategy

/-! ### The named strategies -/

/-- All strategies, in the order in which they are compared. -/
def strategies : List Strategy :=
  [⟨"classic_cpu", .classic, .host, .host, .host, true, some defaultWorkers⟩,
    ⟨"multibit_cpu", .multiBit, .host, .host, .host, false, some defaultWorkers⟩,
    ⟨"classic_cpu_gpu", .classic, .host, .accelerator, .host, false, some defaultWorkers⟩,
    ⟨"classic_gpu", .classic, .accelerator, .accelerator, .accelerator, false, some defaultWorkers⟩,
    ⟨"multibit_gpu_cpu", .multiBit, .accelerator, .host, .accelerator, false, some defaultWorkers⟩,
    ⟨"multibit_gpu", .multiBit, .accelerator, .accelerator, .accelerator, false,
      some defaultWorkers⟩]

def strategyNames : List String := strategies.map (·.name)

/-- The strategy of a name, whatever the case of its letters, with its own number of workers or a
given one. -/
def findStrategy (name : String) (maxWorkers? : Option Int) : Except Failure Strategy :=
  match strategies.find? (·.name == Text.smalls name) with
  | some s => .ok { s with maxWorkers? := maxWorkers?.or s.maxWorkers? }
  | none => .error (.configuration (.unknownStrategy name strategyNames))

end SealedMatch
