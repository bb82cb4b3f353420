/-
Module: SealedMatch.Proofs.Engine.Programs
Purpose: Sequences of engine operations yield under encryption what they yield in the clear.
Trusted boundary: none
Main exports: Operand.Each, Product.Each, Instruction.map, Instruction.perform_refines,
  runProgram_agree, SimulatedEngine.runProgram_decodes
-/
import SealedMatch.Engine.Program
import SealedMatch.Proofs.Engine.Refinement

namespace SealedMatch

/-! ### Operands that stand for each other -/

section Operands

variable {C B C' B' : Type}

/-- Operands of one kind whose ciphertexts are related. -/
inductive Operand.Each (RC : C → C' → Prop) (RB : B → B' → Prop) :
    Operand C B → Operand C' B' → Prop where
  | single {c : C} {c' : C'} (h : RC c c') : Each RC RB (.single c) (.single c')
  | many {cs : List C} {cs' : List C'} (h : List.Forall₂ RC cs cs') :
      Each RC RB (.many cs) (.many cs')
  | batch {b : B} {b' : B'} (h : RB b b') : Each RC RB (.batch b) (.batch b')
  | radix {x : RadixInteger C} {x' : RadixInteger C'} (h : RadixInteger.Each RC x x') :
      Each RC RB (.radix x) (.radix x')
  | misshapen (fault : Fault) {b? : Option B} {b'? : Option B'} (h : Option.Rel RB b? b'?) :
      Each RC RB (.misshapen fault b?) (.misshapen fault b'?)

/-- Related operands, or one decrypted value. -/
inductive Product.Each (RC : C → C' → Prop) (RB : B → B' → Prop) :
    Product C B → Product C' B' → Prop where
  | operand {o : Operand C B} {o' : Operand C' B'} (h : o.Each RC RB o') :
      Each RC RB (.operand o) (.operand o')
  | integer (n : Int) : Each RC RB (.integer n) (.integer n)
  | truth (t : Bool) : Each RC RB (.truth t) (.truth t)

variable {RC SC : C → C' → Prop} {RB SB : B → B' → Prop}

theorem Operand.Each.mono {o : Operand C B} {o' : Operand C' B'} (h : o.Each RC RB o')
    (hC : ∀ c c', RC c c' → SC c c') (hB : ∀ b b', RB b b' → SB b b') : o.Each SC SB o' := by
  cases h with
  | single h => exact .single (hC _ _ h)
  | many h => exact .many (h.imp hC)
  | batch h => exact .batch (hB _ _ h)
  | radix h => exact .radix (List.Forall₂.imp hC h)
  | misshapen fault h =>
      cases h with
      | none => exact .misshapen fault .none
      | some h => exact .misshapen fault (.some (hB _ _ h))

theorem Product.Each.mono {p : Product C B} {p' : Product C' B'} (h : p.Each RC RB p')
    (hC : ∀ c c', RC c c' → SC c c') (hB : ∀ b b', RB b b' → SB b b') : p.Each SC SB p' := by
  cases h with
  | operand h => exact .operand (h.mono hC hB)
  | integer n => exact .integer n
  | truth t => exact .truth t

/-! ### Registers -/

/-- The same names stand for related operands. -/
def Registers.Each (RC : C → C' → Prop) (RB : B → B' → Prop) (rs : Registers C B)
    (rs' : Registers C' B') : Prop :=
  List.Forall₂ (fun r r' => r.1 = r'.1 ∧ r.2.Each RC RB r'.2) rs rs'

variable {rs : Registers C B} {rs' : Registers C' B'}

theorem Registers.Each.find (h : rs.Each RC RB rs') (name : String) :
    Agree (Operand.Each RC RB) (rs.find name) (rs'.find name) := by
  unfold Registers.find
  induction h with
  | nil => exact .error _
  | cons head tail ih =>
      rename_i r r' rs rs'
      obtain ⟨key, o⟩ := r
      obtain ⟨key', o'⟩ := r'
      obtain ⟨hkey, ho⟩ := head
      simp only at hkey
      subst hkey
      rw [List.lookup_cons, List.lookup_cons]
      cases hname : name == key with
      | true => exact .ok ho
      | false => exact ih

theorem Registers.Each.single (h : rs.Each RC RB rs') (part name : String) :
    Agree RC (rs.single part name) (rs'.single part name) := by
  unfold Registers.single
  apply (h.find name).bind
  intro o o' ho
  cases ho with
  | single h => exact .ok h
  | many h => exact .error _
  | batch h => exact .error _
  | radix h => exact .error _
  | misshapen fault h => exact .error _

theorem Registers.Each.batch (h : rs.Each RC RB rs') (name : String) :
    Agree RB (rs.batch name) (rs'.batch name) := by
  unfold Registers.batch
  apply (h.find name).bind
  intro o o' ho
  cases ho with
  | single h => exact .error _
  | many h => exact .error _
  | batch h => exact .ok h
  | radix h => exact .error _
  | misshapen fault h =>
      cases h with
      | none => exact .error _
      | some h => exact .ok h

theorem Registers.Each.wholeBatch (h : rs.Each RC RB rs') (name : String) :
    Agree RB (rs.wholeBatch name) (rs'.wholeBatch name) := by
  unfold Registers.wholeBatch
  apply (h.find name).bind
  intro o o' ho
  cases ho with
  | single _ => exact h.batch name
  | many h => exact .error _
  | batch _ => exact h.batch name
  | radix h => exact .error _
  | misshapen fault h => exact .error _

theorem Registers.Each.radix (h : rs.Each RC RB rs') (part name : String) :
    Agree (RadixInteger.Each RC) (rs.radix part name) (rs'.radix part name) := by
  unfold Registers.radix
  apply (h.find name).bind
  intro o o' ho
  cases ho with
  | single h => exact .error _
  | many h => exact .error _
  | batch h => exact .error _
  | radix h => exact .ok h
  | misshapen fault h => exact .error _

theorem Registers.Each.singles (h : rs.Each RC RB rs') (names : List String) :
    Agree (List.Forall₂ RC) (rs.singles names) (rs'.singles names) :=
  (Agree.mapM fun name _ => h.single "key" name).mono fun _ _ related => related.1

theorem Registers.item_agree {cs : List C} {cs' : List C'} (h : List.Forall₂ RC cs cs')
    (index : Int) (fault : Fault) :
    Agree RC (Registers.item cs index fault) (Registers.item cs' index fault) := by
  have items : ∀ i : Nat, Option.Rel RC cs[i]? cs'[i]? := by
    induction h with
    | nil => exact fun i => .none
    | cons head tail ih =>
        intro i
        cases i with
        | zero => exact .some head
        | succ i => exact ih i
  unfold Registers.item
  rw [h.length_eq]
  generalize (if index < 0 then index + (cs'.length : Int) else index) = place
  have here := items place.toNat
  cases place with
  | ofNat n =>
      simp only
      cases hc : cs[(Int.ofNat n).toNat]? with
      | none =>
          rw [hc] at here
          cases hc' : cs'[(Int.ofNat n).toNat]? with
          | none => exact .error _
          | some c' => rw [hc'] at here; cases here
      | some c =>
          rw [hc] at here
          cases hc' : cs'[(Int.ofNat n).toNat]? with
          | none => rw [hc'] at here; cases here
          | some c' =>
              rw [hc'] at here
              cases here with
              | some related => exact .ok related
  | negSucc n => exact .error _

theorem Registers.Each.select (h : rs.Each RC RB rs') (name : String) (index : Int) :
    Agree RC (rs.select name index) (rs'.select name index) := by
  unfold Registers.select
  apply (h.find name).bind
  intro o o' ho
  cases ho with
  | single h => exact .error _
  | many h => exact Registers.item_agree h index _
  | batch h => exact .error _
  | radix h => exact Registers.item_agree h index _
  | misshapen fault h => exact .error _

/-- Giving a name related operands keeps registers related. -/
theorem Registers.Each.assign (h : rs.Each RC RB rs') (name : String) {o : Operand C B}
    {o' : Operand C' B'} (ho : o.Each RC RB o') :
    Registers.Each RC RB (SealedMatch.assign rs name o) (SealedMatch.assign rs' name o') := by
  have sameNames : rs.any (fun r => r.1 == name) = rs'.any (fun r => r.1 == name) := by
    induction h with
    | nil => rfl
    | cons head tail ih => rw [List.any_cons, List.any_cons, ih, head.1]
  unfold SealedMatch.assign
  rw [sameNames]
  split
  · unfold Registers.Each
    rw [List.forall₂_map_left_iff, List.forall₂_map_right_iff]
    apply h.imp
    intro r r' hr
    obtain ⟨hkey, hoperand⟩ := hr
    rw [hkey]
    split
    · exact ⟨rfl, ho⟩
    · exact ⟨hkey, hoperand⟩
  · exact List.rel_append h (.cons ⟨rfl, ho⟩ .nil)

end Operands

/-! ### Instructions -/

section Instructions

variable {C B C' B' : Type}

/-- An operand with other ciphertexts in the places of its own. -/
def Operand.map (f : C → C') (g : B → B') : Operand C B → Operand C' B'
  | .single c => .single (f c)
  | .many cs => .many (cs.map f)
  | .batch b => .batch (g b)
  | .radix x => .radix ⟨x.blocks.map f⟩
  | .misshapen fault b? => .misshapen fault (b?.map g)

/-- An instruction that brings in other ciphertexts, if it brings in any. -/
def Instruction.map (f : C → C') (g : B → B') : Instruction C B → Instruction C' B'
  | .load o => .load (o.map f g)
  | .encrypt value => .encrypt value
  | .encryptAll values => .encryptAll values
  | .encryptDigits value width => .encryptDigits value width
  | .assemble blocks => .assemble blocks
  | .select source index => .select source index
  | .keyswitch source => .keyswitch source
  | .keyswitchAll source => .keyswitchAll source
  | .download source => .download source
  | .upload sources => .upload sources
  | .bootstrap source lookup => .bootstrap source lookup
  | .evaluateTable source lookup => .evaluateTable source lookup
  | .bootstrapAll source lookups => .bootstrapAll source lookups
  | .publicZero width => .publicZero width
  | .widen source width => .widen source width
  | .add left right => .add left right
  | .atLeast source scalar => .atLeast source scalar
  | .decrypt source => .decrypt source
  | .decryptInteger source => .decryptInteger source
  | .decryptTruth source => .decryptTruth source

/-- Instructions that bring in no ciphertext: all they work on is made by the engine. -/
abbrev OwnInstruction := Instruction Empty Empty

/-- An instruction as one for ciphertexts of any kind. -/
def OwnInstruction.on (i : OwnInstruction) : Instruction C B := i.map Empty.elim Empty.elim

/-- Operands without ciphertexts are related, however ciphertexts are. -/
theorem Operand.map_each (RC : C → C' → Prop) (RB : B → B' → Prop) (o : Operand Empty Empty) :
    (o.map Empty.elim Empty.elim : Operand C B).Each RC RB (o.map Empty.elim Empty.elim) := by
  have none_of : ∀ cs : List Empty, cs = [] := by
    intro cs
    cases cs with
    | nil => rfl
    | cons c cs => exact c.elim
  cases o with
  | single c => exact c.elim
  | many cs =>
      rw [none_of cs]
      exact .many .nil
  | batch b => exact b.elim
  | radix x =>
      obtain ⟨blocks⟩ := x
      rw [none_of blocks]
      exact .radix .nil
  | misshapen fault b? =>
      cases b? with
      | none => exact .misshapen fault .none
      | some b => exact b.elim

end Instructions

/-! ### Steps -/

open Process hiding bind bind_assoc

variable {σ C B : Type} {E : CipherEngine σ C B} {G : σ → σ → Prop} {k : ClearEngine}
  {RC : C → ClearBlock → Prop} {RB : B → ClearBatch → Prop}
  {rs : Registers C B} {rs' : Registers ClearBlock ClearBatch}

theorem Instruction.encryptEach_refines (h : E.Implements G k RC RB) (messages : List Int) :
    Refines G (List.Forall₂ RC) (encryptEach E messages)
      (encryptEach k.engine messages).outcome := by
  induction messages with
  | nil => exact Refines.done .nil
  | cons message rest ih =>
      unfold encryptEach
      simp only [ClearEngine.engine, bind_eq, pure_eq, outcome_bind, outcome_ofExcept,
        outcome_done] at ih ⊢
      apply Refines.bind (h.encrypt message)
      intro c b hc
      apply Refines.bind ih
      intro cs bs hcs
      exact Refines.done (.cons hc hcs)

/-- On related registers every instruction ends alike. -/
theorem Instruction.perform_refines (h : E.Implements G k RC RB) (hrs : rs.Each RC RB rs')
    (i : OwnInstruction) :
    Refines G (Product.Each RC RB) (i.on.perform E rs) (i.on.perform k.engine rs').outcome := by
  cases i
  all_goals
    simp only [OwnInstruction.on, Instruction.map, perform, bind_eq, pure_eq, outcome_bind,
      outcome_ofExcept, outcome_done, ClearEngine.engine]
  case load o => exact Refines.done (.operand (o.map_each RC RB))
  case encrypt value =>
    apply Refines.bind (h.encrypt value)
    intro c b hc
    exact Refines.done (.operand (.single hc))
  case encryptAll values =>
    apply Refines.bind (h.encryptAll values)
    intro c b hc
    exact Refines.done (.operand (.batch hc))
  case encryptDigits value width =>
    rw [h.messageModulus_eq]
    apply Refines.bind (encryptEach_refines h _)
    intro cs bs hcs
    exact Refines.done (.operand (.radix hcs))
  case assemble blocks =>
    apply Refines.bind (Refines.ofExcept (hrs.singles blocks))
    intro cs bs hcs
    exact Refines.done (.operand (.radix hcs))
  case select source index =>
    apply Refines.bind (Refines.ofExcept (hrs.select source index))
    intro c b hc
    exact Refines.done (.operand (.single hc))
  case keyswitch source =>
    apply Refines.bind (Refines.ofExcept (hrs.single "key" source))
    intro c b hc
    apply Refines.bind (h.keyswitch hc)
    intro c b hc
    exact Refines.done (.operand (.single hc))
  case keyswitchAll source =>
    apply Refines.bind (Refines.ofExcept (hrs.batch source))
    intro c b hc
    apply Refines.bind (h.keyswitchAll hc)
    intro c b hc
    exact Refines.done (.operand (.batch hc))
  case download source =>
    apply Refines.bind (Refines.ofExcept (hrs.wholeBatch source))
    intro c b hc
    apply Refines.bind (h.download hc)
    intro cs bs hcs
    exact Refines.done (.operand (.many hcs))
  case upload sources =>
    apply Refines.bind (Refines.ofExcept (hrs.singles sources))
    intro cs bs hcs
    apply Refines.bind (h.upload hcs)
    intro c b hc
    exact Refines.done (.operand (.batch hc))
  case bootstrap source lookup =>
    apply Refines.bind (Refines.ofExcept (hrs.single "key" source))
    intro c b hc
    apply Refines.bind (h.bootstrap hc lookup)
    intro c b hc
    exact Refines.done (.operand (.single hc))
  case evaluateTable source lookup =>
    apply Refines.bind (Refines.ofExcept (hrs.single "key" source))
    intro c b hc
    apply Refines.bind (h.evaluateTable hc lookup)
    intro c b hc
    exact Refines.done (.operand (.single hc))
  case bootstrapAll source lookups =>
    apply Refines.bind (Refines.ofExcept (hrs.batch source))
    intro c b hc
    apply Refines.bind (h.bootstrapAll hc lookups)
    intro c b hc
    exact Refines.done (.operand (.batch hc))
  case publicZero width =>
    apply Refines.bind (h.publicZero width)
    intro x y hx
    exact Refines.done (.operand (.radix hx))
  case widen source width =>
    apply Refines.bind (Refines.ofExcept (hrs.radix "width" source))
    intro x y hx
    apply Refines.bind (h.widen hx width)
    intro x y hx
    exact Refines.done (.operand (.radix hx))
  case add left right =>
    apply Refines.bind (Refines.ofExcept (hrs.radix "width" left))
    intro x y hx
    apply Refines.bind (Refines.ofExcept (hrs.radix "width" right))
    intro x' y' hx'
    apply Refines.bind (h.add hx hx')
    intro z w hz
    exact Refines.done (.operand (.radix hz))
  case atLeast source scalar =>
    apply Refines.bind (Refines.ofExcept (hrs.radix "width" source))
    intro x y hx
    apply Refines.bind (h.atLeast hx scalar)
    intro c b hc
    exact Refines.done (.operand (.single hc))
  case decrypt source =>
    apply Refines.bind (Refines.ofExcept (hrs.single "mask" source))
    intro c b hc
    apply Refines.bind (h.decrypt hc)
    intro n m hn
    subst hn
    exact Refines.done (.integer n)
  case decryptInteger source =>
    apply Refines.bind (Refines.ofExcept (hrs.radix "blocks" source))
    intro x y hx
    apply Refines.bind (h.decryptInteger hx)
    intro n m hn
    subst hn
    exact Refines.done (.integer n)
  case decryptTruth source =>
    apply Refines.bind (Refines.ofExcept (hrs.single "mask" source))
    intro c b hc
    apply Refines.bind (h.decryptTruth hc)
    intro t u ht
    subst ht
    exact Refines.done (.truth t)

/-- Storing related operands keeps registers related. -/
theorem Instruction.store_each (hrs : rs.Each RC RB rs') (target? : Option String)
    {p : Product C B} {p' : Product ClearBlock ClearBatch} (hp : p.Each RC RB p') :
    (store rs target? p).Each RC RB (store rs' target? p') := by
  cases hp with
  | operand ho =>
      cases target? with
      | none => exact hrs
      | some name => exact hrs.assign name ho
  | integer n => cases target? <;> exact hrs
  | truth t => cases target? <;> exact hrs

theorem Instruction.performInto_refines (h : E.Implements G k RC RB) (hrs : rs.Each RC RB rs')
    (target? : Option String) (i : OwnInstruction) :
    Refines G (fun r r' => Agree (Product.Each RC RB) r.1 r'.1 ∧ r.2.Each RC RB r'.2)
      (i.on.performInto E rs target?) (i.on.performInto k.engine rs' target?).outcome := by
  unfold performInto
  simp only [bind_eq, pure_eq, outcome_bind, outcome_attempt]
  apply Refines.bind (perform_refines h hrs i).attempt
  intro r r' hr
  cases hr with
  | ok related => exact Refines.done ⟨.ok related, store_each hrs target? related⟩
  | error f => exact Refines.done ⟨.error f, hrs⟩

/-! ### Runs -/

/-- A sequence of instructions that work on what the engine has made before. -/
abbrev OwnProgram := List (Option String × OwnInstruction)

/-- A sequence for an engine on ciphertexts of any kind. -/
def OwnProgram.on (program : OwnProgram) : List (Option String × Instruction C B) :=
  program.map fun line => (line.1, line.2.on)

/-- The failure of an instruction is a result. -/
theorem Instruction.performInto_yields (target? : Option String) (i : Instruction C B) :
    (i.performInto E rs target?).Yields (fun _ _ => True) fun _ => True := by
  unfold performInto
  apply (Yields.of_attempt _).bind
  intro r _
  cases r with
  | ok p => exact Yields.done trivial
  | error f => exact Yields.done trivial

/-- Failures are results of a sequence; the sequence itself cannot fail. -/
theorem runProgram_yields (program : List (Option String × Instruction C B)) :
    (runProgram E rs program).Yields (fun _ _ => True) fun results =>
      results.length = program.length := by
  induction program generalizing rs with
  | nil => exact Yields.done rfl
  | cons line rest ih =>
      obtain ⟨target?, i⟩ := line
      unfold runProgram
      apply (Instruction.performInto_yields target? i).bind
      intro r _
      obtain ⟨result, rs⟩ := r
      apply ih.bind
      intro results hresults
      refine Yields.done ?_
      rw [List.length_cons, List.length_cons, hresults]

/-- Instruction by instruction, a sequence ends as in the clear. -/
theorem runProgram_agree (h : E.Implements G k RC RB) (program : OwnProgram)
    (hrs : rs.Each RC RB rs') :
    Refines G (List.Forall₂ (Agree (Product.Each RC RB))) (runProgram E rs program.on)
      (runProgram k.engine rs' program.on).outcome := by
  induction program generalizing rs rs' with
  | nil => exact Refines.done .nil
  | cons line rest ih =>
      obtain ⟨target?, i⟩ := line
      simp only [OwnProgram.on, List.map_cons] at ih ⊢
      unfold runProgram
      simp only [bind_eq, pure_eq, outcome_bind]
      refine Refines.bind (Instruction.performInto_refines h hrs target? i) ?_
      rintro ⟨r, rs⟩ ⟨r', rs'⟩ ⟨hr, hrs⟩
      apply Refines.bind (ih hrs)
      intro results results' hresults
      exact Refines.done (.cons hr hresults)

namespace SimulatedEngine

variable {e : SimulatedEngine} {margin : Nat}

/-- A batch decodes under its key to the messages of a batch in the clear. -/
structure DecodesAll (e : SimulatedEngine) (b : LweBatch) (p : ClearBatch) : Prop where
  key_eq : b.key = p.key
  decode_eq : e.decodeAll b p.key = .ok p.messages

/-- With a message bit, a carry bit and six noises to a spacing, every sequence of operations ends
as it does in the clear, one operation after the other: either with the same failure, or with
ciphertexts that decode under their keys to the messages in the clear. -/
theorem runProgram_decodes (h : e.Faithful 6) (hmessage : 1 ≤ e.parameters.messageBits)
    (hcarry : 1 ≤ e.parameters.carryBits) (program : OwnProgram) (s : Session) :
    ∃ results clear, ((runProgram e.engine [] program.on).run s).1 = .ok results ∧
      ((runProgram e.clear.engine [] program.on).run ()).1 = .ok clear ∧
      List.Forall₂ (Agree (Product.Each e.Decodes e.DecodesAll)) results clear := by
  have room : 3 ≤ e.totalModulus := by
    rw [totalModulus_eq]
    have : 2 ^ 2 ≤ 2 ^ (e.parameters.messageBits + e.parameters.carryBits) :=
      Nat.pow_le_pow_right (by decide) (by omega)
    omega
  have empty : Registers.Each (e.Encodes 6) (e.EncodesAll 6) [] [] := .nil
  have settled : (runProgram e.clear.engine [] program.on).Yields (fun _ _ => True) _ :=
    runProgram_yields program.on
  obtain ⟨clear, hclear, _⟩ := settled.run ()
  have agree := runProgram_agree (h.implements (by decide) room) program empty
  obtain ⟨results, hresults, related⟩ := (agree.yields hclear).run s
  refine ⟨results, clear, hresults, hclear, related.imp fun r r' hr => ?_⟩
  refine hr.mono fun p p' hp => hp.mono ?_ ?_
  · intro c b hc
    exact hc.decodes (by decide) h.bits_le
  · intro b p hb
    exact ⟨hb.key_eq, hb.decodeAll (by decide) h.bits_le⟩

/-- A ciphertext is switched, and then refused by a second switch. -/
theorem runProgram_decodes_smallest :
    smallest.Faithful 6 ∧ 1 ≤ smallest.parameters.messageBits ∧
      1 ≤ smallest.parameters.carryBits ∧
      ∃ results clear,
        ((runProgram smallest.engine [] (OwnProgram.on
          [(some "x", .encrypt 1), (some "y", .keyswitch "x"), (none, .keyswitch "y")])).run
            Session.start).1 = .ok results ∧
        ((runProgram smallest.clear.engine [] (OwnProgram.on
          [(some "x", .encrypt 1), (some "y", .keyswitch "x"), (none, .keyswitch "y")])).run
            ()).1 = .ok clear ∧
        List.Forall₂ (Agree (Product.Each smallest.Decodes smallest.DecodesAll)) results clear :=
  ⟨faithful_smallest, by decide, by decide,
    runProgram_decodes faithful_smallest (by decide) (by decide) _ _⟩

end SimulatedEngine

end SealedMatch
