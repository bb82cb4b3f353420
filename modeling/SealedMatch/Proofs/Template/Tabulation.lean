/-
Module: SealedMatch.Proofs.Template.Tabulation
Purpose: All readings of a lookup agree: strictly or not, tabulated, or looked up under encryption.
Trusted boundary: none
Main exports: DigitLookup.Decomposed, DigitLookup.ReadsAlike, DigitLookup.ReadsAlike.output_eq,
  SimulatedEngine.LooksUp, SimulatedEngine.bootstrapAll_looksUp, DigitLookup.readings_agree
-/
import SealedMatch.Proofs.Engine.Refinement
import SealedMatch.Proofs.Template.Lookup

namespace SealedMatch

namespace DigitLookup

variable {l : DigitLookup} {t : Tensor} {rows columns count radix : Nat}
  {blockLength blockCount : Int}

/-! ### Digits of decomposed tables -/

/-- A lookup of a digit that there is in a row that there is, in a table cut into digits. The table
may have no columns. -/
structure Decomposed (l : DigitLookup) (t : Tensor) (rows columns : Nat)
    (blockLength blockCount : Int) : Prop where
  shape_eq : t.shape = [rows, columns]
  table_eq : digitTable t blockLength blockCount = .ok l.table
  template_range : 0 ≤ l.template ∧ l.template < rows
  block_range : 0 ≤ l.block ∧ l.block < blockCount

namespace Decomposed

/-- The table of the lookup is made of digits, and there is room for it. -/
theorem digitAxis_eq (h : l.Decomposed t rows columns blockLength blockCount) :
    l.table = t.digitAxis ((2 ^ blockLength.toNat : Nat) : Int) blockCount.toNat ∧
      spread (t.shape ++ [blockCount.toNat]) ≤ mostEntries := by
  obtain ⟨count, haxis, hbits, htable⟩ := digitTable_eq_ok h.table_eq
  obtain ⟨-, rfl, hroom⟩ := newAxis_eq_ok haxis
  have block := h.block_range
  have bits : blockLength.toNat < 63 := hbits (by omega)
  rw [Nat.min_eq_left (by omega)] at htable
  exact ⟨htable, hroom⟩

theorem within (h : l.Decomposed t rows columns blockLength blockCount) :
    l.Within rows columns blockCount.toNat := by
  obtain ⟨htable, hroom⟩ := h.digitAxis_eq
  have block := h.block_range
  have shape : l.table.shape = t.shape ++ [blockCount.toNat] := by
    rw [htable]
    rfl
  refine .of_room ?_ (by rwa [shape]) h.template_range ⟨block.1, by omega⟩
  rw [shape, h.shape_eq]
  rfl

/-- Where a code is covered, there are rows and columns. -/
theorem bound (h : l.Decomposed t rows columns blockLength blockCount) {code : Int}
    (hcode : 0 ≤ code ∧ code < columns) :
    l.Bound t rows columns ((2 ^ blockLength.toNat : Nat) : Int) blockCount.toNat := by
  obtain ⟨htable, hroom⟩ := h.digitAxis_eq
  have template := h.template_range
  have block := h.block_range
  have grid : t.Grid rows columns := ⟨h.shape_eq, by omega, by omega⟩
  rw [grid.spread_eq (by omega)] at hroom
  exact ⟨grid, Int.natCast_nonneg _, htable, hroom, template, block.1, by omega⟩

/-- The digits of a decomposed table lie below two to the power of their bits. -/
theorem radixBounded (h : l.Decomposed t rows columns blockLength blockCount) :
    l.RadixBounded (2 ^ blockLength.toNat) := by
  intro code digit hdigit
  by_cases hcode : 0 ≤ code ∧ code < columns
  · exact (h.bound hcode).radixBounded (Nat.two_pow_pos _) code digit hdigit
  · rw [h.within.evaluate_of_not_covered hcode] at hdigit
    cases hdigit

end Decomposed

/-! ### Readings in the clear -/

/-- A lookup of so many codes gives one digit however it is read. -/
structure ReadsAlike (l : DigitLookup) (columns : Nat) : Prop where
  codeCount_eq : l.codeCount = .ok columns
  /-- Strictly or not, a code that is covered gives the entry of the table. -/
  covered : ∀ code : Int, 0 ≤ code ∧ code < columns →
    ∃ digit, l.table.read [l.template, code, l.block] = .ok digit ∧
      l.evaluate code = .ok digit ∧ l.evaluateOrZero code = .ok digit
  /-- Any other code is refused, or gives zero. -/
  not_covered : ∀ code : Int, ¬ (0 ≤ code ∧ code < columns) →
    l.evaluate code = .error (.domain (.probeCode l.feature code columns)) ∧
      l.evaluateOrZero code = .ok 0
  /-- A row of any size that there is room for holds what the codes below it give. -/
  tabulate_ok : ∀ size ≤ mostEntries, ∃ table, l.tabulate size = .ok table ∧
    table.size = size ∧ ∀ code < size, l.evaluateOrZero code = .ok (table.getD code 0)
  /-- A longer row cannot be made, whatever it would hold. -/
  tabulate_full : ∀ size > mostEntries, ∃ fault, newAxis [] size = .error fault ∧
    l.tabulate size = .error (.fault fault)

theorem Within.readsAlike (h : l.Within rows columns count) : l.ReadsAlike columns where
  codeCount_eq := h.codeCount_eq
  covered code hcode :=
    ⟨_, h.read_eq hcode, h.evaluate_of_covered hcode, h.evaluateOrZero_eq⟩
  not_covered code hcode := by
    refine ⟨h.evaluate_of_not_covered hcode, ?_⟩
    rw [h.evaluateOrZero_eq, digitAt_of_not_covered hcode]
  tabulate_ok size hsize := by
    refine ⟨_, h.tabulate_eq hsize, Array.size_ofFn, fun code hcode => ?_⟩
    rw [h.evaluateOrZero_eq, getD_ofFn _ hcode]
  tabulate_full _ hsize := tabulate_full hsize

/-- What is tabulated for a message space and read at a message is a message itself, and the digit
that the lookup gives for it. -/
theorem ReadsAlike.output_eq (h : l.ReadsAlike columns) (hbounded : l.RadixBounded radix)
    {k : ClearEngine} (hradix : radix ≤ k.totalModulus) (hroom : k.totalModulus ≤ mostEntries)
    {code : Nat} (hcode : code < k.totalModulus) :
    ∃ digit : Nat, k.output l code = .ok digit ∧ l.evaluateOrZero code = .ok (digit : Int) := by
  obtain ⟨table, htable, -, hentries⟩ := h.tabulate_ok k.totalModulus hroom
  have entry := hentries code hcode
  have range : 0 ≤ table.getD code 0 ∧ table.getD code 0 < k.totalModulus := by
    by_cases hcovered : 0 ≤ (code : Int) ∧ (code : Int) < columns
    · obtain ⟨digit, -, hstrict, hlenient⟩ := h.covered code hcovered
      obtain rfl : digit = table.getD code 0 := Except.ok.inj (hlenient.symm.trans entry)
      have bounds := hbounded code _ hstrict
      omega
    · have zero := Except.ok.inj (entry.symm.trans (h.not_covered code hcovered).2)
      omega
  obtain ⟨digit, hdigit⟩ := Int.eq_ofNat_of_zero_le range.1
  refine ⟨digit, ?_, by rw [entry, hdigit]⟩
  unfold ClearEngine.output
  rw [htable, ok_bind, Int.emod_eq_of_lt range.1 range.2, hdigit]
  rfl

end DigitLookup

/-! ### Readings under encryption -/

namespace SimulatedEngine

open Process hiding bind

variable {e : SimulatedEngine} {l : DigitLookup}

/-- Decrypting a ciphertext ends as told, whatever was done before. -/
def Decrypts (e : SimulatedEngine) (c : LweBlock) (outcome : Except Failure Int) : Prop :=
  ∀ session, ((e.decrypt c).run session).1 = outcome

/-- A lookup that an engine can evaluate exactly: it lies within its table, and all digits that it
gives are messages. -/
structure Admits (e : SimulatedEngine) (l : DigitLookup) : Prop where
  within : ∃ rows columns count, l.Within rows columns count
  bounded : ∃ radix ≤ e.totalModulus, l.RadixBounded radix

/-- Looking up under encryption gives what the lookup gives for a code, and zero where it does not
cover the code. -/
structure LooksUp (e : SimulatedEngine) (l : DigitLookup) : Prop where
  /-- A block under the small key is bootstrapped. -/
  bootstrap : ∀ x (code : Nat), e.Decodes x ⟨.small, code⟩ → ∀ session,
    ∃ c, ((e.bootstrap x l).run session).1 = .ok c ∧ e.Decrypts c (l.evaluateOrZero code)
  /-- A block under the large key is switched to the small one first. -/
  evaluateTable : ∀ x (code : Nat), e.Decodes x ⟨.large, code⟩ → ∀ session,
    ∃ c, ((e.evaluateTable x l).run session).1 = .ok c ∧ e.Decrypts c (l.evaluateOrZero code)
  /-- Every message can be encrypted and looked up. -/
  encrypt : ∀ code : Nat, code < e.totalModulus → ∀ session,
    ∃ c, (((e.encrypt code).bind fun x => e.evaluateTable x l).run session).1 = .ok c ∧
      e.Decrypts c (l.evaluateOrZero code)

theorem totalModulus_le_mostEntries {margin : Nat} (h : e.Faithful margin) :
    e.totalModulus ≤ mostEntries := by
  rw [totalModulus_eq]
  have few := Nat.pow_le_pow_right (n := 2) (by decide) h.bits_le
  exact few.trans (by decide)

theorem Admits.output_eq (hl : e.Admits l) (h : e.Faithful 2) {code : Nat}
    (hcode : code < e.totalModulus) :
    ∃ digit : Nat, e.clear.output l code = .ok digit ∧
      l.evaluateOrZero code = .ok (digit : Int) := by
  obtain ⟨_, _, _, within⟩ := hl.within
  obtain ⟨radix, hradix, bounded⟩ := hl.bounded
  exact within.readsAlike.output_eq bounded hradix (totalModulus_le_mostEntries h) hcode

theorem Encodes.decrypts (h : e.Faithful 2) {c : LweBlock} {digit : Nat}
    (hc : e.Encodes 2 c ⟨.large, digit⟩) : e.Decrypts c (.ok digit) := by
  intro session
  obtain ⟨n, hn, rfl⟩ := (decrypt_yields h (hc.decodes (le_refl 2) h.bits_le)).run session
  exact hn

theorem bootstrap_looksUp (h : e.Faithful 2) (hl : e.Admits l) {x : LweBlock} {code : Nat}
    (hx : e.Decodes x ⟨.small, code⟩) :
    (e.bootstrap x l).Yields Session.Silent fun c => e.Decrypts c (l.evaluateOrZero code) := by
  obtain ⟨digit, hdigit, hzero⟩ := hl.output_eq h hx.message_lt
  have inClear : e.clear.bootstrap ⟨.small, code⟩ l = .ok ⟨.large, digit⟩ := by
    unfold ClearEngine.bootstrap
    rw [hdigit]
    rfl
  rw [hzero]
  exact ((bootstrap_refines h hx l).yields inClear).mono fun c hc => hc.decrypts h

theorem evaluateTable_looksUp (h : e.Faithful 2) (hl : e.Admits l) {x : LweBlock} {code : Nat}
    (hx : e.Decodes x ⟨.large, code⟩) :
    (e.evaluateTable x l).Yields Session.Silent fun c => e.Decrypts c (l.evaluateOrZero code) := by
  unfold evaluateTable
  apply (enterWith_yields h .evaluateTable l).bind
  intro _ _
  apply ((keyswitch_refines h hx).yields rfl).bind
  intro switched hswitched
  exact bootstrap_looksUp h hl (hswitched.decodes (le_refl 2) h.bits_le)

theorem encrypt_looksUp (h : e.Faithful 2) (hl : e.Admits l) {code : Nat}
    (hcode : code < e.totalModulus) :
    ((e.encrypt code).bind fun x => e.evaluateTable x l).Yields Session.Silent fun c =>
      e.Decrypts c (l.evaluateOrZero code) := by
  have room : e.clear.totalModulus ≤ 2 ^ 63 :=
    (totalModulus_le_mostEntries h).trans (by decide)
  have accepted : e.clear.encrypt code = .ok ⟨.large, code⟩ := by
    unfold ClearEngine.encrypt
    rw [requireMessages_ok room (by simpa using hcode)]
    rfl
  apply ((encrypt_refines h code).yields accepted).bind
  intro x hx
  exact evaluateTable_looksUp h hl (hx.decodes (le_refl 2) h.bits_le)

theorem Admits.looksUp (hl : e.Admits l) (h : e.Faithful 2) : e.LooksUp l where
  bootstrap _ _ hx := (bootstrap_looksUp h hl hx).run
  evaluateTable _ _ hx := (evaluateTable_looksUp h hl hx).run
  encrypt _ hcode := (encrypt_looksUp h hl hcode).run

/-- A batch gives, when it is looked up and downloaded, what its lookups give for its codes. -/
theorem bootstrapAll_looksUp (h : e.Faithful 2) {ls : List DigitLookup}
    (hls : ∀ l ∈ ls, e.Admits l) {codes : List Nat} (hlength : ls.length = codes.length)
    {b : LweBatch} (hb : e.Opens b ⟨.small, codes⟩) :
    ((e.bootstrapAll b ls).bind e.download).Yields Session.Silent fun cs =>
      List.Forall₂ (fun c x => e.Decrypts c (x.1.evaluateOrZero x.2)) cs
        (ls.zip (codes.map Int.ofNat)) := by
  have each : ∀ x ∈ ls.zip codes, ∃ digit : Nat, e.clear.output x.1 x.2 = .ok digit ∧
      x.1.evaluateOrZero x.2 = .ok (digit : Int) := fun x hx =>
    (hls _ (List.of_mem_zip hx).1).output_eq h (hb.messages_lt _ (List.of_mem_zip hx).2)
  choose! digit hdigit using each
  have inClear : e.clear.bootstrapAll ⟨.small, codes⟩ ls =
      .ok ⟨.large, (ls.zip codes).map digit⟩ := by
    unfold ClearEngine.bootstrapAll
    rw [mapM_ok fun x hx => (hdigit x hx).1]
    simp only [hlength, ne_eq, not_true_eq_false, if_false]
    rfl
  apply ((bootstrapAll_refines h hb ls).yields inClear).bind
  intro b' hb'
  apply ((download_refines h hb').yields rfl).mono
  intro cs hcs
  unfold ClearEngine.download at hcs
  rw [List.forall₂_map_right_iff, List.forall₂_map_right_iff] at hcs
  rw [List.zip_map_right, List.forall₂_map_right_iff]
  refine (forall₂_and_right hcs hdigit).imp ?_
  rintro c ⟨l, code⟩ ⟨hc, -, hzero⟩
  show e.Decrypts c (l.evaluateOrZero code)
  rw [hzero]
  exact hc.decrypts h

end SimulatedEngine

/-! ### All readings -/

namespace DigitLookup

open SimulatedEngine (smallest faithful_smallest encryptBatch_yields find?_small)

/-- A lookup in a table that is cut into digits lies within it and gives digits of the radix, also
where the table has no columns. Whatever integers a table holds, a lookup within it gives one digit
however it is read in the clear. If its digits are messages of an engine, it gives the same digit
under encryption, by itself or in a batch. -/
theorem readings_agree :
    (∀ (l : DigitLookup) (t : Tensor) (rows columns : Nat) (blockLength blockCount : Int),
      l.Decomposed t rows columns blockLength blockCount →
        l.Within rows columns blockCount.toNat ∧ l.RadixBounded (2 ^ blockLength.toNat)) ∧
    (∀ (l : DigitLookup) (rows columns count : Nat), l.Within rows columns count →
      l.ReadsAlike columns) ∧
    ∀ e : SimulatedEngine, e.Faithful 2 →
      (∀ l, e.Admits l → e.LooksUp l) ∧
      ∀ (ls : List DigitLookup) (codes : List Nat) (b : LweBatch), (∀ l ∈ ls, e.Admits l) →
        ls.length = codes.length → e.Opens b ⟨.small, codes⟩ → ∀ session,
          ∃ cs, (((e.bootstrapAll b ls).bind e.download).run session).1 = .ok cs ∧
            List.Forall₂ (fun c x => e.Decrypts c (x.1.evaluateOrZero x.2)) cs
              (ls.zip (codes.map Int.ofNat)) := by
  refine ⟨?_, ?_, fun e he => ⟨?_, ?_⟩⟩
  · intro l t rows columns blockLength blockCount h
    exact ⟨h.within, h.radixBounded⟩
  · intro l rows columns count h
    exact h.readsAlike
  · intro l hl
    exact hl.looksUp he
  · intro ls codes b hls hlength hb
    exact (SimulatedEngine.bootstrapAll_looksUp he hls hlength hb).run

/-- Two rows of three scores. -/
def twoRows : Tensor := ⟨[2, 3], #[0, 1, 2, 1, -1, 2], rfl⟩

/-- The second digit of the second row: none of one, and one of minus one and of two. -/
def secondDigits : DigitLookup := ⟨7, 1, 1, twoRows.digitAxis 2 2⟩

/-- Of four messages, a row of three codes leaves the last one uncovered. -/
theorem readings_agree_short :
    secondDigits.Decomposed twoRows 2 3 1 2 ∧ smallest.Faithful 2 ∧ smallest.totalModulus = 4 ∧
      secondDigits.evaluate 2 = .ok 1 ∧
      secondDigits.evaluate 3 = .error (.domain (.probeCode 7 3 3)) ∧
      secondDigits.evaluate (-1) = .error (.domain (.probeCode 7 (-1) 3)) ∧
      secondDigits.tabulate 2 = .ok #[0, 1] ∧ secondDigits.tabulate 3 = .ok #[0, 1, 1] ∧
      secondDigits.tabulate 5 = .ok #[0, 1, 1, 0, 0] ∧
      (∀ session, ∃ c, (((smallest.encrypt (3 : Nat)).bind fun x =>
        smallest.evaluateTable x secondDigits).run session).1 = .ok c ∧
          smallest.Decrypts c (.ok 0)) ∧
      ∃ b, smallest.Opens b ⟨.small, [2, 3]⟩ ∧ ∀ session,
        ∃ c c', (((smallest.bootstrapAll b [secondDigits, secondDigits]).bind
          smallest.download).run session).1 = .ok [c, c'] ∧
            smallest.Decrypts c (.ok 1) ∧ smallest.Decrypts c' (.ok 0) := by
  obtain ⟨decomposed, alike, engines⟩ := readings_agree
  have faithful : smallest.Faithful 2 := faithful_smallest.of_le (by decide)
  have made : secondDigits.Decomposed twoRows 2 3 1 2 := ⟨rfl, rfl, by decide, by decide⟩
  obtain ⟨within, bounded⟩ := decomposed _ _ _ _ _ _ made
  have readings := alike _ _ _ _ within
  have admits : smallest.Admits secondDigits := ⟨⟨_, _, _, within⟩, _, by decide, bounded⟩
  have one : secondDigits.evaluateOrZero 2 = .ok 1 := toOption_eq_some (by decide +kernel)
  have zero : secondDigits.evaluateOrZero 3 = .ok 0 := (readings.not_covered 3 (by decide)).2
  obtain ⟨singly, batched⟩ := engines smallest faithful
  refine ⟨made, faithful, by decide, toOption_eq_some (by decide +kernel),
    (readings.not_covered 3 (by decide)).1, (readings.not_covered (-1) (by decide)).1,
    toOption_eq_some (by decide +kernel), toOption_eq_some (by decide +kernel),
    toOption_eq_some (by decide +kernel), fun session => ?_, ?_⟩
  · obtain ⟨c, hc, decrypts⟩ := (singly _ admits).encrypt 3 (by decide) session
    exact ⟨c, hc, zero ▸ decrypts⟩
  · obtain ⟨b, -, hb⟩ := (encryptBatch_yields faithful (find?_small smallest)
      (show ∀ m ∈ [2, 3], 0 ≤ m ∧ m < 4 by decide) .accelerator).run Session.start
    have opens : smallest.Opens b ⟨.small, [2, 3]⟩ := hb.opens (by decide) faithful.bits_le
    refine ⟨b, opens, fun session => ?_⟩
    obtain ⟨cs, hcs, decrypt⟩ := batched [secondDigits, secondDigits] [2, 3] b (by simp [admits])
      rfl opens session
    obtain ⟨c, cs, hc, rest, rfl⟩ := List.forall₂_cons_right_iff.1 decrypt
    obtain ⟨c', cs, hc', none, rfl⟩ := List.forall₂_cons_right_iff.1 rest
    obtain rfl := List.forall₂_nil_right_iff.1 none
    exact ⟨c, c', hcs, one ▸ hc, zero ▸ hc'⟩

end DigitLookup

end SealedMatch
