/-
Module: SealedMatch.Proofs.Engine.Refinement
Purpose: The simulated engine computes, under masks and noise, what the engine in the clear
  computes.
Trusted boundary: none
Main exports: SimulatedEngine.keyswitch_refines, SimulatedEngine.bootstrap_refines,
  SimulatedEngine.addPairs_refines, SimulatedEngine.comparePairs_refines,
  SimulatedEngine.Faithful.implements
-/
import SealedMatch.Proofs.Engine.Encoding

namespace SealedMatch

namespace SimulatedEngine

open Process hiding bind bind_assoc

variable {e : SimulatedEngine} {margin : Nat}

/-! ### Encryption, key switching and bootstrapping -/

/-- Every label of an encoding names a key, so switching and bootstrapping know both of theirs. -/
theorem find?_large (e : SimulatedEngine) : e.keys.find? .large = some e.keys.large := rfl

theorem find?_small (e : SimulatedEngine) : e.keys.find? .small = some e.keys.small := rfl

/-- Accepted messages lie in the message space. -/
theorem requireMessages_eq_ok {total : Nat} {values : List Int}
    (h : requireMessages total values = .ok ()) : ∀ v ∈ values, 0 ≤ v ∧ v < total := by
  cases values with
  | nil => simp
  | cons v rest =>
      simp only [requireMessages] at h
      split at h
      · cases h
      · split at h
        · cases h
        · rename_i inside
          intro x hx
          have low : 0 ≤ rest.foldl min v := by omega
          have high : rest.foldl max v ≤ (total : Int) - 1 := by omega
          have least := (List.le_min?_iff List.min?_cons').1 low x hx
          have greatest := (List.max?_le_iff List.max?_cons').1 high x hx
          omega

theorem expectKey_eq_ok {given expected : KeyLabel} {operation : EngineOperation}
    (h : expectKey given expected operation = .ok ()) : given = expected := by
  unfold expectKey at h
  split at h
  · assumption
  · cases h

theorem emod_totalModulus (e : SimulatedEngine) (v : Int) :
    0 ≤ v % e.totalModulus ∧ v % e.totalModulus < e.totalModulus := by
  have pos := e.totalModulus_pos
  exact ⟨Int.emod_nonneg v (by omega), Int.emod_lt_of_pos v (by omega)⟩

theorem natural_messages {total : Nat} {messages : List Nat} (h : ∀ m ∈ messages, m < total) :
    ∀ v ∈ messages.map Int.ofNat, 0 ≤ v ∧ v < total := by
  intro v hv
  obtain ⟨m, hm, rfl⟩ := List.mem_map.1 hv
  have := h m hm
  exact ⟨Int.natCast_nonneg m, Int.ofNat_lt.2 this⟩

theorem toNat_natural (messages : List Nat) :
    (messages.map Int.ofNat).map Int.toNat = messages := by
  rw [List.map_map]
  exact List.map_id messages

theorem encrypt_refines (h : e.Faithful margin) (value : Int) :
    Refines Session.Silent (e.Encodes margin) (e.encrypt value) (e.clear.encrypt value) := by
  unfold encrypt ClearEngine.encrypt
  apply Yields.bind_refines (enter_yields h .encrypt)
  intro _ _
  apply Refines.bind_ofExcept
  intro _ accepted
  obtain ⟨low, high⟩ := requireMessages_eq_ok accepted value (by simp)
  apply Yields.bind_refines (count_yields .encrypt 1)
  intro _ _
  exact (encryptRow_yields h (find?_large e) (Int.toNat_of_nonneg low).symm (by omega)).refines

theorem encryptAll_refines (h : e.Faithful margin) (values : List Int) :
    Refines Session.Silent (e.EncodesAll margin) (e.encryptAll values)
      (e.clear.encryptAll values) := by
  unfold encryptAll ClearEngine.encryptAll
  apply Yields.bind_refines (enter_yields h .encryptAll)
  intro _ _
  apply Refines.bind_ofExcept
  intro _ accepted
  apply Yields.bind_refines (count_yields .encrypt values.length)
  intro _ _
  exact (encryptBatch_yields h (find?_large e) (requireMessages_eq_ok accepted) _).refines

/-- A ciphertext under the large key turns into an encryption of its message under the small one. -/
theorem keyswitch_encodes (h : e.Faithful margin) {c : LweBlock} {b : ClearBlock}
    (hc : e.Decodes c b) :
    Refines Session.Silent (fun c' _ => e.Encodes margin c' ⟨.small, b.message⟩) (e.keyswitch c)
      (expectKey b.key .large .keyswitch) := by
  unfold keyswitch
  rw [hc.key_eq]
  apply Yields.bind_refines (enter_yields h .keyswitch)
  intro _ _
  apply (Refines.ofExcept (Agree.refl _)).then_yields
  intro _ _ _
  apply (count_yields .keyswitch 1).bind
  intro _ _
  apply (Yields.ofExcept hc.decode_eq rfl).bind
  intro m hm
  subst hm
  exact encryptRow_yields h (find?_small e) rfl hc.message_lt

theorem keyswitch_refines (h : e.Faithful margin) {c : LweBlock} {b : ClearBlock}
    (hc : e.Decodes c b) :
    Refines Session.Silent (e.Encodes margin) (e.keyswitch c) (ClearEngine.keyswitch b) := by
  unfold ClearEngine.keyswitch
  exact (keyswitch_encodes h hc).map_right

theorem keyswitchAll_refines (h : e.Faithful margin) {b : LweBatch} {p : ClearBatch}
    (hb : e.Opens b p) :
    Refines Session.Silent (e.EncodesAll margin) (e.keyswitchAll b)
      (ClearEngine.keyswitchAll p) := by
  unfold keyswitchAll ClearEngine.keyswitchAll
  rw [hb.key_eq]
  apply Yields.bind_refines (enter_yields h .keyswitchAll)
  intro _ _
  apply Refines.bind_ofExcept
  intro _ accepted
  apply Yields.bind_refines (count_yields .keyswitch b.length)
  intro _ _
  have decoded := hb.decode_eq
  rw [expectKey_eq_ok accepted] at decoded
  apply Yields.bind_refines (Yields.ofExcept decoded rfl)
  intro messages hmessages
  subst hmessages
  have fresh := encryptBatch_yields h (find?_small e) (natural_messages hb.messages_lt) b.place
  rw [toNat_natural] at fresh
  exact fresh.refines

/-- A ciphertext under the small key turns into an encryption of the function's value. -/
theorem bootstrapWith_encodes (h : e.Faithful margin) {c : LweBlock} {b : ClearBlock}
    (hc : e.Decodes c b) (table : Nat → Int) :
    Refines Session.Silent
      (fun c' _ => e.Encodes margin c' ⟨.large, (table b.message % e.totalModulus).toNat⟩)
      (e.bootstrapWith c table) (expectKey b.key .small .bootstrap) := by
  unfold bootstrapWith
  rw [hc.key_eq]
  apply (Refines.ofExcept (Agree.refl _)).then_yields
  intro _ _ _
  apply (count_yields .bootstrap 1).bind
  intro _ _
  apply (Yields.ofExcept hc.decode_eq rfl).bind
  intro m hm
  subst hm
  obtain ⟨nonneg, lt⟩ := emod_totalModulus e (table b.message)
  exact encryptRow_yields h (find?_large e) (Int.toNat_of_nonneg nonneg).symm (by omega)

theorem bootstrap_refines (h : e.Faithful margin) {c : LweBlock} {b : ClearBlock}
    (hc : e.Decodes c b) (lookup : DigitLookup) :
    Refines Session.Silent (e.Encodes margin) (e.bootstrap c lookup)
      (e.clear.bootstrap b lookup) := by
  unfold bootstrap ClearEngine.bootstrap ClearEngine.output
  rw [clear_totalModulus, LawfulMonad.bind_assoc]
  apply Yields.bind_refines (enterWith_yields h .bootstrap lookup)
  intro _ _
  -- Named, the table is not evaluated where both sides are matched.
  generalize lookup.tabulate (e.totalModulus : Int) = tabulated
  apply Refines.bind_ofExcept
  intro table _
  exact (bootstrapWith_encodes h hc (tableEntry table)).map_right

theorem evaluateTable_refines (h : e.Faithful margin) (hmargin : 2 ≤ margin) {c : LweBlock}
    {b : ClearBlock} (hc : e.Decodes c b) (lookup : DigitLookup) :
    Refines Session.Silent (e.Encodes margin) (e.evaluateTable c lookup)
      (e.clear.evaluateTable b lookup) := by
  unfold evaluateTable ClearEngine.evaluateTable
  apply Yields.bind_refines (enterWith_yields h .evaluateTable lookup)
  intro _ _
  apply Refines.bind (keyswitch_refines h hc)
  intro switched b' hswitched
  exact bootstrap_refines h (hswitched.decodes hmargin h.bits_le) lookup

/-- The outputs of lookups are the same numbers on both sides. -/
theorem tableOutputs_agree (e : SimulatedEngine) (lookups : List DigitLookup)
    (messages : List Nat) :
    Agree (fun outputs ms => outputs = ms.map Int.ofNat ∧ (∀ m ∈ ms, m < e.totalModulus) ∧
        outputs.length = (lookups.zip messages).length)
      (e.tableOutputs lookups messages)
      ((lookups.zip messages).mapM fun x => e.clear.output x.1 x.2) := by
  have each : ∀ x ∈ lookups.zip messages,
      Agree (fun (v : Int) (m : Nat) => v = Int.ofNat m ∧ m < e.totalModulus)
        (do
          let table ← x.1.tabulate e.totalModulus
          pure (tableEntry table x.2 % e.totalModulus))
        (e.clear.output x.1 x.2) := by
    rintro ⟨lookup, message⟩ _
    unfold ClearEngine.output
    rw [clear_totalModulus]
    apply (Agree.refl _).bind
    intro table table' same
    subst same
    obtain ⟨nonneg, lt⟩ := emod_totalModulus e (tableEntry table message)
    refine .ok ⟨(Int.toNat_of_nonneg nonneg).symm, ?_⟩
    show (tableEntry table message % e.totalModulus).toNat < e.totalModulus
    omega
  apply (Agree.mapM each).mono
  intro outputs ms
  rintro ⟨related, length⟩
  refine ⟨?_, ?_, length⟩
  · have same := related.imp fun v m h => h.1
    rw [← List.forall₂_eq_eq_eq, List.forall₂_map_right_iff]
    exact same
  · exact forall₂_right related fun v m h => h.2

theorem bootstrapAll_refines (h : e.Faithful margin) {b : LweBatch} {p : ClearBatch}
    (hb : e.Opens b p) (lookups : List DigitLookup) :
    Refines Session.Silent (e.EncodesAll margin) (e.bootstrapAll b lookups)
      (e.clear.bootstrapAll p lookups) := by
  unfold bootstrapAll ClearEngine.bootstrapAll
  rw [hb.key_eq, hb.length_eq]
  apply Yields.bind_refines (enter_yields h .bootstrapAll)
  intro _ _
  apply Refines.bind_ofExcept
  intro _ accepted
  split
  · exact Refines.fail _
  · rename_i hlength
    have lengths : lookups.length = p.messages.length := not_not.1 hlength
    apply Yields.bind_refines (count_yields .bootstrap p.messages.length)
    intro _ _
    have decoded := hb.decode_eq
    rw [expectKey_eq_ok accepted] at decoded
    apply Yields.bind_refines (Yields.ofExcept decoded rfl)
    intro messages hmessages
    subst hmessages
    refine Refines.bind (Refines.ofExcept (tableOutputs_agree e lookups p.messages)) ?_
    rintro _ ms ⟨rfl, hms, length⟩
    have enough : ¬ (ms.map Int.ofNat).length < lookups.length := by
      rw [length, List.length_zip]
      omega
    rw [if_neg enough]
    have fresh := encryptBatch_yields h (find?_large e) (natural_messages hms) b.place
    rw [toNat_natural] at fresh
    exact fresh.refines

/-! ### Transfers -/

/-- Ciphertexts of one key have masks of one size. -/
theorem Encodes.mask_size {c : LweBlock} {b : ClearBlock} (h : e.Encodes margin c b)
    {secret : WordRow} (hsecret : e.keys.find? b.key = some secret) :
    c.mask.size = secret.size := by
  obtain ⟨_, _, hides⟩ := h.hidden
  obtain ⟨secret', hsecret', hsize, _⟩ := hides.body_eq
  rw [hsecret] at hsecret'
  cases hsecret'
  exact hsize

theorem Encodes.key_eq {c : LweBlock} {b : ClearBlock} (h : e.Encodes margin c b) :
    c.key = b.key := by
  obtain ⟨_, _, hides⟩ := h.hidden
  exact hides.key_eq

theorem Encodes.isWord_body {c : LweBlock} {b : ClearBlock} (h : e.Encodes margin c b) :
    isWord c.body = true := by
  obtain ⟨_, _, hides⟩ := h.hidden
  exact hides.isWord_body

theorem Encodes.exists_secret {c : LweBlock} {b : ClearBlock} (h : e.Encodes margin c b) :
    ∃ secret, e.keys.find? b.key = some secret := by
  obtain ⟨_, _, hides⟩ := h.hidden
  obtain ⟨secret, hsecret, _⟩ := hides.body_eq
  exact ⟨secret, hsecret⟩

/-- In a batch, no ciphertext counts as a public constant. -/
theorem Encodes.unmarked {c : LweBlock} {b : ClearBlock} (h : e.Encodes margin c b) :
    e.Encodes margin ⟨c.mask, c.body, b.key, false⟩ b := by
  obtain ⟨noise, hnoise, hides⟩ := h.hidden
  exact ⟨h.message_lt, noise, hnoise, rfl, hides.body_eq, fun marked => nomatch marked⟩

/-- Ciphertexts of one key make up a batch. -/
theorem encodesAll_ofRows {cs : List LweBlock} {bs : List ClearBlock}
    (h : List.Forall₂ (e.Encodes margin) cs bs) {key : KeyLabel} {secret : WordRow}
    (hsecret : e.keys.find? key = some secret) (hkey : ∀ b ∈ bs, b.key = key) (place : Place) :
    e.EncodesAll margin (.ofRows secret.size (cs.map fun c => (c.mask, c.body)) key place)
      ⟨key, bs.map (·.message)⟩ := by
  refine ⟨rfl, ⟨secret, hsecret, rfl⟩, by simp [LweBatch.ofRows], ?_⟩
  have zipped : ((cs.map fun c => (c.mask, c.body)).map Prod.fst).zip
      ((cs.map fun c => (c.mask, c.body)).map Prod.snd) = cs.map fun c => (c.mask, c.body) := by
    rw [← List.unzip_fst, ← List.unzip_snd, List.zip_unzip]
  simp only [LweBatch.ofRows, zipped]
  rw [List.forall₂_map_left_iff, List.forall₂_map_right_iff]
  refine (forall₂_and_right h hkey).imp ?_
  rintro c ⟨_, m⟩ ⟨hc, rfl⟩
  exact hc.unmarked

theorem upload_refines (h : e.Faithful margin) {cs : List LweBlock} {bs : List ClearBlock}
    (hcs : List.Forall₂ (e.Encodes margin) cs bs) :
    Refines Session.Silent (e.EncodesAll margin) (e.upload cs) (ClearEngine.upload bs) := by
  unfold upload
  apply Yields.bind_refines (enter_yields h .upload)
  intro _ _
  cases hcs with
  | nil => exact Refines.fail _
  | cons head tail =>
      rename_i c b cs bs
      have keys : cs.map (·.key) = bs.map (·.key) := by
        rw [← List.forall₂_eq_eq_eq, List.forall₂_map_left_iff, List.forall₂_map_right_iff]
        exact tail.imp fun _ _ hc => hc.key_eq
      have sameKeys : cs.all (·.key = c.key) = bs.all (·.key = b.key) := by
        have := congrArg (·.all (· = b.key)) keys
        simpa [List.all_map, Function.comp_def, head.key_eq] using this
      unfold ClearEngine.upload
      simp only [sameKeys]
      split
      · rename_i hall
        have hkey : ∀ b' ∈ b :: bs, b'.key = b.key := by
          intro b' hb'
          rcases List.mem_cons.1 hb' with rfl | hb'
          · rfl
          · simpa using List.all_eq_true.1 hall b' hb'
        have all : List.Forall₂ (e.Encodes margin) (c :: cs) (b :: bs) := .cons head tail
        obtain ⟨secret, hsecret⟩ := head.exists_secret
        have left : ∀ c' ∈ c :: cs, c'.mask.size = secret.size ∧ isWord c'.body = true := by
          refine forall₂_left (forall₂_and_right all hkey) ?_
          rintro c' b' ⟨hc', hb'⟩
          exact ⟨hc'.mask_size (hb' ▸ hsecret), hc'.isWord_body⟩
        have sizes : cs.all (·.mask.size = c.mask.size) = true := by
          refine List.all_eq_true.2 fun c' hc' => decide_eq_true ?_
          rw [(left c' (by simp [hc'])).1, (left c (by simp)).1]
        have words : (c :: cs).all (isWord ·.body) = true :=
          List.all_eq_true.2 fun c' hc' => (left c' hc').2
        simp only [sizes, words, Bool.not_true, Bool.false_eq_true, if_false]
        rw [(left c (by simp)).1, head.key_eq]
        exact Refines.done (encodesAll_ofRows all hsecret hkey .accelerator)
      · have names : (c :: cs).map (·.key.name) = (b :: bs).map (·.key.name) := by
          have := congrArg (·.map KeyLabel.name) keys
          simpa [Function.comp_def, head.key_eq] using this
        rw [names]
        exact Refines.fail _

theorem download_refines (h : e.Faithful margin) {b : LweBatch} {p : ClearBatch}
    (hb : e.EncodesAll margin b p) :
    Refines Session.Silent (List.Forall₂ (e.Encodes margin)) (e.download b)
      (.ok (ClearEngine.download p)) := by
  unfold download ClearEngine.download
  have enough : ¬ b.masks.length < b.length := by
    rw [hb.length_eq]
    exact lt_irrefl _
  rw [if_neg enough, hb.key_eq]
  apply Yields.bind_refines (enter_yields h .download)
  intro _ _
  refine (Yields.done ?_).refines
  rw [List.forall₂_map_left_iff, List.forall₂_map_right_iff]
  exact hb.rows

/-! ### Public zeros -/

theorem publicZeros_encode (h : e.Faithful margin) (count : Int) :
    List.Forall₂ (e.Encodes margin) (e.publicZeros count) (ClearEngine.zeros count) := by
  unfold publicZeros ClearEngine.zeros
  induction count.toNat with
  | zero => exact .nil
  | succ n ih => exact .cons (encodes_publicBlock h e.totalModulus_pos) ih

theorem publicZero_refines (h : e.Faithful margin) (width : Int) :
    Refines Session.Silent (RadixInteger.Each (e.Encodes margin)) (e.publicZero width)
      (.ok (ClearEngine.publicZero width)) := by
  unfold publicZero
  apply Yields.bind_refines (enter_yields h .publicZero)
  intro _ _
  exact Refines.done (publicZeros_encode h width)

theorem widen_refines (h : e.Faithful margin) {x : RadixInteger LweBlock}
    {y : RadixInteger ClearBlock} (hx : RadixInteger.Each (e.Encodes margin) x y) (width : Int) :
    Refines Session.Silent (RadixInteger.Each (e.Encodes margin)) (e.widen x width)
      (ClearEngine.widen y width) := by
  unfold widen ClearEngine.widen
  rw [hx.width_eq]
  apply Yields.bind_refines (enter_yields h .widen)
  intro _ _
  split
  · exact Refines.fail _
  · exact Refines.done (List.rel_append hx (publicZeros_encode h _))

/-! ### Functions of blocks -/

/-- A function is applied to public constants in public and to other blocks by bootstrapping; what
comes out is the same. -/
theorem applyTable_encodes (h : e.Faithful margin) (hmargin : 2 ≤ margin) {c : LweBlock}
    {b : ClearBlock} (hc : e.Decodes c b) (table : Nat → Int) {n : Nat}
    (hn : table b.message = n) (hlt : n < e.totalModulus) :
    Refines Session.Silent (fun c' _ => e.Encodes margin c' ⟨.large, n⟩) (e.applyTable c table)
      (expectKey b.key .large .keyswitch) := by
  unfold applyTable
  split
  · rename_i marked
    rw [hc.large_of_trivial marked]
    apply Yields.bind_refines (Yields.ofExcept hc.decode_eq rfl)
    intro m hm
    subst hm
    rw [hn]
    exact Refines.done (encodes_publicBlock h hlt)
  · apply (keyswitch_encodes h hc).then_yields
    intro switched _ hswitched
    have last := bootstrapWith_encodes h (hswitched.decodes hmargin h.bits_le) table
    apply (last.yields rfl).mono
    intro c' hc'
    have same : (table b.message % e.totalModulus).toNat = n := by
      rw [hn, Int.emod_eq_of_lt (by omega) (by omega), Int.toNat_natCast]
    rw [← same]
    exact hc'

theorem applyTables_encodes (h : e.Faithful margin) {a b : LweBlock} {x y : ClearBlock}
    (ha : e.Decodes a x) (hb : e.Decodes b y) {f : Nat → Nat → Nat}
    (hlt : f x.message y.message < e.totalModulus) :
    (e.applyTables a b f).Yields Session.Silent fun c =>
      e.Encodes margin c ⟨.large, f x.message y.message⟩ := by
  unfold applyTables
  apply (Yields.ofExcept ha.decode_eq rfl).bind
  intro m hm
  apply (Yields.ofExcept hb.decode_eq rfl).bind
  intro n hn
  subst hm hn
  split
  · exact Yields.done (encodes_publicBlock h hlt)
  · apply (count_yields .keyswitch 1).bind
    intro _ _
    apply (count_yields .bootstrap 1).bind
    intro _ _
    exact encryptRow_yields h (find?_large e) rfl hlt

/-! ### Addition

A sum of two blocks and a carry holds three noises at once. It is decoded right away, so what is
handed on holds a single noise again. -/

theorem twice_sum_lt {x y z : Int} {total : Nat} (hmargin : 6 ≤ margin)
    (hx : (margin : Int) * |x| < spacing total) (hy : (margin : Int) * |y| < spacing total)
    (hz : (margin : Int) * |z| < spacing total) : 2 * |x + y + z| < spacing total := by
  have six : ∀ w : Int, (6 : Int) * |w| ≤ margin * |w| := fun w =>
    mul_le_mul_of_nonneg_right (by exact_mod_cast hmargin) (abs_nonneg w)
  have := six x
  have := six y
  have := six z
  have := abs_add_le (x + y) z
  have := abs_add_le x y
  omega

theorem Hides.decodes {c : LweBlock} {key : KeyLabel} {number : Nat} {noise : Int}
    (h : e.Hides c key number noise)
    (hbits : e.parameters.messageBits + e.parameters.carryBits ≤ 31)
    (hnoise : 2 * |noise| < spacing e.totalModulus) :
    e.Decodes c ⟨key, number % e.totalModulus⟩ :=
  ⟨h.key_eq, h.decode hbits hnoise, h.large_of_trivial⟩

/-- The sum decodes to the sum in the clear. -/
theorem addWithCarry_agree (h : e.Faithful margin) (hmargin : 6 ≤ margin) {a b : LweBlock}
    {x y : ClearBlock} (ha : e.Encodes margin a x) (hb : e.Encodes margin b y)
    {carry? : Option LweBlock} {n? : Option Nat}
    (hcarry : Option.Rel (fun c n => e.Encodes margin c ⟨.large, n⟩) carry? n?) :
    Agree (fun c s => e.Decodes c ⟨x.key, s⟩) (addWithCarry a b carry?)
      (e.clear.sumBlocks x y n?) := by
  obtain ⟨v, hv, hidesA⟩ := ha.hidden
  obtain ⟨w, hw, hidesB⟩ := hb.hidden
  unfold addWithCarry ClearEngine.sumBlocks
  by_cases hkey : x.key = y.key
  · have accepted : expectKey x.key y.key .add = .ok () := if_pos hkey
    rw [← hkey] at hidesB
    obtain ⟨c, hc, hidesC⟩ := hidesA.add hidesB
    have zero : (margin : Int) * |(0 : Int)| < spacing e.totalModulus := by
      have := mul_nonneg (Int.natCast_nonneg margin) (abs_nonneg v)
      simp only [abs_zero, mul_zero]
      omega
    rw [hc]
    cases hcarry with
    | none =>
        simp only [accepted]
        refine .ok ?_
        refine hidesC.decodes h.bits_le ?_
        have := twice_sum_lt hmargin hv hw zero
        rwa [add_zero] at this
    | some hcarry =>
        rename_i carry n
        obtain ⟨z, hz, hidesZ⟩ := hcarry.hidden
        simp only [accepted]
        by_cases hlarge : x.key = .large
        · have accepted' : expectKey x.key .large .add = .ok () := if_pos hlarge
          rw [accepted']
          rw [hlarge] at hidesC
          obtain ⟨d, hd, hidesD⟩ := hidesC.add hidesZ
          show Agree _ (addUnderOneKey c carry) _
          rw [hd, hlarge]
          exact .ok (hidesD.decodes h.bits_le (twice_sum_lt hmargin hv hw hz))
        · have refused : expectKey x.key .large .add =
              .error (.engine (.wrongKey x.key .large .add)) := if_neg hlarge
          rw [refused]
          show Agree _ (addUnderOneKey c carry) _
          unfold addUnderOneKey
          rw [hidesC.key_eq, hidesZ.key_eq, refused]
          exact .error _
  · have refused : expectKey x.key y.key .add =
        .error (.engine (.wrongKey x.key y.key .add)) := if_neg hkey
    unfold addUnderOneKey
    rw [hidesA.key_eq, hidesB.key_eq, refused]
    cases hcarry with
    | none => exact .error _
    | some _ => exact .error _

theorem addPairs_refines (h : e.Faithful margin) (hmargin : 6 ≤ margin)
    {pairs : List (LweBlock × LweBlock)} {blocks : List (ClearBlock × ClearBlock)}
    (hpairs : List.Forall₂ (fun c b => e.Encodes margin c.1 b.1 ∧ e.Encodes margin c.2 b.2)
      pairs blocks)
    {carry? : Option LweBlock} {n? : Option Nat}
    (hcarry : Option.Rel (fun c n => e.Encodes margin c ⟨.large, n⟩) carry? n?) :
    Refines Session.Silent (List.Forall₂ (e.Encodes margin)) (e.addPairs carry? pairs)
      (e.clear.addFrom n? blocks) := by
  induction hpairs generalizing carry? n? with
  | nil => exact Refines.done .nil
  | cons head tail ih =>
      rename_i c b pairs blocks
      obtain ⟨c₁, c₂⟩ := c
      obtain ⟨b₁, b₂⟩ := b
      unfold addPairs ClearEngine.addFrom
      refine Refines.bind (Refines.ofExcept (addWithCarry_agree h hmargin head.1 head.2 hcarry)) ?_
      intro sum s hsum
      have hs : s < e.totalModulus := hsum.message_lt
      have hdigit : s % e.messageModulus < e.totalModulus := lt_of_le_of_lt (Nat.mod_le _ _) hs
      have hrest : s / e.messageModulus < e.totalModulus :=
        lt_of_le_of_lt (Nat.div_le_self _ _) hs
      have two : 2 ≤ margin := by omega
      have digit := applyTable_encodes h two hsum (fun m => (m % e.messageModulus : Nat)) rfl hdigit
      have carry := applyTable_encodes h two hsum (fun m => (m / e.messageModulus : Nat)) rfl hrest
      refine Refines.bind digit.recall ?_
      rintro d u ⟨hd, accepted⟩
      apply Yields.bind_refines (carry.yields accepted)
      intro c hc
      apply Refines.bind (ih (.some hc))
      intro digits ds hdigits
      exact Refines.done (.cons hd hdigits)

theorem add_refines (h : e.Faithful margin) (hmargin : 6 ≤ margin)
    {x x' : RadixInteger LweBlock} {y y' : RadixInteger ClearBlock}
    (hx : RadixInteger.Each (e.Encodes margin) x y)
    (hx' : RadixInteger.Each (e.Encodes margin) x' y') :
    Refines Session.Silent (RadixInteger.Each (e.Encodes margin)) (e.add x x')
      (e.clear.add y y') := by
  unfold add ClearEngine.add
  rw [hx.width_eq, hx'.width_eq]
  apply Yields.bind_refines (enter_yields h .add)
  intro _ _
  split
  · exact Refines.fail _
  · refine Refines.bind (addPairs_refines h hmargin (forall₂_zip hx hx') .none) ?_
    intro cs bs hcs
    exact Refines.done hcs

/-! ### Comparison -/

/-- Orderings are messages: there are three of them. -/
theorem ordering_lt (digit : Int) (m : Nat) : ordering digit m < 3 := by
  unfold ordering
  split
  · decide
  · split
    · decide
    · decide

theorem dominant_lt {high low : Nat} (hhigh : high < 3) (hlow : low < 3) :
    dominant high low < 3 := by
  unfold dominant
  split
  · exact hlow
  · exact hhigh

/-- An encoding of an ordering. -/
def EncodesOrdering (e : SimulatedEngine) (margin : Nat) (c : LweBlock) (n : Nat) : Prop :=
  n < 3 ∧ e.Encodes margin c ⟨.large, n⟩

theorem comparePairs_refines (h : e.Faithful margin) (hmargin : 2 ≤ margin)
    (hroom : 3 ≤ e.totalModulus) {cs : List LweBlock} {bs : List ClearBlock}
    (hcs : List.Forall₂ e.Decodes cs bs) (digits : List Int)
    {found? : Option LweBlock} {n? : Option Nat}
    (hfound : Option.Rel (e.EncodesOrdering margin) found? n?) :
    Refines Session.Silent (Option.Rel (e.EncodesOrdering margin))
      (e.comparePairs found? (cs.zip digits)) (ClearEngine.compareFrom n? (bs.zip digits)) := by
  induction hcs generalizing digits found? n? with
  | nil => exact Refines.done hfound
  | cons head tail ih =>
      rename_i c b cs bs
      cases digits with
      | nil => exact Refines.done hfound
      | cons digit digits =>
          rw [List.zip_cons_cons, List.zip_cons_cons]
          unfold comparePairs ClearEngine.compareFrom
          have three := ordering_lt digit b.message
          refine Refines.bind (applyTable_encodes h hmargin head _ rfl
            (three.trans_le hroom)) fun here _ hhere => ?_
          cases hfound with
          | none => exact ih digits (.some ⟨three, hhere⟩)
          | some hbelow =>
              have three' := dominant_lt three hbelow.1
              refine Yields.bind_refines (applyTables_encodes h
                (hhere.decodes hmargin h.bits_le) (hbelow.2.decodes hmargin h.bits_le)
                (three'.trans_le hroom)) fun found hfound' => ?_
              exact ih digits (.some ⟨three', hfound'⟩)

theorem atLeast_refines (h : e.Faithful margin) (hmargin : 2 ≤ margin)
    (hroom : 3 ≤ e.totalModulus) {x : RadixInteger LweBlock} {y : RadixInteger ClearBlock}
    (hx : RadixInteger.Each e.Decodes x y) (scalar : Int) :
    Refines Session.Silent (e.Encodes margin) (e.atLeast x scalar)
      (e.clear.atLeast y scalar) := by
  unfold atLeast ClearEngine.atLeast
  rw [hx.width_eq, clear_messageModulus]
  have zero : 0 < e.totalModulus := by omega
  have one : 1 < e.totalModulus := by omega
  apply Yields.bind_refines (enter_yields h .atLeast)
  intro _ _
  split
  · exact Refines.done (encodes_publicBlock h one)
  · split
    · exact Refines.done (encodes_publicBlock h zero)
    · refine Refines.bind (comparePairs_refines h hmargin hroom hx _ .none) ?_
      intro found? n? hfound
      cases hfound with
      | none => exact Refines.fail _
      | some hfound =>
          rename_i found n
          have bit : (if 1 ≤ n then 1 else 0) < e.totalModulus := by
            split
            · exact one
            · exact zero
          have last := applyTable_encodes h hmargin (hfound.2.decodes hmargin h.bits_le)
            (fun m => if 1 ≤ m then 1 else 0) (by simp) bit
          exact (last.yields rfl).refines

/-! ### Decryption -/

theorem decrypt_yields (h : e.Faithful margin) {c : LweBlock} {b : ClearBlock}
    (hc : e.Decodes c b) :
    (e.decrypt c).Yields Session.Silent fun n => n = (b.message : Int) := by
  unfold decrypt
  apply (enter_yields h .decrypt).bind
  intro _ _
  apply (Yields.ofExcept hc.decode_eq rfl).bind
  intro m hm
  subst hm
  exact Yields.done rfl

theorem decryptBlocks_yields (h : e.Faithful margin) {cs : List LweBlock} {bs : List ClearBlock}
    (hcs : List.Forall₂ e.Decodes cs bs) :
    (e.decryptBlocks cs).Yields Session.Silent fun ds =>
      ds = bs.map fun b => (b.message : Int) % e.messageModulus := by
  induction hcs with
  | nil => exact Yields.done rfl
  | cons head tail ih =>
      unfold decryptBlocks
      apply (decrypt_yields h head).bind
      intro n hn
      apply ih.bind
      intro ds hds
      subst hn hds
      exact Yields.done rfl

theorem decryptInteger_yields (h : e.Faithful margin) {x : RadixInteger LweBlock}
    {y : RadixInteger ClearBlock} (hx : RadixInteger.Each e.Decodes x y) :
    (e.decryptInteger x).Yields Session.Silent fun n => n = e.clear.decryptInteger y := by
  unfold decryptInteger
  apply (enter_yields h .decryptInteger).bind
  intro _ _
  apply (decryptBlocks_yields h hx).bind
  intro ds hds
  subst hds
  exact Yields.done rfl

theorem decryptTruth_yields (h : e.Faithful margin) {c : LweBlock} {b : ClearBlock}
    (hc : e.Decodes c b) :
    (e.decryptTruth c).Yields Session.Silent fun t => t = e.clear.decryptTruth b := by
  unfold decryptTruth
  apply (enter_yields h .decryptTruth).bind
  intro _ _
  apply (decrypt_yields h hc).bind
  intro n hn
  subst hn
  exact Yields.done rfl

/-- Blocks are decoded at two noises to a spacing. -/
theorem decodes_each (h : e.Faithful margin) (hmargin : 2 ≤ margin) {x : RadixInteger LweBlock}
    {y : RadixInteger ClearBlock} (hx : RadixInteger.Each (e.Encodes margin) x y) :
    RadixInteger.Each e.Decodes x y :=
  List.Forall₂.imp (fun _ _ hc => hc.decodes hmargin h.bits_le) hx

/-- Two noises to a spacing are margin enough for evaluations. -/
theorem Faithful.evaluates_clear (h : e.Faithful margin) (hmargin : 2 ≤ margin) :
    e.engine.Evaluates Session.Silent e.clear (e.Encodes margin) (e.EncodesAll margin) where
  messageModulus_eq := rfl
  totalModulus_eq := rfl
  encrypt := encrypt_refines h
  encryptAll := encryptAll_refines h
  keyswitch hc := keyswitch_refines h (hc.decodes hmargin h.bits_le)
  keyswitchAll hb := keyswitchAll_refines h (hb.opens hmargin h.bits_le)
  bootstrap hc := bootstrap_refines h (hc.decodes hmargin h.bits_le)
  bootstrapAll hb := bootstrapAll_refines h (hb.opens hmargin h.bits_le)
  evaluateTable hc := evaluateTable_refines h hmargin (hc.decodes hmargin h.bits_le)
  upload := upload_refines h
  download := download_refines h

/-- Six noises to a spacing are margin enough for every operation. -/
theorem Faithful.implements (h : e.Faithful margin) (hmargin : 6 ≤ margin)
    (hroom : 3 ≤ e.totalModulus) :
    e.engine.Implements Session.Silent e.clear (e.Encodes margin) (e.EncodesAll margin) := by
  have two : 2 ≤ margin := by omega
  exact {
    toEvaluates := h.evaluates_clear two
    publicZero := publicZero_refines h
    widen := widen_refines h
    add := add_refines h hmargin
    atLeast := fun hx => atLeast_refines h two hroom (decodes_each h two hx)
    decrypt := fun hc => (decrypt_yields h (hc.decodes two h.bits_le)).refines
    decryptInteger := fun hx => (decryptInteger_yields h (decodes_each h two hx)).refines
    decryptTruth := fun hc => (decryptTruth_yields h (hc.decodes two h.bits_le)).refines }

end SimulatedEngine

end SealedMatch
