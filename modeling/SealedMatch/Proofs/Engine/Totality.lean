/-
Module: SealedMatch.Proofs.Engine.Totality
Purpose: However large the noise, operations on well-formed ciphertexts end, and end as they do on
  other messages.
Trusted boundary: none
Main exports: SimulatedEngine.faithful_of_bits, SimulatedEngine.Hides.restate,
  SimulatedEngine.Encodes.restate, SimulatedEngine.Faithful.evaluates, SimulatedEngine.Formed,
  SimulatedEngine.add_formed, SimulatedEngine.atLeast_formed, SimulatedEngine.decryptInteger_formed
-/
import SealedMatch.Proofs.Engine.Refinement

namespace SealedMatch

open Process hiding bind bind_assoc

/-! ### Messages that do not matter

With no margin for noise, an encoding says nothing of its message: every ciphertext with a mask of
the size of its key encodes every message. What is left of a refinement is that an operation ends,
and with which key. -/

/-- Two outcomes in the clear that agree may stand in for each other. -/
theorem Process.Refines.agree {σ ε α β γ : Type} {G : σ → σ → Prop} {R : α → β → Prop}
    {S : β → γ → Prop} {T : α → γ → Prop} {p : Process σ ε α} {y : Except ε β} {z : Except ε γ}
    (h : Refines G R p y) (hyz : Agree S y z) (hT : ∀ a b c, R a b → S b c → T a c) :
    Refines G T p z := by
  refine Always.mono h (fun _ _ hG => hG) fun r hr => ?_
  cases hr with
  | ok related =>
      cases hyz with
      | ok related' => exact .ok (hT _ _ _ related related')
  | error e =>
      cases hyz with
      | error e => exact .error e

namespace ClearEngine

open SimulatedEngine (expectKey)

variable {k : ClearEngine}

/-- Blocks of one key, the second with a message of the message space. -/
structure Alike (k : ClearEngine) (b b' : ClearBlock) : Prop where
  key_eq : b.key = b'.key
  message_lt : b'.message < k.totalModulus

/-- Batches of one key and one length, the second with messages of the message space. -/
structure AlikeAll (k : ClearEngine) (p p' : ClearBatch) : Prop where
  key_eq : p.key = p'.key
  length_eq : p.messages.length = p'.messages.length
  messages_lt : ∀ m ∈ p'.messages, m < k.totalModulus

theorem keyswitch_alike {b b' : ClearBlock} (h : k.Alike b b') :
    Agree k.Alike (keyswitch b) (keyswitch b') := by
  unfold keyswitch
  rw [h.key_eq]
  exact (Agree.refl _).bind fun _ _ _ => .ok ⟨rfl, h.message_lt⟩

theorem keyswitchAll_alike {p p' : ClearBatch} (h : k.AlikeAll p p') :
    Agree k.AlikeAll (keyswitchAll p) (keyswitchAll p') := by
  unfold keyswitchAll
  rw [h.key_eq]
  exact (Agree.refl _).bind fun _ _ _ => .ok ⟨rfl, h.length_eq, h.messages_lt⟩

/-- Whether a lookup has an output is a matter of its table only. -/
theorem output_alike (hk : 0 < k.totalModulus) (lookup : DigitLookup) (m m' : Nat) :
    Agree (fun _ n' => n' < k.totalModulus) (k.output lookup m) (k.output lookup m') := by
  unfold output
  refine (Agree.refl _).bind fun table table' same => ?_
  subst same
  have pos : (0 : Int) < k.totalModulus := by omega
  have low := Int.emod_nonneg (table.getD m' 0) pos.ne'
  have high := Int.emod_lt_of_pos (table.getD m' 0) pos
  refine .ok ?_
  show (table.getD m' 0 % k.totalModulus).toNat < k.totalModulus
  omega

theorem bootstrap_alike (hk : 0 < k.totalModulus) {b b' : ClearBlock} (h : k.Alike b b')
    (lookup : DigitLookup) : Agree k.Alike (k.bootstrap b lookup) (k.bootstrap b' lookup) := by
  unfold bootstrap
  rw [h.key_eq]
  refine (output_alike hk lookup b.message b'.message).bind fun m m' hm => ?_
  exact (Agree.refl _).bind fun _ _ _ => .ok ⟨rfl, hm⟩

theorem outputs_alike (hk : 0 < k.totalModulus) {lookups : List DigitLookup} {ms ms' : List Nat}
    (h : ms.length = ms'.length) :
    Agree (fun ns ns' : List Nat => ns.length = ns'.length ∧ ∀ n' ∈ ns', n' < k.totalModulus)
      ((lookups.zip ms).mapM fun x => k.output x.1 x.2)
      ((lookups.zip ms').mapM fun x => k.output x.1 x.2) := by
  induction lookups generalizing ms ms' with
  | nil => exact .ok ⟨rfl, by simp⟩
  | cons lookup lookups ih =>
      cases ms with
      | nil =>
          cases ms' with
          | nil => exact .ok ⟨rfl, by simp⟩
          | cons m' ms' => simp at h
      | cons m ms =>
          cases ms' with
          | nil => simp at h
          | cons m' ms' =>
              rw [List.zip_cons_cons, List.zip_cons_cons, List.mapM_cons, List.mapM_cons]
              refine (output_alike hk lookup m m').bind fun n n' hn => ?_
              refine (ih (by simpa using h)).bind fun ns ns' hns => ?_
              refine .ok ⟨by simp [hns.1], fun x hx => ?_⟩
              rcases List.mem_cons.1 hx with rfl | hx
              · exact hn
              · exact hns.2 x hx

theorem bootstrapAll_alike (hk : 0 < k.totalModulus) {p p' : ClearBatch} (h : k.AlikeAll p p')
    (lookups : List DigitLookup) :
    Agree k.AlikeAll (k.bootstrapAll p lookups) (k.bootstrapAll p' lookups) := by
  unfold bootstrapAll
  rw [h.key_eq, h.length_eq]
  refine (Agree.refl _).bind fun _ _ _ => ?_
  split
  · exact .error _
  · refine (outputs_alike hk h.length_eq).bind fun ns ns' hns => ?_
    exact .ok ⟨rfl, hns.1, hns.2⟩

end ClearEngine

namespace SimulatedEngine

variable {e : SimulatedEngine} {margin : Nat}

/-- Any noise leaves room for nothing, which is enough to go on. -/
theorem faithful_of_bits {p : LweParameters} {tape : Tape}
    (he : ofTape p tape SimulatedEngine.unguarded = .ok e)
    (hbits : p.messageBits + p.carryBits ≤ 31) : e.Faithful 0 := by
  refine faithful_ofTape he hbits fun key position => ?_
  have dvd : 2 * p.totalModulus ∣ ciphertextModulus := by
    have same : p.totalModulus = 2 ^ (p.messageBits + p.carryBits) := (pow_add 2 _ _).symm
    rw [same, ← pow_succ']
    exact pow_dvd_pow 2 (by omega)
  have pos : 0 < spacing p.totalModulus :=
    Nat.div_pos (Nat.le_of_dvd (by decide) dvd) (Nat.pos_of_dvd_of_pos dvd (by decide))
  simpa using pos

/-- The same ciphertext hides any other number behind another noise. -/
theorem Hides.restate {c : LweBlock} {key : KeyLabel} {number : Nat} {noise : Int}
    (h : e.Hides c key number noise) (other : Nat) : ∃ noise', e.Hides c key other noise' := by
  obtain ⟨secret, hsecret, hsize, hbody⟩ := h.body_eq
  refine ⟨noise + ((number : Int) - other) * spacing e.totalModulus, h.key_eq,
    ⟨secret, hsecret, hsize, ?_⟩, h.large_of_trivial⟩
  rw [hbody]
  unfold sealBody
  congr 1
  ring

/-- A ciphertext with a mask of the size of its key can be decoded to something. -/
theorem Hides.exists_decodes {c : LweBlock} {key : KeyLabel} {number : Nat} {noise : Int}
    (h : e.Hides c key number noise) : ∃ m, e.Decodes c ⟨key, m⟩ := by
  obtain ⟨secret, hsecret, hsize, _⟩ := h.body_eq
  refine ⟨e.decodeBody c.body (maskProduct c.mask secret), h.key_eq, ?_, h.large_of_trivial⟩
  unfold SimulatedEngine.decode secretFor SimulatedEngine.secret
  rw [h.key_eq, hsecret, h.isWord_body]
  simp [bind, Except.bind, hsize, pure, Except.pure]

theorem Encodes.exists_decodes {c : LweBlock} {b : ClearBlock} (h : e.Encodes margin c b) :
    ∃ m, e.Decodes c ⟨b.key, m⟩ := by
  obtain ⟨_, _, hides⟩ := h.hidden
  exact hides.exists_decodes

/-- Without a margin, a ciphertext encodes every message under its key. -/
theorem Hides.encodes (h : e.Faithful 0) {c : LweBlock} {key : KeyLabel} {number : Nat}
    {noise : Int} (hides : e.Hides c key number noise) {n : Nat} (hn : n < e.totalModulus) :
    e.Encodes 0 c ⟨key, n⟩ := by
  obtain ⟨noise', hides'⟩ := hides.restate n
  have room := h.noise_lt .large 0
  refine ⟨hn, noise', ?_, hides'⟩
  simpa using room

theorem Encodes.restate (h : e.Faithful 0) {c : LweBlock} {b b' : ClearBlock}
    (hc : e.Encodes 0 c b) (alike : e.clear.Alike b b') : e.Encodes 0 c b' := by
  obtain ⟨_, _, hides⟩ := hc.hidden
  rw [alike.key_eq] at hides
  exact hides.encodes h alike.message_lt

theorem EncodesAll.restate (h : e.Faithful 0) {b : LweBatch} {p p' : ClearBatch}
    (hb : e.EncodesAll 0 b p) (alike : e.clear.AlikeAll p p') : e.EncodesAll 0 b p' := by
  obtain ⟨key, messages⟩ := p
  obtain ⟨key', messages'⟩ := p'
  obtain ⟨rfl, length, small⟩ := alike
  refine ⟨hb.key_eq, hb.secret_size, hb.length_eq, ?_⟩
  obtain ⟨count, each⟩ := List.forall₂_iff_get.1 hb.rows
  refine List.forall₂_iff_get.2 ⟨count.trans length, fun i hi hi' => ?_⟩
  exact (each i hi (by omega)).restate h ⟨rfl, small _ (List.get_mem _ _)⟩

/-- A batch of well-formed rows can be opened to something. -/
theorem EncodesAll.exists_opens {b : LweBatch} {p : ClearBatch} (h : e.EncodesAll margin b p) :
    ∃ ms, e.Opens b ⟨p.key, ms⟩ ∧ ms.length = p.messages.length := by
  obtain ⟨secret, hsecret, hsize⟩ := h.secret_size
  have opened := decodeAll_eq hsecret hsize h.length_eq
  generalize hms : ((b.masks.zip b.bodies).map fun row =>
    e.decodeBody row.2 (maskProduct row.1 secret)) = ms at opened
  have length : ms.length = p.messages.length := by
    rw [← hms, List.length_map, h.rows.length_eq]
  refine ⟨ms, ⟨h.key_eq, h.length_bodies.trans length.symm, opened, ?_⟩, length⟩
  intro m hm
  rw [← hms] at hm
  obtain ⟨row, _, rfl⟩ := List.mem_map.1 hm
  exact Nat.mod_lt _ e.totalModulus_pos

/-! ### Evaluation -/

theorem keyswitch_blind (h : e.Faithful 0) {c : LweBlock} {b : ClearBlock}
    (hc : e.Encodes 0 c b) :
    Refines Session.Silent (e.Encodes 0) (e.keyswitch c) (ClearEngine.keyswitch b) := by
  obtain ⟨m, hm⟩ := hc.exists_decodes
  have alike : e.clear.Alike ⟨b.key, m⟩ b := ⟨rfl, hc.message_lt⟩
  exact (keyswitch_refines h hm).agree (ClearEngine.keyswitch_alike alike)
    fun _ _ _ hc' => hc'.restate h

theorem keyswitchAll_blind (h : e.Faithful 0) {b : LweBatch} {p : ClearBatch}
    (hb : e.EncodesAll 0 b p) :
    Refines Session.Silent (e.EncodesAll 0) (e.keyswitchAll b) (ClearEngine.keyswitchAll p) := by
  obtain ⟨ms, hms, length⟩ := hb.exists_opens
  have alike : e.clear.AlikeAll ⟨p.key, ms⟩ p := ⟨rfl, length, hb.messages_lt⟩
  exact (keyswitchAll_refines h hms).agree (ClearEngine.keyswitchAll_alike alike)
    fun _ _ _ hb' => hb'.restate h

theorem bootstrap_blind (h : e.Faithful 0) {c : LweBlock} {b : ClearBlock}
    (hc : e.Encodes 0 c b) (lookup : DigitLookup) :
    Refines Session.Silent (e.Encodes 0) (e.bootstrap c lookup) (e.clear.bootstrap b lookup) := by
  obtain ⟨m, hm⟩ := hc.exists_decodes
  have alike : e.clear.Alike ⟨b.key, m⟩ b := ⟨rfl, hc.message_lt⟩
  exact (bootstrap_refines h hm lookup).agree
    (ClearEngine.bootstrap_alike e.totalModulus_pos alike lookup) fun _ _ _ hc' => hc'.restate h

theorem bootstrapAll_blind (h : e.Faithful 0) {b : LweBatch} {p : ClearBatch}
    (hb : e.EncodesAll 0 b p) (lookups : List DigitLookup) :
    Refines Session.Silent (e.EncodesAll 0) (e.bootstrapAll b lookups)
      (e.clear.bootstrapAll p lookups) := by
  obtain ⟨ms, hms, length⟩ := hb.exists_opens
  have alike : e.clear.AlikeAll ⟨p.key, ms⟩ p := ⟨rfl, length, hb.messages_lt⟩
  exact (bootstrapAll_refines h hms lookups).agree
    (ClearEngine.bootstrapAll_alike e.totalModulus_pos alike lookups)
    fun _ _ _ hb' => hb'.restate h

theorem evaluateTable_blind (h : e.Faithful 0) {c : LweBlock} {b : ClearBlock}
    (hc : e.Encodes 0 c b) (lookup : DigitLookup) :
    Refines Session.Silent (e.Encodes 0) (e.evaluateTable c lookup)
      (e.clear.evaluateTable b lookup) := by
  unfold evaluateTable ClearEngine.evaluateTable
  apply Yields.bind_refines (enterWith_yields h .evaluateTable lookup)
  intro _ _
  apply Refines.bind (keyswitch_blind h hc)
  intro switched b' hswitched
  exact bootstrap_blind h hswitched lookup

/-- However large the noise, the operations of an evaluation end as on any other messages. -/
theorem Faithful.evaluates (h : e.Faithful 0) :
    e.engine.Evaluates Session.Silent e.clear (e.Encodes 0) (e.EncodesAll 0) where
  messageModulus_eq := rfl
  totalModulus_eq := rfl
  encrypt := encrypt_refines h
  encryptAll := encryptAll_refines h
  keyswitch := keyswitch_blind h
  keyswitchAll := keyswitchAll_blind h
  bootstrap := bootstrap_blind h
  bootstrapAll := bootstrapAll_blind h
  evaluateTable := evaluateTable_blind h
  upload := upload_refines h
  download := download_refines h

/-! ### Integers

Sums may hide numbers beyond the message space, so nothing is said of numbers here. -/

/-- A ciphertext under the large key, with a mask of the size of the key. -/
def Formed (e : SimulatedEngine) (c : LweBlock) : Prop :=
  ∃ number noise, e.Hides c .large number noise

/-- So many well-formed blocks. -/
structure FormedInteger (e : SimulatedEngine) (width : Nat) (x : RadixInteger LweBlock) :
    Prop where
  width_eq : x.width = width
  formed : ∀ c ∈ x.blocks, e.Formed c

theorem Encodes.formed {c : LweBlock} {m : Nat} (h : e.Encodes margin c ⟨.large, m⟩) :
    e.Formed c := by
  obtain ⟨noise, _, hides⟩ := h.hidden
  exact ⟨m, noise, hides⟩

theorem Intact.formed_publicBlock (h : e.Intact) {message : Int} (hm : 0 ≤ message) :
    e.Formed (e.publicBlock message) := by
  obtain ⟨number, rfl⟩ := Int.eq_ofNat_of_zero_le hm
  exact ⟨number, 0, hides_publicBlock h.large_size number⟩

theorem publicZero_formed (h : e.Intact) (width : Int) :
    (e.publicZero width).Yields Session.Silent (e.FormedInteger width.toNat) := by
  unfold publicZero
  apply (h.enters .publicZero).bind
  intro _ _
  refine Yields.done ⟨by simp [RadixInteger.width, publicZeros], fun c hc => ?_⟩
  rw [List.eq_of_mem_replicate hc]
  exact h.formed_publicBlock le_rfl

theorem widen_formed (h : e.Intact) {width wide : Nat} {x : RadixInteger LweBlock}
    (hx : e.FormedInteger width x) (hle : width ≤ wide) :
    (e.widen x wide).Yields Session.Silent (e.FormedInteger wide) := by
  have count := hx.width_eq
  unfold widen
  apply (h.enters .widen).bind
  intro _ _
  rw [if_neg (by omega)]
  refine Yields.done ⟨?_, fun c hc => ?_⟩
  · unfold RadixInteger.width publicZeros at *
    simp only [List.length_append, List.length_replicate]
    omega
  · rcases List.mem_append.1 hc with hc | hc
    · exact hx.formed c hc
    · rw [List.eq_of_mem_replicate hc]
      exact h.formed_publicBlock le_rfl

/-- A ciphertext under the small key, with a mask of the size of the key. -/
def FormedSmall (e : SimulatedEngine) (c : LweBlock) : Prop :=
  ∃ number noise, e.Hides c .small number noise

theorem keyswitch_formed (h : e.Intact) {c : LweBlock} (hc : e.Formed c) :
    (e.keyswitch c).Yields Session.Silent e.FormedSmall := by
  obtain ⟨_, _, hides⟩ := hc
  obtain ⟨m, hm⟩ := hides.exists_decodes
  have key : expectKey c.key .large .keyswitch = .ok () := if_pos hm.key_eq
  unfold keyswitch
  apply (h.enters .keyswitch).bind
  intro _ _
  apply (Yields.ofExcept key rfl).bind
  intro _ _
  apply (count_yields .keyswitch 1).bind
  intro _ _
  apply (Yields.ofExcept hm.decode_eq rfl).bind
  intro m' _
  apply (encryptRow_hides (find?_small e) rfl).mono
  rintro c ⟨place, hides⟩
  exact ⟨_, _, hides⟩

theorem bootstrapWith_formed {c : LweBlock} (hc : e.FormedSmall c) (table : Nat → Int) :
    (e.bootstrapWith c table).Yields Session.Silent e.Formed := by
  obtain ⟨_, _, hides⟩ := hc
  obtain ⟨m, hm⟩ := hides.exists_decodes
  have key : expectKey c.key .small .bootstrap = .ok () := if_pos hm.key_eq
  unfold bootstrapWith
  apply (Yields.ofExcept key rfl).bind
  intro _ _
  apply (count_yields .bootstrap 1).bind
  intro _ _
  apply (Yields.ofExcept hm.decode_eq rfl).bind
  intro m' _
  have low := (e.emod_totalModulus (table m')).1
  apply (encryptRow_hides (find?_large e) (Int.toNat_of_nonneg low).symm).mono
  rintro c ⟨place, hides⟩
  exact ⟨_, _, hides⟩

/-- A function without negative values may be applied to any well-formed block. -/
theorem applyTable_formed (h : e.Intact) {c : LweBlock} (hc : e.Formed c)
    {table : Nat → Int} (htable : ∀ m, 0 ≤ table m) :
    (e.applyTable c table).Yields Session.Silent e.Formed := by
  unfold applyTable
  split
  · obtain ⟨_, _, hides⟩ := hc
    obtain ⟨m, hm⟩ := hides.exists_decodes
    apply (Yields.ofExcept hm.decode_eq rfl).bind
    intro m' hm'
    exact Yields.done (h.formed_publicBlock (htable m'))
  · apply (keyswitch_formed h hc).bind
    intro switched hswitched
    exact bootstrapWith_formed hswitched table

theorem applyTables_formed (h : e.Intact) {a b : LweBlock} (ha : e.Formed a)
    (hb : e.Formed b) (f : Nat → Nat → Nat) :
    (e.applyTables a b f).Yields Session.Silent e.Formed := by
  obtain ⟨_, _, hidesA⟩ := ha
  obtain ⟨_, _, hidesB⟩ := hb
  obtain ⟨m, hm⟩ := hidesA.exists_decodes
  obtain ⟨n, hn⟩ := hidesB.exists_decodes
  unfold applyTables
  apply (Yields.ofExcept hm.decode_eq rfl).bind
  intro x _
  apply (Yields.ofExcept hn.decode_eq rfl).bind
  intro y _
  split
  · exact Yields.done (h.formed_publicBlock (Int.natCast_nonneg _))
  · apply (count_yields .keyswitch 1).bind
    intro _ _
    apply (count_yields .bootstrap 1).bind
    intro _ _
    apply (encryptRow_hides (find?_large e) rfl).mono
    rintro c ⟨place, hides⟩
    exact ⟨_, _, hides⟩

theorem addWithCarry_formed {a b : LweBlock} (ha : e.Formed a) (hb : e.Formed b)
    {carry? : Option LweBlock} (hcarry : ∀ c ∈ carry?, e.Formed c) :
    ∃ c, addWithCarry a b carry? = .ok c ∧ e.Formed c := by
  obtain ⟨_, _, hidesA⟩ := ha
  obtain ⟨_, _, hidesB⟩ := hb
  obtain ⟨c, hc, hidesC⟩ := hidesA.add hidesB
  unfold addWithCarry
  rw [hc, ok_bind]
  cases carry? with
  | none => exact ⟨c, rfl, _, _, hidesC⟩
  | some carry =>
      obtain ⟨_, _, hidesZ⟩ := hcarry carry rfl
      obtain ⟨d, hd, hidesD⟩ := hidesC.add hidesZ
      exact ⟨d, hd, _, _, hidesD⟩

theorem addPairs_formed (h : e.Intact) {pairs : List (LweBlock × LweBlock)}
    (hpairs : ∀ x ∈ pairs, e.Formed x.1 ∧ e.Formed x.2) {carry? : Option LweBlock}
    (hcarry : ∀ c ∈ carry?, e.Formed c) :
    (e.addPairs carry? pairs).Yields Session.Silent fun cs =>
      cs.length = pairs.length ∧ ∀ c ∈ cs, e.Formed c := by
  induction pairs generalizing carry? with
  | nil => exact Yields.done ⟨rfl, by simp⟩
  | cons x rest ih =>
      obtain ⟨a, b⟩ := x
      obtain ⟨ha, hb⟩ := hpairs (a, b) (by simp)
      obtain ⟨sum, hsum, hformed⟩ := addWithCarry_formed ha hb hcarry
      unfold addPairs
      apply (Yields.ofExcept hsum rfl).bind
      intro sum' same
      subst same
      apply (applyTable_formed h hformed fun m => Int.natCast_nonneg _).bind
      intro digit hdigit
      apply (applyTable_formed h hformed fun m => Int.natCast_nonneg _).bind
      intro carry hcarry'
      have next : ∀ c ∈ some carry, e.Formed c := by
        rintro c ⟨⟩
        exact hcarry'
      apply (ih (fun x hx => hpairs x (List.mem_cons_of_mem _ hx)) next).bind
      rintro digits ⟨count, hdigits⟩
      refine Yields.done ⟨by simp [count], fun c hc => ?_⟩
      rcases List.mem_cons.1 hc with rfl | hc
      · exact hdigit
      · exact hdigits c hc

theorem add_formed (h : e.Intact) {width : Nat} {x y : RadixInteger LweBlock}
    (hx : e.FormedInteger width x) (hy : e.FormedInteger width y) :
    (e.add x y).Yields Session.Silent (e.FormedInteger width) := by
  have hpairs : ∀ z ∈ x.blocks.zip y.blocks, e.Formed z.1 ∧ e.Formed z.2 := fun z hz =>
    ⟨hx.formed _ (List.of_mem_zip hz).1, hy.formed _ (List.of_mem_zip hz).2⟩
  have same : x.width = y.width := hx.width_eq.trans hy.width_eq.symm
  unfold add
  apply (h.enters .add).bind
  intro _ _
  rw [if_neg (not_not.2 same)]
  apply (addPairs_formed h hpairs (by simp)).bind
  rintro blocks ⟨count, hblocks⟩
  refine Yields.done ⟨?_, hblocks⟩
  have wx := hx.width_eq
  have wy := hy.width_eq
  unfold RadixInteger.width at *
  rw [count, List.length_zip]
  omega

/-- A comparison of some digits finds something. -/
theorem comparePairs_formed (h : e.Intact) {pairs : List (LweBlock × Int)}
    (hpairs : ∀ x ∈ pairs, e.Formed x.1) {found? : Option LweBlock}
    (hfound : ∀ c ∈ found?, e.Formed c) (hsome : pairs ≠ [] ∨ found? ≠ none) :
    (e.comparePairs found? pairs).Yields Session.Silent fun found? =>
      ∃ c, found? = some c ∧ e.Formed c := by
  induction pairs generalizing found? with
  | nil =>
      cases found? with
      | none => simp at hsome
      | some c => exact Yields.done ⟨c, rfl, hfound c rfl⟩
  | cons x rest ih =>
      obtain ⟨block, digit⟩ := x
      have there : ∀ x ∈ rest, e.Formed x.1 := fun x hx => hpairs x (List.mem_cons_of_mem _ hx)
      have go : ∀ c, e.Formed c → (e.comparePairs (some c) rest).Yields Session.Silent fun found? =>
          ∃ c, found? = some c ∧ e.Formed c := by
        intro c hc
        refine ih there ?_ (Or.inr (by simp))
        rintro c' ⟨⟩
        exact hc
      unfold comparePairs
      apply (applyTable_formed h (hpairs (block, digit) (by simp))
        fun m => Int.natCast_nonneg _).bind
      intro here hhere
      cases found? with
      | none => exact go here hhere
      | some below =>
          apply (applyTables_formed h hhere (hfound below rfl) dominant).bind
          exact go

theorem atLeast_formed (h : e.Intact) {width : Nat} {x : RadixInteger LweBlock}
    (hx : e.FormedInteger width x) (scalar : Int) :
    (e.atLeast x scalar).Yields Session.Silent e.Formed := by
  unfold atLeast
  apply (h.enters .atLeast).bind
  intro _ _
  split
  · exact Yields.done (h.formed_publicBlock (by decide))
  · split
    · exact Yields.done (h.formed_publicBlock le_rfl)
    · rename_i positive below
      -- A positive number below the capacity has a digit, so there is a first comparison.
      have some : x.blocks.zip (digits e.messageModulus x.width scalar) ≠ [] := by
        intro hnil
        have none : x.width = 0 := by
          have count := congrArg List.length hnil
          rw [List.length_zip, length_digits] at count
          unfold RadixInteger.width at *
          simpa using count
        rw [none, pow_zero] at below
        omega
      apply (comparePairs_formed h (fun z hz => hx.formed _ (List.of_mem_zip hz).1) (by simp)
        (Or.inl some)).bind
      rintro _ ⟨found, rfl, hfound⟩
      refine applyTable_formed h hfound fun m => ?_
      split <;> decide

theorem decrypt_formed (h : e.Intact) {c : LweBlock} (hc : e.Formed c) :
    (e.decrypt c).Yields Session.Silent fun _ => True := by
  obtain ⟨_, _, hides⟩ := hc
  obtain ⟨m, hm⟩ := hides.exists_decodes
  unfold decrypt
  apply (h.enters .decrypt).bind
  intro _ _
  apply (Yields.ofExcept hm.decode_eq rfl).bind
  intro _ _
  exact Yields.done trivial

theorem decryptBlocks_formed (h : e.Intact) {cs : List LweBlock}
    (hcs : ∀ c ∈ cs, e.Formed c) :
    (e.decryptBlocks cs).Yields Session.Silent fun _ => True := by
  induction cs with
  | nil => exact Yields.done trivial
  | cons c rest ih =>
      unfold decryptBlocks
      apply (decrypt_formed h (hcs c (by simp))).bind
      intro _ _
      apply (ih fun c hc => hcs c (List.mem_cons_of_mem _ hc)).bind
      intro _ _
      exact Yields.done trivial

theorem decryptInteger_formed (h : e.Intact) {width : Nat} {x : RadixInteger LweBlock}
    (hx : e.FormedInteger width x) :
    (e.decryptInteger x).Yields Session.Silent fun _ => True := by
  unfold decryptInteger
  apply (h.enters .decryptInteger).bind
  intro _ _
  apply (decryptBlocks_formed h hx.formed).bind
  intro _ _
  exact Yields.done trivial

end SimulatedEngine

end SealedMatch
