/-
Module: SealedMatch.Proofs.Engine.Encoding
Purpose: Which ciphertexts encode which messages, and that encrypting makes such ciphertexts.
Trusted boundary: none
Main exports: SimulatedEngine.Decodes, SimulatedEngine.Encodes, SimulatedEngine.EncodesAll,
  SimulatedEngine.Opens, SimulatedEngine.encryptRow_hides, SimulatedEngine.encryptRow_yields,
  SimulatedEngine.encryptBatch_yields
-/
import Mathlib.Data.List.Forall2
import Mathlib.Data.List.Zip
import SealedMatch.Proofs.Engine.Clear
import SealedMatch.Proofs.Engine.Decoding
import SealedMatch.Proofs.Process.Always

namespace SealedMatch

/-- Nothing is logged between two states. -/
def Session.Silent (s s' : Session) : Prop := s'.events = s.events

namespace SimulatedEngine

open Process hiding bind

variable {e : SimulatedEngine} {margin : Nat}

/-! ### Ciphertexts and their blocks -/

/-- A ciphertext decodes under its key to a block in the clear. -/
structure Decodes (e : SimulatedEngine) (c : LweBlock) (b : ClearBlock) : Prop where
  key_eq : c.key = b.key
  decode_eq : e.decode c = .ok b.message
  large_of_trivial : c.trivial = true → b.key = .large

/-- A ciphertext hides the message of a block behind a noise of which `margin` stay below one
spacing. All that the engine makes is of this kind: sums are bootstrapped at once. -/
structure Encodes (e : SimulatedEngine) (margin : Nat) (c : LweBlock) (b : ClearBlock) : Prop where
  message_lt : b.message < e.totalModulus
  hidden : ∃ noise : Int, (margin : Int) * |noise| < spacing e.totalModulus ∧
    e.Hides c b.key b.message noise

/-- A batch holds an encoding of every message, with masks of the size of its key. -/
structure EncodesAll (e : SimulatedEngine) (margin : Nat) (b : LweBatch) (p : ClearBatch) :
    Prop where
  key_eq : b.key = p.key
  secret_size : ∃ secret, e.keys.find? p.key = some secret ∧ b.maskSize = secret.size
  length_eq : b.masks.length = b.bodies.length
  rows : List.Forall₂ (fun row m => e.Encodes margin ⟨row.1, row.2, p.key, false⟩ ⟨p.key, m⟩)
    (b.masks.zip b.bodies) p.messages

/-- A batch opens under its key to messages in the clear, one for every body. -/
structure Opens (e : SimulatedEngine) (b : LweBatch) (p : ClearBatch) : Prop where
  key_eq : b.key = p.key
  length_eq : b.length = p.messages.length
  decode_eq : e.decodeAll b p.key = .ok p.messages
  messages_lt : ∀ m ∈ p.messages, m < e.totalModulus

/-- One noise of a margin of two or more leaves decoding exact. -/
theorem twice_lt_of_margin {noise : Int} {total : Nat} (hmargin : 2 ≤ margin)
    (h : (margin : Int) * |noise| < spacing total) : 2 * |noise| < spacing total := by
  have : (2 : Int) * |noise| ≤ margin * |noise| :=
    mul_le_mul_of_nonneg_right (by exact_mod_cast hmargin) (abs_nonneg noise)
  omega

theorem Encodes.decodes {c : LweBlock} {b : ClearBlock} (h : e.Encodes margin c b)
    (hmargin : 2 ≤ margin) (hbits : e.parameters.messageBits + e.parameters.carryBits ≤ 31) :
    e.Decodes c b := by
  obtain ⟨noise, hnoise, hides⟩ := h.hidden
  refine ⟨hides.key_eq, ?_, hides.large_of_trivial⟩
  rw [hides.decode hbits (twice_lt_of_margin hmargin hnoise), Nat.mod_eq_of_lt h.message_lt]

theorem Decodes.message_lt {c : LweBlock} {b : ClearBlock} (h : e.Decodes c b) :
    b.message < e.totalModulus := by
  have decoded := h.decode_eq
  unfold SimulatedEngine.decode at decoded
  split at decoded
  · cases decoded
  · simp only [bind, Except.bind] at decoded
    split at decoded
    · cases decoded
    · simp only [pure, Except.pure, Except.ok.injEq] at decoded
      rw [← decoded]
      exact Nat.mod_lt _ e.totalModulus_pos

theorem EncodesAll.length_bodies {b : LweBatch} {p : ClearBatch} (h : e.EncodesAll margin b p) :
    b.length = p.messages.length := by
  rw [← h.rows.length_eq, List.length_zip, h.length_eq, Nat.min_self]
  rfl

theorem EncodesAll.messages_lt {b : LweBatch} {p : ClearBatch} (h : e.EncodesAll margin b p) :
    ∀ m ∈ p.messages, m < e.totalModulus   :=
  forall₂_right h.rows fun _ _ hrow => hrow.message_lt

/-- Masks of the size of the key go with their bodies one by one. -/
theorem decodeAll_eq {b : LweBatch} {key : KeyLabel} {secret : WordRow}
    (hsecret : e.keys.find? key = some secret) (hsize : b.maskSize = secret.size)
    (hlength : b.masks.length = b.bodies.length) :
    e.decodeAll b key = .ok ((b.masks.zip b.bodies).map fun row =>
      e.decodeBody row.2 (maskProduct row.1 secret)) := by
  have swapped : (b.bodies.zip (b.masks.map fun mask => maskProduct mask secret)).map
      (fun row => e.decodeBody row.1 row.2) =
        (b.masks.zip b.bodies).map fun row => e.decodeBody row.2 (maskProduct row.1 secret) := by
    rw [List.zip_map_right, List.map_map, ← List.zip_swap, List.map_map]
    rfl
  have stretched := stretch_of_length_eq
    (show b.bodies.length = (b.masks.map fun mask => maskProduct mask secret).length by
      rw [List.length_map, hlength])
  unfold SimulatedEngine.decodeAll secretFor SimulatedEngine.secret
  rw [hsecret]
  simp [bind, Except.bind, pure, Except.pure, hsize, stretched, Except.mapError, swapped]

/-- Row by row, a batch decodes to its messages. -/
theorem EncodesAll.decodeAll {b : LweBatch} {p : ClearBatch} (h : e.EncodesAll margin b p)
    (hmargin : 2 ≤ margin) (hbits : e.parameters.messageBits + e.parameters.carryBits ≤ 31) :
    e.decodeAll b p.key = .ok p.messages := by
  obtain ⟨secret, hsecret, hsize⟩ := h.secret_size
  have same : (b.masks.zip b.bodies).map
      (fun row => e.decodeBody row.2 (maskProduct row.1 secret)) = p.messages := by
    rw [← List.forall₂_eq_eq_eq, List.forall₂_map_left_iff]
    apply h.rows.imp
    intro row m hrow
    obtain ⟨noise, hnoise, hides⟩ := hrow.hidden
    rw [hides.decodeBody hbits (twice_lt_of_margin hmargin hnoise) hsecret,
      Nat.mod_eq_of_lt hrow.message_lt]
  rw [decodeAll_eq hsecret hsize h.length_eq, same]

theorem EncodesAll.opens {b : LweBatch} {p : ClearBatch} (h : e.EncodesAll margin b p)
    (hmargin : 2 ≤ margin) (hbits : e.parameters.messageBits + e.parameters.carryBits ≤ 31) :
    e.Opens b p :=
  ⟨h.key_eq, h.length_bodies, h.decodeAll hmargin hbits, h.messages_lt⟩

theorem encodes_publicBlock (h : e.Faithful margin) {number : Nat}
    (hnumber : number < e.totalModulus) :
    e.Encodes margin (e.publicBlock number) ⟨.large, number⟩ := by
  refine ⟨hnumber, 0, ?_, hides_publicBlock h.large_size number⟩
  have := h.noise_lt .large 0
  have nonneg := mul_nonneg (Int.natCast_nonneg margin) (abs_nonneg (e.tape.noise .large 0))
  simp only [abs_zero, mul_zero]
  omega

/-! ### Fresh encryptions -/

theorem Intact.enters (h : e.Intact) (operation : EngineOperation) :
    (e.enter operation).Yields Session.Silent fun _ => True := by
  unfold enter
  rw [h.unguarded]
  exact Yields.done trivial

theorem enter_yields (h : e.Faithful margin) (operation : EngineOperation) :
    (e.enter operation).Yields Session.Silent fun _ => True :=
  h.intact.enters operation

theorem enterWith_yields (h : e.Faithful margin) (operation : EngineOperation)
    (lookup : DigitLookup) :
    (e.enterWith operation lookup).Yields Session.Silent fun _ => True := by
  unfold enterWith
  rw [h.unguarded]
  exact Yields.done trivial

theorem count_yields (op : CountedOperation) (n : Nat) :
    (count op n).Yields Session.Silent fun _ => True :=
  Yields.act (fun _ => rfl) trivial

theorem secret_eq_ok {key : KeyLabel} {secret : WordRow} (h : e.keys.find? key = some secret) :
    e.secret key = .ok secret := by
  unfold SimulatedEngine.secret
  rw [h]

theorem forall₂_mapIdx {α β : Type} {R : α → β → Prop} {xs : List β} {f : Nat → β → α}
    (h : ∀ i x, x ∈ xs → R (f i x) x) : List.Forall₂ R (xs.mapIdx f) xs := by
  induction xs generalizing f with
  | nil => exact .nil
  | cons x xs ih =>
      rw [List.mapIdx_cons]
      refine .cons (h 0 x (by simp)) ?_
      exact ih fun i y hy => h (i + 1) y (List.mem_cons_of_mem x hy)

/-- The rows of a draw hide their messages behind noises of the tape, wherever they are drawn. -/
theorem sealRows_hides {key : KeyLabel} {secret : WordRow}
    (hsecret : e.keys.find? key = some secret) {messages : List Int}
    (hmessages : ∀ m ∈ messages, 0 ≤ m) (position : Nat) :
    List.Forall₂ (fun row m => ∃ place, e.Hides ⟨row.1, row.2, key, false⟩ key m.toNat
      (e.tape.noise key place)) (e.sealRows key secret messages position) messages := by
  apply forall₂_mapIdx
  intro i m hm
  refine ⟨position + messages.length * secret.size + i, rfl, ⟨secret, hsecret, ?_, ?_⟩,
    fun marked => nomatch marked⟩
  · simp [maskAt, WordRow.size, WordRow.ofResidues]
  · show sealBody e.totalModulus _ secret m _ = sealBody e.totalModulus _ secret m.toNat _
    rw [Int.toNat_of_nonneg (hmessages m hm)]

theorem encryptRows_hides {key : KeyLabel} {secret : WordRow}
    (hsecret : e.keys.find? key = some secret) {messages : List Int}
    (hmessages : ∀ m ∈ messages, 0 ≤ m) :
    (e.encryptRows messages key).Yields Session.Silent fun rows =>
      List.Forall₂ (fun row m => ∃ place, e.Hides ⟨row.1, row.2, key, false⟩ key m.toNat
        (e.tape.noise key place)) rows messages := by
  unfold encryptRows
  apply (Yields.ofExcept (secret_eq_ok hsecret) rfl).bind
  intro s hs
  subst hs
  exact Yields.fetch (fun _ => rfl) fun s => sealRows_hides hsecret hmessages s.position

/-- A single message, which may lie beyond the message space. -/
theorem encryptRow_hides {key : KeyLabel} {secret : WordRow}
    (hsecret : e.keys.find? key = some secret) {message : Int} {n : Nat} (hn : message = n) :
    (e.encryptRow message key).Yields Session.Silent fun c =>
      ∃ place, e.Hides c key n (e.tape.noise key place) := by
  subst hn
  unfold encryptRow
  apply (encryptRows_hides hsecret (show ∀ m ∈ [(n : Int)], 0 ≤ m by simp)).bind
  intro rows hrows
  cases hrows with
  | cons head tail => exact Yields.done head

/-- What hides a message behind a noise of the tape encodes it. -/
theorem Faithful.encodes (h : e.Faithful margin) {c : LweBlock} {key : KeyLabel} {n : Nat}
    (hlt : n < e.totalModulus) (hhides : ∃ place, e.Hides c key n (e.tape.noise key place)) :
    e.Encodes margin c ⟨key, n⟩ := by
  obtain ⟨place, hides⟩ := hhides
  exact ⟨hlt, _, h.noise_lt key place, hides⟩

theorem encryptRows_yields (h : e.Faithful margin) {key : KeyLabel} {secret : WordRow}
    (hsecret : e.keys.find? key = some secret) {messages : List Int}
    (hmessages : ∀ m ∈ messages, 0 ≤ m ∧ m < e.totalModulus) :
    (e.encryptRows messages key).Yields Session.Silent fun rows =>
      List.Forall₂ (fun row m => e.Encodes margin ⟨row.1, row.2, key, false⟩ ⟨key, m.toNat⟩)
        rows messages := by
  apply (encryptRows_hides hsecret fun m hm => (hmessages m hm).1).mono
  intro rows hrows
  refine (forall₂_and_right hrows hmessages).imp ?_
  rintro row m ⟨hhides, low, high⟩
  exact h.encodes (by omega) hhides

theorem encryptRow_yields (h : e.Faithful margin) {key : KeyLabel} {secret : WordRow}
    (hsecret : e.keys.find? key = some secret) {message : Int} {n : Nat} (hn : message = n)
    (hlt : n < e.totalModulus) :
    (e.encryptRow message key).Yields Session.Silent fun c => e.Encodes margin c ⟨key, n⟩ :=
  (encryptRow_hides hsecret hn).mono fun _ hhides => h.encodes hlt hhides

theorem encryptBatch_yields (h : e.Faithful margin) {key : KeyLabel} {secret : WordRow}
    (hsecret : e.keys.find? key = some secret) {messages : List Int}
    (hmessages : ∀ m ∈ messages, 0 ≤ m ∧ m < e.totalModulus) (place : Place) :
    (e.encryptBatch messages key place).Yields Session.Silent fun b =>
      e.EncodesAll margin b ⟨key, messages.map Int.toNat⟩ := by
  unfold encryptBatch
  apply (Yields.ofExcept (secret_eq_ok hsecret) rfl).bind
  intro s hs
  subst hs
  apply (encryptRows_yields h hsecret hmessages).bind
  intro rows hrows
  refine Yields.done ⟨rfl, ⟨secret, hsecret, rfl⟩, by simp [LweBatch.ofRows], ?_⟩
  have unzipped : (rows.map Prod.fst).zip (rows.map Prod.snd) = rows := by
    rw [← List.unzip_fst, ← List.unzip_snd, List.zip_unzip]
  simp only [LweBatch.ofRows, unzipped]
  rw [List.forall₂_map_right_iff]
  exact hrows

end SimulatedEngine

end SealedMatch
