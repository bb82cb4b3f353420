/-
Module: SealedMatch.Proofs.Engine.Made
Purpose: Which ciphertexts an engine makes, and what its operations have done when they fail on
  them.
Trusted boundary: none
Main exports: Process.Fails, Process.Wastes, Process.Works, SimulatedEngine.Made,
  SimulatedEngine.MadeAll, SimulatedEngine.MadeInteger, SimulatedEngine.bootstrapAll_upfront,
  SimulatedEngine.bootstrapAll_wastes
-/
import SealedMatch.Proofs.Engine.Charges
import SealedMatch.Proofs.Engine.Totality

namespace SealedMatch

open Process hiding bind bind_assoc

/-! ### Bills that are not empty -/

/-- Nothing is added to something. -/
theorem Bill.add_ne_zero {a : Bill} (ha : a ≠ 0) (b : Bill) : a + b ≠ 0 := by
  intro none
  refine ha (funext fun k => ?_)
  have here := congrFun none k
  rw [add_apply, zero_apply] at here
  show a k = 0
  omega

theorem Bill.of_ne_zero (op : CountedOperation) {n : Nat} (hn : n ≠ 0) : of op n ≠ 0 := by
  intro none
  have here := congrFun none op
  simp [of, hn] at here

theorem Bill.refreshes_ne_zero {n : Nat} (hn : n ≠ 0) : refreshes n ≠ 0 :=
  add_ne_zero (of_ne_zero _ hn) _

/-! ### Failures with a trace -/

namespace Process

variable {α β : Type} {p : Process Session Failure α} {f : α → Process Session Failure β}
  {G : Session → Session → Prop}

/-- Whatever states its actions find, a process ends with a failure. -/
def Fails (G : Session → Session → Prop) (p : Process Session Failure α) : Prop :=
  p.Always G fun r => ∃ failure, r = .error failure

/-- A process that has counted something and then fails. -/
def Wastes (p : Process Session Failure α) : Prop :=
  p.Spends Session.Counted (fun m r => m ≠ 0 ∧ ∃ failure, r = .error failure) 0

/-- Nothing comes after a failure. -/
theorem Fails.bind (hp : p.Fails G) : (p.bind f).Fails G := by
  refine Always.bind hp ?_ ?_
  · rintro a ⟨_, ha⟩
    cases ha
  · rintro failure _
    exact ⟨failure, rfl⟩

theorem Wastes.bind (hp : p.Wastes) : (p.bind f).Wastes := by
  refine Spends.bind hp ?_ ?_
  · rintro m a ⟨_, _, ha⟩
    cases ha
  · rintro m failure ⟨hm, _⟩
    exact ⟨hm, failure, rfl⟩

/-- A process that cannot fail and has counted something when it ends. -/
def Works (P : α → Prop) (p : Process Session Failure α) : Prop :=
  p.Pays Session.Counted (fun m a => m ≠ 0 ∧ P a) 0

theorem Works.of_charges {P Q : α → Prop} {bill : Bill} (hp : Charges bill P p) (hbill : bill ≠ 0)
    (hq : p.Yields G Q) : p.Works Q := by
  refine (hp.pays hq).mono ?_
  rintro _ a ⟨rfl, _, ha⟩
  exact ⟨hbill, ha⟩

/-- What has been counted stays counted. -/
theorem Works.bind_spends {P : α → Prop} {Q : Except Failure β → Prop} (hp : p.Works P)
    (hcounts : ∀ a, P a → (f a).Tallies) (hf : ∀ a, P a → (f a).Always G Q) :
    (p.bind f).Spends Session.Counted (fun m r => m ≠ 0 ∧ Q r) 0 := by
  refine Spends.bind hp ?_ ?_
  · rintro m a ⟨_, hok, hm, ha⟩
    cases hok
    refine (((hcounts a ha).and_always (hf a ha)).rebase m).mono ?_
    rintro _ r ⟨m', rfl, _, hr⟩
    exact ⟨Bill.add_ne_zero hm m', hr⟩
  · rintro m failure ⟨_, hok, _⟩
    cases hok

theorem Works.bind {P : α → Prop} {Q : β → Prop} (hp : p.Works P)
    (hcounts : ∀ a, P a → (f a).Tallies) (hf : ∀ a, P a → (f a).Yields G Q) :
    (p.bind f).Works Q := by
  refine (hp.bind_spends hcounts hf).mono ?_
  rintro m _ ⟨hm, a, rfl, ha⟩
  exact ⟨a, rfl, hm, ha⟩

theorem Works.wastes {P : α → Prop} (hp : p.Works P) (hcounts : ∀ a, P a → (f a).Tallies)
    (hfails : ∀ a, P a → (f a).Fails G) : (p.bind f).Wastes :=
  hp.bind_spends hcounts hfails

/-- Alone, such a process fails and leaves other counters behind. -/
theorem Wastes.run (hp : p.Wastes) (s : Session) :
    (∃ failure, (p.run s).1 = .error failure) ∧ (p.run s).2.counts ≠ s.counts := by
  obtain ⟨m, hcounted, hm, hfailed⟩ := Spends.run_counted hp s
  refine ⟨hfailed, fun same => hm ?_⟩
  have unchanged := Session.billed_eq same
  rw [hcounted] at unchanged
  exact funext fun k => by
    have here := congrFun unchanged k
    rw [Bill.add_apply] at here
    show m k = 0
    omega

end Process

namespace SimulatedEngine

variable {e : SimulatedEngine}

/-! ### What engines make -/

/-- A ciphertext that an engine can have made, under one of its keys. -/
def Made (e : SimulatedEngine) (c : LweBlock) : Prop := e.Formed c ∨ e.FormedSmall c

/-- A batch of such ciphertexts, with a mask for every body. -/
structure MadeAll (e : SimulatedEngine) (b : LweBatch) : Prop where
  secret_size : ∃ secret, e.keys.find? b.key = some secret ∧ b.maskSize = secret.size
  length_eq : b.masks.length = b.bodies.length
  rows : ∀ row ∈ b.masks.zip b.bodies, e.Made ⟨row.1, row.2, b.key, false⟩

theorem Formed.key_eq {c : LweBlock} (hc : e.Formed c) : c.key = .large := by
  obtain ⟨_, _, hides⟩ := hc
  exact hides.key_eq

theorem FormedSmall.key_eq {c : LweBlock} (hc : e.FormedSmall c) : c.key = .small := by
  obtain ⟨_, _, hides⟩ := hc
  exact hides.key_eq

/-- Only ciphertexts under the large key are public. -/
theorem FormedSmall.live {c : LweBlock} (hc : e.FormedSmall c) : Live c := by
  obtain ⟨_, _, hides⟩ := hc
  unfold Live
  cases marked : c.trivial with
  | false => rfl
  | true => cases hides.large_of_trivial marked

theorem Made.formed {c : LweBlock} (hc : e.Made c) (hkey : c.key = .large) : e.Formed c := by
  rcases hc with hc | hc
  · exact hc
  · rw [hc.key_eq] at hkey
    cases hkey

theorem Made.small {c : LweBlock} (hc : e.Made c) (hkey : c.key ≠ .large) : e.FormedSmall c := by
  rcases hc with hc | hc
  · exact absurd hc.key_eq hkey
  · exact hc

theorem Made.hides {c : LweBlock} (hc : e.Made c) :
    ∃ number noise, e.Hides c c.key number noise := by
  rcases hc with hc | hc
  · rw [hc.key_eq]
    exact hc
  · rw [hc.key_eq]
    exact hc

/-- An engine has only two keys. -/
theorem Hides.made {c : LweBlock} {key : KeyLabel} {number : Nat} {noise : Int}
    (h : e.Hides c key number noise) : e.Made c := by
  cases key with
  | large => exact .inl ⟨number, noise, h⟩
  | small => exact .inr ⟨number, noise, h⟩
  | other name =>
      obtain ⟨secret, hsecret, _⟩ := h.body_eq
      cases hsecret

/-- Without its mark, a public constant is a ciphertext like others. -/
theorem Made.unmarked {c : LweBlock} (hc : e.Made c) : e.Made ⟨c.mask, c.body, c.key, false⟩ := by
  obtain ⟨_, _, hides⟩ := hc.hides
  have bare : e.Hides ⟨c.mask, c.body, c.key, false⟩ c.key _ _ := ⟨rfl, hides.body_eq, nofun⟩
  exact bare.made

theorem Made.decode {c : LweBlock} (hc : e.Made c) : ∃ m, e.decode c = .ok m := by
  obtain ⟨_, _, hides⟩ := hc.hides
  obtain ⟨m, hm⟩ := hides.exists_decodes
  exact ⟨m, hm.decode_eq⟩

theorem encryptBatch_made {key : KeyLabel} {secret : WordRow}
    (hsecret : e.keys.find? key = some secret) {messages : List Int}
    (hmessages : ∀ m ∈ messages, 0 ≤ m) (place : Place) :
    (e.encryptBatch messages key place).Yields Session.Silent e.MadeAll := by
  unfold encryptBatch
  apply (Yields.ofExcept (secret_eq_ok hsecret) rfl).bind
  intro s hs
  subst hs
  apply (encryptRows_hides hsecret hmessages).bind
  intro rows hrows
  have unzipped : (rows.map Prod.fst).zip (rows.map Prod.snd) = rows := by
    rw [← List.unzip_fst, ← List.unzip_snd, List.zip_unzip]
  refine Yields.done ⟨⟨secret, hsecret, rfl⟩, by simp [LweBatch.ofRows], ?_⟩
  simp only [LweBatch.ofRows, unzipped]
  refine forall₂_left hrows ?_
  rintro row m ⟨_, hides⟩
  exact hides.made

/-- Every row of such a batch can be decoded. -/
theorem MadeAll.decodeAll {b : LweBatch} (hb : e.MadeAll b) :
    ∃ ms, e.decodeAll b b.key = .ok ms ∧ ms.length = b.length := by
  obtain ⟨secret, hsecret, hsize⟩ := hb.secret_size
  refine ⟨_, decodeAll_eq hsecret hsize hb.length_eq, ?_⟩
  rw [List.length_map, List.length_zip, hb.length_eq, Nat.min_self]
  rfl

/-! ### Single operations

All of them check what they are given before they count or draw anything, except that a batch is
counted before its lookups are tabulated. -/

theorem encrypt_upfront (h : e.Intact) (value : Int) :
    (e.encrypt value).Upfront Session.Silent e.Made := by
  unfold encrypt
  rw [bind_eq, enter_bind h.unguarded]
  refine .check fun _ hchecked => ?_
  have inside := (requireMessages_eq_ok hchecked value (by simp)).1
  apply Yields.upfront
  apply (count_yields .encrypt 1).bind
  intro _ _
  apply (encryptRow_hides (find?_large e) (Int.toNat_of_nonneg inside).symm).mono
  rintro c ⟨_, hides⟩
  exact hides.made

theorem encryptAll_upfront (h : e.Intact) (values : List Int) :
    (e.encryptAll values).Upfront Session.Silent e.MadeAll := by
  unfold encryptAll
  rw [bind_eq, enter_bind h.unguarded]
  refine .check fun _ hchecked => ?_
  have inside := requireMessages_eq_ok hchecked
  apply Yields.upfront
  apply (count_yields .encrypt _).bind
  intro _ _
  exact encryptBatch_made (find?_large e) (fun v hv => (inside v hv).1) .accelerator

theorem keyswitch_refused (h : e.Intact) {c : LweBlock} (hkey : c.key ≠ .large) :
    ∃ failure, e.keyswitch c = .fail failure := by
  unfold keyswitch
  rw [bind_eq, enter_bind h.unguarded]
  cases hchecked : expectKey c.key .large .keyswitch with
  | ok _ => exact absurd (expectKey_eq_ok hchecked) hkey
  | error failure => exact ⟨failure, rfl⟩

theorem keyswitch_upfront (h : e.Intact) {c : LweBlock} (hc : e.Made c) :
    (e.keyswitch c).Upfront Session.Silent e.Made := by
  by_cases large : c.key = .large
  · exact ((keyswitch_formed h (hc.formed large)).mono fun _ hc' => .inr hc').upfront
  · exact .inl (keyswitch_refused h large)

theorem keyswitchAll_upfront (h : e.Intact) {b : LweBatch} (hb : e.MadeAll b) :
    (e.keyswitchAll b).Upfront Session.Silent e.MadeAll := by
  unfold keyswitchAll
  rw [bind_eq, enter_bind h.unguarded]
  refine .check fun _ hkey => ?_
  obtain ⟨messages, hdecoded, -⟩ := hb.decodeAll
  rw [expectKey_eq_ok hkey] at hdecoded
  apply Yields.upfront
  apply (count_yields .keyswitch _).bind
  intro _ _
  apply (Yields.ofExcept hdecoded rfl).bind
  intro ms _
  refine encryptBatch_made (find?_small e) (fun v hv => ?_) b.place
  obtain ⟨m, _, rfl⟩ := List.mem_map.1 hv
  exact Int.natCast_nonneg m

theorem bootstrap_upfront (h : e.Intact) {c : LweBlock} (hc : e.Made c) (lookup : DigitLookup) :
    (e.bootstrap c lookup).Upfront Session.Silent e.Made := by
  unfold bootstrap
  rw [bind_eq, enterWith_bind h.unguarded]
  refine .check fun table _ => ?_
  by_cases large : c.key = .large
  · unfold bootstrapWith
    refine .check fun _ hkey => ?_
    have small := expectKey_eq_ok hkey
    rw [large] at small
    cases small
  · exact ((bootstrapWith_formed (hc.small large) _).mono fun _ hc' => .inl hc').upfront

/-- Key switch and bootstrap check apart from each other, so a lookup that cannot be tabulated comes
to light only after the key switch. -/
theorem evaluateTable_upfront (h : e.Intact) {c : LweBlock} (hc : e.Made c) {lookup : DigitLookup}
    (hlookup : c.key = .large → (lookup.tabulate e.totalModulus).isOk = true) :
    (e.evaluateTable c lookup).Upfront Session.Silent e.Made := by
  unfold evaluateTable
  rw [bind_eq, enterWith_bind h.unguarded]
  by_cases large : c.key = .large
  · obtain ⟨table, htable⟩ := exists_of_isOk (hlookup large)
    apply Yields.upfront
    apply (keyswitch_formed h (hc.formed large)).bind
    intro switched hswitched
    unfold bootstrap
    rw [bind_eq, enterWith_bind h.unguarded, htable, bind_eq, ofExcept_ok_bind]
    exact (bootstrapWith_formed hswitched _).mono fun _ hc' => .inl hc'
  · obtain ⟨failure, hrefused⟩ := keyswitch_refused h large
    rw [bind_eq, hrefused, bind_fail]
    exact .fail failure

theorem evaluateTable_wastes (h : e.Intact) {c : LweBlock} (hc : e.Formed c) {lookup : DigitLookup}
    (hlookup : (lookup.tabulate e.totalModulus).isOk = false) :
    (e.evaluateTable c lookup).Wastes := by
  unfold evaluateTable
  rw [bind_eq, enterWith_bind h.unguarded]
  have switch : (e.keyswitch c).Works e.FormedSmall := .of_charges
    (keyswitch_charges h.unguarded c) (Bill.of_ne_zero _ Nat.one_ne_zero) (keyswitch_formed h hc)
  refine switch.wastes (G := Session.Silent)
    (fun switched _ => (bootstrap_charges h.unguarded switched lookup).tallies) fun switched _ => ?_
  unfold bootstrap
  rw [bind_eq, enterWith_bind h.unguarded]
  cases htable : lookup.tabulate e.totalModulus with
  | ok table =>
      rw [htable] at hlookup
      cases hlookup
  | error failure => exact ⟨failure, rfl⟩

/-- The outputs of lookups that can be tabulated. -/
theorem tableOutputs_ok {lookups : List DigitLookup}
    (hlookups : ∀ l ∈ lookups, (l.tabulate e.totalModulus).isOk = true) (messages : List Nat) :
    ∃ outputs, e.tableOutputs lookups messages = .ok outputs ∧ ∀ v ∈ outputs, 0 ≤ v := by
  unfold tableOutputs
  induction lookups generalizing messages with
  | nil => exact ⟨[], rfl, by simp⟩
  | cons l rest ih =>
      cases messages with
      | nil => exact ⟨[], rfl, by simp⟩
      | cons m messages =>
          obtain ⟨table, htable⟩ := exists_of_isOk (hlookups l (by simp))
          obtain ⟨outputs, houtputs, hnonneg⟩ :=
            ih (fun l hl => hlookups l (List.mem_cons_of_mem _ hl)) messages
          refine ⟨tableEntry table m % e.totalModulus :: outputs, ?_,
            List.forall_mem_cons.2 ⟨(e.emod_totalModulus _).1, hnonneg⟩⟩
          rw [List.zip_cons_cons, List.mapM_cons]
          dsimp only
          rw [htable, houtputs]
          rfl

/-- One lookup that cannot be tabulated is enough. -/
theorem tableOutputs_error {lookups : List DigitLookup} {messages : List Nat}
    (hlength : messages.length = lookups.length) {l : DigitLookup} (hl : l ∈ lookups)
    (hbad : (l.tabulate e.totalModulus).isOk = false) :
    ∃ failure, e.tableOutputs lookups messages = .error failure := by
  cases houtputs : e.tableOutputs lookups messages with
  | error failure => exact ⟨failure, rfl⟩
  | ok outputs =>
      unfold tableOutputs at houtputs
      have paired : (lookups.zip messages).map Prod.fst = lookups :=
        List.map_fst_zip (by omega)
      rw [← paired] at hl
      obtain ⟨x, hx, rfl⟩ := List.mem_map.1 hl
      have tabulated := forall₂_left (p := fun x : DigitLookup × Nat =>
        (x.1.tabulate e.totalModulus).isOk = true) (mapM_eq_ok houtputs) fun x v hv => ?_
      · rw [tabulated x hx] at hbad
        cases hbad
      · obtain ⟨table, htable, -⟩ := bind_eq_ok hv
        rw [htable]
        rfl

/-- A batch that passes the checks of its key and its length is decoded, and evaluated if all
lookups can be tabulated. -/
theorem bootstrapAll_upfront (h : e.Intact) {b : LweBatch} (hb : e.MadeAll b)
    {lookups : List DigitLookup}
    (hlookups : b.key = .small → lookups.length = b.length →
      ∀ l ∈ lookups, (l.tabulate e.totalModulus).isOk = true) :
    (e.bootstrapAll b lookups).Upfront Session.Silent e.MadeAll := by
  unfold bootstrapAll
  rw [bind_eq, enter_bind h.unguarded]
  refine .check fun _ hkey => ?_
  have small := expectKey_eq_ok hkey
  split
  · exact .fail _
  · rename_i hcount
    have hcount := not_not.1 hcount
    obtain ⟨messages, hdecoded, hlength⟩ := hb.decodeAll
    rw [small] at hdecoded
    obtain ⟨outputs, houtputs, hnonneg⟩ := tableOutputs_ok (hlookups small hcount) messages
    have full : ¬ outputs.length < lookups.length := by
      rw [tableOutputs_length houtputs]
      omega
    apply Yields.upfront
    apply (count_yields .bootstrap _).bind
    intro _ _
    apply (Yields.ofExcept hdecoded rfl).bind
    rintro _ rfl
    apply (Yields.ofExcept houtputs rfl).bind
    rintro _ rfl
    rw [if_neg full]
    exact encryptBatch_made (find?_large e) hnonneg b.place

/-- The bootstraps of a batch are counted before its lookups are tabulated. -/
theorem bootstrapAll_wastes (h : e.Intact) {b : LweBatch} (hb : e.MadeAll b)
    {lookups : List DigitLookup} (hkey : b.key = .small) (hcount : lookups.length = b.length)
    {l : DigitLookup} (hl : l ∈ lookups) (hbad : (l.tabulate e.totalModulus).isOk = false) :
    (e.bootstrapAll b lookups).Wastes := by
  have some : b.length ≠ 0 := by
    intro none
    rw [none] at hcount
    rw [List.length_eq_zero_iff.1 hcount] at hl
    cases hl
  have checked : expectKey b.key .small .bootstrapAll = .ok () := if_pos hkey
  obtain ⟨messages, hdecoded, hlength⟩ := hb.decodeAll
  rw [hkey] at hdecoded
  obtain ⟨failure, hfailed⟩ := tableOutputs_error (hlength.trans hcount.symm) hl hbad
  unfold bootstrapAll
  rw [bind_eq, enter_bind h.unguarded, checked, bind_eq, ofExcept_ok_bind,
    if_neg (not_not.2 hcount), hdecoded]
  -- what is left to be done fails at the lookup, right after it has been counted
  have rest : ∀ f : List Int → Action LweBatch,
      (Process.ofExcept (e.tableOutputs lookups messages)).bind f = .fail failure := by
    intro f
    rw [hfailed]
    rfl
  have counted : (count .bootstrap b.length).Works fun _ => True := .of_charges
    (count_charges .bootstrap _) (Bill.of_ne_zero _ some) (count_yields .bootstrap _)
  refine counted.wastes (G := Session.Silent) (fun _ _ => ?_) fun _ _ => ?_
  · rw [bind_eq, ofExcept_ok_bind, bind_eq, rest]
    exact Tallies.fail failure
  · rw [bind_eq, ofExcept_ok_bind, bind_eq, rest]
    exact ⟨failure, rfl⟩

/-! ### Transfers and public zeros -/

theorem upload_upfront (h : e.Intact) {cs : List LweBlock} (hcs : ∀ c ∈ cs, e.Made c) :
    (e.upload cs).Upfront Session.Silent e.MadeAll := by
  unfold upload
  rw [bind_eq, enter_bind h.unguarded]
  split
  · exact .fail _
  · rename_i c rest
    split
    · rename_i sameKeys
      split
      · exact .fail _
      · split
        · exact .fail _
        · apply Yields.upfront
          refine Yields.done ⟨?_, by simp [LweBatch.ofRows], ?_⟩
          · obtain ⟨_, _, hides⟩ := (hcs c (by simp)).hides
            obtain ⟨secret, hsecret, hsize, _⟩ := hides.body_eq
            exact ⟨secret, hsecret, hsize⟩
          · have unzipped :
                ((c :: rest).map fun c => c.mask).zip ((c :: rest).map fun c => c.body) =
                  (c :: rest).map fun c => (c.mask, c.body) := by
              rw [List.zip_map']
            intro row hrow
            simp only [LweBatch.ofRows, List.map_map, Function.comp_def, unzipped] at hrow ⊢
            obtain ⟨c', hc', rfl⟩ := List.mem_map.1 hrow
            have key : c'.key = c.key := by
              rcases List.mem_cons.1 hc' with rfl | hc'
              · rfl
              · simpa using List.all_eq_true.1 sameKeys c' hc'
            rw [← key]
            exact (hcs c' hc').unmarked
    · exact .fail _

theorem download_upfront (h : e.Intact) {b : LweBatch} (hb : e.MadeAll b) :
    (e.download b).Upfront Session.Silent fun cs => ∀ c ∈ cs, e.Made c := by
  unfold download
  rw [bind_eq, enter_bind h.unguarded]
  split
  · exact .fail _
  · refine (Yields.done fun c hc => ?_).upfront
    obtain ⟨row, hrow, rfl⟩ := List.mem_map.1 hc
    exact hb.rows row hrow

/-- Integers of blocks that the engine can have made. -/
def MadeInteger (e : SimulatedEngine) (x : RadixInteger LweBlock) : Prop := ∀ c ∈ x.blocks, e.Made c

theorem publicZeros_made (h : e.Intact) (count : Int) : ∀ c ∈ e.publicZeros count, e.Made c := by
  intro c hc
  rw [List.eq_of_mem_replicate hc]
  exact .inl (h.formed_publicBlock le_rfl)

theorem publicZero_upfront (h : e.Intact) (width : Int) :
    (e.publicZero width).Upfront Session.Silent e.MadeInteger := by
  unfold publicZero
  rw [bind_eq, enter_bind h.unguarded]
  exact (Yields.done (publicZeros_made h width)).upfront

theorem widen_upfront (h : e.Intact) {x : RadixInteger LweBlock} (hx : e.MadeInteger x)
    (width : Int) : (e.widen x width).Upfront Session.Silent e.MadeInteger := by
  unfold widen
  rw [bind_eq, enter_bind h.unguarded]
  split
  · exact .fail _
  · refine (Yields.done fun c hc => ?_).upfront
    rcases List.mem_append.1 hc with hc | hc
    · exact hx c hc
    · exact publicZeros_made h _ c hc

/-! ### Decryption -/

theorem decrypt_made (h : e.Intact) {c : LweBlock} (hc : e.Made c) :
    (e.decrypt c).Yields Session.Silent fun _ => True := by
  obtain ⟨m, hm⟩ := hc.decode
  unfold decrypt
  rw [bind_eq, enter_bind h.unguarded, hm]
  exact Yields.done trivial

theorem decryptInteger_made (h : e.Intact) {x : RadixInteger LweBlock} (hx : e.MadeInteger x) :
    (e.decryptInteger x).Yields Session.Silent fun _ => True := by
  obtain ⟨cs⟩ := x
  have blocks : (e.decryptBlocks cs).Yields Session.Silent fun _ => True := by
    unfold MadeInteger at hx
    induction cs with
    | nil => exact Yields.done trivial
    | cons c rest ih =>
        unfold decryptBlocks
        apply (decrypt_made h (hx c (by simp))).bind
        intro _ _
        apply (ih fun c hc => hx c (List.mem_cons_of_mem _ hc)).bind
        intro _ _
        exact Yields.done trivial
  unfold decryptInteger
  rw [bind_eq, enter_bind h.unguarded]
  apply blocks.bind
  intro _ _
  exact Yields.done trivial

theorem decryptTruth_made (h : e.Intact) {c : LweBlock} (hc : e.Made c) :
    (e.decryptTruth c).Yields Session.Silent fun _ => True := by
  unfold decryptTruth
  rw [bind_eq, enter_bind h.unguarded]
  apply (decrypt_made h hc).bind
  intro _ _
  exact Yields.done trivial

end SimulatedEngine

end SealedMatch
