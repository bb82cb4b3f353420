/-
Module: SealedMatch.Proofs.Engine.Failures
Purpose: Which operations of the simulated engine leave a trace of themselves when they fail.
Trusted boundary: none
Main exports: CaughtMidway, SimulatedEngine.Reached, SimulatedEngine.Interrupted,
  SimulatedEngine.Reached.made, SimulatedEngine.leaves_trace_iff
-/
import SealedMatch.Proofs.Engine.Made
import SealedMatch.Proofs.Engine.Programs
import SealedMatch.Proofs.Radix.Digits

namespace SealedMatch

open Process hiding bind bind_assoc

/-! ### Work done before an item that must be refused -/

/-- Some item takes work, and all items are sound up to there, but not all behind it. Whoever goes
through the list item by item finds out when work has been done. -/
def CaughtMidway {α : Type} (sound working : α → Prop) (xs : List α) : Prop :=
  ∃ before x after, xs = before ++ x :: after ∧ (∀ y ∈ before, sound y) ∧ sound x ∧ working x ∧
    ∃ y ∈ after, ¬ sound y

namespace CaughtMidway

variable {α β : Type} {sound working : α → Prop}

theorem cons_iff {x : α} {xs : List α} :
    CaughtMidway sound working (x :: xs) ↔
      sound x ∧ ((working x ∧ ∃ y ∈ xs, ¬ sound y) ∨ CaughtMidway sound working xs) := by
  constructor
  · rintro ⟨before, y, after, heq, hbefore, hsound, hworking, hbad⟩
    cases before with
    | nil =>
        obtain ⟨rfl, rfl⟩ := List.cons.inj heq
        exact ⟨hsound, .inl ⟨hworking, hbad⟩⟩
    | cons z before =>
        obtain ⟨rfl, rfl⟩ := List.cons.inj heq
        exact ⟨hbefore _ (by simp), .inr ⟨before, y, after, rfl,
          fun w hw => hbefore w (List.mem_cons_of_mem _ hw), hsound, hworking, hbad⟩⟩
  · rintro ⟨hsound, ⟨hworking, hbad⟩ | ⟨before, y, after, rfl, hbefore, hsound', hworking, hbad⟩⟩
    · exact ⟨[], x, xs, rfl, by simp, hsound, hworking, hbad⟩
    · exact ⟨x :: before, y, after, rfl, List.forall_mem_cons.2 ⟨hsound, hbefore⟩, hsound',
        hworking, hbad⟩

theorem nil_iff : CaughtMidway sound working ([] : List α) ↔ False := by
  refine iff_of_false ?_ id
  rintro ⟨before, x, after, heq, -⟩
  cases before <;> cases heq

theorem exists_unsound {xs : List α} (h : CaughtMidway sound working xs) : ∃ y ∈ xs, ¬ sound y := by
  obtain ⟨before, x, after, rfl, -, -, -, y, hy, hbad⟩ := h
  exact ⟨y, by simp [hy], hbad⟩

theorem map_iff {f : β → α} {xs : List β} :
    CaughtMidway sound working (xs.map f) ↔
      CaughtMidway (fun x => sound (f x)) (fun x => working (f x)) xs := by
  induction xs with
  | nil => rw [List.map_nil, nil_iff, nil_iff]
  | cons x xs ih =>
      rw [List.map_cons, cons_iff, cons_iff, ih]
      simp only [List.mem_map, exists_exists_and_eq_and]

end CaughtMidway

namespace SimulatedEngine

variable {e : SimulatedEngine}

/-! ### Additions

An addition goes from block to block and finds out about keys as it goes. Public blocks cost
nothing, so only a live block before the first wrong one leaves a trace. -/

/-- Two blocks that can be added and split. -/
def BothLarge (x : LweBlock × LweBlock) : Prop := x.1.key = .large ∧ x.2.key = .large

/-- Two blocks whose sum takes work. -/
def OneLive (x : LweBlock × LweBlock) : Prop := Live x.1 ∨ Live x.2

theorem applyTable_small (h : e.Intact) {c : LweBlock} (hc : e.FormedSmall c) (table : Nat → Int) :
    ∃ failure, e.applyTable c table = .fail failure := by
  have small : c.key ≠ .large := by
    rw [hc.key_eq]
    decide
  obtain ⟨failure, hrefused⟩ := keyswitch_refused h small
  refine ⟨failure, ?_⟩
  unfold applyTable
  rw [show c.trivial = false from hc.live, if_neg Bool.false_ne_true, bind_eq, hrefused, bind_fail]

theorem applyTable_known {c : LweBlock} (hc : e.Formed c) (hpublic : c.trivial = true)
    (table : Nat → Int) : ∃ m, e.applyTable c table = .done (e.publicBlock (table m)) := by
  obtain ⟨m, hm⟩ := Made.decode (.inl hc)
  refine ⟨m, ?_⟩
  unfold applyTable
  rw [if_pos hpublic, hm, bind_eq, ofExcept_ok_bind, pure_eq]

theorem applyTable_works (h : e.Intact) {c : LweBlock} (hc : e.Formed c) (hlive : Live c)
    {table : Nat → Int} (htable : ∀ m, 0 ≤ table m) : (e.applyTable c table).Works e.Formed :=
  .of_charges (applyTable_live h.unguarded hlive table) (Bill.refreshes_ne_zero Nat.one_ne_zero)
    (applyTable_formed h hc htable)

theorem key_of_addUnderOneKey {a b sum : LweBlock} (hsum : addUnderOneKey a b = .ok sum) :
    a.key = b.key := by
  unfold addUnderOneKey at hsum
  obtain ⟨_, hkey, _⟩ := bind_eq_ok hsum
  exact expectKey_eq_ok hkey

/-- Blocks that are not both under the large key are refused: either they cannot be added, or their
sum cannot be split. -/
theorem addPairs_refused (h : e.Intact) {x : LweBlock × LweBlock}
    (hx : e.Made x.1 ∧ e.Made x.2) {carry? : Option LweBlock} (hcarry : ∀ c ∈ carry?, e.Formed c)
    (hbad : ¬ BothLarge x) (rest : List (LweBlock × LweBlock)) :
    ∃ failure, e.addPairs carry? (x :: rest) = .fail failure := by
  obtain ⟨a, b⟩ := x
  obtain ⟨ha, hb⟩ := hx
  unfold addPairs
  cases hsum : addWithCarry a b carry? with
  | error failure => exact ⟨failure, by rw [bind_eq, ofExcept_error_bind]⟩
  | ok sum =>
      obtain ⟨first, hfirst, hlast⟩ := bind_eq_ok hsum
      have same := key_of_addUnderOneKey hfirst
      have smallA : a.key ≠ .large := fun large => hbad ⟨large, same ▸ large⟩
      have smallB : b.key ≠ .large := fun large => smallA (same.trans large)
      obtain ⟨_, _, hidesA⟩ := ha.small smallA
      obtain ⟨_, _, hidesB⟩ := hb.small smallB
      obtain ⟨first', hfirst', hides⟩ := hidesA.add hidesB
      rw [hfirst] at hfirst'
      cases hfirst'
      cases carry? with
      | some carry =>
          have keys := key_of_addUnderOneKey hlast
          rw [hides.key_eq, (hcarry carry rfl).key_eq] at keys
          cases keys
      | none =>
          cases hlast
          obtain ⟨failure, hrefused⟩ := applyTable_small h ⟨_, _, hides⟩
            fun m => (m % e.messageModulus : Nat)
          exact ⟨failure, by
            rw [bind_eq, ofExcept_ok_bind, bind_eq, hrefused, bind_fail]⟩

theorem addPairs_tallies (h : e.guard = unguarded) (pairs : List (LweBlock × LweBlock))
    (carry? : Option LweBlock) : (e.addPairs carry? pairs).Tallies := by
  induction pairs generalizing carry? with
  | nil => exact Tallies.done []
  | cons x rest ih =>
      unfold addPairs
      refine Tallies.check fun sum => ?_
      refine (applyTable_charges h sum _).tallies.bind fun digit => ?_
      refine (applyTable_charges h sum _).tallies.bind fun carry => ?_
      exact (ih (some carry)).bind fun digits => Tallies.done _

/-- Whatever comes before it, a wrong block ends the addition. -/
theorem addPairs_fails (h : e.Intact) {pairs : List (LweBlock × LweBlock)}
    (hpairs : ∀ x ∈ pairs, e.Made x.1 ∧ e.Made x.2) {carry? : Option LweBlock}
    (hcarry : ∀ c ∈ carry?, e.Formed c) (hbad : ∃ x ∈ pairs, ¬ BothLarge x) :
    (e.addPairs carry? pairs).Fails Session.Silent := by
  induction pairs generalizing carry? with
  | nil => simp at hbad
  | cons x rest ih =>
      have made := hpairs x (by simp)
      by_cases large : BothLarge x
      · have later : ∃ y ∈ rest, ¬ BothLarge y := by
          obtain ⟨y, hy, hbad⟩ := hbad
          rcases List.mem_cons.1 hy with rfl | hy
          · exact absurd large hbad
          · exact ⟨y, hy, hbad⟩
        obtain ⟨sum, hsum, hformed⟩ :=
          addWithCarry_formed (made.1.formed large.1) (made.2.formed large.2) hcarry
        unfold addPairs
        rw [hsum, bind_eq, ofExcept_ok_bind]
        apply (applyTable_formed h hformed fun m => Int.natCast_nonneg _).bind_always
        intro digit _
        apply (applyTable_formed h hformed fun m => Int.natCast_nonneg _).bind_always
        intro carry hcarry
        exact (ih (fun y hy => hpairs y (List.mem_cons_of_mem _ hy))
          (by rintro c ⟨⟩; exact hcarry) later).bind
      · obtain ⟨failure, hrefused⟩ := addPairs_refused h made hcarry large rest
        rw [hrefused]
        exact ⟨failure, rfl⟩

/-- Public blocks are added without any action. -/
theorem addPairs_known {a b : LweBlock} (ha : e.Formed a) (hb : e.Formed b)
    (hpublic : ¬ OneLive (a, b)) {carry? : Option LweBlock}
    (hcarry : ∀ c ∈ carry?, e.Formed c ∧ c.trivial = true) (rest : List (LweBlock × LweBlock)) :
    ∃ digit carry : Nat, e.addPairs carry? ((a, b) :: rest) =
      (e.addPairs (some (e.publicBlock carry)) rest).bind fun digits =>
        .done (e.publicBlock digit :: digits) := by
  have marks : a.trivial = true ∧ b.trivial = true := by
    unfold OneLive Live at hpublic
    simpa using hpublic
  obtain ⟨sum, hsum, hformed⟩ := addWithCarry_formed ha hb fun c hc => (hcarry c hc).1
  have mark := addWithCarry_public marks.1 marks.2 (fun c hc => (hcarry c hc).2) hsum
  obtain ⟨m, hdigit⟩ := applyTable_known hformed mark fun m => (m % e.messageModulus : Nat)
  obtain ⟨n, hout⟩ := applyTable_known hformed mark fun m => (m / e.messageModulus : Nat)
  refine ⟨m % e.messageModulus, n / e.messageModulus, ?_⟩
  rw [addPairs]
  simp only [hsum, hdigit, hout, bind_eq, pure_eq, ofExcept_ok_bind, bind_done]

theorem Intact.known (h : e.Intact) (number : Nat) :
    ∀ c ∈ some (e.publicBlock number), e.Formed c ∧ c.trivial = true := by
  rintro c ⟨⟩
  exact ⟨h.formed_publicBlock (Int.natCast_nonneg number), rfl⟩

/-- An addition that is not caught midway fails at once or not at all. -/
theorem addPairs_upfront (h : e.Intact) {pairs : List (LweBlock × LweBlock)}
    (hpairs : ∀ x ∈ pairs, e.Made x.1 ∧ e.Made x.2) {carry? : Option LweBlock}
    (hcarry : ∀ c ∈ carry?, e.Formed c ∧ c.trivial = true)
    (hnot : ¬ CaughtMidway BothLarge OneLive pairs) :
    (e.addPairs carry? pairs).Upfront Session.Silent fun cs => ∀ c ∈ cs, e.Formed c := by
  induction pairs generalizing carry? with
  | nil => exact (Yields.done (by simp)).upfront
  | cons x rest ih =>
      have made := hpairs x (by simp)
      have madeRest : ∀ y ∈ rest, e.Made y.1 ∧ e.Made y.2 :=
        fun y hy => hpairs y (List.mem_cons_of_mem _ hy)
      by_cases large : BothLarge x
      · rw [CaughtMidway.cons_iff] at hnot
        by_cases live : OneLive x
        · -- work is done here, so all blocks behind must stand under the large key
          have all : ∀ y ∈ x :: rest, e.Formed y.1 ∧ e.Formed y.2 := by
            intro y hy
            have sound : BothLarge y := by
              rcases List.mem_cons.1 hy with rfl | hy
              · exact large
              · by_contra bad
                exact hnot ⟨large, .inl ⟨live, y, hy, bad⟩⟩
            exact ⟨(hpairs y hy).1.formed sound.1, (hpairs y hy).2.formed sound.2⟩
          exact ((addPairs_formed h all fun c hc => (hcarry c hc).1).mono
            fun cs hcs => hcs.2).upfront
        · obtain ⟨a, b⟩ := x
          obtain ⟨digit, carry, hknown⟩ := addPairs_known (made.1.formed large.1)
            (made.2.formed large.2) live hcarry rest
          rw [hknown]
          refine (ih madeRest (h.known carry) fun later => hnot ⟨large, .inr later⟩).bind
            fun digits hdigits => Yields.done (List.forall_mem_cons.2 ⟨?_, hdigits⟩)
          exact h.formed_publicBlock (Int.natCast_nonneg digit)
      · exact .inl (addPairs_refused h made (fun c hc => (hcarry c hc).1) large rest)

/-- An addition that is caught midway has counted what it did before. -/
theorem addPairs_wastes (h : e.Intact) {pairs : List (LweBlock × LweBlock)}
    (hpairs : ∀ x ∈ pairs, e.Made x.1 ∧ e.Made x.2) {carry? : Option LweBlock}
    (hcarry : ∀ c ∈ carry?, e.Formed c ∧ c.trivial = true)
    (hcaught : CaughtMidway BothLarge OneLive pairs) : (e.addPairs carry? pairs).Wastes := by
  induction pairs generalizing carry? with
  | nil => exact (CaughtMidway.nil_iff.1 hcaught).elim
  | cons x rest ih =>
      obtain ⟨a, b⟩ := x
      have made := hpairs (a, b) (by simp)
      have madeRest : ∀ y ∈ rest, e.Made y.1 ∧ e.Made y.2 :=
        fun y hy => hpairs y (List.mem_cons_of_mem _ hy)
      obtain ⟨large, hcaught⟩ := CaughtMidway.cons_iff.1 hcaught
      have formedA := made.1.formed large.1
      have formedB := made.2.formed large.2
      by_cases live : OneLive (a, b)
      · have later : ∃ y ∈ rest, ¬ BothLarge y :=
          hcaught.elim (fun here => here.2) fun there => there.exists_unsound
        obtain ⟨sum, hsum, hformed⟩ :=
          addWithCarry_formed formedA formedB fun c hc => (hcarry c hc).1
        have working : Live sum := addWithCarry_live (live.imp_right .inl) hsum
        unfold addPairs
        rw [hsum, bind_eq, ofExcept_ok_bind]
        refine (applyTable_works h hformed working fun m => Int.natCast_nonneg _).wastes
          (G := Session.Silent) (fun digit _ => ?_) fun digit _ => ?_
        · refine (applyTable_charges h.unguarded sum _).tallies.bind fun carry => ?_
          exact (addPairs_tallies h.unguarded rest _).bind fun digits => Tallies.done _
        · apply (applyTable_formed h hformed fun m => Int.natCast_nonneg _).bind_always
          intro carry hcarry
          exact (addPairs_fails h madeRest (by rintro c ⟨⟩; exact hcarry) later).bind
      · obtain ⟨digit, carry, hknown⟩ := addPairs_known formedA formedB live hcarry rest
        have later := hcaught.resolve_left fun here => live here.1
        rw [hknown]
        exact (ih madeRest (h.known carry) later).bind

theorem add_upfront (h : e.Intact) {x y : RadixInteger LweBlock} (hx : e.MadeInteger x)
    (hy : e.MadeInteger y)
    (hnot : x.width = y.width → ¬ CaughtMidway BothLarge OneLive (x.blocks.zip y.blocks)) :
    (e.add x y).Upfront Session.Silent e.MadeInteger := by
  unfold add
  rw [bind_eq, enter_bind h.unguarded]
  split
  · exact .fail _
  · rename_i same
    have pairs : ∀ z ∈ x.blocks.zip y.blocks, e.Made z.1 ∧ e.Made z.2 := fun z hz =>
      ⟨hx _ (List.of_mem_zip hz).1, hy _ (List.of_mem_zip hz).2⟩
    exact (addPairs_upfront h pairs (by simp) (hnot (not_not.1 same))).bind
      fun blocks hblocks => Yields.done fun c hc => .inl (hblocks c hc)

theorem add_wastes (h : e.Intact) {x y : RadixInteger LweBlock} (hx : e.MadeInteger x)
    (hy : e.MadeInteger y) (same : x.width = y.width)
    (hcaught : CaughtMidway BothLarge OneLive (x.blocks.zip y.blocks)) : (e.add x y).Wastes := by
  have pairs : ∀ z ∈ x.blocks.zip y.blocks, e.Made z.1 ∧ e.Made z.2 := fun z hz =>
    ⟨hx _ (List.of_mem_zip hz).1, hy _ (List.of_mem_zip hz).2⟩
  unfold add
  rw [bind_eq, enter_bind h.unguarded, if_neg (not_not.2 same)]
  exact (addPairs_wastes h pairs (by simp) hcaught).bind

/-! ### Comparisons -/

/-- A block that can be compared. -/
def UnderLarge (c : LweBlock) : Prop := c.key = .large

/-- One step of a comparison: a block, and what has been found below it. -/
def compareBlock (e : SimulatedEngine) (found? : Option LweBlock) (block : LweBlock) (digit : Int) :
    Action LweBlock :=
  (e.applyTable block fun m => (ordering digit m : Nat)).bind fun here =>
    match found? with
    | none => .done here
    | some below => e.applyTables here below dominant

theorem comparePairs_cons (found? : Option LweBlock) (block : LweBlock) (digit : Int)
    (rest : List (LweBlock × Int)) :
    e.comparePairs found? ((block, digit) :: rest) =
      (e.compareBlock found? block digit).bind fun found => e.comparePairs (some found) rest := by
  unfold compareBlock
  rw [comparePairs, Process.bind_assoc, bind_eq]
  congr 1
  funext here
  cases found? with
  | none => rfl
  | some below => rfl

section Block

variable {block : LweBlock} {found? : Option LweBlock} {digit : Int}

theorem compareBlock_refused (h : e.Intact) (hblock : e.Made block) (hbad : ¬ UnderLarge block) :
    ∃ failure, e.compareBlock found? block digit = .fail failure := by
  obtain ⟨failure, hrefused⟩ :=
    applyTable_small h (hblock.small hbad) fun m => (ordering digit m : Nat)
  refine ⟨failure, ?_⟩
  unfold compareBlock
  rw [hrefused, bind_fail]

theorem applyTables_tallies (a b : LweBlock) (f : Nat → Nat → Nat) :
    (e.applyTables a b f).Tallies := by
  unfold applyTables
  refine Tallies.check fun x => Tallies.check fun y => ?_
  split
  · exact Tallies.done _
  · exact (count_charges .keyswitch 1).tallies.bind fun _ =>
      (count_charges .bootstrap 1).tallies.bind fun _ => (encryptRow_charges _ .large).tallies

theorem compareBlock_tallies (h : e.guard = unguarded) :
    (e.compareBlock found? block digit).Tallies := by
  unfold compareBlock
  refine (applyTable_charges h block _).tallies.bind fun here => ?_
  cases found? with
  | none => exact Tallies.done here
  | some below => exact applyTables_tallies here below dominant

theorem compareBlock_formed (h : e.Intact) (hblock : e.Formed block)
    (hfound : ∀ c ∈ found?, e.Formed c) :
    (e.compareBlock found? block digit).Yields Session.Silent e.Formed := by
  unfold compareBlock
  apply (applyTable_formed h hblock fun m => Int.natCast_nonneg _).bind
  intro here hhere
  cases found? with
  | none => exact Yields.done hhere
  | some below => exact applyTables_formed h hhere (hfound below rfl) dominant

theorem compareBlock_works (h : e.Intact) (hblock : e.Formed block) (hlive : Live block)
    (hfound : ∀ c ∈ found?, e.Formed c) : (e.compareBlock found? block digit).Works e.Formed := by
  unfold compareBlock
  refine (applyTable_works h hblock hlive fun m => Int.natCast_nonneg _).bind
    (G := Session.Silent) (fun here _ => ?_) fun here hhere => ?_
  · cases found? with
    | none => exact Tallies.done here
    | some below => exact applyTables_tallies here below dominant
  · cases found? with
    | none => exact Yields.done hhere
    | some below => exact applyTables_formed h hhere (hfound below rfl) dominant

/-- Public blocks are compared without any action. -/
theorem compareBlock_known (h : e.Intact) (hblock : e.Formed block) (hpublic : ¬ Live block)
    (hfound : ∀ c ∈ found?, e.Formed c ∧ c.trivial = true) :
    ∃ n : Nat, e.compareBlock found? block digit = .done (e.publicBlock n) := by
  have mark : block.trivial = true := by
    unfold Live at hpublic
    simpa using hpublic
  obtain ⟨m, hhere⟩ := applyTable_known hblock mark fun m => (ordering digit m : Nat)
  unfold compareBlock
  rw [hhere, bind_done]
  cases found? with
  | none => exact ⟨_, rfl⟩
  | some below =>
      obtain ⟨hformed, hmark⟩ := hfound below rfl
      obtain ⟨high, hhigh⟩ := Made.decode (.inl (h.formed_publicBlock
        (Int.natCast_nonneg (ordering digit m))))
      obtain ⟨low, hlow⟩ := Made.decode (.inl hformed)
      refine ⟨dominant high low, ?_⟩
      unfold applyTables
      simp only [hhigh, hlow, bind_eq, pure_eq, ofExcept_ok_bind]
      rw [hmark]
      rfl

end Block

theorem comparePairs_tallies (h : e.guard = unguarded) (pairs : List (LweBlock × Int))
    (found? : Option LweBlock) : (e.comparePairs found? pairs).Tallies := by
  induction pairs generalizing found? with
  | nil => exact Tallies.done found?
  | cons x rest ih =>
      obtain ⟨block, digit⟩ := x
      rw [comparePairs_cons]
      exact (compareBlock_tallies h).bind fun found => ih (some found)

theorem comparePairs_fails (h : e.Intact) {pairs : List (LweBlock × Int)}
    (hpairs : ∀ x ∈ pairs, e.Made x.1) {found? : Option LweBlock}
    (hfound : ∀ c ∈ found?, e.Formed c) (hbad : ∃ x ∈ pairs, ¬ UnderLarge x.1) :
    (e.comparePairs found? pairs).Fails Session.Silent := by
  induction pairs generalizing found? with
  | nil => simp at hbad
  | cons x rest ih =>
      obtain ⟨block, digit⟩ := x
      have made := hpairs (block, digit) (by simp)
      rw [comparePairs_cons]
      by_cases large : UnderLarge block
      · have later : ∃ y ∈ rest, ¬ UnderLarge y.1 := by
          obtain ⟨y, hy, hbad⟩ := hbad
          rcases List.mem_cons.1 hy with rfl | hy
          · exact absurd large hbad
          · exact ⟨y, hy, hbad⟩
        apply (compareBlock_formed h (made.formed large) hfound).bind_always
        intro found hfound
        exact ih (fun y hy => hpairs y (List.mem_cons_of_mem _ hy))
          (by rintro c ⟨⟩; exact hfound) later
      · obtain ⟨failure, hrefused⟩ := compareBlock_refused h made large
        rw [hrefused]
        exact ⟨failure, rfl⟩

/-- A comparison that is not caught midway fails at once or not at all. -/
theorem comparePairs_upfront (h : e.Intact) {pairs : List (LweBlock × Int)}
    (hpairs : ∀ x ∈ pairs, e.Made x.1) {found? : Option LweBlock}
    (hfound : ∀ c ∈ found?, e.Formed c ∧ c.trivial = true) (hsome : pairs ≠ [] ∨ found? ≠ none)
    (hnot : ¬ CaughtMidway (fun x => UnderLarge x.1) (fun x => Live x.1) pairs) :
    (e.comparePairs found? pairs).Upfront Session.Silent fun found? =>
      ∃ c, found? = some c ∧ e.Formed c := by
  induction pairs generalizing found? with
  | nil =>
      cases found? with
      | none => simp at hsome
      | some c => exact (Yields.done ⟨c, rfl, (hfound c rfl).1⟩).upfront
  | cons x rest ih =>
      obtain ⟨block, digit⟩ := x
      have made := hpairs (block, digit) (by simp)
      by_cases large : UnderLarge block
      · rw [CaughtMidway.cons_iff] at hnot
        by_cases live : Live block
        · have all : ∀ y ∈ (block, digit) :: rest, e.Formed y.1 := by
            intro y hy
            have sound : UnderLarge y.1 := by
              rcases List.mem_cons.1 hy with rfl | hy
              · exact large
              · by_contra bad
                exact hnot ⟨large, .inl ⟨live, y, hy, bad⟩⟩
            exact (hpairs y hy).formed sound
          exact (comparePairs_formed h all (fun c hc => (hfound c hc).1) hsome).upfront
        · obtain ⟨n, hknown⟩ := compareBlock_known h (made.formed large) live hfound
          rw [comparePairs_cons, hknown, bind_done]
          exact ih (fun y hy => hpairs y (List.mem_cons_of_mem _ hy)) (h.known n)
            (.inr (by simp)) fun later => hnot ⟨large, .inr later⟩
      · obtain ⟨failure, hrefused⟩ := compareBlock_refused h made large
        rw [comparePairs_cons, hrefused, bind_fail]
        exact .fail failure

/-- A comparison that is caught midway has counted what it did before. -/
theorem comparePairs_wastes (h : e.Intact) {pairs : List (LweBlock × Int)}
    (hpairs : ∀ x ∈ pairs, e.Made x.1) {found? : Option LweBlock}
    (hfound : ∀ c ∈ found?, e.Formed c ∧ c.trivial = true)
    (hcaught : CaughtMidway (fun x => UnderLarge x.1) (fun x => Live x.1) pairs) :
    (e.comparePairs found? pairs).Wastes := by
  induction pairs generalizing found? with
  | nil => exact (CaughtMidway.nil_iff.1 hcaught).elim
  | cons x rest ih =>
      obtain ⟨block, digit⟩ := x
      have made := hpairs (block, digit) (by simp)
      have madeRest : ∀ y ∈ rest, e.Made y.1 := fun y hy => hpairs y (List.mem_cons_of_mem _ hy)
      obtain ⟨large, hcaught⟩ := CaughtMidway.cons_iff.1 hcaught
      rw [comparePairs_cons]
      by_cases live : Live block
      · have later : ∃ y ∈ rest, ¬ UnderLarge y.1 :=
          hcaught.elim (fun here => here.2) fun there => there.exists_unsound
        refine (compareBlock_works h (made.formed large) live fun c hc => (hfound c hc).1).wastes
          (G := Session.Silent) (fun found _ => comparePairs_tallies h.unguarded rest _)
          fun found hfound => ?_
        exact comparePairs_fails h madeRest (by rintro c ⟨⟩; exact hfound) later
      · obtain ⟨n, hknown⟩ := compareBlock_known h (made.formed large) live hfound
        rw [hknown, bind_done]
        exact ih madeRest (h.known n) (hcaught.resolve_left fun here => live here.1)

/-- Pairs of blocks and digits are caught midway where the blocks are. -/
theorem caughtMidway_zip {sound working : LweBlock → Prop} {x : RadixInteger LweBlock}
    {radix : Nat} {scalar : Int} :
    CaughtMidway (fun z : LweBlock × Int => sound z.1) (fun z => working z.1)
        (x.blocks.zip (digits radix x.width scalar)) ↔
      CaughtMidway sound working x.blocks := by
  have count : (digits radix x.width scalar).length = x.blocks.length := length_digits ..
  rw [← CaughtMidway.map_iff, List.map_fst_zip (by omega)]

theorem atLeast_upfront (h : e.Intact) {x : RadixInteger LweBlock} (hx : e.MadeInteger x)
    {scalar : Int}
    (hnot : 0 < scalar → scalar < (e.messageModulus : Int) ^ x.width →
      ¬ CaughtMidway UnderLarge Live x.blocks) :
    (e.atLeast x scalar).Upfront Session.Silent e.Made := by
  have made : ∀ z ∈ x.blocks.zip (digits e.messageModulus x.width scalar), e.Made z.1 :=
    fun z hz => hx _ (List.of_mem_zip hz).1
  unfold atLeast
  rw [bind_eq, enter_bind h.unguarded]
  split
  · exact (Yields.done (.inl (h.formed_publicBlock (by decide)))).upfront
  · split
    · exact (Yields.done (.inl (h.formed_publicBlock le_rfl))).upfront
    · rename_i positive below
      -- a positive number below the capacity has a digit, so there is a first comparison
      have some : x.blocks.zip (digits e.messageModulus x.width scalar) ≠ [] := by
        intro hnil
        have none : x.width = 0 := by
          have count := congrArg List.length hnil
          rw [List.length_zip, length_digits] at count
          unfold RadixInteger.width at *
          simpa using count
        rw [none, pow_zero] at below
        omega
      have notCaught := hnot (by omega) (by omega)
      refine (comparePairs_upfront h made (by simp) (.inl some)
        (caughtMidway_zip.not.2 notCaught)).bind ?_
      rintro _ ⟨found, rfl, hfound⟩
      refine (applyTable_formed h hfound fun m => ?_).mono fun c hc => .inl hc
      split <;> decide

theorem atLeast_wastes (h : e.Intact) {x : RadixInteger LweBlock} (hx : e.MadeInteger x)
    {scalar : Int} (hpositive : 0 < scalar) (hbelow : scalar < (e.messageModulus : Int) ^ x.width)
    (hcaught : CaughtMidway UnderLarge Live x.blocks) : (e.atLeast x scalar).Wastes := by
  have made : ∀ z ∈ x.blocks.zip (digits e.messageModulus x.width scalar), e.Made z.1 :=
    fun z hz => hx _ (List.of_mem_zip hz).1
  unfold atLeast
  rw [bind_eq, enter_bind h.unguarded, if_neg (by omega), if_neg (by omega)]
  exact (comparePairs_wastes h made (by simp) (caughtMidway_zip.2 hcaught)).bind

end SimulatedEngine

/-! ### Registers of made operands -/

/-- An item that is related to itself only, and if it is of a kind. -/
def Itself {α : Type} (P : α → Prop) (a b : α) : Prop := b = a ∧ P a

theorem Agree.itself {ε α : Type} {R : α → α → Prop} {x : Except ε α} (h : Agree R x x) {a : α}
    (ha : x = .ok a) : R a a := by
  subst ha
  cases h with
  | ok related => exact related

theorem forall₂_itself {α : Type} {P : α → Prop} {xs : List α} :
    List.Forall₂ (Itself P) xs xs ↔ ∀ x ∈ xs, P x :=
  List.forall₂_same.trans ⟨fun h x hx => (h x hx).2, fun h x hx => ⟨rfl, h x hx⟩⟩

namespace SimulatedEngine

variable {e : SimulatedEngine} {rs : Registers LweBlock LweBatch}

/-- Registers that hold nothing but what the engine has made. -/
def Holding (e : SimulatedEngine) (rs : Registers LweBlock LweBatch) : Prop :=
  rs.Each (Itself e.Made) (Itself e.MadeAll) rs

/-- What an operation yields is made by the engine, or decrypted. -/
def MadeProduct (e : SimulatedEngine) (p : Product LweBlock LweBatch) : Prop :=
  p.Each (Itself e.Made) (Itself e.MadeAll) p

theorem Holding.single (hrs : e.Holding rs) {part name : String} {c : LweBlock}
    (hc : rs.single part name = .ok c) : e.Made c :=
  ((Registers.Each.single hrs part name).itself hc).2

theorem Holding.batch (hrs : e.Holding rs) {name : String} {b : LweBatch}
    (hb : rs.batch name = .ok b) : e.MadeAll b :=
  ((Registers.Each.batch hrs name).itself hb).2

theorem Holding.wholeBatch (hrs : e.Holding rs) {name : String} {b : LweBatch}
    (hb : rs.wholeBatch name = .ok b) : e.MadeAll b :=
  ((Registers.Each.wholeBatch hrs name).itself hb).2

theorem Holding.radix (hrs : e.Holding rs) {part name : String} {x : RadixInteger LweBlock}
    (hx : rs.radix part name = .ok x) : e.MadeInteger x :=
  forall₂_itself.1 ((Registers.Each.radix hrs part name).itself hx)

theorem Holding.singles (hrs : e.Holding rs) {names : List String} {cs : List LweBlock}
    (hcs : rs.singles names = .ok cs) : ∀ c ∈ cs, e.Made c :=
  forall₂_itself.1 ((Registers.Each.singles hrs names).itself hcs)

theorem Holding.select (hrs : e.Holding rs) {name : String} {index : Int} {c : LweBlock}
    (hc : rs.select name index = .ok c) : e.Made c :=
  ((Registers.Each.select hrs name index).itself hc).2

theorem Holding.store (hrs : e.Holding rs) (target? : Option String)
    {p : Product LweBlock LweBatch} (hp : e.MadeProduct p) :
    e.Holding (Instruction.store rs target? p) := by
  cases hp with
  | operand ho =>
      cases target? with
      | none => exact hrs
      | some name => exact Registers.Each.assign hrs name ho
  | integer n => cases target? <;> exact hrs
  | truth t => cases target? <;> exact hrs

/-! ### Operations on registers -/

/-- Digits of a number fit the message space, so they are encrypted without a failure. -/
theorem encryptEach_made (h : e.Intact) (hroom : e.totalModulus ≤ 2 ^ 63) {messages : List Int}
    (hmessages : ∀ v ∈ messages, 0 ≤ v ∧ v < e.totalModulus) :
    (Instruction.encryptEach e.engine messages).Yields Session.Silent fun cs =>
      ∀ c ∈ cs, e.Made c := by
  induction messages with
  | nil => exact Yields.done (by simp)
  | cons v rest ih =>
      have accepted : requireMessages e.totalModulus [v] = .ok () :=
        requireMessages_ok hroom (by simpa using hmessages v (by simp))
      have here : (e.encrypt v).Yields Session.Silent e.Made := by
        rcases encrypt_upfront h v with ⟨failure, hfailed⟩ | hyields
        · unfold encrypt at hfailed
          rw [bind_eq, enter_bind h.unguarded, accepted] at hfailed
          cases hfailed
        · exact hyields
      unfold Instruction.encryptEach
      apply here.bind
      intro c hc
      apply (ih fun v hv => hmessages v (List.mem_cons_of_mem _ hv)).bind
      intro cs hcs
      exact Yields.done (List.forall_mem_cons.2 ⟨hc, hcs⟩)

/-- When an operation on registers is interrupted after it has counted something:
a table is evaluated of which the lookup cannot be tabulated,
a batch is bootstrapped with such a lookup among others,
or an addition or a comparison that has worked on some blocks meets one under the small key. -/
def Interrupted (e : SimulatedEngine) (rs : Registers LweBlock LweBatch) : OwnInstruction → Prop
  | .evaluateTable source lookup => ∃ c, rs.single "key" source = .ok c ∧ c.key = .large ∧
      (lookup.tabulate e.totalModulus).isOk = false
  | .bootstrapAll source lookups => ∃ b, rs.batch source = .ok b ∧ b.key = .small ∧
      lookups.length = b.length ∧ ∃ l ∈ lookups, (l.tabulate e.totalModulus).isOk = false
  | .add left right => ∃ x y, rs.radix "width" left = .ok x ∧ rs.radix "width" right = .ok y ∧
      x.width = y.width ∧ CaughtMidway BothLarge OneLive (x.blocks.zip y.blocks)
  | .atLeast source scalar => ∃ x, rs.radix "width" source = .ok x ∧ 0 < scalar ∧
      scalar < (e.messageModulus : Int) ^ x.width ∧ CaughtMidway UnderLarge Live x.blocks
  | _ => False

/-- An operation that is not interrupted fails at once or not at all. -/
theorem perform_upfront (h : e.Intact) (hroom : e.totalModulus ≤ 2 ^ 63) (hrs : e.Holding rs)
    {i : OwnInstruction} (hnot : ¬ e.Interrupted rs i) :
    (i.on.perform e.engine rs).Upfront Session.Silent e.MadeProduct := by
  have tabulated : ∀ {l : DigitLookup}, ¬ (l.tabulate e.totalModulus).isOk = false →
      (l.tabulate e.totalModulus).isOk = true := fun hl => Bool.eq_true_of_not_eq_false hl
  cases i
  all_goals simp only [OwnInstruction.on, Instruction.map, Instruction.perform, bind_eq, pure_eq]
  case load o => exact (Yields.done (.operand (o.map_each _ _))).upfront
  case encrypt value =>
    exact (encrypt_upfront h value).bind fun c hc => Yields.done (.operand (.single ⟨rfl, hc⟩))
  case encryptAll values =>
    exact (encryptAll_upfront h values).bind fun b hb => Yields.done (.operand (.batch ⟨rfl, hb⟩))
  case encryptDigits value width =>
    have small : (e.messageModulus : Int) ≤ e.totalModulus := by
      exact_mod_cast Nat.le_mul_of_pos_right _ (Nat.two_pow_pos _)
    have positive : (0 : Int) < e.messageModulus := by exact_mod_cast Nat.two_pow_pos _
    refine ((encryptEach_made h hroom fun v hv => ?_).bind fun cs hcs => ?_).upfront
    · have range := digits_range positive width value v hv
      exact ⟨range.1, range.2.trans_le small⟩
    · exact Yields.done (.operand (.radix (forall₂_itself.2 hcs)))
  case assemble blocks =>
    exact .check fun cs hcs =>
      (Yields.done (.operand (.radix (forall₂_itself.2 (hrs.singles hcs))))).upfront
  case select source index =>
    exact .check fun c hc => (Yields.done (.operand (.single ⟨rfl, hrs.select hc⟩))).upfront
  case keyswitch source =>
    exact .check fun c hc => (keyswitch_upfront h (hrs.single hc)).bind fun c hc =>
      Yields.done (.operand (.single ⟨rfl, hc⟩))
  case keyswitchAll source =>
    exact .check fun b hb => (keyswitchAll_upfront h (hrs.batch hb)).bind fun b hb =>
      Yields.done (.operand (.batch ⟨rfl, hb⟩))
  case download source =>
    exact .check fun b hb => (download_upfront h (hrs.wholeBatch hb)).bind fun cs hcs =>
      Yields.done (.operand (.many (forall₂_itself.2 hcs)))
  case upload sources =>
    exact .check fun cs hcs => (upload_upfront h (hrs.singles hcs)).bind fun b hb =>
      Yields.done (.operand (.batch ⟨rfl, hb⟩))
  case bootstrap source lookup =>
    exact .check fun c hc => (bootstrap_upfront h (hrs.single hc) lookup).bind fun c hc =>
      Yields.done (.operand (.single ⟨rfl, hc⟩))
  case evaluateTable source lookup =>
    refine .check fun c hc => ?_
    have usable : c.key = .large → (lookup.tabulate e.totalModulus).isOk = true :=
      fun large => tabulated fun bad => hnot ⟨c, hc, large, bad⟩
    exact (evaluateTable_upfront h (hrs.single hc) usable).bind fun c hc =>
      Yields.done (.operand (.single ⟨rfl, hc⟩))
  case bootstrapAll source lookups =>
    refine .check fun b hb => ?_
    have usable : b.key = .small → lookups.length = b.length →
        ∀ l ∈ lookups, (l.tabulate e.totalModulus).isOk = true :=
      fun small count l hl => tabulated fun bad => hnot ⟨b, hb, small, count, l, hl, bad⟩
    exact (bootstrapAll_upfront h (hrs.batch hb) usable).bind fun b hb =>
      Yields.done (.operand (.batch ⟨rfl, hb⟩))
  case publicZero width =>
    exact (publicZero_upfront h width).bind fun x hx =>
      Yields.done (.operand (.radix (forall₂_itself.2 hx)))
  case widen source width =>
    exact .check fun x hx => (widen_upfront h (hrs.radix hx) width).bind fun y hy =>
      Yields.done (.operand (.radix (forall₂_itself.2 hy)))
  case add left right =>
    refine .check fun x hx => .check fun y hy => ?_
    have clean : x.width = y.width → ¬ CaughtMidway BothLarge OneLive (x.blocks.zip y.blocks) :=
      fun same caught => hnot ⟨x, y, hx, hy, same, caught⟩
    exact (add_upfront h (hrs.radix hx) (hrs.radix hy) clean).bind fun z hz =>
      Yields.done (.operand (.radix (forall₂_itself.2 hz)))
  case atLeast source scalar =>
    refine .check fun x hx => ?_
    have clean : 0 < scalar → scalar < (e.messageModulus : Int) ^ x.width →
        ¬ CaughtMidway UnderLarge Live x.blocks :=
      fun positive below caught => hnot ⟨x, hx, positive, below, caught⟩
    exact (atLeast_upfront h (hrs.radix hx) clean).bind fun c hc =>
      Yields.done (.operand (.single ⟨rfl, hc⟩))
  case decrypt source =>
    exact .check fun c hc => ((decrypt_made h (hrs.single hc)).bind fun n _ =>
      Yields.done (.integer n)).upfront
  case decryptInteger source =>
    exact .check fun x hx => ((decryptInteger_made h (hrs.radix hx)).bind fun n _ =>
      Yields.done (.integer n)).upfront
  case decryptTruth source =>
    exact .check fun c hc => ((decryptTruth_made h (hrs.single hc)).bind fun t _ =>
      Yields.done (.truth t)).upfront

/-- An interrupted operation has counted something, and then fails. -/
theorem perform_wastes (h : e.Intact) (hrs : e.Holding rs) {i : OwnInstruction}
    (hi : e.Interrupted rs i) : (i.on.perform e.engine rs).Wastes := by
  cases i
  case evaluateTable source lookup =>
    obtain ⟨c, hc, large, bad⟩ := hi
    simp only [OwnInstruction.on, Instruction.map, Instruction.perform, bind_eq, hc,
      ofExcept_ok_bind]
    exact (evaluateTable_wastes h ((hrs.single hc).formed large) bad).bind
  case bootstrapAll source lookups =>
    obtain ⟨b, hb, small, count, l, hl, bad⟩ := hi
    simp only [OwnInstruction.on, Instruction.map, Instruction.perform, bind_eq, hb,
      ofExcept_ok_bind]
    exact (bootstrapAll_wastes h (hrs.batch hb) small count hl bad).bind
  case add left right =>
    obtain ⟨x, y, hx, hy, same, caught⟩ := hi
    simp only [OwnInstruction.on, Instruction.map, Instruction.perform, bind_eq, hx, hy,
      ofExcept_ok_bind]
    exact (add_wastes h (hrs.radix hx) (hrs.radix hy) same caught).bind
  case atLeast source scalar =>
    obtain ⟨x, hx, positive, below, caught⟩ := hi
    simp only [OwnInstruction.on, Instruction.map, Instruction.perform, bind_eq, hx,
      ofExcept_ok_bind]
    exact (atLeast_wastes h (hrs.radix hx) positive below caught).bind
  all_goals exact hi.elim

/-! ### Reached states -/

/-- The registers and the session that an engine comes to by performing operations one after the
other, failed ones included, on nothing but what it has made itself. -/
inductive Reached (e : SimulatedEngine) : Registers LweBlock LweBatch → Session → Prop where
  | start (s : Session) : Reached e [] s
  | step {rs rs' : Registers LweBlock LweBatch} {s s' : Session}
      {result : Except Failure (Product LweBlock LweBatch)} (before : Reached e rs s)
      (target? : Option String) (i : OwnInstruction)
      (performed : (i.on.performInto e.engine rs target?).run s = (.ok (result, rs'), s')) :
      Reached e rs' s'

/-- What an engine comes to by one more operation. -/
def advance (e : SimulatedEngine) (state : Registers LweBlock LweBatch × Session)
    (line : Option String × OwnInstruction) : Registers LweBlock LweBatch × Session :=
  match (line.2.on.performInto e.engine state.1 line.1).run state.2 with
  | (.ok (_, rs), s) => (rs, s)
  | (.error _, s) => (state.1, s)

theorem Reached.advance {state : Registers LweBlock LweBatch × Session}
    (h : e.Reached state.1 state.2) (line : Option String × OwnInstruction) :
    e.Reached (e.advance state line).1 (e.advance state line).2 := by
  have performing : (line.2.on.performInto e.engine state.1 line.1).Yields _ _ :=
    Instruction.performInto_yields line.1 line.2.on
  obtain ⟨r, hr, -⟩ := performing.run state.2
  unfold SimulatedEngine.advance
  split
  · rename_i performed
    exact h.step line.1 line.2 performed
  · rename_i failed
    rw [failed] at hr
    cases hr

/-- Every sequence of operations leads somewhere. -/
theorem Reached.follow {state : Registers LweBlock LweBatch × Session}
    (h : e.Reached state.1 state.2) (program : OwnProgram) :
    e.Reached (program.foldl e.advance state).1 (program.foldl e.advance state).2 := by
  induction program generalizing state with
  | nil => exact h
  | cons line rest ih => exact ih (h.advance line)

/-- Whatever is performed, all that an engine holds stays of its own making. -/
theorem Reached.holding (h : e.Intact) (hroom : e.totalModulus ≤ 2 ^ 63) {s : Session}
    (hreached : e.Reached rs s) : e.Holding rs := by
  induction hreached with
  | start s => exact .nil
  | @step rs rs' s s' result before target? i performed ih =>
      unfold Instruction.performInto at performed
      rw [bind_eq, run_bind, run_attempt] at performed
      cases hrun : (i.on.perform e.engine rs).run s with
      | mk outcome after =>
          rw [hrun] at performed
          cases outcome with
          | error failure =>
              cases performed
              exact ih
          | ok p =>
              cases performed
              have clean : ¬ e.Interrupted rs i := by
                intro hi
                obtain ⟨⟨failure, hfailed⟩, _⟩ := (perform_wastes h ih hi).run s
                rw [hrun] at hfailed
                cases hfailed
              exact ih.store target? ((perform_upfront h hroom ih clean).ok hrun)

/-- An operation fails and leaves other counters, or another position of the tape, behind if and
only if it is interrupted. Any other operation that fails leaves the whole session as it was. -/
theorem leaves_trace_iff {p : LweParameters} {tape : Tape}
    (he : ofTape p tape SimulatedEngine.unguarded = .ok e) {s : Session}
    (hreached : e.Reached rs s) (i : OwnInstruction) :
    ((∃ failure s', (i.on.perform e.engine rs).run s = (.error failure, s') ∧
        (s'.counts ≠ s.counts ∨ s'.position ≠ s.position)) ↔ e.Interrupted rs i) ∧
      ∀ failure s', (i.on.perform e.engine rs).run s = (.error failure, s') →
        ¬ e.Interrupted rs i → s' = s := by
  have h := intact_ofTape he
  obtain ⟨rfl, _, _, _, hroom⟩ := ofTape_eq_ok he
  have hrs := hreached.holding h hroom
  have unchanged : ∀ failure s', (i.on.perform e.engine rs).run s = (.error failure, s') →
      ¬ e.Interrupted rs i → s' = s :=
    fun failure s' hrun hnot => (perform_upfront h hroom hrs hnot).unchanged hrun
  refine ⟨⟨?_, fun hi => ?_⟩, unchanged⟩
  · rintro ⟨failure, s', hrun, moved⟩
    by_contra hnot
    rw [unchanged failure s' hrun hnot] at moved
    simp at moved
  · obtain ⟨⟨failure, hfailed⟩, counted⟩ := (perform_wastes h hrs hi).run s
    exact ⟨failure, _, Prod.ext hfailed rfl, .inl counted⟩

/-- An integer of two blocks, the second of which stands under the small key. -/
def mixedKeys : Registers LweBlock LweBatch × Session :=
  List.foldl smallest.advance ([], Session.start)
    [(some "a", .encrypt 1), (some "b", .keyswitch "a"), (some "x", .assemble ["a", "b"])]

theorem reached_mixedKeys : smallest.Reached mixedKeys.1 mixedKeys.2 :=
  (Reached.start Session.start).follow _

/-- Such an integer is added to itself up to the first block, which is counted. -/
theorem add_mixedKeys :
    ∃ failure s', (Instruction.perform smallest.engine mixedKeys.1
        (OwnInstruction.on (.add "x" "x"))).run mixedKeys.2 = (.error failure, s') ∧
      s'.counts ≠ mixedKeys.2.counts := by
  have failed : ((Instruction.perform smallest.engine mixedKeys.1
      (OwnInstruction.on (.add "x" "x"))).run mixedKeys.2).1.isOk = false := by decide +kernel
  have counted : ((Instruction.perform smallest.engine mixedKeys.1
      (OwnInstruction.on (.add "x" "x"))).run mixedKeys.2).2.counts ≠ mixedKeys.2.counts := by
    decide +kernel
  generalize (Instruction.perform smallest.engine mixedKeys.1
    (OwnInstruction.on (.add "x" "x"))).run mixedKeys.2 = outcome at failed counted
  obtain ⟨result, s'⟩ := outcome
  cases result with
  | ok p => cases failed
  | error failure => exact ⟨failure, s', rfl, counted⟩

theorem leaves_trace_iff_mixed :
    ofTape smallest.parameters smallest.tape SimulatedEngine.unguarded = .ok smallest ∧
      smallest.Reached mixedKeys.1 mixedKeys.2 ∧
      smallest.Interrupted mixedKeys.1 (.add "x" "x") := by
  have he : ofTape smallest.parameters smallest.tape SimulatedEngine.unguarded = .ok smallest := rfl
  obtain ⟨failure, s', hrun, counted⟩ := add_mixedKeys
  exact ⟨he, reached_mixedKeys, (leaves_trace_iff he reached_mixedKeys (.add "x" "x")).1.1
    ⟨failure, s', hrun, .inl counted⟩⟩

/-- Not every operation that fails leaves counters and tape as they were. -/
theorem add_leaves_trace :
    ¬ ∀ (rs : Registers LweBlock LweBatch) (s s' : Session) (i : OwnInstruction)
      (failure : Failure), smallest.Reached rs s →
        (i.on.perform smallest.engine rs).run s = (.error failure, s') →
        s'.counts = s.counts ∧ s'.position = s.position := by
  intro claimed
  obtain ⟨failure, s', hrun, counted⟩ := add_mixedKeys
  exact counted (claimed _ _ _ _ failure reached_mixedKeys hrun).1

end SimulatedEngine

end SealedMatch
