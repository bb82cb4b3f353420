/-
Module: SealedMatch.Proofs.Matching.Arrivals
Purpose: Whatever the order in which results arrive, they are regrouped as a buffer of all of them
  would be cut.
Trusted boundary: none
Main exports: EnrolledTemplate.Enumerated, LookupPlan.Regrouped, LookupPlan.hostFeatures_regrouped,
  LookupPlan.foldOnHost_arrivals, LookupPlan.regrouped_any_order
-/
import Mathlib.Data.List.Range
import SealedMatch.Proofs.Matching.Evaluations

namespace SealedMatch

open Process hiding bind bind_assoc

/-! ### Templates with any digit counts -/

/-- The lookups of a template have been bound, with some number of digits for each feature. -/
def EnrolledTemplate.Enumerated (t : EnrolledTemplate) : Prop :=
  ∃ template tables counts, bindTemplate template tables counts = .ok t.lookups

/-- The lookups of a template have been bound to its codes, with some number of digits for each
feature. -/
def EnrolledTemplate.Binds (t : EnrolledTemplate) (template : List Int) : Prop :=
  ∃ tables counts, bindTemplate template tables counts = .ok t.lookups

theorem EnrolledTemplate.Binds.enumerated {t : EnrolledTemplate} {template : List Int}
    (h : t.Binds template) : t.Enumerated := by
  obtain ⟨tables, counts, hbind⟩ := h
  exact ⟨template, tables, counts, hbind⟩

theorem TemplateCompiler.binds_of_compile {c : TemplateCompiler} {template : List Int}
    {earlyStop : Bool} {compiled : EnrolledTemplate}
    (h : c.compile template earlyStop = .ok compiled) : compiled.Binds template := by
  unfold compile at h
  obtain ⟨lookups, hbind, h⟩ := bind_eq_ok h
  cases h
  exact ⟨_, _, hbind⟩

theorem bindFrom_inBlockOrder {counts : List Int} {feature : Nat} {xs : List (Int × Tensor)}
    {lookups : List (List DigitLookup)} (h : bindFrom counts feature xs = .ok lookups) :
    ∀ row ∈ lookups, LookupPlan.InBlockOrder row := by
  intro row hrow
  obtain ⟨f, hf⟩ := List.getElem?_of_mem hrow
  obtain ⟨code, table, count, _, rfl⟩ := bindFrom_row h hf
  unfold LookupPlan.InBlockOrder
  rw [List.map_map, List.length_map, List.length_range]
  rfl

theorem EnrolledTemplate.Enumerated.inBlockOrder {t : EnrolledTemplate} (h : t.Enumerated) :
    ∀ row ∈ t.lookups, LookupPlan.InBlockOrder row := by
  obtain ⟨template, tables, counts, hbind⟩ := h
  unfold bindTemplate at hbind
  split at hbind
  · cases hbind
  · exact bindFrom_inBlockOrder hbind

/-! ### The positions of a plan -/

namespace LookupPlan

variable {p : LookupPlan} {features : List (Int × List DigitLookup)}

/-- The positions of each feature. -/
def places (p : LookupPlan) : List (List Nat) := p.digitCounts.ranges

theorem map_length_places : p.places.map List.length = p.digitCounts :=
  List.ranges_length _

theorem Lays.lookupCount_eq (h : p.Lays features) : p.lookupCount = p.digitCounts.sum := by
  unfold lookupCount
  rw [h.lookups_eq, List.length_flatMap, h.digitCounts_eq]

theorem Lays.flatten_places (h : p.Lays features) :
    p.places.flatten = List.range p.lookupCount := by
  unfold places
  rw [List.ranges_flatten, h.lookupCount_eq]

/-- A buffer with a result for every position is cut into the results of the features' positions. -/
theorem Lays.cutOutputs_range {α : Type} (h : p.Lays features) (result : Nat → α) :
    p.cutOutputs ((List.range p.lookupCount).map result) =
      p.places.mapIdx fun f row => (f, row.map result) := by
  have lengths : (p.places.map (List.map result)).map List.length =
      features.map (·.2.length) := by
    rw [List.map_map, ← h.digitCounts_eq, ← map_length_places]
    simp
  rw [← h.flatten_places, List.map_flatten, h.cutOutputs_flatten lengths]
  apply List.ext_getElem (by simp)
  intro f hf hf'
  simp

/-- Slices end within the positions. -/
theorem Lays.slice_le (h : p.Lays features) {slice : Nat × Nat} (hslice : slice ∈ p.slices) :
    slice.2 ≤ p.lookupCount := by
  rw [h.slices_eq] at hslice
  obtain ⟨f, _, rfl⟩ := List.mem_map.1 hslice
  have split := List.sum_take_add_sum_drop (features.map (·.2.length)) (f + 1)
  rw [h.lookupCount_eq, h.digitCounts_eq]
  simp only
  omega

/-! ### Regrouped results -/

/-- Features with the results of their positions: every feature once, each with the results of the
positions of its slice, which are its blocks in order, and all together a buffer of all results cut
into features. -/
structure Regrouped {α : Type} (p : LookupPlan) (result : Nat → α)
    (features : List (Nat × List α)) : Prop where
  once : (features.map Prod.fst).Perm (List.range p.featureCount)
  digits : ∀ x ∈ features, ∃ start stop, p.slices[x.1]? = some (start, stop) ∧
    x.2 = (List.range' start (stop - start)).map result ∧
    ∀ j, start + j < stop →
      p.features[start + j]? = some x.1 ∧ p.blocks[start + j]? = some (j : Int)
  cut : features.Perm (p.cutOutputs ((List.range p.lookupCount).map result))

theorem drop_take_range {α : Type} (result : Nat → α) (start : Nat) {stop count : Nat}
    (hstop : stop ≤ count) :
    (((List.range count).map result).drop start).take (stop - start) =
      (List.range' start (stop - start)).map result := by
  apply List.ext_getElem
  · simp
    omega
  · intro i hi hi'
    simp

/-- The positions of a feature are those of its slice. -/
theorem Lays.places_of_slice (h : p.Lays features) {f start stop : Nat}
    (hslice : p.slices[f]? = some (start, stop)) :
    p.places[f]? = some (List.range' start (stop - start)) := by
  have cut := congrArg (fun rows => rows[f]?) (h.cutOutputs_range id)
  have within := h.slice_le (List.mem_of_getElem? hslice)
  simp only [cutOutputs, List.getElem?_mapIdx, hslice, Option.map_some, List.map_id] at cut
  obtain ⟨row, hrow, heq⟩ := Option.map_eq_some_iff.1 cut.symm
  have entries := drop_take_range id start within
  rw [List.map_id, List.map_id] at entries
  rw [hrow]
  exact congrArg some ((Prod.ext_iff.1 heq).2.trans entries)

/-- The positions of a slice are the spots of its feature, one after the other. -/
theorem Lays.spot_at_slice (h : p.Lays features) {f start stop j : Nat}
    (hslice : p.slices[f]? = some (start, stop)) (hj : start + j < stop) :
    (spots p.places)[start + j]? = some (f, j) := by
  have hrow := h.places_of_slice hslice
  have column : (List.range' start (stop - start))[j]? = some (start + j) := by
    rw [List.getElem?_range' (by omega), Nat.one_mul]
  have spot : (f, j) ∈ spots p.places := mem_spots.2 ⟨_, hrow, by simp; omega⟩
  obtain ⟨i, hi⟩ := List.getElem?_of_mem spot
  have entry := getElem?_flatten_of_spot hi
  rw [hrow, Option.bind_some, column, h.flatten_places] at entry
  obtain ⟨inside, hget⟩ := List.getElem?_eq_some_iff.1 entry
  rw [List.getElem_range] at hget
  exact hget ▸ hi

/-- The positions of a slice belong to its feature, in block order. -/
theorem Lays.at_slice (h : p.Lays features) (hnumbers : p.Numbers p.places) {f start stop j : Nat}
    (hslice : p.slices[f]? = some (start, stop)) (hj : start + j < stop) :
    p.features[start + j]? = some f ∧ p.blocks[start + j]? = some (j : Int) := by
  have spot := h.spot_at_slice hslice hj
  constructor
  · rw [hnumbers.features_eq, List.getElem?_map, spot]
    rfl
  · rw [hnumbers.blocks_eq, List.getElem?_map, spot]
    rfl

/-- Features are regrouped as soon as they are the cut buffer in some order. -/
theorem Lays.regrouped {α : Type} (h : p.Lays features) (hnumbers : p.Numbers p.places)
    {result : Nat → α} {regrouped : List (Nat × List α)}
    (hcut : regrouped.Perm (p.cutOutputs ((List.range p.lookupCount).map result))) :
    p.Regrouped result regrouped := by
  refine ⟨?_, ?_, hcut⟩
  · have names : (p.cutOutputs ((List.range p.lookupCount).map result)).map Prod.fst =
        List.range p.featureCount := by
      apply List.ext_getElem (by simp [cutOutputs, featureCount])
      intro f hf hf'
      simp [cutOutputs]
    exact names ▸ hcut.map Prod.fst
  · intro x hx
    obtain ⟨f, hf, rfl⟩ := List.mem_iff_getElem.1 (hcut.subset hx)
    have inside : f < p.slices.length := by simpa [cutOutputs] using hf
    have slice : p.slices[f]? = some (p.slices[f].1, p.slices[f].2) :=
      List.getElem?_eq_getElem inside
    simp only [cutOutputs, List.getElem_mapIdx]
    exact ⟨_, _, slice, drop_take_range result _ (h.slice_le (List.getElem_mem inside)),
      fun j hj => h.at_slice hnumbers slice hj⟩

/-- Results handed over in an order of their positions. -/
def arrivals {α : Type} (result : Nat → α) (order : List Nat) : List (Nat × Except Failure α) :=
  order.map fun position => (position, .ok (result position))

/-- Keep every feature that is handed over. -/
def collect {σ α : Type} (features : List (Nat × List α)) (feature : Nat × List α) :
    Process σ Failure (List (Nat × List α)) :=
  .done (features ++ [feature])

section Collecting

variable {σ α : Type} {G : σ → σ → Prop} {result : Nat → α}

theorem foldFeatures_append {β : Type} (receive : β → Nat × List α → Process σ Failure β) (b : β)
    (early late : List (Nat × List α)) :
    foldFeatures receive b (early ++ late) =
      (foldFeatures receive b early).bind fun b => foldFeatures receive b late := by
  induction early generalizing b with
  | nil => rfl
  | cons x rest ih =>
      show (receive b x).bind _ = ((receive b x).bind _).bind _
      rw [Process.bind_assoc]
      exact congrArg _ (funext ih)

theorem foldFeatures_collect (features before : List (Nat × List α)) :
    foldFeatures (collect (σ := σ)) before features = .done (before ++ features) := by
  induction features generalizing before with
  | nil => rw [List.append_nil]; rfl
  | cons x rest ih =>
      unfold foldFeatures collect
      rw [bind_done]
      show foldFeatures collect (before ++ [x]) rest = _
      rw [ih, List.append_assoc]
      rfl

/-- Taking an arrival for collection is filing it. -/
theorem receiveArrival_collect (r : Regrouping α) (before : List (Nat × List α)) (position : Nat)
    (c : α) :
    receiveArrival p (collect (σ := σ)) (r, before) (position, .ok c) =
      Process.ofExcept ((r.file p position c).map fun x => (x.1, before ++ x.2.toList)) := by
  unfold receiveArrival
  simp only
  cases r.file p position c with
  | error e => rfl
  | ok filed =>
      obtain ⟨r', feature?⟩ := filed
      cases feature? with
      | none =>
          show Process.done (r', before) = Process.done (r', before ++ [])
          rw [List.append_nil]
      | some feature => rfl

/-- The end of a consumer to which nothing more is handed over, or a failure. -/
def endWith {β : Type} (failure? : Option Failure) (b : β) : Process σ Failure β :=
  match failure? with
  | none => .done b
  | some e => .fail e

/-- Taking arrivals one by one is taking the features that regrouping makes of them. -/
theorem consumeAll_features {β : Type} (receive : β → Nat × List α → Process σ Failure β)
    (r : Regrouping α) (b : β) (arrived : List (Nat × Except Failure α)) :
    (consumeAll (receiveArrival p receive) (r, b) arrived).bind (fun state => .done state.2) =
      (foldFeatures receive b (p.regroupFrom r arrived).1).bind
        (endWith (p.regroupFrom r arrived).2) := by
  induction arrived generalizing r b with
  | nil => rfl
  | cons x rest ih =>
      obtain ⟨position, outcome⟩ := x
      cases outcome with
      | error e => rfl
      | ok c =>
          unfold regroupFrom
          rw [consumeAll, Process.bind_assoc, receiveArrival]
          cases hfile : r.file p position c with
          | error e =>
              simp only [hfile]
              rfl
          | ok filed =>
              obtain ⟨r', feature?⟩ := filed
              cases feature? with
              | none =>
                  simp only [hfile]
                  exact ih r' b
              | some feature =>
                  simp only [hfile, foldFeatures, Process.bind_assoc]
                  exact congrArg _ (funext fun b => ih r' b)

/-- Regrouping in two portions. -/
theorem regroupFrom_append {r r' : Regrouping α} {yielded all : List (Nat × List α)}
    {arrived : List (Nat × Except Failure α)}
    (h : consumeAll (receiveArrival p (collect (σ := σ))) (r, yielded) arrived = .done (r', all))
    (rest : List (Nat × Except Failure α)) :
    ∃ more, all = yielded ++ more ∧ p.regroupFrom r (arrived ++ rest) =
      (more ++ (p.regroupFrom r' rest).1, (p.regroupFrom r' rest).2) := by
  induction arrived generalizing r yielded with
  | nil =>
      cases h
      exact ⟨[], (List.append_nil _).symm, rfl⟩
  | cons x arrived ih =>
      obtain ⟨position, outcome⟩ := x
      cases outcome with
      | error e => cases h
      | ok c =>
          unfold consumeAll at h
          rw [receiveArrival_collect] at h
          cases hfile : r.file p position c with
          | error e =>
              rw [hfile] at h
              cases h
          | ok filed =>
              obtain ⟨next, feature?⟩ := filed
              rw [hfile] at h
              obtain ⟨more, rfl, hmore⟩ := ih h
              refine ⟨feature?.toList ++ more, List.append_assoc _ _ _, ?_⟩
              cases feature? with
              | none => simp [regroupFrom, hfile, hmore]
              | some feature => simp [regroupFrom, hfile, hmore]

/-- What has been collected: the features taken, the last one first, with the results of their
positions. -/
def Collected (p : LookupPlan) (result : Nat → α) (done : List Nat)
    (features : List (Nat × List α)) : Prop :=
  features = done.reverse.map fun f => (f, (p.places.getD f []).map result)

theorem collect_takes (result : Nat → α) :
    Takes G (fun c position => c = result position) p.places (p.Collected result) collect := by
  intro done features f cs row hfeatures _ hrow hcs
  have digits : cs = (p.places.getD f []).map result := by
    rw [List.getD_eq_getElem?_getD, hrow, Option.getD_some, ← List.forall₂_eq_eq_eq,
      List.forall₂_map_right_iff]
    exact hcs
  refine Yields.done ?_
  unfold Collected at hfeatures ⊢
  rw [hfeatures, digits, List.reverse_cons, List.map_append]
  rfl

/-- All features, in whatever order, are the cut buffer in some order. -/
theorem Collected.regrouped (h : p.Lays features) (hnumbers : p.Numbers p.places)
    {done : List Nat} {collected : List (Nat × List α)}
    (hcollected : p.Collected result done collected)
    (hdone : done.Perm (List.range p.places.length)) : p.Regrouped result collected := by
  apply h.regrouped hnumbers
  rw [h.cutOutputs_range, hcollected]
  refine (((List.reverse_perm done).trans hdone).map _).trans (List.Perm.of_eq ?_)
  apply List.ext_getElem (by simp)
  intro f hf hf'
  have inside : f < p.places.length := by simpa using hf
  simp [inside]

/-! ### Every order -/

/-- What the consumer starts from: the features without digits have been handed over. -/
def collectStart (p : LookupPlan) : Regrouping α × List (Nat × List α) :=
  (.empty, p.emptyFeatures.map fun f => (f, []))

theorem hostFeatures_of_consumeAll {arrived : List (Nat × Except Failure α)}
    {state : Regrouping α × List (Nat × List α)}
    (h : consumeAll (receiveArrival p (collect (σ := σ))) p.collectStart arrived = .done state) :
    p.hostFeatures arrived = (state.2, none) := by
  obtain ⟨more, hall, hregroup⟩ := regroupFrom_append h []
  rw [List.append_nil] at hregroup
  unfold hostFeatures regroup
  rw [hregroup, hall]
  simp [regroupFrom]

/-- Arrivals are filed, and the features that are complete have been collected. -/
abbrev FiledResults (p : LookupPlan) (result : Nat → α) :
    List Nat → Regrouping α × List (Nat × List α) → Prop :=
  Filed (fun c position => c = result position) p.places (p.Collected result)

variable {R : α → Nat → Prop} {K : List Nat → List (Nat × List α) → Prop}

theorem collectStart_filed (hnumbers : p.Numbers p.places)
    (htakes : Takes (fun (_ _ : σ) => True) R p.places K collect) (hnone : K [] []) :
    Filed R p.places K [] (p.collectStart (α := α)) := by
  have collected := foldEmpty_yields hnumbers htakes hnone
  rw [foldFeatures_collect] at collected
  obtain ⟨features, heq, done, hcollected, nodup, hdone⟩ := collected
  cases heq
  exact filed_start hcollected nodup hdone

variable {state : Regrouping α × List (Nat × List α)} {taken : List Nat}

/-- A further result can be taken. -/
theorem receiveArrival_filed (h : p.Lays features) (hnumbers : p.Numbers p.places)
    (htakes : Takes (fun (_ _ : σ) => True) R p.places K collect)
    (hstate : Filed R p.places K taken state) {position : Nat} (inside : position < p.lookupCount)
    (fresh : position ∉ taken) {c : α} (hc : R c position) :
    ∃ next, receiveArrival p (collect (σ := σ)) state (position, .ok c) = .done next ∧
      Filed R p.places K (position :: taken) next := by
  have count : p.places.flatten.length = p.lookupCount := by
    rw [h.flatten_places, List.length_range]
  have here : ∀ x, p.places.flatten[position]? = some x → R c x := by
    intro x hx
    rw [h.flatten_places, List.getElem?_range inside] at hx
    cases hx
    exact hc
  have yields := receiveArrival_yields hnumbers htakes hstate (count ▸ inside) fresh here
  obtain ⟨r, before⟩ := state
  rw [receiveArrival_collect] at yields ⊢
  obtain ⟨next, hnext, hfiled⟩ := always_ofExcept.1 yields
  exact ⟨next, by rw [hnext]; rfl, hfiled⟩

/-- Results of different positions can be taken one after the other. -/
theorem consumeAll_filed (h : p.Lays features) (hnumbers : p.Numbers p.places)
    (htakes : Takes (fun (_ _ : σ) => True) R p.places K collect) (hnone : K [] [])
    {outcome : Nat → Except Failure α} {order : List Nat} (nodup : order.Nodup)
    (hresults : ∀ position ∈ order, position < p.lookupCount ∧
      ∃ c, outcome position = .ok c ∧ R c position) :
    ∃ state, consumeAll (receiveArrival p (collect (σ := σ))) p.collectStart
        (order.map fun position => (position, outcome position)) = .done state ∧
      Filed R p.places K order.reverse state := by
  induction order using List.reverseRec with
  | nil => exact ⟨p.collectStart, rfl, collectStart_filed hnumbers htakes hnone⟩
  | append_singleton order position ih =>
      have apart := List.nodup_append.1 nodup
      obtain ⟨state, hstate, hfiled⟩ := ih apart.1 fun q hq => hresults q (by simp [hq])
      have fresh : position ∉ order.reverse := fun hmem =>
        apart.2.2 position (List.mem_reverse.1 hmem) position (by simp) rfl
      obtain ⟨inside, c, hc, related⟩ := hresults position (by simp)
      obtain ⟨next, hnext, hfiled'⟩ := receiveArrival_filed h hnumbers htakes hfiled inside fresh
        related
      refine ⟨next, ?_, by simpa using hfiled'⟩
      rw [List.map_append, consumeAll_append, hstate, bind_done]
      show (receiveArrival p collect state (position, outcome position)).bind _ = _
      rw [hc, hnext]
      rfl

end Collecting

section Orders

variable {σ α : Type} {plan : LookupPlan} {probe : List Int} {compiled : EnrolledTemplate}

/-- The plan of a template with any digit counts numbers its positions by feature and block. -/
theorem numbers_places (hcompiled : compiled.Enumerated)
    (hplan : build probe compiled = .ok plan) :
    plan.Lays (probe.zip compiled.lookups) ∧ plan.Numbers plan.places := by
  obtain ⟨_, hlays, _⟩ := build_eq_ok hplan
  refine ⟨hlays, hlays.numbers ?_ ?_⟩
  · intro x hx
    exact hcompiled.inBlockOrder x.2 (List.of_mem_zip hx).2
  · rw [map_length_places, hlays.digitCounts_eq]

/-- In whatever order the results of all positions are handed over, they come out regrouped, and
none of them fails. -/
theorem hostFeatures_regrouped (hcompiled : compiled.Enumerated)
    (hplan : build probe compiled = .ok plan) (result : Nat → α) {order : List Nat}
    (horder : order.Perm (List.range plan.lookupCount)) :
    ∃ features, plan.hostFeatures (arrivals result order) = (features, none) ∧
      plan.Regrouped result features := by
  obtain ⟨hlays, hnumbers⟩ := numbers_places hcompiled hplan
  obtain ⟨state, hstate, hfiled⟩ : ∃ state,
      consumeAll (receiveArrival plan (collect (σ := Unit))) plan.collectStart
        (arrivals result order) = .done state ∧
      plan.FiledResults result order.reverse state :=
    consumeAll_filed hlays hnumbers (collect_takes result) rfl
      (horder.nodup_iff.2 List.nodup_range)
      fun q hq => ⟨List.mem_range.1 (horder.subset hq), _, rfl, rfl⟩
  have whole : order.reverse.Perm (List.range plan.places.flatten.length) := by
    rw [hlays.flatten_places, List.length_range]
    exact (List.reverse_perm order).trans horder
  obtain ⟨done, hdone, hcollected⟩ := hfiled.finish whole
  exact ⟨state.2, hostFeatures_of_consumeAll hstate, hcollected.regrouped hlays hnumbers hdone⟩

/-- Workers that collect: first the features without digits, then what is handed over. -/
theorem foldOnHost_collect {workers? : Option Int} {n : Int} (hworkers : workers? = some n)
    (hn : 1 ≤ n) (schedule : Schedule) (task : α → DigitLookup → Process σ Failure α)
    (cs : List α) :
    foldOnHost plan schedule workers? task cs collect [] =
      if plan.lookupCount = 0 then .done plan.collectStart.2
      else (gather (receiveArrival plan collect) schedule (positionTasks plan task cs)
        plan.collectStart).bind fun state => .done state.2 := by
  unfold foldOnHost
  rw [foldFeatures_collect, List.nil_append]
  simp only [bind_eq, bind_done, pure_eq, requireWorkers_eq hworkers hn]
  rfl

/-- What workers and their consumer hand over is what comes of the results in the order in which
they were queued. -/
theorem foldOnHost_arrivals (hcompiled : compiled.Enumerated)
    (hplan : build probe compiled = .ok plan) {G : σ → σ → Prop} {C : Type} {result : Nat → C}
    {task : C → DigitLookup → Process σ Failure C} {cs : List C}
    (hlength : cs.length = plan.lookupCount)
    (htasks : ∀ t ∈ positionTasks plan task cs, t.2.Yields G fun c => c = result t.1)
    {workers? : Option Int} {n : Int} (hworkers : workers? = some n) (hn : 1 ≤ n)
    (schedule : Schedule) :
    (foldOnHost plan schedule workers? task cs collect []).Yields G fun features =>
      ∃ order, order.Perm (List.range plan.lookupCount) ∧
        plan.hostFeatures (arrivals result order) = (features, none) := by
  obtain ⟨hlays, hnumbers⟩ := numbers_places hcompiled hplan
  have positions : (positionTasks plan task cs).map Prod.fst = List.range plan.lookupCount :=
    map_fst_positionTasks hlength
  rw [foldOnHost_collect hworkers hn]
  split
  · rename_i hnone
    refine Yields.done ⟨[], ?_, ?_⟩
    · rw [hnone]
      exact List.Perm.nil
    · exact congrArg (·, none) (List.append_nil _)
  · -- The invariant keeps the order in which the consumer has taken results.
    refine (gather_yields (T := fun position c => c = result position)
      (I := fun taken state => plan.FiledResults result taken state ∧
        consumeAll (receiveArrival plan (collect (σ := σ))) plan.collectStart
          (arrivals result taken.reverse) = .done state)
      (fun taken state position c hstate hposition fresh hc => ?_)
      (positions ▸ List.nodup_range) schedule htasks
      ⟨collectStart_filed hnumbers (collect_takes (σ := σ) result) rfl, rfl⟩).bind fun state hstate => ?_
    · subst hc
      rw [positions, List.mem_range] at hposition
      obtain ⟨next, hnext, hfiled⟩ := receiveArrival_filed hlays hnumbers (collect_takes result)
        hstate.1 hposition fresh rfl
      rw [hnext]
      refine Yields.done ⟨hfiled, ?_⟩
      rw [List.reverse_cons, arrivals, List.map_append, consumeAll_append]
      exact (congrArg (Process.bind · _) hstate.2).trans (congrArg (Process.bind · _) hnext)
    · obtain ⟨taken, perm, _, hconsumed⟩ := hstate
      refine Yields.done ⟨taken.reverse, ?_, hostFeatures_of_consumeAll hconsumed⟩
      exact (List.reverse_perm taken).trans (positions ▸ perm)

/-- Beside tasks without any action, a consumer takes the features that come of the outcomes in the
order in which the schedule has them handed over, and meets the failure that ends them, if any. -/
theorem foldOnHost_handOvers (plan : LookupPlan) (outcome : Nat → Except Failure α)
    {workers? : Option Int} {n : Int} (hworkers : workers? = some n) (hn : 1 ≤ n)
    {task : α → DigitLookup → Process σ Failure α} {cs : List α}
    (hlength : cs.length = plan.lookupCount)
    (htasks : ∀ t ∈ positionTasks plan task cs, t.2 = Process.ofExcept (outcome t.1))
    {schedule : Schedule} {order : List Nat}
    (horder : handOvers schedule (List.range plan.lookupCount) = order) {β : Type}
    (receive : β → Nat × List α → Process σ Failure β) (b : β) :
    foldOnHost plan schedule workers? task cs receive b =
      (foldFeatures receive b (plan.hostFeatures (order.map fun q => (q, outcome q))).1).bind
        (endWith (plan.hostFeatures (order.map fun q => (q, outcome q))).2) := by
  have positions : (positionTasks plan task cs).map Prod.fst = List.range plan.lookupCount :=
    map_fst_positionTasks hlength
  subst horder
  unfold foldOnHost hostFeatures regroup gather
  simp only [foldFeatures_append, Process.bind_assoc, bind_eq]
  refine congrArg _ (funext fun b => ?_)
  split
  · rename_i hnone
    have idle := handOvers_perm schedule (List.range plan.lookupCount)
    rw [hnone] at idle ⊢
    rw [idle.eq_nil]
    rfl
  · rw [requireWorkers_eq hworkers hn, bind_done, gatherFrom_eq schedule htasks, positions,
      bind_done, List.nil_append]
    exact consumeAll_features receive .empty b _

/-- Every order of the results is one in which workers may hand them over. -/
theorem exists_foldOnHost_eq (plan : LookupPlan) (result : Nat → α) {order : List Nat}
    (horder : order.Perm (List.range plan.lookupCount)) {workers? : Option Int} {n : Int}
    (hworkers : workers? = some n) (hn : 1 ≤ n) {features : List (Nat × List α)}
    (hfeatures : plan.hostFeatures (arrivals result order) = (features, none)) :
    ∃ schedule, foldOnHost plan schedule workers? (fun c _ => .done c)
      ((List.range plan.lookupCount).map result) (collect (σ := σ)) [] = .done features := by
  have length : ((List.range plan.lookupCount).map result).length = plan.lookupCount := by
    rw [List.length_map, List.length_range]
  have ready : ∀ t ∈ positionTasks plan (fun c _ => (.done c : Process σ Failure α))
      ((List.range plan.lookupCount).map result),
        t.2 = Process.ofExcept (.ok (result t.1)) := by
    intro t ht
    obtain ⟨c, lookup, hc, htask⟩ := mem_positionTasks length ht
    obtain ⟨inside, rfl⟩ := List.getElem?_eq_some_iff.1 hc
    rw [htask, List.getElem_map, List.getElem_range]
    rfl
  obtain ⟨schedule, hschedule⟩ := exists_handOvers horder
  refine ⟨schedule, (foldOnHost_handOvers plan (fun q => .ok (result q)) hworkers hn length ready
    hschedule collect []).trans ?_⟩
  have handed : plan.hostFeatures (order.map fun q => (q, .ok (result q))) = (features, none) :=
    hfeatures
  rw [handed, foldFeatures_collect]
  rfl

/-- For a template with any digit counts and a result for every position:

* in whatever order the results arrive, every feature comes out once, with the results of its slice
  in block order, and all features together are the cut buffer of all results;
* there are workers that finish in this order, and what they hand over is just that;
* whatever actions the workers take, and whenever it is whose turn, what they and their consumer
  hand over is what comes of some order. -/
theorem regrouped_any_order (hcompiled : compiled.Enumerated)
    (hplan : build probe compiled = .ok plan) (result : Nat → α) {workers? : Option Int} {n : Int}
    (hworkers : workers? = some n) (hn : 1 ≤ n) :
    (∀ order : List Nat, order.Perm (List.range plan.lookupCount) →
      ∃ features, plan.hostFeatures (arrivals result order) = (features, none) ∧
        plan.Regrouped result features ∧
        ∃ schedule, foldOnHost plan schedule workers? (fun c _ => .done c)
          ((List.range plan.lookupCount).map result) (collect (σ := σ)) [] = .done features) ∧
      ∀ (G : σ → σ → Prop) (task : α → DigitLookup → Process σ Failure α) (cs : List α),
        cs.length = plan.lookupCount →
        (∀ t ∈ positionTasks plan task cs, t.2.Yields G fun c => c = result t.1) →
        ∀ schedule, (foldOnHost plan schedule workers? task cs collect []).Yields G fun features =>
          plan.Regrouped result features ∧
            ∃ order, order.Perm (List.range plan.lookupCount) ∧
              plan.hostFeatures (arrivals result order) = (features, none) := by
  constructor
  · intro order horder
    obtain ⟨features, hfeatures, hregrouped⟩ := hostFeatures_regrouped hcompiled hplan result horder
    exact ⟨features, hfeatures, hregrouped,
      exists_foldOnHost_eq plan result horder hworkers hn hfeatures⟩
  · intro G task cs hlength htasks schedule
    refine (foldOnHost_arrivals hcompiled hplan hlength htasks hworkers hn schedule).mono ?_
    rintro features ⟨order, horder, hfeatures⟩
    obtain ⟨features', hfeatures', hregrouped⟩ :=
      hostFeatures_regrouped hcompiled hplan result horder
    rw [hfeatures] at hfeatures'
    cases hfeatures'
    exact ⟨hregrouped, order, horder, hfeatures⟩

end Orders

/-- A template whose middle feature has no digit. -/
def gappedTemplate : EnrolledTemplate :=
  let table : Tensor := ⟨[1, 2, 2], #[0, 1, 1, 0], rfl⟩
  ⟨[[⟨0, 0, 0, table⟩, ⟨0, 0, 1, table⟩], [], [⟨2, 0, 0, table⟩]], 1, 0, 2, 2⟩

theorem enumerated_gappedTemplate : gappedTemplate.Enumerated :=
  ⟨[0, 0, 0], List.replicate 3 ⟨[1, 2, 2], #[0, 1, 1, 0], rfl⟩, [2, 0, 1], rfl⟩

theorem regrouped_any_order_reversed :
    ∃ plan features, build [1, 0, 1] gappedTemplate = .ok plan ∧
      plan.hostFeatures (arrivals (· + 10) [2, 1, 0]) = (features, none) ∧
      plan.Regrouped (· + 10) features ∧
      features = [(1, []), (2, [12]), (0, [10, 11])] := by
  obtain ⟨plan, hplan⟩ : ∃ plan, build [1, 0, 1] gappedTemplate = .ok plan := ⟨_, rfl⟩
  have order : [2, 1, 0].Perm (List.range plan.lookupCount) := by
    cases hplan
    decide
  have staffed : some (1 : Int) = some 1 := rfl
  obtain ⟨features, hfeatures, hregrouped, _⟩ := (regrouped_any_order (σ := Unit)
    enumerated_gappedTemplate hplan (· + 10) staffed le_rfl).1 [2, 1, 0] order
  refine ⟨plan, features, hplan, hfeatures, hregrouped, ?_⟩
  cases hplan
  cases hfeatures
  rfl

end LookupPlan

end SealedMatch
