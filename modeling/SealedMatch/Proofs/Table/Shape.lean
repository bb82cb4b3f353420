/-
Module: SealedMatch.Proofs.Table.Shape
Purpose: Rows form an array of two axes only if none of their entries is a list.
Trusted boundary: none
Main exports: Value.single, ShapeScan.visit_rows, ShapeScan.visit_deeper, Nested.ofValue_rows
-/
import SealedMatch.Proofs.Table.Grid

namespace SealedMatch

/-- Whether a value is a single entry of an array, not a list of entries. -/
def Value.single : Value → Bool
  | .list _ => false
  | _ => true

namespace ShapeScan

variable {s : ShapeScan} {depth : Nat} {v : Value}

theorem visit_single (h : v.single = true) : s.visit depth v = s.entry depth := by
  cases v with
  | list items => cases h
  | _ => simp only [visit]

/-- The items of a list that has been entered are read one level below it. -/
theorem visit_list {s' : ShapeScan} {items : List Value}
    (h : s.enter depth items.length = (s', true)) (hitems : items ≠ []) :
    s.visit depth (.list items) = s'.visitItems (depth + 1) items := by
  rw [visit]
  simp [h, hitems]

/-! ### Rows of single entries -/

/-- Once the depth of entries is known, what stands at that depth must be a single entry. -/
theorem visit_settled (hsettled : s.settled = true) (hlimit : s.limit = depth) :
    s.visit depth v = { s with ragged := s.ragged || !v.single } := by
  subst hlimit
  cases hv : v.single with
  | true =>
      rw [visit_single hv]
      cases s
      simp_all [entry]
  | false =>
      cases v with
      | list items => simp [visit, enter]
      | _ => cases hv

theorem visitItems_settled (hsettled : s.settled = true) (hlimit : s.limit = depth)
    (items : List Value) :
    s.visitItems depth items = { s with ragged := s.ragged || !items.all Value.single } := by
  induction items generalizing s with
  | nil => simp [visitItems]
  | cons v items ih =>
      rw [visitItems, visit_settled hsettled hlimit]
      rw [ih (by exact hsettled) (by exact hlimit)]
      simp [Bool.not_and, Bool.or_assoc]

/-- Once the lengths are known, rows of the right length must hold single entries. -/
theorem visitItems_rows {columns : Nat} (hsettled : s.settled = true) (hlimit : s.limit = depth + 1)
    (hlength : s.lengths[depth]? = some columns) {rows : List (List Value)}
    (huniform : ∀ row ∈ rows, row.length = columns) :
    s.visitItems depth (rows.map Value.list) =
      { s with ragged := s.ragged || !rows.all fun row => row.all Value.single } := by
  induction rows generalizing s with
  | nil => simp [visitItems]
  | cons row rows ih =>
      have width := huniform row (by simp)
      have entered : s.enter depth row.length = (s, true) := by
        unfold enter
        rw [if_neg (by omega), if_neg (by simp [hsettled]), if_pos (width ▸ hlength)]
      have here : s.visit depth (.list row) =
          { s with ragged := s.ragged || !row.all Value.single } := by
        cases row with
        | nil =>
            cases s
            simp_all [visit]
        | cons v row =>
            rw [visit_list entered (by simp)]
            exact visitItems_settled hsettled hlimit _
      rw [List.map_cons, visitItems, here]
      rw [ih (by exact hsettled) (by exact hlimit) (by exact hlength) fun row' hrow' =>
        huniform row' (List.mem_cons_of_mem row hrow')]
      simp [Bool.not_and, Bool.or_assoc]

/-- Nothing has been read but the lengths of the table and of its first row. -/
def inFirstRow (rows columns : Nat) : ShapeScan := ⟨mostAxes, [rows, columns], false, false⟩

/-- Reading rows begins with the entries of the first one. -/
theorem visit_firstRow (v : Value) (row : List Value) (rest : List (List Value)) :
    start.visit 0 (.list (((v :: row) :: rest).map Value.list)) =
      (((inFirstRow (rest.length + 1) (row.length + 1)).visit 2 v).visitItems 2 row).visitItems 1
        (rest.map Value.list) := by
  have first : start.enter 0 (((v :: row) :: rest).map Value.list).length =
      (⟨mostAxes, [rest.length + 1], false, false⟩, true) := by
    simp [enter, start, mostAxes]
  have second : (ShapeScan.mk mostAxes [rest.length + 1] false false).enter 1 (v :: row).length =
      (inFirstRow (rest.length + 1) (row.length + 1), true) := by
    simp [enter, inFirstRow, mostAxes]
  have inner : (ShapeScan.mk mostAxes [rest.length + 1] false false).visit 1 (.list (v :: row)) =
      ((inFirstRow (rest.length + 1) (row.length + 1)).visit 2 v).visitItems 2 row := by
    rw [visit_list second (by simp), visitItems]
  rw [visit_list first (by simp), List.map_cons, visitItems, inner]

/-- If the first entry is single, so must be all the others. -/
theorem visit_rows {row : List Value} {rest : List (List Value)} (hv : v.single = true)
    (huniform : ∀ row' ∈ rest, row'.length = row.length + 1) :
    start.visit 0 (.list (((v :: row) :: rest).map Value.list)) =
      ⟨2, [rest.length + 1, row.length + 1], true,
        !((v :: row) :: rest).all fun row' => row'.all Value.single⟩ := by
  have leaf : (inFirstRow (rest.length + 1) (row.length + 1)).visit 2 v =
      ⟨2, [rest.length + 1, row.length + 1], true, false⟩ := by
    rw [visit_single hv]
    simp [inFirstRow, entry, mostAxes]
  rw [visit_firstRow, leaf, visitItems_settled rfl rfl, visitItems_rows rfl rfl rfl huniform]
  simp [hv, Bool.not_and]

/-! ### Rows of lists -/

/-- A branch has been read to its end, or branches differ. -/
def Ended (s : ShapeScan) : Prop := s.ragged = true ∨ s.settled = true

/-- There is a third axis, or branches differ. -/
def Deep (s : ShapeScan) : Prop := s.ragged = true ∨ 3 ≤ s.limit ∧ 3 ≤ s.lengths.length

theorem entry_ended (s : ShapeScan) (depth : Nat) : (s.entry depth).Ended := by
  unfold entry
  split
  · exact Or.inl rfl
  · split
    · exact Or.inr rfl
    · exact Or.inr rfl

theorem enter_ended (h : s.Ended) (depth n : Nat) : (s.enter depth n).1.Ended := by
  unfold enter
  split
  · exact Or.inl rfl
  · split
    · exact h
    · split
      · exact h
      · exact Or.inl rfl

theorem ragged_of_enter {s' : ShapeScan} {n : Nat} (h : s.enter depth n = (s', false)) :
    s'.ragged = true := by
  unfold enter at h
  split at h
  · cases h
    rfl
  · split at h
    · cases h
    · split at h
      · cases h
      · cases h
        rfl

mutual

/-- Reading a value reads a branch to its end. -/
theorem visit_ended : ∀ (v : Value) (s : ShapeScan) (depth : Nat), (s.visit depth v).Ended
  | .list items, s, depth => by
      unfold visit
      cases hentered : s.enter depth items.length with
      | mk s' inside =>
          cases inside with
          | false => exact Or.inl (ragged_of_enter hentered)
          | true =>
              simp only [Bool.not_true, Bool.false_eq_true, if_false]
              split
              · exact Or.inr rfl
              · rename_i hitems
                exact visitItems_ended items s' (depth + 1) (Or.inl (by simpa using hitems))
  | .null, s, depth | .bool _, s, depth | .int _, s, depth | .float _, s, depth
  | .text _, s, depth | .record _, s, depth => entry_ended s depth

theorem visitItems_ended : ∀ (items : List Value) (s : ShapeScan) (depth : Nat),
    items ≠ [] ∨ s.Ended → (s.visitItems depth items).Ended
  | [], s, depth, h => by
      rcases h with h | h
      · exact absurd rfl h
      · exact h
  | v :: rest, s, depth, _ => visitItems_ended rest _ depth (Or.inr (visit_ended v s depth))

end

theorem entry_deep (h : s.Deep) (hended : 3 ≤ depth ∨ s.Ended) : (s.entry depth).Deep := by
  unfold entry
  split
  · exact Or.inl rfl
  · split
    · rcases h with h | ⟨_, hlengths⟩
      · exact Or.inl (by simp [h])
      · rcases hended with hdepth | h | h
        · exact Or.inr ⟨hdepth, hlengths⟩
        · exact Or.inl (by simp [h])
        · exact Or.inl (by simp [h])
    · exact h

theorem enter_deep (h : s.Deep) (hended : 3 ≤ depth ∨ s.Ended) (n : Nat) :
    (s.enter depth n).1.Deep := by
  unfold enter
  split
  · exact Or.inl rfl
  · split
    · rename_i hunsettled
      rcases h with h | ⟨hlimit, hlengths⟩
      · exact Or.inl h
      · rcases hended with hdepth | h | h
        · exact Or.inr ⟨hlimit, by simp only [List.length_append, List.length_take]; omega⟩
        · exact Or.inl h
        · simp [h] at hunsettled
    · split
      · exact h
      · exact Or.inl rfl

mutual

/-- A third axis does not vanish while entries and lists are read on it or below it. -/
theorem visit_deep : ∀ (v : Value) (s : ShapeScan) (depth : Nat), 2 ≤ depth →
    3 ≤ depth ∨ s.Ended → s.Deep → (s.visit depth v).Deep
  | .list items, s, depth, hdepth, hended, h => by
      unfold visit
      have entered := enter_deep h hended items.length
      cases hentered : s.enter depth items.length with
      | mk s' inside =>
          rw [hentered] at entered
          cases inside with
          | false => exact entered
          | true =>
              simp only [Bool.not_true, Bool.false_eq_true, if_false]
              split
              · exact entered.imp id fun deep => ⟨Nat.succ_le_succ hdepth, deep.2⟩
              · exact visitItems_deep items s' (depth + 1) (by omega) (Or.inl (by omega)) entered
  | .null, _, _, _, hended, h | .bool _, _, _, _, hended, h | .int _, _, _, _, hended, h
  | .float _, _, _, _, hended, h | .text _, _, _, _, hended, h
  | .record _, _, _, _, hended, h => entry_deep h hended

theorem visitItems_deep : ∀ (items : List Value) (s : ShapeScan) (depth : Nat), 2 ≤ depth →
    3 ≤ depth ∨ s.Ended → s.Deep → (s.visitItems depth items).Deep
  | [], _, _, _, _, h => h
  | v :: rest, s, depth, hdepth, hended, h =>
      visitItems_deep rest _ depth hdepth (Or.inr (visit_ended v s depth))
        (visit_deep v s depth hdepth hended h)

end

/-- Rows with entries do not take away a third axis either. -/
theorem visitItems_deep_rows {rows : List (List Value)} (hrows : ∀ row ∈ rows, row ≠ [])
    (hended : s.Ended) (h : s.Deep) : (s.visitItems 1 (rows.map Value.list)).Deep := by
  induction rows generalizing s with
  | nil => exact h
  | cons row rows ih =>
      rw [List.map_cons, visitItems]
      apply ih (fun row' hrow' => hrows row' (List.mem_cons_of_mem row hrow'))
        (visit_ended _ s 1)
      have entered : (s.enter 1 row.length).1.Deep := enter_deep h (Or.inr hended) row.length
      have ended := enter_ended hended 1 row.length
      cases hentered : s.enter 1 row.length with
      | mk s' inside =>
          rw [hentered] at entered ended
          cases inside with
          | false =>
              rw [visit, hentered]
              exact entered
          | true =>
              rw [visit_list hentered (hrows row (by simp))]
              exact visitItems_deep row s' 2 (le_refl 2) (Or.inr ended) entered

/-- If the first entry is a list, there is a third axis, or the rows form no array. -/
theorem visit_deeper (hv : v.single = false) (row : List Value) {rest : List (List Value)}
    (hrest : ∀ row' ∈ rest, row' ≠ []) :
    (start.visit 0 (.list (((v :: row) :: rest).map Value.list))).Deep := by
  have below : ((inFirstRow (rest.length + 1) (row.length + 1)).visit 2 v).Deep := by
    cases v with
    | list items =>
        have entered : (inFirstRow (rest.length + 1) (row.length + 1)).enter 2 items.length =
            (⟨mostAxes, [rest.length + 1, row.length + 1, items.length], false, false⟩, true) := by
          simp [enter, inFirstRow, mostAxes]
        cases items with
        | nil =>
            rw [visit, entered]
            exact Or.inr ⟨le_refl 3, le_refl 3⟩
        | cons w items =>
            rw [visit_list entered (by simp)]
            exact visitItems_deep _ _ 3 (by omega) (Or.inl (le_refl 3))
              (Or.inr ⟨show 3 ≤ mostAxes by decide, le_refl 3⟩)
    | _ => cases hv
  have ended := visit_ended v (inFirstRow (rest.length + 1) (row.length + 1)) 2
  rw [visit_firstRow]
  exact visitItems_deep_rows hrest (visitItems_ended row _ 2 (Or.inr ended))
    (visitItems_deep row _ 2 (le_refl 2) (Or.inr ended) below)

end ShapeScan

/-! ### The array of the rows -/

theorem leaves_single {v : Value} (h : v.single = true) : leaves v = [v] := by
  cases v with
  | list items => cases h
  | _ => simp only [leaves]

theorem itemLeaves_single {items : List Value} (h : ∀ v ∈ items, v.single = true) :
    itemLeaves items = items := by
  induction items with
  | nil => rfl
  | cons v items ih =>
      rw [itemLeaves, leaves_single (h v (by simp)),
        ih fun w hw => h w (List.mem_cons_of_mem v hw)]
      rfl

theorem itemLeaves_rows {rows : List (List Value)}
    (h : ∀ row ∈ rows, ∀ v ∈ row, v.single = true) :
    itemLeaves (rows.map Value.list) = rows.flatten := by
  induction rows with
  | nil => rfl
  | cons row rows ih =>
      rw [List.map_cons, itemLeaves, leaves, itemLeaves_single (h row (by simp)),
        ih fun row' hrow' => h row' (List.mem_cons_of_mem row hrow'), List.flatten_cons]

/-- Uniform rows that form an array of two axes list its entries. -/
theorem Nested.ofValue_rows {rows : List (List Value)} {n : Nested}
    (h : ofValue (.list (rows.map Value.list)) = .ok n)
    (huniform : TableSource.uniform rows = true) (haxes : n.shape.length = 2) :
    ∃ columns, (∀ row ∈ rows, row.length = columns) ∧ n.shape = [rows.length, columns] ∧
      n.entries = rows.flatten := by
  cases rows with
  | nil => cases huniform
  | cons first rest =>
      cases first with
      | nil => cases huniform
      | cons v row =>
          have lengths : ∀ row' ∈ rest, row'.length = row.length + 1 := by
            simpa [TableSource.uniform] using huniform
          unfold ofValue at h
          simp only at h
          split at h
          · rename_i hragged
            cases h
            cases hv : v.single with
            | true =>
                rw [ShapeScan.visit_rows hv lengths] at hragged ⊢
                refine ⟨row.length + 1, by simpa using lengths, rfl, ?_⟩
                rw [leaves]
                exact itemLeaves_rows (by simpa using hragged)
            | false =>
                have deep := ShapeScan.visit_deeper hv row fun row' hrow' => by
                  have := lengths row' hrow'
                  exact List.ne_nil_of_length_pos (by omega)
                rcases deep with ragged | ⟨hlimit, hlengths⟩
                · rw [ragged] at hragged
                  cases hragged
                · unfold ShapeScan.shape at haxes
                  rw [List.length_take] at haxes
                  omega
          · split at h <;> cases h

end SealedMatch
