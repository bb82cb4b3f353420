/-
Module: SealedMatch.Proofs.Matching.Admission
Purpose: Which inputs an authentication refuses, with which failure, and that it does so before
  anything else.
Trusted boundary: none
Main exports: EnrolledTemplate.Misfits, EnrolledTemplate.Outside, EnrolledTemplate.FirstOutside,
  Matcher.screen, Admission, Matcher.screen_admission, Matcher.authenticate_run_of_refused
-/
import SealedMatch.Proofs.Matching.Decision

namespace SealedMatch

namespace EnrolledTemplate

/-- All lookups of a feature cover the same codes, as many as their table has columns. -/
def Measured (t : EnrolledTemplate) : Prop :=
  ∀ row ∈ t.lookups, ∃ size, ∀ l ∈ row, l.codeCount = .ok size

/-- The digits of a template are no messages, or a table is too wide for one evaluation. -/
def Misfits (t : EnrolledTemplate) (radix total : Nat) : Prop :=
  t.radix ≠ radix ∨ ∃ l ∈ t.lookups.flatten, ∃ size, l.codeCount = .ok size ∧ total < size

/-- A feature with a lookup meets a probe code outside of it. -/
structure Outside (t : EnrolledTemplate) (probe : List Int) (f : Nat) (code : Int) (size : Nat) :
    Prop where
  code_eq : probe[f]? = some code
  lookup : ∃ row l, t.lookups[f]? = some row ∧ l ∈ row ∧ l.codeCount = .ok size
  outside : ¬ (0 ≤ code ∧ code < size)

/-- The lowest feature that meets a code outside of it. -/
structure FirstOutside (t : EnrolledTemplate) (probe : List Int) (f : Nat) (code : Int)
    (size : Nat) : Prop extends t.Outside probe f code size where
  lowest : ∀ g < f, ∀ code' size', ¬ t.Outside probe g code' size'

end EnrolledTemplate

/-! ### Widths -/

namespace Matcher

/-- The first table that is too wide is named. -/
theorem checkDomains_cases (total : Nat) {lookups : List DigitLookup}
    (h : ∀ l ∈ lookups, ∃ size, l.codeCount = .ok size) :
    checkDomains total lookups = .ok () ∧
        (∀ l ∈ lookups, ∀ size, l.codeCount = .ok size → size ≤ total) ∨
      ∃ l ∈ lookups, ∃ size, l.codeCount = .ok size ∧ total < size ∧
        checkDomains total lookups =
          .error (.configuration (.tableTooWide l.feature size total)) := by
  induction lookups with
  | nil => exact Or.inl ⟨rfl, by simp⟩
  | cons l rest ih =>
      obtain ⟨size, hsize⟩ := h l (by simp)
      unfold checkDomains
      rw [hsize, ok_bind]
      by_cases hwide : total < size
      · rw [if_pos hwide]
        exact Or.inr ⟨l, by simp, size, hsize, hwide, rfl⟩
      · rw [if_neg hwide]
        rcases ih fun l hl => h l (List.mem_cons_of_mem _ hl) with ⟨hok, hall⟩ | ⟨l', hl', hrest⟩
        · refine Or.inl ⟨hok, fun l' hl' size' hsize' => ?_⟩
          rcases List.mem_cons.1 hl' with rfl | hl'
          · rw [hsize] at hsize'
            cases hsize'
            omega
          · exact hall l' hl' size' hsize'
        · exact Or.inr ⟨l', List.mem_cons_of_mem _ hl', hrest⟩

end Matcher

/-! ### Codes -/

namespace LookupPlan

/-- A feature without lookups takes every code, another one those that its lookups cover. -/
theorem checkCode_eq {feature : Nat} {code : Int} {row : List DigitLookup} {size : Nat}
    (h : ∀ l ∈ row, l.codeCount = .ok size) :
    checkCode feature code row =
      if row = [] ∨ (0 ≤ code ∧ code < size) then .ok ()
      else .error (.domain (.probeCode feature code size)) := by
  induction row with
  | nil => rfl
  | cons l rest ih =>
      unfold checkCode
      rw [h l (by simp), ok_bind]
      by_cases inside : 0 ≤ code ∧ code < size
      · rw [if_pos inside, ih fun l hl => h l (List.mem_cons_of_mem _ hl), if_pos (Or.inr inside),
          if_pos (Or.inr inside)]
      · have refused : ¬ (l :: rest = [] ∨ (0 ≤ code ∧ code < size)) := by
          simpa using inside
        rw [if_neg inside, if_neg refused]
        rfl

/-- Features are added up to the first one with a code outside of it. -/
theorem extendFrom_cases {features : List (Int × List DigitLookup)}
    (h : ∀ x ∈ features, ∃ size, ∀ l ∈ x.2, l.codeCount = .ok size) (p : LookupPlan)
    (first : Nat) :
    (∃ plan, p.extendFrom first features = .ok plan ∧ ∀ x ∈ features, Covers x.1 x.2) ∨
      ∃ (i : Nat) (code : Int) (row : List DigitLookup) (size : Nat),
        features[i]? = some (code, row) ∧ row ≠ [] ∧ (∀ l ∈ row, l.codeCount = .ok size) ∧
        ¬ (0 ≤ code ∧ code < size) ∧ (∀ x ∈ features.take i, Covers x.1 x.2) ∧
        p.extendFrom first features =
          .error (.domain (.probeCode ((first + i : Nat) : Int) code size)) := by
  induction features generalizing p first with
  | nil => exact Or.inl ⟨p, rfl, by simp⟩
  | cons x rest ih =>
      obtain ⟨code, row⟩ := x
      obtain ⟨size, hsize⟩ := h (code, row) (by simp)
      unfold extendFrom
      rw [checkCode_eq hsize]
      by_cases hrow : row = [] ∨ (0 ≤ code ∧ code < size)
      · have here : Covers code row := by
          intro l hl
          rcases hrow with rfl | inside
          · simp at hl
          · exact ⟨size, hsize l hl, inside⟩
        rw [if_pos hrow, ok_bind]
        rcases ih (fun x hx => h x (List.mem_cons_of_mem _ hx)) (p.push first code row)
            (first + 1) with ⟨plan, hplan, hall⟩ | ⟨i, code', row', size', hi, hrest⟩
        · refine Or.inl ⟨plan, hplan, fun x hx => ?_⟩
          rcases List.mem_cons.1 hx with rfl | hx
          · exact here
          · exact hall x hx
        · obtain ⟨hne, hsize', houtside, hbefore, herror⟩ := hrest
          refine Or.inr ⟨i + 1, code', row', size', hi, hne, hsize', houtside, fun x hx => ?_, ?_⟩
          · rw [List.take_succ_cons] at hx
            rcases List.mem_cons.1 hx with rfl | hx
            · exact here
            · exact hbefore x hx
          · rw [herror]
            congr 4
            omega
      · rw [if_neg hrow]
        rw [not_or] at hrow
        exact Or.inr ⟨0, code, row, size, rfl, hrow.1, hsize, hrow.2, by simp, rfl⟩

end LookupPlan

/-! ### Admission -/

/-- What is checked before anything is encrypted: the template against the engine, then the probe
against the template. -/
def Matcher.screen {σ C B : Type} (m : Matcher σ C B) (probe : List Int)
    (compiled : EnrolledTemplate) : Except Failure LookupPlan := do
  m.requireCompatible compiled
  LookupPlan.build probe compiled

/-- How the checks end, and when: each failure for its own reason, and the plan of the probe if
there is none. -/
inductive Admission (t : EnrolledTemplate) (radix total : Nat) (probe : List Int) :
    Except Failure LookupPlan → Prop where
  | misfit (misfits : t.Misfits radix total) (cause : ConfigurationFault) :
      Admission t radix total probe (.error (.configuration cause))
  | unequal (fits : ¬ t.Misfits radix total) (unequal : probe.length ≠ t.featureCount) :
      Admission t radix total probe
        (.error (.input (.probeLengthMismatch probe.length t.featureCount)))
  | outside (fits : ¬ t.Misfits radix total) (equal : probe.length = t.featureCount) {f : Nat}
      {code : Int} {size : Nat} (first : t.FirstOutside probe f code size) :
      Admission t radix total probe (.error (.domain (.probeCode f code size)))
  | admitted (fits : ¬ t.Misfits radix total) (equal : probe.length = t.featureCount)
      (inside : ∀ f code size, ¬ t.Outside probe f code size) (plan : LookupPlan) :
      Admission t radix total probe (.ok plan)

namespace LookupPlan

/-- Features all of whose codes are covered meet no code outside of them. -/
theorem not_outside_of_covers {t : EnrolledTemplate} {probe : List Int} {f : Nat}
    (h : ∀ x ∈ (probe.zip t.lookups)[f]?, Covers x.1 x.2) (code : Int) (size : Nat) :
    ¬ t.Outside probe f code size := by
  rintro ⟨hcode, ⟨row, l, hrow, hl, hsize⟩, houtside⟩
  obtain ⟨size', hsize', inside⟩ := h (code, row) (by simp [List.getElem?_zip_eq_some, hcode, hrow])
    l hl
  rw [hsize] at hsize'
  cases hsize'
  exact houtside inside

/-- A plan is built, or the lengths differ, or the lowest feature with a code outside of it is
named. -/
theorem build_cases {t : EnrolledTemplate} (ht : t.Measured) (probe : List Int) :
    probe.length ≠ t.featureCount ∧
        build probe t = .error (.input (.probeLengthMismatch probe.length t.featureCount)) ∨
      probe.length = t.featureCount ∧
        ((∃ plan, build probe t = .ok plan ∧ ∀ f code size, ¬ t.Outside probe f code size) ∨
          ∃ (f : Nat) (code : Int) (size : Nat), t.FirstOutside probe f code size ∧
            build probe t = .error (.domain (.probeCode f code size))) := by
  unfold build
  by_cases equal : probe.length = t.featureCount
  · rw [if_neg (not_not.2 equal)]
    refine Or.inr ⟨equal, ?_⟩
    have measured : ∀ x ∈ probe.zip t.lookups, ∃ size, ∀ l ∈ x.2, l.codeCount = .ok size :=
      fun x hx => ht x.2 (List.of_mem_zip hx).2
    rcases extendFrom_cases measured empty 0 with ⟨plan, hplan, hall⟩ |
      ⟨f, code, row, size, hf, hne, hsize, houtside, hbefore, herror⟩
    · refine Or.inl ⟨plan, hplan, fun f => not_outside_of_covers fun x hx => hall x ?_⟩
      exact List.mem_of_getElem? hx
    · refine Or.inr ⟨f, code, size, ⟨⟨?_, ?_, houtside⟩, fun g hg => ?_⟩, ?_⟩
      · exact (List.getElem?_zip_eq_some.1 hf).1
      · obtain ⟨l, hl⟩ := List.exists_mem_of_ne_nil row hne
        exact ⟨row, l, (List.getElem?_zip_eq_some.1 hf).2, hl, hsize l hl⟩
      · refine not_outside_of_covers fun x hx => hbefore x ?_
        exact List.mem_of_getElem? ((List.getElem?_take_of_lt hg).trans hx)
      · rw [herror, Nat.zero_add]
  · rw [if_pos equal]
    exact Or.inl ⟨equal, rfl⟩

end LookupPlan

namespace Matcher

variable {σ C B : Type} {m : Matcher σ C B} {t : EnrolledTemplate}

/-- The template is refused for one of two reasons, or its tables fit. -/
theorem requireCompatible_cases (ht : t.Measured) :
    m.requireCompatible t = .ok () ∧ ¬ t.Misfits m.engine.messageModulus m.engine.totalModulus ∨
      t.Misfits m.engine.messageModulus m.engine.totalModulus ∧
        ∃ cause, m.requireCompatible t = .error (.configuration cause) := by
  have sizes : ∀ l ∈ t.lookups.flatten, ∃ size, l.codeCount = .ok size := by
    intro l hl
    obtain ⟨row, hrow, hl⟩ := List.mem_flatten.1 hl
    obtain ⟨size, hsize⟩ := ht row hrow
    exact ⟨size, hsize l hl⟩
  unfold requireCompatible EnrolledTemplate.Misfits
  by_cases hradix : t.radix = m.engine.messageModulus
  · rw [if_neg (not_not.2 hradix)]
    rcases checkDomains_cases m.engine.totalModulus sizes with ⟨hok, hall⟩ |
      ⟨l, hl, size, hsize, hwide, herror⟩
    · refine Or.inl ⟨hok, ?_⟩
      rintro (hne | ⟨l, hl, size, hsize, hwide⟩)
      · exact hne hradix
      · have := hall l hl size hsize
        omega
    · exact Or.inr ⟨Or.inr ⟨l, hl, size, hsize, hwide⟩, _, herror⟩
  · rw [if_pos hradix]
    exact Or.inr ⟨Or.inl hradix, _, rfl⟩

/-- The checks end in one of four ways. -/
theorem screen_admission (ht : t.Measured) (m : Matcher σ C B) (probe : List Int) :
    Admission t m.engine.messageModulus m.engine.totalModulus probe (m.screen probe t) := by
  unfold screen
  rcases requireCompatible_cases ht (m := m) with ⟨hok, fits⟩ | ⟨misfits, cause, herror⟩
  · rw [hok, ok_bind]
    rcases LookupPlan.build_cases ht probe with ⟨unequal, herror⟩ |
      ⟨equal, ⟨plan, hplan, inside⟩ | ⟨f, code, size, first, herror⟩⟩
    · rw [herror]
      exact .unequal fits unequal
    · rw [hplan]
      exact .admitted fits equal inside plan
    · rw [herror]
      exact .outside fits equal first
  · rw [herror]
    exact .misfit misfits cause

/-- A refused input ends an authentication with nothing done but to mark its beginning. -/
theorem authenticate_run_of_refused {probe : List Int} {failure : Failure}
    (h : m.screen probe t = .error failure) (debug : Bool) (schedule : Schedule) (s : σ) :
    (m.authenticate probe t debug schedule).run s = (.error failure, m.instruments.begin s) := by
  unfold screen at h
  unfold authenticate
  cases hcompatible : m.requireCompatible t with
  | error e =>
      rw [hcompatible] at h
      cases h
      rfl
  | ok _ =>
      rw [hcompatible, ok_bind] at h
      rw [h]
      rfl

end Matcher

/-! ### Compiled templates -/

/-- The lookups of a compiled feature share its table. -/
theorem EnrolledTemplate.Holds.measured {t : EnrolledTemplate} {d : DigitSystem} {width : Nat}
    {features : List EnrolledFeature} (h : t.Holds d width features) : t.Measured := by
  intro row hrow
  rw [← h.lookups_eq] at hrow
  obtain ⟨x, hx, rfl⟩ := List.mem_map.1 hrow
  obtain ⟨rows, columns, hsound⟩ := h.sound x hx
  exact ⟨columns, fun l hl => (hsound.bound l hl).codeCount_eq⟩

end SealedMatch
