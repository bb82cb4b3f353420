/-
Module: SealedMatch.Proofs.Decimal.Denotation
Purpose: The texts that denote an integer are the ones that the strict style reads, as that integer.
Trusted boundary: none
Main exports: Text.trimOf_append, Decimal.Denotes, Decimal.strict_integer?_iff
-/
import Mathlib.Data.List.DropRight
import Mathlib.Data.Nat.Digits.Lemmas
import SealedMatch.Decimal.Numeral
import SealedMatch.Proofs.Outcome

namespace SealedMatch

namespace Text

/-! ### Trimming -/

/-- What trimming takes off, on either side, are characters of the kind. -/
theorem exists_trimOf (p : Char → Bool) (cs : List Char) :
    ∃ before after, cs = before ++ trimOf p cs ++ after ∧
      (∀ c ∈ before, p c = true) ∧ ∀ c ∈ after, p c = true := by
  refine ⟨cs.takeWhile p, (cs.dropWhile p).rtakeWhile p, ?_, fun _ => List.mem_takeWhile_imp,
    fun _ => List.mem_rtakeWhile_imp⟩
  rw [List.append_assoc, show trimOf p cs = (cs.dropWhile p).rdropWhile p from rfl,
    List.rdropWhile_append_rtakeWhile, List.takeWhile_append_dropWhile]

/-- Trimming stops at characters of another kind. -/
theorem trimOf_append {p : Char → Bool} {before core after : List Char}
    (front : ∀ c ∈ before, p c = true) (back : ∀ c ∈ after, p c = true)
    (first : ∀ c ∈ core.head?, p c = false) (last : ∀ c ∈ core.getLast?, p c = false) :
    trimOf p (before ++ core ++ after) = core := by
  have started : (before ++ core ++ after).dropWhile p = (core ++ after).dropWhile p := by
    rw [List.append_assoc, List.dropWhile_append_of_pos front]
  cases core with
  | nil =>
      have gone : after.dropWhile p = [] := List.dropWhile_eq_nil_iff.mpr back
      rw [trimOf, started, List.nil_append, gone, List.reverse_nil, List.dropWhile_nil,
        List.reverse_nil]
  | cons c core =>
      have stopped : ((c :: core) ++ after).dropWhile p = (c :: core) ++ after := by
        rw [List.cons_append, List.dropWhile_cons_of_neg]
        simp [first c rfl]
      have ended : (c :: core).reverse.dropWhile p = (c :: core).reverse := by
        cases h : (c :: core).reverse with
        | nil => rfl
        | cons d ds =>
            have final : (c :: core).getLast? = some d := by
              rw [← List.head?_reverse, h, List.head?_cons]
            rw [List.dropWhile_cons_of_neg]
            simp [last d final]
      rw [trimOf, started, stopped, List.reverse_append,
        List.dropWhile_append_of_pos (by simpa using back), ended, List.reverse_reverse]

theorem isBlank_of_isDigit {c : Char} (h : c.isDigit = true) : isBlank c = false := by
  have range : 48 ≤ c.toNat ∧ c.toNat ≤ 57 := by
    simpa [Char.isDigit, UInt32.le_iff_toNat_le] using h
  simp only [isBlank, Bool.or_eq_false_iff, Bool.and_eq_false_iff, decide_eq_false_iff_not,
    beq_eq_false_iff_ne]
  omega

end Text

namespace Decimal

/-! ### What a text denotes -/

/-- What may be written in front of the digits, and whether it makes a number negative. -/
inductive Sign : List Char → Bool → Prop where
  | none : Sign [] false
  | plus : Sign ['+'] false
  | minus : Sign ['-'] true

/-- The number that ASCII digits spell, the most significant one first. -/
def spelled (digits : List Char) : Nat :=
  Nat.ofDigits 10 (digits.reverse.map fun c => c.toNat - '0'.toNat)

/-- A text denotes an integer by a sign and at least one ASCII digit, with nothing but blanks around
them. -/
inductive Denotes : List Char → Int → Prop where
  | numeral {before mark digits after : List Char} {negative : Bool}
      (front : ∀ c ∈ before, Text.isBlank c = true) (sign : Sign mark negative)
      (some : digits ≠ []) (ascii : ∀ c ∈ digits, c.isDigit = true)
      (back : ∀ c ∈ after, Text.isBlank c = true) :
      Denotes (before ++ (mark ++ digits) ++ after) (signed negative (spelled digits))

/-! ### What is read -/

theorem spelled_cons (c : Char) (digits : List Char) :
    spelled (c :: digits) = (c.toNat - '0'.toNat) * 10 ^ digits.length + spelled digits := by
  simp only [spelled, List.reverse_cons, List.map_append, Nat.ofDigits_append, List.length_map,
    List.length_reverse, List.map_cons, List.map_nil, Nat.ofDigits_singleton]
  ring

/-- The strict style takes digits as long as there are any. -/
theorem strict_digits (count value : Nat) (cs : List Char) :
    strict.digits count value cs =
      (count + (cs.takeWhile Char.isDigit).length,
        value * 10 ^ (cs.takeWhile Char.isDigit).length + spelled (cs.takeWhile Char.isDigit),
        cs.dropWhile Char.isDigit) := by
  induction cs generalizing count value with
  | nil => simp [NumeralStyle.digits, spelled]
  | cons c cs ih =>
      cases digit : c.isDigit with
      | true =>
          have value? : strict.digit? c = some (c.toNat - '0'.toNat) := by
            simp [strict, Text.asciiDigitValue?, digit]
          rw [NumeralStyle.digits.eq_def]
          simp only [value?, ih, List.takeWhile_cons_of_pos digit, List.dropWhile_cons_of_pos digit,
            List.length_cons, spelled_cons, pow_succ]
          refine Prod.ext (by omega) (Prod.ext ?_ rfl)
          ring
      | false =>
          have value? : strict.digit? c = none := by
            simp [strict, Text.asciiDigitValue?, digit]
          have stop : ¬ c.isDigit = true := by simp [digit]
          have whole : strict.digits count value (c :: cs) = (count, value, c :: cs) := by
            rw [NumeralStyle.digits.eq_def]
            simp only [value?, show strict.grouped = false from rfl, Bool.false_and]
            split <;> rfl
          rw [whole, List.takeWhile_cons_of_neg stop, List.dropWhile_cons_of_neg stop]
          simp [spelled]

theorem exists_sign (cs : List Char) :
    ∃ mark, Sign mark (sign cs).1 ∧ cs = mark ++ (sign cs).2 := by
  rw [sign.eq_def]
  split
  · exact ⟨_, .minus, rfl⟩
  · exact ⟨_, .plus, rfl⟩
  · exact ⟨_, .none, rfl⟩

theorem sign_append {mark digits : List Char} {negative : Bool} (h : Sign mark negative)
    (first : ∀ c ∈ digits.head?, c.isDigit = true) :
    sign (mark ++ digits) = (negative, digits) := by
  cases h with
  | plus => rfl
  | minus => rfl
  | none =>
      rw [List.nil_append, sign.eq_def]
      split
      · exact absurd (first '-' rfl) (by decide)
      · exact absurd (first '+' rfl) (by decide)
      · rfl

/-- In the strict style an integer is a sign, at least one digit, and nothing behind the digits. -/
theorem strict_integer?_eq (cs : List Char) :
    strict.integer? cs =
      if (sign (Text.trimOf Text.isBlank cs)).2 ≠ [] ∧
          (sign (Text.trimOf Text.isBlank cs)).2.all Char.isDigit = true then
        some (signed (sign (Text.trimOf Text.isBlank cs)).1
          (spelled (sign (Text.trimOf Text.isBlank cs)).2))
      else none := by
  rw [NumeralStyle.integer?, NumeralStyle.readInteger, show strict.isBlank = Text.isBlank from rfl]
  obtain ⟨negative, digits⟩ := sign (Text.trimOf Text.isBlank cs)
  simp only [strict_digits, show ∀ rest, strict.breaksOff rest = false from fun _ => rfl,
    show strict.digitLimit? = none from rfl, Option.filter_none, Nat.zero_add, Nat.zero_mul,
    Bool.or_false, decide_eq_true_eq, List.length_eq_zero_iff, List.isEmpty_iff]
  by_cases numeral : digits ≠ [] ∧ digits.all Char.isDigit = true
  · have ascii := List.all_eq_true.mp numeral.2
    rw [if_pos numeral, List.takeWhile_eq_self_iff.mpr ascii,
      List.dropWhile_eq_nil_iff.mpr ascii, if_neg numeral.1, if_pos rfl]
    rfl
  · rw [if_neg numeral]
    split
    · rfl
    · next some =>
        -- digits that are not all there is leave something behind them
        rw [if_neg]
        · rfl
        · intro none
          have ascii := List.dropWhile_eq_nil_iff.mp none
          exact numeral ⟨fun empty => some (by rw [empty, List.takeWhile_nil]),
            List.all_eq_true.mpr ascii⟩

/-- The strict style reads the texts that denote an integer, as the integer they denote. -/
theorem strict_integer?_iff {cs : List Char} {v : Int} :
    strict.integer? cs = some v ↔ Denotes cs v := by
  rw [strict_integer?_eq]
  constructor
  · intro h
    split at h
    · next digits =>
        cases h
        obtain ⟨before, after, trimmed, front, back⟩ := Text.exists_trimOf Text.isBlank cs
        obtain ⟨mark, marked, cut⟩ := exists_sign (Text.trimOf Text.isBlank cs)
        have numeral := Denotes.numeral front marked digits.1 (List.all_eq_true.mp digits.2) back
        rwa [← cut, ← trimmed] at numeral
    · cases h
  · rintro @⟨before, mark, digits, after, negative, front, marked, some, ascii, back⟩
    obtain ⟨d, ds, rfl⟩ := List.exists_cons_of_ne_nil some
    have leading : d.isDigit = true := ascii d List.mem_cons_self
    have trimmed : Text.trimOf Text.isBlank (before ++ (mark ++ d :: ds) ++ after) =
        mark ++ d :: ds := by
      refine Text.trimOf_append front back ?_ ?_
      · intro c first
        cases marked with
        | plus =>
            cases first
            decide
        | minus =>
            cases first
            decide
        | none =>
            cases first
            exact Text.isBlank_of_isDigit leading
      · intro c last
        rw [List.getLast?_append_of_ne_nil _ (List.cons_ne_nil d ds)] at last
        exact Text.isBlank_of_isDigit (ascii c (List.mem_of_getLast? last))
    rw [trimmed, sign_append marked (by simpa using leading),
      if_pos ⟨some, List.all_eq_true.mpr ascii⟩]

/-- A fraction denotes no integer, and is not cut to one. -/
example : ∀ v, ¬ Denotes "1.7".toList v := by
  have unread : strict.integer? "1.7".toList = none := by decide
  intro v denotes
  cases unread.symm.trans (strict_integer?_iff.mpr denotes)

end Decimal

end SealedMatch
