import Mathlib.Data.List.Basic
import UnitAlgebra.Expression.Word

/-!
# Splitting into words

The words of a text are its marks and its longest runs of other characters that are not blank.  A
text that is put together from two parts has the words of both, provided that a mark or a blank
stands where the parts meet.
-/

namespace UnitAlgebra
namespace Expression

/-- Whether a character ends a run: a mark or a blank. -/
def isBreak (character : Char) : Bool :=
  (mark? character).isSome || Text.isBlank character

/-- The words of a text: blanks are skipped, marks stand alone, and other runs are maximal. -/
inductive Splits : List Char → List Word → Prop where
  /-- The empty text has no words. -/
  | nil : Splits [] []
  /-- A blank belongs to no word. -/
  | blank {character : Char} {text : List Char} {words : List Word}
      (is_blank : Text.isBlank character = true) (rest : Splits text words) :
      Splits (character :: text) words
  /-- A mark is a word. -/
  | mark {character : Char} {mark : Mark} {text : List Char} {words : List Word}
      (is_mark : mark? character = some mark) (rest : Splits text words) :
      Splits (character :: text) (.mark mark :: words)
  /-- A run without breaks that ends with the text or before a break is a word. -/
  | plain {run text : List Char} {words : List Word} (nonempty : run ≠ [])
      (no_break : ∀ character ∈ run, isBreak character = false)
      (maximal : ∀ character ∈ text.head?, isBreak character = true) (rest : Splits text words) :
      Splits (run ++ text) (.plain run :: words)

/-- A single word of an expression that is no mark. -/
structure IsWord (text : List Char) : Prop where
  /-- There is at least one character. -/
  nonempty : text ≠ []
  /-- No character ends the word. -/
  no_break : ∀ character ∈ text, isBreak character = false

instance (text : List Char) : Decidable (IsWord text) :=
  decidable_of_iff (text ≠ [] ∧ text.all (fun character => !isBreak character) = true) <| by
    rw [List.all_eq_true]
    simp only [Bool.not_eq_true']
    exact ⟨fun ⟨nonempty, no_break⟩ => ⟨nonempty, no_break⟩,
      fun ⟨nonempty, no_break⟩ => ⟨nonempty, no_break⟩⟩

/-! ## Runs -/

theorem mark?_of_not_isBreak {character : Char} (no_break : isBreak character = false) :
    mark? character = none := by
  rw [isBreak, Bool.or_eq_false_iff] at no_break
  simpa using no_break.1

theorem isBlank_of_not_isBreak {character : Char} (no_break : isBreak character = false) :
    Text.isBlank character = false :=
  (Bool.or_eq_false_iff.mp no_break).2

theorem mark?_of_isBlank {character : Char} (blank : Text.isBlank character = true) :
    mark? character = none := by
  unfold mark?
  split
  case h_5 => rfl
  all_goals exact absurd blank (by decide)

theorem wordsAfter_append_run {text : List Char} (run back : List Char)
    (no_break : ∀ character ∈ text, isBreak character = false) :
    wordsAfter run (text ++ back) = wordsAfter (text.reverse ++ run) back := by
  induction text generalizing run with
  | nil => rfl
  | cons character text induction =>
      have first := no_break character List.mem_cons_self
      rw [List.cons_append, wordsAfter, mark?_of_not_isBreak first]
      simp only [isBlank_of_not_isBreak first, Bool.false_eq_true, if_false]
      rw [induction (character :: run) fun later member =>
        no_break later (List.mem_cons_of_mem character member)]
      simp

/-- What follows a break has the words that it has on its own. -/
theorem wordsAfter_break {run back : List Char}
    (starts : ∀ character ∈ back.head?, isBreak character = true) :
    wordsAfter run back = closeRun run ++ wordsAfter [] back := by
  cases back with
  | nil => simp [wordsAfter, closeRun]
  | cons character back =>
      have first := starts character rfl
      cases mark_eq : mark? character with
      | some mark => simp [wordsAfter, mark_eq, closeRun]
      | none =>
          have blank : Text.isBlank character = true := by simpa [isBreak, mark_eq] using first
          simp [wordsAfter, mark_eq, blank, closeRun]

theorem closeRun_reverse {text : List Char} (nonempty : text ≠ []) :
    closeRun text.reverse = [.plain text] := by
  cases reverse_eq : text.reverse with
  | nil => exact absurd (List.reverse_eq_nil_iff.mp reverse_eq) nonempty
  | cons last front => rw [closeRun, ← reverse_eq, List.reverse_reverse]

/-! ## Splitting is reading words -/

theorem Splits.eq_wordsAfter {text : List Char} {words : List Word} (splits : Splits text words) :
    words = wordsAfter [] text := by
  induction splits with
  | nil => rfl
  | @blank character text words is_blank rest induction =>
      rw [wordsAfter, mark?_of_isBlank is_blank]
      simpa [is_blank, closeRun] using induction
  | mark is_mark rest induction => simp [wordsAfter, is_mark, closeRun, induction]
  | plain nonempty no_break maximal rest induction =>
      rw [wordsAfter_append_run _ _ no_break, wordsAfter_break maximal, List.append_nil,
        closeRun_reverse nonempty, induction]
      rfl

theorem splits_wordsAfter (run text : List Char)
    (no_break : ∀ character ∈ run, isBreak character = false) :
    Splits (run.reverse ++ text) (wordsAfter run text) := by
  induction text generalizing run with
  | nil =>
      cases run with
      | nil => exact .nil
      | cons last front =>
          exact .plain (by simp)
            (fun character member => no_break character (List.mem_reverse.mp member))
            (by simp) .nil
  | cons character text induction =>
      -- A break closes the run that was read before it; any other character continues it.
      have closed {words : List Word} (is_break : isBreak character = true)
          (rest : Splits (character :: text) words) :
          Splits (run.reverse ++ character :: text) (closeRun run ++ words) := by
        cases run with
        | nil => exact rest
        | cons last front =>
            exact .plain (by simp)
              (fun character member => no_break character (List.mem_reverse.mp member))
              (by simpa using is_break) rest
      rw [wordsAfter]
      split
      · rename_i mark is_mark
        exact closed (by simp [isBreak, is_mark]) (.mark is_mark (induction [] (by simp)))
      · rename_i no_mark
        split
        · rename_i is_blank
          exact closed (by simp [isBreak, is_blank])
            (.blank is_blank (induction [] (by simp)))
        · rename_i not_blank
          have continued := induction (character :: run) (by
            intro other member
            rcases List.mem_cons.mp member with rfl | member
            · simpa [isBreak, no_mark] using not_blank
            · exact no_break other member)
          simpa using continued

/-- A text splits in exactly one way. -/
theorem splits_iff {text : String} {split : List Word} :
    Splits text.toList split ↔ split = words text := by
  constructor
  · exact Splits.eq_wordsAfter
  · rintro rfl
    exact splits_wordsAfter [] _ (by simp)

/-! ## Texts in two parts -/

/-- A break stands where two parts of a text meet. -/
def Separated (front back : List Char) : Prop :=
  (∃ character ∈ front.getLast?, isBreak character = true) ∨
    ∃ character ∈ back.head?, isBreak character = true

theorem wordsAfter_append_break {run front back : List Char}
    (starts : ∀ character ∈ back.head?, isBreak character = true) :
    wordsAfter run (front ++ back) = wordsAfter run front ++ wordsAfter [] back := by
  induction front generalizing run with
  | nil => exact wordsAfter_break starts
  | cons character front induction =>
      rw [List.cons_append, wordsAfter, wordsAfter]
      split
      · simp [induction]
      · split <;> simp [induction]

theorem wordsAfter_cons_break {character : Char} {back : List Char}
    (is_break : isBreak character = true) :
    wordsAfter [] (character :: back) = wordsAfter [] [character] ++ wordsAfter [] back := by
  cases mark_eq : mark? character with
  | some mark => simp [wordsAfter, mark_eq, closeRun]
  | none =>
      have blank : Text.isBlank character = true := by simpa [isBreak, mark_eq] using is_break
      simp [wordsAfter, mark_eq, blank, closeRun]

/-- Two parts that a break separates have the words of both. -/
theorem wordsAfter_append {front back : List Char} (separated : Separated front back) :
    wordsAfter [] (front ++ back) = wordsAfter [] front ++ wordsAfter [] back := by
  rcases separated with ⟨character, member, is_break⟩ | ⟨character, member, is_break⟩
  · obtain ⟨initial, rfl⟩ := List.getLast?_eq_some_iff.mp member
    have ahead (rest : List Char) : ∀ other ∈ (character :: rest).head?, isBreak other = true := by
      simpa using is_break
    rw [List.append_assoc, List.singleton_append, wordsAfter_append_break (ahead back),
      wordsAfter_cons_break is_break, wordsAfter_append_break (ahead []), List.append_assoc]
  · refine wordsAfter_append_break fun other other_member => ?_
    rw [Option.mem_unique other_member member]
    exact is_break

theorem IsWord.wordsAfter {text : List Char} (word : IsWord text) :
    Expression.wordsAfter [] text = [.plain text] := by
  have read := wordsAfter_append_run [] [] word.no_break
  rw [List.append_nil, List.append_nil] at read
  rw [read, Expression.wordsAfter, closeRun_reverse word.nonempty]

end Expression
end UnitAlgebra
