import UnitAlgebra.Proofs.Json.Number

/-!
# Tokens of JSON texts

The text of a tree is read token by token.  A string ends at its quotation mark, and a number or a
literal of letters ends because a mark or nothing follows it; so the text of a tree has the tokens
of the tree wherever it stands in a text.
-/

namespace UnitAlgebra
namespace Json

/-! ## Tokens of a tree -/

namespace Tree

mutual

/-- The tokens of a tree. -/
def tokens : Tree String Number → List Token
  | .null => [.null]
  | .bool value => [.bool value]
  | .number value => [.number (some value)]
  | .string value => [.string (some value)]
  | .array [] => [.openArray, .closeArray]
  | .array (first :: rest) => .openArray :: (first.tokens ++ laterItems rest)
  | .object [] => [.openObject, .closeObject]
  | .object ((key, first) :: rest) =>
      .openObject :: .string (some key) :: .colon :: (first.tokens ++ laterEntries rest)

/-- The tokens after an item of an array, up to the end of the array. -/
def laterItems : List (Tree String Number) → List Token
  | [] => [.closeArray]
  | tree :: rest => .comma :: (tree.tokens ++ laterItems rest)

/-- The tokens after an entry of an object, up to the end of the object. -/
def laterEntries : List (String × Tree String Number) → List Token
  | [] => [.closeObject]
  | (key, tree) :: rest =>
      .comma :: .string (some key) :: .colon :: (tree.tokens ++ laterEntries rest)

end

end Tree

/-! ## Steps of the automaton -/

namespace Mode

section

variable {mode next : Mode} {character : Char} {token : Token} {done : List Token}
  {rest : List Char}

theorem run?_cons (step : mode.step? character = some (done, next)) :
    mode.run? (character :: rest) = (next.run? rest).map (done ++ ·) := by
  rw [run?, step]
  change ((next.run? rest).bind fun later => some (done ++ later)) = _
  exact Option.map_eq_bind.symm

theorem run?_cons_inside (step : mode.step? character = some ([], next)) :
    mode.run? (character :: rest) = next.run? rest := by
  rw [run?_cons step]
  exact Option.map_id'

theorem run?_mark (start : start? character = some ([token], .between)) :
    between.run? (character :: rest) = (between.run? rest).map (token :: ·) :=
  @run?_cons between _ _ _ _ start

/-- A token that the next character or the end of the text completes. -/
theorem run?_of_completes (finish_eq : mode.finish? = some [token])
    (step_eq : ∀ character ∈ rest.head?, mode.step? character =
      (start? character).map fun started => (token :: started.1, started.2)) :
    mode.run? rest = (between.run? rest).map (token :: ·) := by
  cases rest with
  | nil => exact finish_eq
  | cons character rest =>
      have step := step_eq character rfl
      cases started_eq : start? character with
      | none =>
          rw [started_eq] at step
          have stuck : between.step? character = none := started_eq
          rw [run?, run?, step, stuck]
          rfl
      | some started =>
          rw [started_eq] at step
          rw [run?_cons step, @run?_cons between started.2 character started.1 rest started_eq,
            Option.map_map]
          rfl

end

/-! ## Numbers and literals of letters -/

/-- Characters that pass a test are gathered, and another one completes the token of them. -/
structure Gathers (gathered : List Char → Mode) (test : Char → Bool)
    (token? : List Char → Option Token) : Prop where
  /-- A character that passes the test is added. -/
  adds : ∀ before character, test character = true →
    (gathered before).step? character = some ([], gathered (character :: before))
  /-- Another character starts what comes after the token. -/
  completes : ∀ before character token, token? before.reverse = some token →
    test character = false → (gathered before).step? character =
      (start? character).map fun started => (token :: started.1, started.2)
  /-- The end of the text completes the token. -/
  finishes : ∀ before, (gathered before).finish? = (token? before.reverse).map fun token => [token]

theorem gathers_number : Gathers number isNumberChar numberToken? where
  adds _ _ is_number := if_pos is_number
  completes _ character _ token_eq no_number := by
    rw [step?, no_number, token_eq]
    cases start? character <;> rfl
  finishes _ := rfl

theorem gathers_word : Gathers word isLetter wordToken? where
  adds _ _ letter := if_pos letter
  completes _ character _ token_eq no_letter := by
    rw [step?, no_letter, token_eq]
    cases start? character <;> rfl
  finishes _ := rfl

section

variable {gathered : List Char → Mode} {test : Char → Bool} {token? : List Char → Option Token}
  {rest : List Char}

theorem Gathers.run?_append (gathers : Gathers gathered test token?) {characters : List Char}
    (passed : ∀ character ∈ characters, test character = true) (before : List Char) :
    (gathered before).run? (characters ++ rest) =
      (gathered (characters.reverse ++ before)).run? rest := by
  induction characters generalizing before with
  | nil => rfl
  | cons character characters induction =>
      obtain ⟨first_passed, later_passed⟩ := List.forall_mem_cons.mp passed
      rw [List.cons_append, run?_cons_inside (gathers.adds before character first_passed),
        induction later_passed, List.reverse_cons, List.append_assoc]
      rfl

/-- A text of gathered characters is their token where no such character follows. -/
theorem Gathers.run?_text (gathers : Gathers gathered test token?) {first : Char}
    {later : List Char} {token : Token} (start : start? first = some ([], gathered [first]))
    (passed : ∀ character ∈ later, test character = true)
    (token_eq : token? (first :: later) = some token)
    (ends : ∀ character ∈ rest.head?, test character = false) :
    between.run? (first :: later ++ rest) = (between.run? rest).map (token :: ·) := by
  have gathered_eq : token? (later.reverse ++ [first]).reverse = some token := by
    rw [List.reverse_append, List.reverse_reverse]
    exact token_eq
  rw [List.cons_append, @run?_cons_inside between _ _ _ start, gathers.run?_append passed]
  apply run?_of_completes
  · rw [gathers.finishes, gathered_eq]
    rfl
  · exact fun character head => gathers.completes _ _ _ gathered_eq (ends character head)

end

/-- No number and no literal of letters goes on. -/
def Ends (rest : List Char) : Prop :=
  ∀ character ∈ rest.head?, isNumberChar character = false ∧ isLetter character = false

theorem run?_wordText {first : Char} {later : List Char} {token : Token}
    (start : start? first = some ([], .word [first]))
    (all_letters : ∀ letter ∈ later, isLetter letter = true)
    (token_eq : wordToken? (first :: later) = some token) {rest : List Char} (ends : Ends rest) :
    between.run? (first :: later ++ rest) = (between.run? rest).map (token :: ·) :=
  gathers_word.run?_text start all_letters token_eq fun character head => (ends character head).2

theorem isGap_of_isNumberChar {character : Char} (is_number : isNumberChar character = true) :
    isGap character = false := by
  rw [← Bool.not_eq_true]
  intro gap
  simp only [isGap, Bool.or_eq_true, beq_iff_eq] at gap
  rcases gap with ((rfl | rfl) | rfl) | rfl <;> exact absurd is_number (by decide)

/-- A number starts with a character that is no mark, no blank and no letter. -/
theorem start?_number {character : Char} (is_number : isNumberChar character = true)
    (no_letter : isLetter character = false) :
    start? character = some ([], .number [character]) := by
  unfold start?
  split
  case h_8 =>
    rw [isGap_of_isNumberChar is_number, no_letter, is_number]
    rfl
  all_goals exact absurd is_number (by decide)

theorem run?_numberText {text : List Char} {value : Number} (spelled : IsNumberText text value)
    {rest : List Char} (ends : Ends rest) :
    between.run? (text ++ rest) = (between.run? rest).map (.number (some value) :: ·) := by
  obtain ⟨first, later, rfl⟩ := List.exists_cons_of_ne_nil spelled.ne_nil
  obtain ⟨first_number, later_numbers⟩ := List.forall_mem_cons.mp spelled.all_number
  exact gathers_number.run?_text (start?_number first_number (spelled.head_not_letter first rfl))
    later_numbers spelled.token_eq fun character head => (ends character head).1

/-! ## Strings -/

variable {rest : List Char}

theorem hexValue?_digitChar : ∀ digit < 16, hexValue? (Nat.digitChar digit) = some digit := by
  decide

theorem ofCode_toNat {character : Char} (control : character.toNat < 32) :
    StringUnit.ofCode character.toNat = .whole character := by
  rw [StringUnit.ofCode, decide_eq_false (by omega : ¬0xd800 ≤ character.toNat),
    decide_eq_false (by omega : ¬0xdc00 ≤ character.toNat), Char.ofNat_toNat]
  rfl

theorem run?_hexQuad (units : List StringUnit) {character : Char} (control : character.toNat < 32) :
    (string units .started).run? ('u' :: (hexQuad character.toNat ++ rest)) =
      (string (.whole character :: units) .none).run? rest := by
  have high : (string units (.code 2 0)).step? (Nat.digitChar (character.toNat / 16)) =
      some ([], .string units (.code 1 (character.toNat / 16))) := by
    rw [step?, stringStep?, hexValue?_digitChar _ (by omega)]
    simp
  have low : (string units (.code 1 (character.toNat / 16))).step?
      (Nat.digitChar (character.toNat % 16)) =
        some ([], .string (.whole character :: units) .none) := by
    rw [step?, stringStep?, hexValue?_digitChar _ (by omega)]
    simp only [Option.map_some, Nat.div_add_mod, le_refl, if_true, ofCode_toNat control]
  calc (string units .started).run? ('u' :: (hexQuad character.toNat ++ rest))
      = (string units (.code 4 0)).run? (hexQuad character.toNat ++ rest) := run?_cons_inside rfl
    _ = (string units (.code 3 0)).run? _ := run?_cons_inside rfl
    _ = (string units (.code 2 0)).run? _ := run?_cons_inside rfl
    _ = (string units (.code 1 _)).run? _ := run?_cons_inside high
    _ = (string (.whole character :: units) .none).run? rest := run?_cons_inside low

theorem run?_stringChar (units : List StringUnit) (character : Char) :
    (string units .none).run? (stringChar character ++ rest) =
      (string (.whole character :: units) .none).run? rest := by
  unfold stringChar
  split
  case h_8 no_quote no_escape _ _ _ _ _ =>
    split
    · rename_i control
      exact (run?_cons_inside rfl).trans (run?_hexQuad units control)
    · rename_i plain
      apply run?_cons_inside
      rw [step?, stringStep?, if_neg no_quote, if_neg no_escape, if_neg plain]
  -- The escapes of one letter.
  all_goals exact (run?_cons_inside rfl).trans (run?_cons_inside rfl)

theorem run?_stringChars (characters : List Char) (units : List StringUnit) :
    (string units .none).run? (characters.flatMap stringChar ++ rest) =
      (string ((characters.map .whole).reverse ++ units) .none).run? rest := by
  induction characters generalizing units with
  | nil => rfl
  | cons character characters induction =>
      rw [List.flatMap_cons, List.append_assoc, run?_stringChar, induction, List.map_cons,
        List.reverse_cons, List.append_assoc]
      rfl

theorem decode?_map_whole (characters : List Char) :
    StringUnit.decode? (characters.map .whole) = some characters := by
  induction characters with
  | nil => rfl
  | cons character characters induction =>
      rw [List.map_cons, StringUnit.decode?, induction]
      rfl

theorem run?_stringText (text : String) :
    between.run? ((stringText text).toList ++ rest) =
      (between.run? rest).map (.string (some text) :: ·) := by
  have text_eq : (stringText text).toList ++ rest =
      '"' :: (text.toList.flatMap stringChar ++ '"' :: rest) := by
    rw [stringText, String.toList_ofList]
    simp
  have close : (string ((text.toList.map .whole).reverse ++ []) .none).step? '"' =
      some ([.string (some text)], .between) := by
    rw [List.append_nil, step?, stringStep?, if_pos rfl, List.reverse_reverse, decode?_map_whole,
      Option.map_some, String.ofList_toList]
  rw [text_eq, @run?_cons_inside between (.string [] .none) _ _ rfl, run?_stringChars,
    run?_cons close]
  rfl

end Mode

/-! ## Trees -/

/-- The characters of texts with a comma before each of them. -/
def commaChars (texts : List String) : List Char :=
  texts.flatMap fun text => ',' :: text.toList

theorem toList_intercalate_comma (first : String) (rest : List String) :
    (",".intercalate (first :: rest)).toList = first.toList ++ commaChars rest := by
  rw [String.toList_intercalate, List.map_cons]
  induction rest generalizing first with
  | nil => simp [commaChars]
  | cons second rest induction =>
      rw [List.map_cons, List.intercalate_cons_cons, induction second]
      simp [commaChars]

theorem ends_mark {mark : Char} (number : Mode.isNumberChar mark = false)
    (letter : Mode.isLetter mark = false) (rest : List Char) : Mode.Ends (mark :: rest) := by
  rintro _ ⟨⟩
  exact ⟨number, letter⟩

/-- A comma or a bracket comes after an item. -/
theorem ends_commaChars (texts : List String) {close : Char}
    (number : Mode.isNumberChar close = false) (letter : Mode.isLetter close = false)
    (rest : List Char) : Mode.Ends (commaChars texts ++ close :: rest) := by
  cases texts with
  | nil => exact ends_mark number letter rest
  | cons text texts => exact ends_mark (by decide) (by decide) _

theorem toList_render_array (first : Tree String Number) (later : List (Tree String Number))
    (rest : List Char) : (Tree.array (first :: later)).render.toList ++ rest =
      '[' :: (first.render.toList ++ (commaChars (renderItems later) ++ ']' :: rest)) := by
  rw [Tree.render, renderItems, String.toList_append, String.toList_append,
    toList_intercalate_comma]
  simp

theorem toList_render_object (key : String) (first : Tree String Number)
    (later : List (String × Tree String Number)) (rest : List Char) :
    (Tree.object ((key, first) :: later)).render.toList ++ rest =
      '{' :: ((stringText key).toList ++ ':' ::
        (first.render.toList ++ (commaChars (renderEntries later) ++ '}' :: rest))) := by
  rw [Tree.render, renderEntries, String.toList_append, String.toList_append,
    toList_intercalate_comma]
  simp

section

open Mode

mutual

/-- The text of a tree has the tokens of the tree. -/
theorem run?_render : ∀ {tree : Tree String Number}, tree.IsPortable → ∀ {rest : List Char},
    Ends rest → between.run? (tree.render.toList ++ rest) =
      (between.run? rest).map (tree.tokens ++ ·)
  | .null, _, rest, ends =>
      @run?_wordText 'n' ['u', 'l', 'l'] _ rfl (by simp [isLetter]) rfl rest ends
  | .bool true, _, rest, ends =>
      @run?_wordText 't' ['r', 'u', 'e'] _ rfl (by simp [isLetter]) rfl rest ends
  | .bool false, _, rest, ends =>
      @run?_wordText 'f' ['a', 'l', 's', 'e'] _ rfl (by simp [isLetter]) rfl rest ends
  | .number _, portable, _, ends => run?_numberText (Number.IsPortable.isNumberText portable) ends
  | .string value, _, _, _ => run?_stringText value
  | .array [], _, rest, _ => by
      change between.run? ('[' :: ']' :: rest) = _
      rw [@run?_mark '[' .openArray _ rfl, @run?_mark ']' .closeArray _ rfl, Option.map_map]
      rfl
  | .array (first :: later), ⟨first_portable, later_portable⟩, rest, _ => by
      rw [toList_render_array, @run?_mark '[' .openArray _ rfl,
        run?_render first_portable (ends_commaChars _ (by decide) (by decide) rest),
        run?_renderItems later_portable, Option.map_map, Option.map_map]
      simp [Tree.tokens, Function.comp_def]
  | .object [], _, rest, _ => by
      change between.run? ('{' :: '}' :: rest) = _
      rw [@run?_mark '{' .openObject _ rfl, @run?_mark '}' .closeObject _ rfl, Option.map_map]
      rfl
  | .object ((key, first) :: later), ⟨first_portable, later_portable⟩, rest, _ => by
      rw [toList_render_object, @run?_mark '{' .openObject _ rfl, run?_stringText,
        @run?_mark ':' .colon _ rfl,
        run?_render first_portable (ends_commaChars _ (by decide) (by decide) rest),
        run?_renderEntries later_portable, Option.map_map, Option.map_map, Option.map_map,
        Option.map_map]
      simp [Tree.tokens, Function.comp_def]

theorem run?_renderItems : ∀ {items : List (Tree String Number)}, Tree.ArePortableItems items →
    ∀ {rest : List Char}, between.run? (commaChars (renderItems items) ++ ']' :: rest) =
      (between.run? rest).map (Tree.laterItems items ++ ·)
  | [], _, rest => @run?_mark ']' .closeArray rest rfl
  | tree :: later, ⟨tree_portable, later_portable⟩, rest => by
      have chars_eq : commaChars (renderItems (tree :: later)) ++ ']' :: rest =
          ',' :: (tree.render.toList ++ (commaChars (renderItems later) ++ ']' :: rest)) := by
        simp [renderItems, commaChars]
      rw [chars_eq, @run?_mark ',' .comma _ rfl,
        run?_render tree_portable (ends_commaChars _ (by decide) (by decide) rest),
        run?_renderItems later_portable, Option.map_map, Option.map_map]
      simp [Tree.laterItems, Function.comp_def]

theorem run?_renderEntries : ∀ {entries : List (String × Tree String Number)},
    Tree.ArePortableEntries entries →
    ∀ {rest : List Char}, between.run? (commaChars (renderEntries entries) ++ '}' :: rest) =
      (between.run? rest).map (Tree.laterEntries entries ++ ·)
  | [], _, rest => @run?_mark '}' .closeObject rest rfl
  | (key, tree) :: later, ⟨tree_portable, later_portable⟩, rest => by
      have chars_eq : commaChars (renderEntries ((key, tree) :: later)) ++ '}' :: rest =
          ',' :: ((stringText key).toList ++ ':' ::
            (tree.render.toList ++ (commaChars (renderEntries later) ++ '}' :: rest))) := by
        simp [renderEntries, commaChars]
      rw [chars_eq, @run?_mark ',' .comma _ rfl, run?_stringText, @run?_mark ':' .colon _ rfl,
        run?_render tree_portable (ends_commaChars _ (by decide) (by decide) rest),
        run?_renderEntries later_portable, Option.map_map, Option.map_map, Option.map_map,
        Option.map_map]
      simp [Tree.laterEntries, Function.comp_def]

end

end

theorem tokens?_render {tree : Tree String Number} (portable : tree.IsPortable) :
    tokens? tree.render = some tree.tokens := by
  have read := @run?_render tree portable [] (by simp [Mode.Ends])
  rw [List.append_nil] at read
  rw [tokens?, read]
  change (some []).map (tree.tokens ++ ·) = _
  rw [Option.map_some, List.append_nil]

end Json
end UnitAlgebra
