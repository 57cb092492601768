import UnitAlgebra.Proofs.Display
import UnitAlgebra.Proofs.Registration

/-!
# Plain tables

Whether the names of a registry are plain can be read from its table: every name and every prefix
has to be without breaks, every name has to have a character that is in no number, and the name of
the unit without dimensions must not be written anywhere else.  The built-in table is plain.
-/

namespace UnitAlgebra

variable {K : Type}

/-! ## Names and prefixes -/

namespace Expression

/-- Whether a name stays a word and no number, whatever is put before it without a break. -/
def isPlain (name : String) : Bool :=
  name.toList.all (!isBreak ·) && name.toList.any (!Decimal.isLiteralCharacter ·)

variable {name : String} {front : List Char}

theorem isWord_of_isPlain (plain : isPlain name = true)
    (front_no_break : ∀ character ∈ front, isBreak character = false) :
    IsWord (front ++ name.toList) := by
  rw [isPlain, Bool.and_eq_true, List.all_eq_true, List.any_eq_true] at plain
  obtain ⟨no_break, character, member, -⟩ := plain
  refine ⟨List.ne_nil_of_mem (List.mem_append_right front member), fun other other_member => ?_⟩
  rcases List.mem_append.mp other_member with in_front | in_name
  · exact front_no_break other in_front
  · simpa using no_break other in_name

theorem ofWord?_of_isPlain [Scalar K] (plain : isPlain name = true) :
    Scalar.ofWord? K (front ++ name.toList) = none := by
  rw [isPlain, Bool.and_eq_true, List.any_eq_true] at plain
  obtain ⟨-, character, member, no_literal⟩ := plain
  cases read : Decimal.Literal.ofChars? (front ++ name.toList) with
  | none => rw [Scalar.ofWord?, read, Option.bind_eq_bind, Option.bind_none]
  | some literal =>
      have is_literal :=
        Decimal.Literal.mem_ofChars? read character (List.mem_append_right front member)
      rw [is_literal] at no_literal
      cases no_literal

end Expression

namespace Prefix

/-- What a written prefix puts before a name. -/
def stem (written : String) : List Char :=
  ((stem? written).getD written).toList

theorem toList_expand (written name : String) :
    (expand written name).toList = stem written ++ name.toList :=
  String.toList_append

/-- Whether a prefix has no break and begins no name of the unit without dimensions. -/
def isPlain (written : String) : Bool :=
  (stem written).all (!Expression.isBreak ·) &&
    !(stem written).isPrefixOf dimensionlessName.toList

theorem expand_ne_dimensionlessName {written : String} (plain : isPlain written = true)
    (name : String) : expand written name ≠ dimensionlessName := by
  intro same
  have begins : (stem written).isPrefixOf dimensionlessName.toList = true := by
    rw [← same, toList_expand]
    exact List.isPrefixOf_iff_prefix.mpr (List.prefix_append _ _)
  rw [isPlain, begins, Bool.not_true, Bool.and_false] at plain
  cases plain

end Prefix

/-! ## Tables -/

namespace DefinitionTable

/-- Whether a table has plain names and prefixes and reserves the unit without dimensions. -/
def isPlain (table : DefinitionTable K) : Bool :=
  table.prefixes.all (fun written => Prefix.isPlain written.1) &&
    table.dimensions.all fun definitions =>
      definitions.direct.all (fun unit => Expression.isPlain unit.1 &&
        (definitions.name == dimensionlessName || unit.1 != dimensionlessName)) &&
      definitions.composed.all fun unit => Expression.isPlain unit.1 && unit.1 != dimensionlessName

variable {table : DefinitionTable K}

theorem isPlain_of_mem_prefixes (plain : table.isPlain = true) {written : String × K}
    (prefixed : written ∈ table.prefixes) : Prefix.isPlain written.1 = true := by
  rw [isPlain, Bool.and_eq_true, List.all_eq_true] at plain
  exact plain.1 written prefixed

theorem isPlain_of_mem_direct (plain : table.isPlain = true) {definitions : DimensionDefinitions K}
    (listed : definitions ∈ table.dimensions) {unit : String × K}
    (direct : unit ∈ definitions.direct) :
    Expression.isPlain unit.1 = true ∧
      (definitions.name ≠ dimensionlessName → unit.1 ≠ dimensionlessName) := by
  rw [isPlain, Bool.and_eq_true] at plain
  have definitions_plain := List.all_eq_true.mp plain.2 definitions listed
  rw [Bool.and_eq_true, List.all_eq_true] at definitions_plain
  have unit_plain := definitions_plain.1 unit direct
  simp only [Bool.and_eq_true, Bool.or_eq_true, beq_iff_eq, bne_iff_ne] at unit_plain
  exact ⟨unit_plain.1, fun has_dimension => unit_plain.2.resolve_left has_dimension⟩

theorem isPlain_of_mem_composed (plain : table.isPlain = true)
    {definitions : DimensionDefinitions K} (listed : definitions ∈ table.dimensions)
    {unit : String × Composition} (composed : unit ∈ definitions.composed) :
    Expression.isPlain unit.1 = true ∧ unit.1 ≠ dimensionlessName := by
  rw [isPlain, Bool.and_eq_true] at plain
  have definitions_plain := List.all_eq_true.mp plain.2 definitions listed
  rw [Bool.and_eq_true, List.all_eq_true, List.all_eq_true] at definitions_plain
  simpa using definitions_plain.2 unit composed

variable [Scalar K] {registration : Registration K}

theorem plain_of_makes (plain : table.isPlain = true) (makes : table.Makes registration) :
    Expression.IsWord registration.name.toList ∧
      Scalar.ofWord? K registration.name.toList = none := by
  have unprefixed : ∀ {name : String}, Expression.isPlain name = true →
      Expression.IsWord name.toList ∧ Scalar.ofWord? K name.toList = none := by
    intro name name_plain
    exact ⟨@Expression.isWord_of_isPlain name [] name_plain (by simp),
      @Expression.ofWord?_of_isPlain K name [] _ name_plain⟩
  cases makes with
  | dimensionless listed stands_for_none direct =>
      exact unprefixed (isPlain_of_mem_direct plain listed direct).1
  | plain listed has_dimension referred direct made =>
      rw [Registration.name, BaseUnit.name_of_make made]
      exact unprefixed (isPlain_of_mem_direct plain listed direct).1
  | expanded listed has_dimension referred direct prefixed made =>
      have unit_plain := (isPlain_of_mem_direct plain listed direct).1
      have prefix_plain := isPlain_of_mem_prefixes plain prefixed
      rw [Prefix.isPlain, Bool.and_eq_true, List.all_eq_true] at prefix_plain
      rw [Registration.name, BaseUnit.name_of_make made, Prefix.toList_expand]
      exact ⟨Expression.isWord_of_isPlain unit_plain
        fun character member => by simpa using prefix_plain.1 character member,
        Expression.ofWord?_of_isPlain unit_plain⟩
  | composed listed composed has_side =>
      exact unprefixed (isPlain_of_mem_composed plain listed composed).1

/-- Only units without dimension are registered under the reserved name. -/
theorem dimensionless_of_makes (plain : table.isPlain = true) (makes : table.Makes registration)
    (name_eq : registration.name = dimensionlessName) :
    ∃ unit, registration.baseUnit? = some unit ∧ unit.isDimensionless = true := by
  cases makes with
  | dimensionless listed stands_for_none direct => exact ⟨_, rfl, beq_self_eq_true _⟩
  | plain listed has_dimension referred direct made =>
      rw [Registration.name, BaseUnit.name_of_make made] at name_eq
      exact absurd name_eq ((isPlain_of_mem_direct plain listed direct).2 has_dimension)
  | expanded listed has_dimension referred direct prefixed made =>
      rw [Registration.name, BaseUnit.name_of_make made] at name_eq
      exact absurd name_eq
        (Prefix.expand_ne_dimensionlessName (isPlain_of_mem_prefixes plain prefixed) _)
  | composed listed composed has_side =>
      exact absurd name_eq (isPlain_of_mem_composed plain listed composed).2

end DefinitionTable

/-! ## Registries -/

namespace Registry

theorem exists_registration [Scalar K] [LawfulScalar K] {table : DefinitionTable K}
    {registry : Registry K} (built : ofTable table = .ok registry) {name : String}
    (registered : registry.contains name = true) :
    ∃ registration, table.Makes registration ∧ registration.name = name := by
  obtain ⟨registrations, given, catalogue_eq, -⟩ := exists_of_ofTable built
  obtain ⟨unit, found⟩ := Expression.contains_iff_lookup?.mp registered
  have defined := (provides_of_ofTable built).defined found
  rw [catalogue_eq, Catalogue.defines_ofRegistrations] at defined
  obtain ⟨registration, last⟩ := defined
  obtain ⟨member, name_eq⟩ := Registration.mem_of_last? last
  exact ⟨registration, DefinitionTable.makes_of_mem given member, name_eq⟩

theorem hasPlainNames_of_isPlain [Scalar K] [LawfulScalar K] {table : DefinitionTable K}
    {registry : Registry K} (built : ofTable table = .ok registry) (plain : table.isPlain = true) :
    registry.HasPlainNames := by
  have name_plain : ∀ {name : String}, registry.contains name = true →
      Expression.IsWord name.toList ∧ Scalar.ofWord? K name.toList = none := by
    intro name registered
    obtain ⟨registration, makes, rfl⟩ := exists_registration built registered
    exact DefinitionTable.plain_of_makes plain makes
  refine ⟨fun registered => (name_plain registered).1, fun registered => (name_plain registered).2,
    ?_⟩
  obtain ⟨registrations, given, catalogue_eq, -⟩ := exists_of_ofTable built
  obtain ⟨last, last_eq⟩ := DefinitionTable.exists_last?_dimensionless given
  obtain ⟨last_member, last_name⟩ := Registration.mem_of_last? last_eq
  obtain ⟨unit, direct, no_dimension⟩ := DefinitionTable.dimensionless_of_makes plain
    (DefinitionTable.makes_of_mem given last_member) last_name
  have entered : registry.baseUnits[dimensionlessName]? = some unit := by
    rw [catalogue_eq, Catalogue.baseUnits_ofRegistrations, last_eq]
    exact direct
  exact ⟨_, (provides_of_ofTable built).direct entered,
    (CompoundUnit.HasEntries.singleton_of_isDimensionless no_dimension).beq .dimensionless⟩

theorem builtin_isPlain : DefinitionTable.builtin.isPlain = true := by
  decide +kernel

/-- The registry of the built-in table has plain names. -/
theorem builtin_hasPlainNames {registry : Registry Float} (built : builtin = .ok registry) :
    registry.HasPlainNames :=
  hasPlainNames_of_isPlain built builtin_isPlain

end Registry
end UnitAlgebra
