import Mathlib.Data.List.Forall2
import UnitAlgebra.Definition.Interchange
import UnitAlgebra.Proofs.Json.Source
import UnitAlgebra.Proofs.Loading

/-!
# Written tables are read back

A table is written as an object of its dimensions, with the object of its prefixes at any place
among them.  If no name is written twice and all multipliers are finite, a faithful JSON library
gives back the table from its text, with all entries in their order: a multiplier and a composition
cannot be mistaken for each other, and neither can a side that is left out and an empty one.
-/

namespace UnitAlgebra

/-! ## Compositions -/

namespace Composition

/-- The entries that a side is written as: one that is left out may also be `null`. -/
def SideIsWrittenAs (key : String) (side : Option (List String)) (entries : List (String × Json)) :
    Prop :=
  entries = sideEntry key side ∨ side = none ∧ entries = [(key, .null)]

/-- A composition is written as an object of its sides. -/
def IsWrittenAs (composition : Composition) (json : Json) : Prop :=
  ∃ above below, SideIsWrittenAs numeratorKey composition.numerator above ∧
    SideIsWrittenAs denominatorKey composition.denominator below ∧ json = .object (above ++ below)

section

variable {key : String} {side : Option (List String)} {entries : List (String × Json)}

theorem mapM_nameOfJson? (names : List String) :
    (names.map Json.Tree.string).mapM nameOfJson? = some names := by
  induction names with
  | nil => rfl
  | cons name names induction =>
      rw [List.map_cons, List.mapM_cons, induction]
      rfl

theorem SideIsWrittenAs.keys (written : SideIsWrittenAs key side entries) :
    entries = [] ∨ ∃ json, entries = [(key, json)] := by
  rcases written with rfl | ⟨-, rfl⟩
  · cases side with
    | none => exact .inl rfl
    | some names => exact .inr ⟨_, rfl⟩
  · exact .inr ⟨_, rfl⟩

/-- A written side is read back, be it given, left out or `null`. -/
theorem SideIsWrittenAs.sideUnder? {all : List (String × Json)}
    (written : SideIsWrittenAs key side entries)
    (filter_eq : (all.filter fun entry => entry.1 == key) = entries) :
    Composition.sideUnder? all key = some side := by
  rw [Composition.sideUnder?, filter_eq]
  rcases written with rfl | ⟨rfl, rfl⟩
  · cases side with
    | none => rfl
    | some names =>
        change ((names.map Json.Tree.string).mapM nameOfJson?).map some = _
        rw [mapM_nameOfJson?]
        rfl
  · rfl

theorem SideIsWrittenAs.isPlain (written : SideIsWrittenAs key side entries) :
    ∀ entry ∈ entries, entry.2.IsPlain 1 := by
  rcases written with rfl | ⟨-, rfl⟩
  · cases side with
    | none => exact fun _ member => absurd member List.not_mem_nil
    | some names =>
        refine List.forall_mem_singleton.mpr (Json.Tree.isPlain_array fun item member => ?_)
        obtain ⟨name, -, rfl⟩ := List.mem_map.mp member
        exact Json.Tree.isPlain_string name
  · exact List.forall_mem_singleton.mpr Json.Tree.isPlain_null

end

section

variable {composition : Composition} {json : Json} {above below : List (String × Json)}

/-- The two sides are told apart by their keys. -/
theorem SideIsWrittenAs.apart
    (above_written : SideIsWrittenAs numeratorKey composition.numerator above)
    (below_written : SideIsWrittenAs denominatorKey composition.denominator below) :
    ((above ++ below).all fun entry =>
        entry.1 == numeratorKey || entry.1 == denominatorKey) = true ∧
      ((above ++ below).filter fun entry => entry.1 == numeratorKey) = above ∧
      ((above ++ below).filter fun entry => entry.1 == denominatorKey) = below ∧
      ((above ++ below).map Prod.fst).Nodup := by
  have distinct : [numeratorKey, denominatorKey].Nodup := by decide
  rcases above_written.keys with rfl | ⟨_, rfl⟩ <;>
    rcases below_written.keys with rfl | ⟨_, rfl⟩
  · exact ⟨rfl, rfl, rfl, List.nodup_nil⟩
  · exact ⟨rfl, rfl, rfl, List.nodup_singleton denominatorKey⟩
  · exact ⟨rfl, rfl, rfl, List.nodup_singleton numeratorKey⟩
  · exact ⟨rfl, rfl, rfl, distinct⟩

/-- A written composition is read back. -/
theorem IsWrittenAs.ofJson? (written : composition.IsWrittenAs json) :
    Composition.ofJson? json = some composition := by
  obtain ⟨above, below, above_written, below_written, rfl⟩ := written
  obtain ⟨known, above_eq, below_eq, -⟩ := above_written.apart below_written
  rw [Composition.ofJson?, if_pos known, above_written.sideUnder? above_eq,
    below_written.sideUnder? below_eq]
  rfl

theorem IsWrittenAs.isPlain (written : composition.IsWrittenAs json) : json.IsPlain 2 := by
  obtain ⟨above, below, above_written, below_written, rfl⟩ := written
  obtain ⟨-, -, -, distinct⟩ := above_written.apart below_written
  exact Json.Tree.isPlain_object distinct
    (List.forall_mem_append.mpr ⟨above_written.isPlain, below_written.isPlain⟩)

end

end Composition

/-! ## Definitions -/

namespace Definition

/-- A definition is written as a number or as an object of sides. -/
inductive IsWrittenAs : Definition Float → Json → Prop where
  /-- A multiplier is written as a number with a point or an exponent. -/
  | multiplier (value : Float) : IsWrittenAs (.multiplier value) (.number (.double value))
  /-- A composition is written as an object. -/
  | composed {composition : Composition} {json : Json} (written : composition.IsWrittenAs json) :
      IsWrittenAs (.composed composition) json

/-- A multiplier, if there is one, is finite. -/
def IsFinite : Definition Float → Prop
  | .multiplier value => value.isFinite = true
  | .composed _ => True

variable {definition : Definition Float} {json : Json}

theorem isWrittenAs_toJson (definition : Definition Float) :
    definition.IsWrittenAs definition.toJson := by
  cases definition with
  | multiplier value => exact .multiplier value
  | composed composition => exact .composed ⟨_, _, .inl rfl, .inl rfl, rfl⟩

/-- A written definition is read back: no object is a number. -/
theorem IsWrittenAs.ofJson? (written : definition.IsWrittenAs json) :
    Definition.ofJson? json = some definition := by
  cases written with
  | multiplier value => rfl
  | composed written =>
      have read := written.ofJson?
      obtain ⟨above, below, -, -, rfl⟩ := written
      change (Composition.ofJson? (.object (above ++ below))).map _ = _
      rw [read]
      rfl

theorem IsWrittenAs.isPlain (written : definition.IsWrittenAs json) (finite : definition.IsFinite) :
    json.IsPlain 2 := by
  cases written with
  | multiplier value => exact Json.Tree.isPlain_double finite
  | composed written => exact written.isPlain

end Definition

/-! ## Tables -/

theorem Prefix.check_of_isMarked {written : String} (marked : IsMarked written) :
    check written = .ok () := by
  obtain ⟨stem, read, nonempty⟩ := isMarked_iff.mp marked
  rw [check, read]
  exact if_neg (by simp [nonempty])

/-- A unit is written as its name with its definition. -/
def UnitIsWrittenAs (unit : String × Definition Float) (entry : String × Json) : Prop :=
  entry.1 = unit.1 ∧ unit.2.IsWrittenAs entry.2

namespace DimensionDefinitions

/-- A dimension is written as its name with the object of its units. -/
def IsWrittenAs (dimension : DimensionDefinitions Float) (entry : String × Json) : Prop :=
  entry.1 = dimension.name ∧
    ∃ units, List.Forall₂ UnitIsWrittenAs dimension.units units ∧ entry.2 = .object units

/-- The units of a dimension have distinct names and finite multipliers. -/
structure IsPlain (dimension : DimensionDefinitions Float) : Prop where
  /-- No unit is defined twice. -/
  distinct : (dimension.units.map Prod.fst).Nodup
  /-- Multipliers are finite. -/
  finite : ∀ unit ∈ dimension.units, unit.2.IsFinite

end DimensionDefinitions

section

variable {units : List (String × Definition Float)} {dimension : DimensionDefinitions Float}
  {entry : String × Json} {entries : List (String × Json)} {library : Json.Library}

theorem keys_eq_of_forall₂ {Item : Type} {items : List Item} {name : Item → String}
    {related : Item → String × Json → Prop} (written : List.Forall₂ related items entries)
    (key_eq : ∀ item entry, related item entry → entry.1 = name item) :
    entries.map Prod.fst = items.map name := by
  induction written with
  | nil => rfl
  | cons first _ induction => rw [List.map_cons, List.map_cons, key_eq _ _ first, induction]

theorem mapM_unitOfEntry (written : List.Forall₂ UnitIsWrittenAs units entries) :
    entries.mapM DefinitionTable.unitOfEntry = .ok units := by
  induction written with
  | nil => rfl
  | @cons unit entry _ _ first _ induction =>
      refine Outcome.mapM_cons_eq_ok ?_ induction
      rw [DefinitionTable.unitOfEntry, first.2.ofJson?, first.1]

theorem DimensionDefinitions.IsWrittenAs.dimensionOfJson (written : dimension.IsWrittenAs entry) :
    DefinitionTable.dimensionOfJson library entry.1 entry.2 = .ok dimension := by
  obtain ⟨name_eq, units, units_written, object_eq⟩ := written
  rw [name_eq, object_eq, DefinitionTable.dimensionOfJson, mapM_unitOfEntry units_written]
  rfl

theorem DimensionDefinitions.IsWrittenAs.isPlain (written : dimension.IsWrittenAs entry)
    (plain : dimension.IsPlain) : entry.2.IsPlain 3 := by
  obtain ⟨-, units, units_written, object_eq⟩ := written
  rw [object_eq]
  refine Json.Tree.isPlain_object ?_ fun other member => ?_
  · rw [keys_eq_of_forall₂ units_written fun _ _ unit_written => unit_written.1]
    exact plain.distinct
  · obtain ⟨unit, unit_member, unit_written⟩ := exists_rel_of_mem units_written member
    exact unit_written.2.isPlain (plain.finite unit unit_member)

end

namespace DefinitionTable

/-- A prefix is written with its multiplier. -/
def prefixEntry (named : String × Float) : String × Json :=
  (named.1, .number (.double named.2))

/-- A table is written as its dimensions with the object of its prefixes among them. -/
def IsWrittenAs (table : DefinitionTable Float) (json : Json) : Prop :=
  ∃ before after,
    List.Forall₂ DimensionDefinitions.IsWrittenAs table.dimensions (before ++ after) ∧
      json = .object (before ++ (prefixKey, .object (table.prefixes.map prefixEntry)) :: after)

/-- No name is defined twice, prefixes are marked, and multipliers are finite. -/
structure IsPlain (table : DefinitionTable Float) : Prop where
  /-- No dimension is given twice. -/
  dimensions_distinct : (table.dimensions.map DimensionDefinitions.name).Nodup
  /-- No dimension has the name that prefixes are given under. -/
  not_reserved : ∀ dimension ∈ table.dimensions, dimension.name ≠ prefixKey
  /-- The units of each dimension have distinct names and finite multipliers. -/
  dimensions_plain : ∀ dimension ∈ table.dimensions, dimension.IsPlain
  /-- No prefix is given twice. -/
  prefixes_distinct : (table.prefixes.map Prod.fst).Nodup
  /-- Each prefix has a mark at its end and something before it. -/
  prefixes_marked : ∀ named ∈ table.prefixes, Prefix.IsMarked named.1
  /-- The multipliers of prefixes are finite. -/
  prefixes_finite : ∀ named ∈ table.prefixes, named.2.isFinite = true

section

variable {table : DefinitionTable Float} {json : Json} {library : Json.Library}

/-- Written dimensions are put at the end of a table in their order. -/
theorem foldlM_addEntry {dimensions : List (DimensionDefinitions Float)}
    {entries : List (String × Json)}
    (written : List.Forall₂ DimensionDefinitions.IsWrittenAs dimensions entries)
    (not_reserved : ∀ dimension ∈ dimensions, dimension.name ≠ prefixKey)
    (before : DefinitionTable Float) : entries.foldlM (addEntry library) before =
      .ok { before with dimensions := before.dimensions ++ dimensions } := by
  induction written generalizing before with
  | nil =>
      rw [List.append_nil]
      rfl
  | @cons dimension entry dimensions entries first _ induction =>
      obtain ⟨first_free, later_free⟩ := List.forall_mem_cons.mp not_reserved
      have step : addEntry library before entry =
          .ok { before with dimensions := before.dimensions ++ [dimension] } := by
        rw [addEntry, if_neg (by rwa [first.1]), first.dimensionOfJson]
        rfl
      rw [List.foldlM_cons, step]
      change entries.foldlM (addEntry library) _ = _
      rw [induction later_free, List.append_assoc]
      rfl

theorem mapM_prefixOfEntry {prefixes : List (String × Float)}
    (marked : ∀ named ∈ prefixes, Prefix.IsMarked named.1) :
    (prefixes.map prefixEntry).mapM prefixOfEntry = .ok prefixes := by
  induction prefixes with
  | nil => rfl
  | cons named prefixes induction =>
      obtain ⟨first_marked, later_marked⟩ := List.forall_mem_cons.mp marked
      refine Outcome.mapM_cons_eq_ok ?_ (induction later_marked)
      have accepted : Prefix.check (prefixEntry named).1 = .ok () :=
        Prefix.check_of_isMarked first_marked
      rw [prefixOfEntry, accepted]
      rfl

theorem addEntry_prefixes (marked : ∀ named ∈ table.prefixes, Prefix.IsMarked named.1)
    (before : DefinitionTable Float) :
    addEntry library before (prefixKey, .object (table.prefixes.map prefixEntry)) =
      .ok { before with prefixes := table.prefixes } := by
  rw [addEntry, if_pos rfl, prefixesOfJson, mapM_prefixOfEntry marked]
  rfl

/-- A written table is read back from its value, wherever the prefixes stand. -/
theorem IsWrittenAs.ofJson (written : table.IsWrittenAs json) (plain : table.IsPlain) :
    DefinitionTable.ofJson library json = .ok table := by
  obtain ⟨before, after, dimensions_written, rfl⟩ := written
  have front := List.forall₂_take_append _ _ _ dimensions_written
  have back := List.forall₂_drop_append _ _ _ dimensions_written
  have front_free : ∀ dimension ∈ table.dimensions.take before.length, dimension.name ≠ prefixKey :=
    fun dimension member => plain.not_reserved dimension (List.mem_of_mem_take member)
  have back_free : ∀ dimension ∈ table.dimensions.drop before.length, dimension.name ≠ prefixKey :=
    fun dimension member => plain.not_reserved dimension (List.mem_of_mem_drop member)
  rw [DefinitionTable.ofJson, List.foldlM_append, foldlM_addEntry front front_free]
  change (_ :: after).foldlM (addEntry library) _ = _
  rw [List.foldlM_cons, addEntry_prefixes plain.prefixes_marked]
  change after.foldlM (addEntry library) _ = _
  rw [foldlM_addEntry back back_free]
  change Except.ok (⟨table.prefixes, _ ++ _⟩ : DefinitionTable Float) = _
  rw [empty, List.nil_append, List.take_append_drop]

theorem IsPlain.isPlain_prefixes (plain : table.IsPlain) :
    Json.Tree.IsPlain 3 (.object (table.prefixes.map prefixEntry)) := by
  have keys_eq : (table.prefixes.map prefixEntry).map Prod.fst = table.prefixes.map Prod.fst :=
    List.map_map
  refine Json.Tree.isPlain_object (by rw [keys_eq]; exact plain.prefixes_distinct) ?_
  intro entry member
  obtain ⟨named, named_member, rfl⟩ := List.mem_map.mp member
  exact Json.Tree.isPlain_double (plain.prefixes_finite named named_member)

/-- The keys of a written table are the names of its dimensions and the reserved one. -/
theorem IsPlain.keys_distinct (plain : table.IsPlain) {before after : List (String × Json)}
    (written : List.Forall₂ DimensionDefinitions.IsWrittenAs table.dimensions (before ++ after))
    (prefixes : Json) : ((before ++ (prefixKey, prefixes) :: after).map Prod.fst).Nodup := by
  have keys_eq := keys_eq_of_forall₂ written fun _ _ dimension_written => dimension_written.1
  rw [List.map_append, List.map_cons, List.nodup_middle, ← List.map_append, keys_eq]
  refine List.nodup_cons.mpr ⟨fun reserved => ?_, plain.dimensions_distinct⟩
  obtain ⟨dimension, member, name_eq⟩ := List.mem_map.mp reserved
  exact plain.not_reserved dimension member name_eq

/-- A written table repeats no key. -/
theorem IsWrittenAs.isPlain (written : table.IsWrittenAs json) (plain : table.IsPlain) :
    Json.Tree.IsPlain 4 json := by
  obtain ⟨before, after, dimensions_written, rfl⟩ := written
  have dimensions_plain : ∀ entry ∈ before ++ after, entry.2.IsPlain 3 := by
    intro entry member
    obtain ⟨dimension, dimension_member, dimension_written⟩ :=
      exists_rel_of_mem dimensions_written member
    exact dimension_written.isPlain (plain.dimensions_plain dimension dimension_member)
  obtain ⟨before_plain, after_plain⟩ := List.forall_mem_append.mp dimensions_plain
  exact Json.Tree.isPlain_object (plain.keys_distinct dimensions_written _)
    (List.forall_mem_append.mpr
      ⟨before_plain, List.forall_mem_cons.mpr ⟨plain.isPlain_prefixes, after_plain⟩⟩)

/--
A faithful library gives back a table from the text that it writes of it, and so does any library
from a text that it reads as the written table.
-/
theorem ofTextWith_of_isWrittenAs (library : Json.Library) (faithful : library.IsFaithful)
    (plain : table.IsPlain) (written : table.IsWrittenAs json) :
    ofTextWith library (library.write json) = .ok table ∧
      ∀ text, library.read? text = some json → ofTextWith library text = .ok table := by
  have read_back (text : String) (text_read : library.read? text = some json) :
      ofTextWith library text = .ok table := by
    rw [ofTextWith, text_read]
    exact written.ofJson plain
  have json_plain : json.IsPlain Json.Source.maximumDepth :=
    (written.isPlain plain).mono (by decide)
  exact ⟨read_back (library.write json) (faithful json json_plain), read_back⟩

end

/-- A table with a missing side, an empty side, a negative zero and a name that needs escapes. -/
private def clockTable : DefinitionTable Float :=
  ⟨[("kilo-", 1000), ("no-", -0.0)],
    [⟨"time", [("second", .multiplier 1), ("hertz", .composed ⟨none, some ["second"]⟩)]⟩,
      ⟨"plane\n\"angle\"", [("turn", .composed ⟨some [], none⟩), ("mil", .multiplier 0.001)]⟩]⟩

/-- The table with its prefixes between the dimensions and `null` for a side that is left out. -/
private def clockJson : Json :=
  .object [
    ("time", .object [("second", .number (.double 1)),
      ("hertz", .object [("numerator", .null), ("denominator", .array [.string "second"])])]),
    ("__prefixes__",
      .object [("kilo-", .number (.double 1000)), ("no-", .number (.double (-0.0)))]),
    ("plane\n\"angle\"", .object [("turn", .object [("numerator", .array [])]),
      ("mil", .number (.double 0.001))])]

private theorem clockTable_isPlain : clockTable.IsPlain where
  dimensions_distinct := by decide
  not_reserved := by decide
  dimensions_plain := by
    refine List.forall_mem_cons.mpr ⟨⟨by decide, ?_⟩, List.forall_mem_singleton.mpr ⟨by decide, ?_⟩⟩
    · exact List.forall_mem_cons.mpr ⟨rfl, List.forall_mem_singleton.mpr trivial⟩
    · exact List.forall_mem_cons.mpr ⟨trivial, List.forall_mem_singleton.mpr rfl⟩
  prefixes_distinct := by decide
  prefixes_marked := List.forall_mem_cons.mpr ⟨⟨['k', 'i', 'l', 'o'], by decide, by decide⟩,
    List.forall_mem_singleton.mpr ⟨['n', 'o'], by decide, by decide⟩⟩
  prefixes_finite := List.forall_mem_cons.mpr ⟨rfl, List.forall_mem_singleton.mpr rfl⟩

private theorem clockTable_isWrittenAs : clockTable.IsWrittenAs clockJson := by
  have turn := Definition.isWrittenAs_toJson (.composed ⟨some [], none⟩)
  refine ⟨[_], [_],
    .cons ⟨rfl, _, .cons ⟨rfl, .multiplier 1⟩ (.cons ⟨rfl, .composed ?_⟩ .nil), rfl⟩
      (.cons ⟨rfl, _, .cons ⟨rfl, turn⟩ (.cons ⟨rfl, .multiplier 0.001⟩ .nil), rfl⟩ .nil), rfl⟩
  exact ⟨[_], [_], .inr ⟨rfl, rfl⟩, .inl rfl, rfl⟩

/-- A table is read back with its prefixes written between its dimensions. -/
theorem clockTable_readBack : Json.library.IsFaithful ∧ clockTable.IsPlain ∧
    clockTable.IsWrittenAs clockJson ∧
    ofTextWith Json.library (Json.library.write clockJson) = .ok clockTable :=
  ⟨Json.library_isFaithful, clockTable_isPlain, clockTable_isWrittenAs,
    (ofTextWith_of_isWrittenAs Json.library Json.library_isFaithful clockTable_isPlain
      clockTable_isWrittenAs).1⟩

end DefinitionTable

end UnitAlgebra
