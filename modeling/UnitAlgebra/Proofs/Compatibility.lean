import UnitAlgebra.Proofs.Bookkeeping
import UnitAlgebra.Proofs.Mismatch
import UnitAlgebra.Proofs.Reachability

/-!
# Compatible units

Two units are compatible if the texts of their dimensions are equal.  Such a text tells the
dimensions only if no name of a dimension holds the border of two tags, since then every tag ends
where it seems to end.  In the registry of a table without such names the compatible units are those
that convert; with such a name a unit may be compatible with units to which it does not convert.
-/

namespace UnitAlgebra

/-! ## Texts of tags -/

/-- A name of a dimension that holds no border of two tags. -/
def IsClear (name : String) : Prop :=
  ¬"]*[".toList <:+: name.toList ∧ ¬"]/[".toList <:+: name.toList

instance : DecidablePred IsClear := fun _ => inferInstanceAs (Decidable (_ ∧ _))

/-- The tag of a dimension with a clear name. -/
def IsClearTag (tag : String) : Prop :=
  ∃ name, IsClear name ∧ tag = dimensionTag name

/-- Some tags, all of dimensions with clear names. -/
structure AreClearTags (tags : List String) : Prop where
  /-- There is a tag. -/
  filled : tags ≠ []
  /-- All tags are clear. -/
  clear : ∀ tag ∈ tags, IsClearTag tag

/-- What can stand after a tag in the text of dimensions: nothing, or a mark before another tag. -/
inductive FollowsTag : List Char → Prop where
  /-- The text ends. -/
  | nil : FollowsTag []
  /-- Another tag on the same side. -/
  | product (rest : List Char) : FollowsTag ('*' :: '[' :: rest)
  /-- The first tag of the other side. -/
  | quotient (rest : List Char) : FollowsTag ('/' :: '[' :: rest)

theorem toList_dimensionTag (name : String) :
    (dimensionTag name).toList = '[' :: name.toList ++ [']'] := by
  simp [dimensionTag, toString]

/-- A mark and an opening bracket lie before any closing bracket. -/
theorem exists_beyond {mark : Char} (not_closing : mark ≠ ']') {rest extra rest' : List Char}
    (text_eq : mark :: '[' :: rest = extra ++ ']' :: rest') :
    ∃ beyond, extra = mark :: '[' :: beyond := by
  match extra with
  | [] => exact absurd (List.cons.inj text_eq).1 not_closing
  | [_] => simp at text_eq
  | _ :: _ :: beyond =>
      obtain ⟨rfl, rest_eq⟩ := List.cons.inj text_eq
      obtain ⟨rfl, -⟩ := List.cons.inj rest_eq
      exact ⟨beyond, rfl⟩

theorem IsClear.not_beyond {name : String} (clear : IsClear name)
    {front extra rest rest' : List Char} (name_eq : name.toList = front ++ ']' :: extra)
    (follows : FollowsTag rest) : rest ≠ extra ++ ']' :: rest' := by
  intro text_eq
  obtain ⟨no_product, no_quotient⟩ := clear
  rw [name_eq] at no_product no_quotient
  cases follows with
  | nil => simp at text_eq
  | product more =>
      obtain ⟨beyond, rfl⟩ := exists_beyond (by decide) text_eq
      exact no_product ⟨front, beyond, by simp⟩
  | quotient more =>
      obtain ⟨beyond, rfl⟩ := exists_beyond (by decide) text_eq
      exact no_quotient ⟨front, beyond, by simp⟩

/-- A clear name that goes on where the tag of another name ends does not go on at all. -/
theorem IsClear.eq_of_append {name other : String} (clear : IsClear name)
    {extra rest rest' : List Char} (follows : FollowsTag rest)
    (name_eq : name.toList = other.toList ++ extra)
    (rest_eq : ']' :: rest = extra ++ ']' :: rest') :
    other = name ∧ rest = rest' := by
  cases extra with
  | nil =>
      rw [List.append_nil] at name_eq
      exact ⟨(String.toList_injective name_eq).symm, (List.cons.inj rest_eq).2⟩
  | cons bracket extra =>
      obtain ⟨rfl, beyond_eq⟩ := List.cons.inj rest_eq
      exact absurd beyond_eq (clear.not_beyond name_eq follows)

/-- The first of several clear tags can be told from their text. -/
theorem tag_append_inj {tag tag' : String} (clear : IsClearTag tag) (clear' : IsClearTag tag')
    {rest rest' : List Char} (follows : FollowsTag rest) (follows' : FollowsTag rest')
    (same : tag.toList ++ rest = tag'.toList ++ rest') : tag = tag' ∧ rest = rest' := by
  obtain ⟨name, name_clear, rfl⟩ := clear
  obtain ⟨name', name_clear', rfl⟩ := clear'
  have names_eq : name.toList ++ ']' :: rest = name'.toList ++ ']' :: rest' := by
    simpa [toList_dimensionTag] using same
  -- The longer name goes on where the tag of the shorter one ends.
  rcases List.append_eq_append_iff.mp names_eq with
    ⟨extra, name_eq, rest_eq⟩ | ⟨extra, name_eq, rest_eq⟩
  · obtain ⟨rfl, rests_eq⟩ := name_clear'.eq_of_append follows name_eq rest_eq
    exact ⟨rfl, rests_eq⟩
  · obtain ⟨rfl, rests_eq⟩ := name_clear.eq_of_append follows' name_eq rest_eq
    exact ⟨rfl, rests_eq.symm⟩

namespace Side

/-- The text of tags with a mark before each of them. -/
def marked (tags : List String) : List Char :=
  tags.flatMap fun tag => '*' :: tag.toList

theorem marked_eq {tags : List String} (tags_ne : tags ≠ []) :
    marked tags = '*' :: (product tags).toList := by
  induction tags with
  | nil => contradiction
  | cons tag tags induction =>
      by_cases last : tags = []
      · simp [last, marked, product]
      · have rest_eq := induction last
        rw [marked] at rest_eq
        rw [← List.singleton_append, product_append (by simp) last, marked, List.flatMap_append,
          rest_eq]
        simp [product]

theorem exists_marked_eq {tags : List String} (clear : AreClearTags tags) :
    ∃ rest, marked tags = '*' :: '[' :: rest := by
  cases tags with
  | nil => exact absurd rfl clear.filled
  | cons tag tags =>
      obtain ⟨name, -, rfl⟩ := clear.clear tag List.mem_cons_self
      exact ⟨_, by rw [marked, List.flatMap_cons, toList_dimensionTag]; rfl⟩

theorem followsTag_marked {tags : List String} (clear : ∀ tag ∈ tags, IsClearTag tag)
    {rest : List Char} (follows : FollowsTag rest) : FollowsTag (marked tags ++ rest) := by
  by_cases tags_eq : tags = []
  · rw [tags_eq]
    exact follows
  · obtain ⟨more, marked_eq⟩ := exists_marked_eq ⟨tags_eq, clear⟩
    rw [marked_eq]
    exact .product _

theorem followsTag_quotient {tags : List String} (clear : AreClearTags tags) :
    FollowsTag ('/' :: (product tags).toList) := by
  obtain ⟨more, marked_more⟩ := exists_marked_eq clear
  rw [(List.cons.inj ((marked_eq clear.filled).symm.trans marked_more)).2]
  exact .quotient more

/-- Of two lists of clear tags with one text up to some rests, one is the beginning of the other. -/
theorem comparable_of_marked_eq {tags tags' : List String} (clear : ∀ tag ∈ tags, IsClearTag tag)
    (clear' : ∀ tag ∈ tags', IsClearTag tag) {rest rest' : List Char} (follows : FollowsTag rest)
    (follows' : FollowsTag rest') (same : marked tags ++ rest = marked tags' ++ rest') :
    tags <+: tags' ∨ tags' <+: tags := by
  induction tags generalizing tags' with
  | nil => exact .inl List.nil_prefix
  | cons tag tags induction =>
      cases tags' with
      | nil => exact .inr List.nil_prefix
      | cons tag' tags' =>
          obtain ⟨tag_clear, tags_clear⟩ := List.forall_mem_cons.mp clear
          obtain ⟨tag_clear', tags_clear'⟩ := List.forall_mem_cons.mp clear'
          have texts_eq :
              tag.toList ++ (marked tags ++ rest) = tag'.toList ++ (marked tags' ++ rest') := by
            simpa [marked] using same
          obtain ⟨rfl, rests_eq⟩ := tag_append_inj tag_clear tag_clear'
            (followsTag_marked tags_clear follows) (followsTag_marked tags_clear' follows') texts_eq
          rw [List.cons_prefix_cons, List.cons_prefix_cons]
          exact (induction tags_clear tags_clear' rests_eq).imp (⟨rfl, ·⟩) (⟨rfl, ·⟩)

theorem comparable_of_product_eq {tags tags' : List String} (clear : AreClearTags tags)
    (clear' : AreClearTags tags') {rest rest' : List Char} (follows : FollowsTag rest)
    (follows' : FollowsTag rest')
    (same : (product tags).toList ++ rest = (product tags').toList ++ rest') :
    tags <+: tags' ∨ tags' <+: tags := by
  refine comparable_of_marked_eq clear.clear clear'.clear follows follows' ?_
  rw [marked_eq clear.filled, marked_eq clear'.filled, List.cons_append, same, List.cons_append]

theorem tags_eq_of_clear {above above' below below' : List String}
    (above_clear : AreClearTags above) (above_clear' : AreClearTags above')
    (below_clear : AreClearTags below) (below_clear' : AreClearTags below')
    (text_eq : product above ++ "/" ++ product below = product above' ++ "/" ++ product below') :
    above = above' ∧ below = below' := by
  have characters : (product above).toList ++ '/' :: (product below).toList =
      (product above').toList ++ '/' :: (product below').toList := by
    simpa using congrArg String.toList text_eq
  refine tags_eq_of_quotient_eq above_clear.filled above_clear'.filled below_clear.filled
    below_clear'.filled ?_ ?_ text_eq
  · exact comparable_of_product_eq above_clear above_clear' (followsTag_quotient below_clear)
      (followsTag_quotient below_clear') characters
  · intro below_text
    exact comparable_of_product_eq below_clear below_clear' .nil .nil (by rw [below_text])

end Side

/-! ## Clear units -/

variable {K : Type} [Scalar K]

theorem Side.areClearTags {side : Side K} (side_ne : side ≠ [])
    (clear : ∀ entry ∈ side, IsClearTag entry.dimension) : AreClearTags (tags side) where
  filled := tags_ne_nil side_ne
  clear := by
    intro tag member
    obtain ⟨entry, entry_member, rfl⟩ := List.mem_map.mp member
    exact clear entry entry_member

namespace CompoundUnit

variable {left right : CompoundUnit K}

/-- Only dimensions with clear names stand on the sides of a unit. -/
structure HasClearTags (unit : CompoundUnit K) : Prop where
  /-- The side above the line is filled with such dimensions. -/
  above : AreClearTags (Side.tags unit.numerator)
  /-- The side below the line is filled with such dimensions. -/
  below : AreClearTags (Side.tags unit.denominator)

theorem compatible_of_conversionFactor {factor : K}
    (converted : left.conversionFactor right = .ok factor) : left.compatible right = true := by
  rw [conversionFactor] at converted
  split at converted
  · assumption
  · cases converted

theorem HasClearTags.aligned_of_compatible (left_clear : left.HasClearTags)
    (right_clear : right.HasClearTags) (compatible : left.compatible right = true) :
    left.Aligned right := by
  have text_eq := beq_iff_eq.mp compatible
  obtain ⟨above, below⟩ := Side.tags_eq_of_clear left_clear.above right_clear.above
    left_clear.below right_clear.below text_eq
  exact ⟨above, below⟩

end CompoundUnit

/-! ## Clear tables -/

/-- No dimension of a table has a name that holds the border of two tags. -/
def DefinitionTable.HasClearDimensions {K : Type} (table : DefinitionTable K) : Prop :=
  ∀ definitions ∈ table.dimensions, IsClear definitions.name

instance {K : Type} (table : DefinitionTable K) : Decidable table.HasClearDimensions :=
  inferInstanceAs (Decidable (∀ _ ∈ _, _))

theorem isClearTag_dimensionless : IsClearTag (BaseUnit.dimensionless : BaseUnit K).dimension :=
  ⟨dimensionlessName, by decide, rfl⟩

namespace DefinitionTable.HasClearDimensions

variable {table : DefinitionTable K} {registry : Registry K}

theorem isClearTag_of_baseUnit? (clear : table.HasClearDimensions) {name : String}
    {unit : BaseUnit K} (found : table.baseUnit? name = some unit) : IsClearTag unit.dimension := by
  obtain ⟨event, last, event_direct⟩ := Option.bind_eq_some_iff.mp found
  cases event with
  | composed _ _ => cases event_direct
  | direct name dimension reference multiplier =>
      obtain ⟨definitions, listed, rfl⟩ := dimension_of_mem_events (Event.mem_of_last? last)
      obtain ⟨-, tag_eq, -⟩ := Event.fields_of_baseUnit? event_direct
      exact ⟨definitions.name, clear definitions listed, tag_eq⟩

theorem hasClearTags_of_gives [LawfulScalar K] (clear : table.HasClearDimensions)
    (built : Registry.ofTable table = .ok registry) {value : Value K}
    (given : registry.Gives value) : value.unitOf.HasClearTags := by
  obtain ⟨above, below, draws⟩ := Registry.draws_of_gives built given
  have realizes := ((Registry.ofTable_meets table).of_ok built).2
  have entry_clear : ∀ entry ∈ value.unitOf.numerator ++ value.unitOf.denominator,
      IsClearTag entry.dimension := by
    intro entry member
    rcases draws.entry_known member with rfl | found
    · exact isClearTag_dimensionless
    · rw [realizes.follows.baseUnits_eq] at found
      exact clear.isClearTag_of_baseUnit? found
  have filled := (Registry.isFormed_of_gives built given).1.filled
  constructor
  · exact Side.areClearTags filled.1 fun entry member =>
      entry_clear entry (List.mem_append_left _ member)
  · exact Side.areClearTags filled.2 fun entry member =>
      entry_clear entry (List.mem_append_right _ member)

end DefinitionTable.HasClearDimensions

namespace Registry

variable {table : DefinitionTable K} {registry : Registry K} {left right : CompoundUnit K}

/--
Units that convert are compatible.  If no name of a dimension holds the border of two tags, then
compatible units convert, however they are made from the registry.
-/
theorem compatible_iff_converts [LawfulScalar K] (built : ofTable table = .ok registry)
    (left_given : registry.Gives (.bare left)) (right_given : registry.Gives (.bare right)) :
    ((∃ factor, left.conversionFactor right = .ok factor) → left.compatible right = true) ∧
      (table.HasClearDimensions →
        (left.compatible right = true ↔ ∃ factor, left.conversionFactor right = .ok factor)) := by
  have compatible_of_converts :
      (∃ factor, left.conversionFactor right = .ok factor) → left.compatible right = true :=
    fun ⟨_, converted⟩ => CompoundUnit.compatible_of_conversionFactor converted
  refine ⟨compatible_of_converts, fun clear => ⟨fun compatible => ?_, compatible_of_converts⟩⟩
  have left_clear : left.HasClearTags := clear.hasClearTags_of_gives built left_given
  have right_clear : right.HasClearTags := clear.hasClearTags_of_gives built right_given
  have aligned := left_clear.aligned_of_compatible right_clear compatible
  exact ⟨_, CompoundUnit.conversionFactor_eq_foldl aligned.above aligned.below⟩

/-- No name of a dimension of the shipped table holds the border of two tags. -/
example : DefinitionTable.builtin.HasClearDimensions := by decide +kernel

/-- A table with marks and brackets in the names of its dimensions, but no border of two tags. -/
private def bracketed : DefinitionTable Float where
  prefixes := []
  dimensions :=
    [⟨dimensionlessName, [(dimensionlessName, .multiplier 1)]⟩,
      ⟨"length]*", [("meter", .multiplier 1), ("foot", .multiplier 0.3048)]⟩,
      ⟨"/[time", [("second", .multiplier 1), ("hour", .multiplier 3600)]⟩]

/-- Feet by the hour are compatible with meters by the second, and convert to them. -/
theorem compatible_iff_converts_bracketed :
    ∃ registry foot hour meter second, ofTable bracketed = .ok registry ∧
      registry.lookup? "foot" = some foot ∧ registry.lookup? "hour" = some hour ∧
      registry.lookup? "meter" = some meter ∧ registry.lookup? "second" = some second ∧
      (foot.divide hour).compatible (meter.divide second) = true ∧
      ∃ factor, (foot.divide hour).conversionFactor (meter.divide second) = .ok factor := by
  have computed : Outcome.passes (ofTable bracketed) (fun registry =>
      (registry.lookup? "foot").any fun foot => (registry.lookup? "hour").any fun hour =>
        (registry.lookup? "meter").any fun meter => (registry.lookup? "second").any fun second =>
          (foot.divide hour).compatible (meter.divide second)) = true := by decide +kernel
  obtain ⟨registry, built, tests⟩ := Outcome.exists_of_passes computed
  simp only [Option.any_eq_true] at tests
  obtain ⟨foot, foot_found, hour, hour_found, meter, meter_found, second, second_found,
    compatible⟩ := tests
  have clear : bracketed.HasClearDimensions := by decide +kernel
  have converts := (compatible_iff_converts built
    (.divide (.lookup foot_found) (.lookup hour_found))
    (.divide (.lookup meter_found) (.lookup second_found))).2 clear
  exact ⟨registry, foot, hour, meter, second, built, foot_found, hour_found, meter_found,
    second_found, compatible, converts.mp compatible⟩

/-- A table with a dimension whose tag reads like the tags of two others. -/
private def borders : DefinitionTable Float where
  prefixes := []
  dimensions :=
    [⟨dimensionlessName, [(dimensionlessName, .multiplier 1)]⟩,
      ⟨"length", [("meter", .multiplier 1)]⟩, ⟨"time", [("second", .multiplier 1)]⟩,
      ⟨"length]*[time", [("stay", .multiplier 1)]⟩]

/-- A stay is compatible with the product of meter and second, but does not convert to it. -/
theorem stay_compatible_with_meter_second :
    ∃ registry stay meter second, ofTable borders = .ok registry ∧
      registry.lookup? "stay" = some stay ∧ registry.lookup? "meter" = some meter ∧
      registry.lookup? "second" = some second ∧
      stay.compatible (meter.multiply second) = true ∧
      ¬∃ factor, stay.conversionFactor (meter.multiply second) = .ok factor := by
  have computed : Outcome.passes (ofTable borders) (fun registry =>
      (registry.lookup? "stay").any fun stay => (registry.lookup? "meter").any fun meter =>
        (registry.lookup? "second").any fun second =>
          stay.compatible (meter.multiply second) &&
            !(stay.conversionFactor (meter.multiply second)).isOk) = true := by decide +kernel
  obtain ⟨registry, built, tests⟩ := Outcome.exists_of_passes computed
  simp only [Option.any_eq_true, Bool.and_eq_true, Bool.not_eq_true'] at tests
  obtain ⟨stay, stay_found, meter, meter_found, second, second_found, compatible, refused⟩ := tests
  refine ⟨registry, stay, meter, second, built, stay_found, meter_found, second_found, compatible,
    ?_⟩
  rintro ⟨factor, converted⟩
  rw [converted] at refused
  cases refused

end Registry
end UnitAlgebra
