import UnitAlgebra.Proofs.Association
import UnitAlgebra.Proofs.Denotation
import UnitAlgebra.Proofs.Power
import UnitAlgebra.Proofs.Shortcut

/-!
# Even cancellation

Entries cancel evenly if only equal ones ever meet.  Then nothing is lost: no factor is incurred,
and every base unit occurs above the line more often than below by as much as before, not merely
every dimension.  A reduced unit is determined by these surpluses, so the order in which parts are
joined makes no difference to it.
-/

namespace UnitAlgebra

variable {K : Type} [Scalar K]

namespace Side

/-! ## Surpluses -/

/-- How often a base unit occurs on one side more than on another. -/
def surplus (entry : BaseUnit K) (above below : Side K) : Int :=
  above.count entry - below.count entry

theorem surplus_append (entry : BaseUnit K) (above more_above below more_below : Side K) :
    surplus entry (above ++ more_above) (below ++ more_below) =
      surplus entry above below + surplus entry more_above more_below := by
  simp only [surplus, List.count_append]
  omega

theorem surplus_perm {above above' below below' : Side K} (above_perm : above.Perm above')
    (below_perm : below.Perm below') (entry : BaseUnit K) :
    surplus entry above below = surplus entry above' below' := by
  rw [surplus, surplus, above_perm.count_eq, below_perm.count_eq]

theorem count_eq_of_unnamed_eq {left right : Side K} (same : unnamed left = unnamed right)
    (entry : BaseUnit K) : left.count entry = right.count entry := by
  have count_unnamed (side : Side K) : (unnamed side).count entry = side.count entry := by
    rw [unnamed, List.count, List.countP_map]
    rfl
  rw [← count_unnamed, same, count_unnamed]

section

variable [OrderedScalar K]

theorem count_cons_pos (entry : BaseUnit K) (side : Side K) :
    0 < (entry :: side).count entry := by
  rw [List.count_cons, beq_self_eq_true, if_pos rfl]
  exact Nat.succ_pos _

theorem beq_right_congr {left right : BaseUnit K} (equal : (left == right) = true)
    (entry : BaseUnit K) : (left == entry) = (right == entry) := by
  rw [Bool.eq_iff_iff, BaseUnit.beq_iff, BaseUnit.beq_iff, BaseUnit.beq_iff.mp equal]

theorem unnamed_perm_of_count_eq {left right : Side K}
    (left_dimension : ∀ entry ∈ left, entry.isDimensionless = false)
    (right_dimension : ∀ entry ∈ right, entry.isDimensionless = false)
    (counts : ∀ entry : BaseUnit K, entry.isDimensionless = false →
      left.count entry = right.count entry) : (unnamed left).Perm (unnamed right) := by
  induction left generalizing right with
  | nil =>
      cases right with
      | nil => exact List.Perm.refl _
      | cons head tail =>
          have none_there := counts head (right_dimension head List.mem_cons_self)
          exact absurd none_there (count_cons_pos head tail).ne
  | cons head tail induction =>
      obtain ⟨head_dimension, tail_dimension⟩ := List.forall_mem_cons.mp left_dimension
      have occurs : 0 < right.count head := by
        rw [← counts head head_dimension]
        exact count_cons_pos head tail
      obtain ⟨partner, member, equal⟩ := List.countP_pos_iff.mp occurs
      obtain ⟨front, back, rfl⟩ := List.append_of_mem member
      have rest_perm : (unnamed tail).Perm (unnamed (front ++ back)) := by
        refine induction tail_dimension (fun entry entry_member => ?_) fun entry has => ?_
        · exact right_dimension entry (by simp only [List.mem_append, List.mem_cons] at *; tauto)
        · have total := counts entry has
          rw [List.count_append, List.count_cons, List.count_cons, beq_right_congr equal] at total
          rw [List.count_append]
          omega
      have partner_first : (partner :: (front ++ back)).Perm (front ++ partner :: back) :=
        List.perm_middle.symm
      refine (rest_perm.cons head.unnamed).trans ?_
      rw [← BaseUnit.beq_iff.mp equal]
      exact partner_first.map BaseUnit.unnamed

end

/-! ## Even sides -/

/-- Entries with one dimension are equal if they stand on different sides. -/
def CancelsEvenly (above below : Side K) : Prop :=
  ∀ upper ∈ dimensional above, ∀ lower ∈ dimensional below, upper.dimension = lower.dimension →
    (upper == lower) = true

instance (above below : Side K) : Decidable (CancelsEvenly above below) :=
  inferInstanceAs (Decidable (∀ upper ∈ dimensional above, ∀ lower ∈ dimensional below,
    upper.dimension = lower.dimension → (upper == lower) = true))

theorem CancelsEvenly.mono {above below fewer_above fewer_below : Side K}
    (even : CancelsEvenly above below) (above_subset : dimensional fewer_above ⊆ dimensional above)
    (below_subset : dimensional fewer_below ⊆ dimensional below) :
    CancelsEvenly fewer_above fewer_below :=
  fun upper upper_member lower lower_member =>
    even upper (above_subset upper_member) lower (below_subset lower_member)

theorem dimensional_subset_append (front rest : Side K) :
    dimensional front ⊆ dimensional (front ++ rest) := by
  rw [dimensional_append]
  exact List.subset_append_left _ _

theorem dimensional_append_subset {front whole rest : Side K}
    (subset : dimensional front ⊆ dimensional whole) :
    dimensional (front ++ rest) ⊆ dimensional (whole ++ rest) := by
  rw [dimensional_append, dimensional_append]
  exact List.append_subset.mpr ⟨List.subset_append_of_subset_left _ subset,
    List.subset_append_right _ _⟩

end Side

/-! ## Cancellation -/

section

variable {left : Cancellation K} {numerator denominator : Side K} {factor : K}
  {pairs : List (BaseUnit K × BaseUnit K)}

namespace Cancellation

/-- Only equal entries are removed together from even sides. -/
theorem Removes.beq_of_even
    (removes : left.Removes (Side.dimensional numerator) factor (Side.dimensional denominator)
      pairs) (even : Side.CancelsEvenly numerator denominator) :
    ∀ pair ∈ pairs, (pair.1 == pair.2) = true := by
  intro pair member
  refine even pair.1 (removes.numerator_perm.mem_iff.mpr ?_) pair.2
    (removes.denominator_perm.mem_iff.mpr ?_) (removes.same_dimension pair member)
  · exact List.mem_append_left _ (List.mem_map_of_mem member)
  · exact List.mem_append_left _ (List.mem_map_of_mem member)

theorem Removes.surplus_eq [OrderedScalar K]
    (removes : left.Removes numerator factor denominator pairs)
    (equal : ∀ pair ∈ pairs, (pair.1 == pair.2) = true) (entry : BaseUnit K) :
    Side.surplus entry left.numerator left.denominator =
      Side.surplus entry numerator denominator := by
  have removed_same :
      Side.unnamed (pairs.map Prod.fst) = Side.unnamed (pairs.map Prod.snd) := by
    rw [Side.unnamed, Side.unnamed, List.map_map, List.map_map]
    exact List.map_congr_left fun pair member => BaseUnit.beq_iff.mp (equal pair member)
  have removed_surplus :
      Side.surplus entry (pairs.map Prod.fst) (pairs.map Prod.snd) = 0 := by
    rw [Side.surplus, Side.count_eq_of_unnamed_eq removed_same, Int.sub_self]
  rw [Side.surplus_perm removes.numerator_perm removes.denominator_perm, Side.surplus_append,
    removed_surplus, Int.zero_add]

theorem Removes.factor_eq_of_beq [DividingScalar K]
    (removes : left.Removes numerator factor denominator pairs)
    (equal : ∀ pair ∈ pairs, (pair.1 == pair.2) = true) : left.factor = factor := by
  rw [removes.factor_eq]
  clear removes
  induction pairs generalizing factor with
  | nil => rfl
  | cons pair pairs induction =>
      obtain ⟨pair_equal, pairs_equal⟩ := List.forall_mem_cons.mp equal
      obtain ⟨-, multiplier_eq⟩ := BaseUnit.same_of_unnamed_eq (BaseUnit.beq_iff.mp pair_equal)
      rw [List.foldl_cons, multiplier_eq, DividingScalar.div_self pair.2.isMultiplier,
        LawfulScalar.mul_one]
      exact induction pairs_equal

end Cancellation

/-- Even sides cancel without a factor and keep their surpluses. -/
theorem simplify_of_even [DividingScalar K] (even : Side.CancelsEvenly numerator denominator) :
    (simplify numerator denominator).factor = 1 ∧ ∀ entry : BaseUnit K,
      entry.isDimensionless = false →
        Side.surplus entry (simplify numerator denominator).numerator
            (simplify numerator denominator).denominator =
          Side.surplus entry numerator denominator := by
  obtain ⟨pairs, removes⟩ := exists_simplify_removes numerator denominator
  have equal := removes.beq_of_even even
  refine ⟨removes.factor_eq_of_beq equal, fun entry has_dimension => ?_⟩
  rw [removes.surplus_eq equal, Side.surplus, Side.surplus, Side.count_dimensional has_dimension,
    Side.count_dimensional has_dimension]

end

/-! ## Units -/

namespace CompoundUnit

/-- How often a base unit occurs above the line less how often below. -/
def surplus (unit : CompoundUnit K) (entry : BaseUnit K) : Int :=
  Side.surplus entry unit.numerator unit.denominator

section

variable [OrderedScalar K] {entry : BaseUnit K}

theorem surplus_eq_of_beq {left right : CompoundUnit K} (equal : (left == right) = true)
    (entry : BaseUnit K) : left.surplus entry = right.surplus entry := by
  obtain ⟨above_same, below_same⟩ := beq_iff.mp equal
  rw [surplus, surplus, Side.surplus, Side.surplus, Side.count_eq_of_unnamed_eq above_same,
    Side.count_eq_of_unnamed_eq below_same]

theorem surplus_ofSides (has_dimension : entry.isDimensionless = false)
    {placeholder : BaseUnit K} (empty : placeholder.isDimensionless = true)
    (above below : Side K) :
    (ofSides above below placeholder).surplus entry = Side.surplus entry above below := by
  have count_normalize (side : Side K) :
      (Side.normalize placeholder side).count entry = side.count entry := by
    rw [← Side.count_dimensional has_dimension, ← Side.count_dimensional has_dimension side]
    exact (Side.dimensional_normalize_perm fun _ => empty).count_eq entry
  rw [surplus, Side.surplus, ofSides, count_normalize, count_normalize]
  rfl

namespace HasEntries

variable {unit left right : CompoundUnit K}
variable {above below left_above left_below right_above right_below : Side K}

omit [OrderedScalar K] in
theorem dimensional_eq (entries : unit.HasEntries above below) :
    Side.dimensional unit.numerator = above ∧ Side.dimensional unit.denominator = below := by
  rw [entries.numerator_eq, entries.denominator_eq,
    Side.dimensional_fill entries.above_canonical.have_dimension,
    Side.dimensional_fill entries.below_canonical.have_dimension]
  exact ⟨rfl, rfl⟩

theorem count_eq (entries : unit.HasEntries above below)
    (has_dimension : entry.isDimensionless = false) :
    above.count entry = (unit.surplus entry).toNat ∧
      below.count entry = (-unit.surplus entry).toNat := by
  have one_side : above.count entry = 0 ∨ below.count entry = 0 := by
    by_contra both
    obtain ⟨upper, upper_member, upper_equal⟩ :=
      List.countP_pos_iff.mp (Nat.pos_of_ne_zero fun none => both (.inl none))
    obtain ⟨lower, lower_member, lower_equal⟩ :=
      List.countP_pos_iff.mp (Nat.pos_of_ne_zero fun none => both (.inr none))
    have upper_dimension := (BaseUnit.same_of_unnamed_eq (BaseUnit.beq_iff.mp upper_equal)).1
    have lower_dimension := (BaseUnit.same_of_unnamed_eq (BaseUnit.beq_iff.mp lower_equal)).1
    exact entries.apart upper upper_member lower lower_member
      (upper_dimension.trans lower_dimension.symm)
  rw [surplus, Side.surplus, ← Side.count_dimensional has_dimension unit.numerator,
    ← Side.count_dimensional has_dimension unit.denominator, entries.dimensional_eq.1,
    entries.dimensional_eq.2]
  omega

theorem resembles_of_surplus_eq (left_entries : left.HasEntries left_above left_below)
    (right_entries : right.HasEntries right_above right_below)
    (same : ∀ entry : BaseUnit K, entry.isDimensionless = false →
      left.surplus entry = right.surplus entry) : left.Resembles right := by
  have side_beq {side other : Side K} (side_canonical : side.IsCanonical)
      (other_canonical : other.IsCanonical) (counts : ∀ entry : BaseUnit K,
        entry.isDimensionless = false → side.count entry = other.count entry) :
      Side.unnamed (Side.fill side) = Side.unnamed (Side.fill other) := by
    have permuted := Side.unnamed_perm_of_count_eq side_canonical.have_dimension
      other_canonical.have_dimension counts
    have same_sides := Side.unnamed_canonical_eq_of_perm permuted
    rw [side_canonical.canonical_eq, other_canonical.canonical_eq] at same_sides
    exact Side.beq_iff.mp (Side.fill_beq (Side.beq_iff.mpr same_sides))
  refine ⟨beq_iff.mpr ?_, ?_⟩
  · rw [left_entries.numerator_eq, left_entries.denominator_eq, right_entries.numerator_eq,
      right_entries.denominator_eq]
    refine ⟨side_beq left_entries.above_canonical right_entries.above_canonical ?_,
      side_beq left_entries.below_canonical right_entries.below_canonical ?_⟩
    · intro entry has_dimension
      rw [(left_entries.count_eq has_dimension).1, (right_entries.count_eq has_dimension).1,
        same entry has_dimension]
    · intro entry has_dimension
      rw [(left_entries.count_eq has_dimension).2, (right_entries.count_eq has_dimension).2,
        same entry has_dimension]
  · rw [left_entries.placeholder_eq, right_entries.placeholder_eq]
    exact BaseUnit.beq_self _

theorem combine (left_entries : left.HasEntries left_above left_below)
    (right_entries : right.HasEntries right_above right_below) (operator : Operator) :
    ∃ above below, (left.combine operator right).1.HasEntries above below ∧
      above ⊆ Side.dimensional (left.numerator ++ right.sideAbove operator) ∧
        below ⊆ Side.dimensional (left.denominator ++ right.sideBelow operator) := by
  obtain ⟨left_above_eq, left_below_eq⟩ := left_entries.dimensional_eq
  obtain ⟨right_above_eq, right_below_eq⟩ := right_entries.dimensional_eq
  rw [Side.dimensional_append, Side.dimensional_append, left_above_eq, left_below_eq]
  cases operator
  · rw [sideAbove, sideBelow, right_above_eq, right_below_eq]
    obtain ⟨above, below, entries, above_kept, below_kept⟩ :=
      left_entries.productWithFactor right_entries
    exact ⟨above, below, entries, above_kept.subset, below_kept.subset⟩
  · rw [sideAbove, sideBelow, right_above_eq, right_below_eq]
    obtain ⟨above, below, entries, above_kept, below_kept⟩ :=
      left_entries.quotientWithFactor right_entries
    exact ⟨above, below, entries, above_kept.subset, below_kept.subset⟩

end HasEntries

end

/-- Where only equal entries meet, a product or quotient adds surpluses and incurs no factor. -/
theorem HasEntries.combine_of_even [DividingScalar K] {left right : CompoundUnit K}
    {left_above left_below right_above right_below : Side K}
    (left_entries : left.HasEntries left_above left_below)
    (right_entries : right.HasEntries right_above right_below) (operator : Operator)
    (even : Side.CancelsEvenly (left.numerator ++ right.sideAbove operator)
      (left.denominator ++ right.sideBelow operator)) :
    (left.combine operator right).2 = 1 ∧ ∀ entry : BaseUnit K, entry.isDimensionless = false →
      (left.combine operator right).1.surplus entry =
        left.surplus entry + Side.surplus entry (right.sideAbove operator)
          (right.sideBelow operator) := by
  have joined := left_entries.combine_joined right_entries operator
  obtain ⟨factor_eq, surplus_eq⟩ := simplify_of_even even
  refine ⟨joined.factor_eq.trans factor_eq, fun entry has_dimension => ?_⟩
  rw [surplus_eq_of_beq joined.units.equal, CompoundUnit.joined, CompoundUnit.extend,
    surplus_ofSides has_dimension left_entries.isDimensionless_placeholder,
    surplus_eq entry has_dimension, Side.surplus_append]
  rfl

end CompoundUnit

/-! ## Products of parts -/

namespace Composition

/-- The entries that some parts bring above the line. -/
def entriesAbove (unitOf : String → CompoundUnit K) (parts : List (Operator × String)) : Side K :=
  parts.flatMap fun part => (unitOf part.2).sideAbove part.1

/-- The entries that some parts bring below the line. -/
def entriesBelow (unitOf : String → CompoundUnit K) (parts : List (Operator × String)) : Side K :=
  parts.flatMap fun part => (unitOf part.2).sideBelow part.1

/-- Joining some parts to a unit lets only equal entries meet, whatever their order. -/
def JoinsEvenly (unitOf : String → CompoundUnit K) (unit : CompoundUnit K)
    (parts : List (Operator × String)) : Prop :=
  Side.CancelsEvenly (unit.numerator ++ entriesAbove unitOf parts)
    (unit.denominator ++ entriesBelow unitOf parts)

instance (unitOf : String → CompoundUnit K) (unit : CompoundUnit K)
    (parts : List (Operator × String)) : Decidable (JoinsEvenly unitOf unit parts) :=
  inferInstanceAs (Decidable (Side.CancelsEvenly _ _))

/-- Join some parts to a unit and to the factor that it has incurred, from left to right. -/
def join (unitOf : String → CompoundUnit K) (known : CompoundUnit K × K)
    (parts : List (Operator × String)) : CompoundUnit K × K :=
  parts.foldl (joinPart unitOf) known

variable {unitOf other : String → CompoundUnit K} {parts parts' : List (Operator × String)}

theorem join_resembles [OrderedScalar K] {known known' : CompoundUnit K × K}
    (known_resembles : CompoundUnit.ResultsResemble known known')
    (same : ∀ part ∈ parts, (unitOf part.2).Resembles (other part.2)) :
    CompoundUnit.ResultsResemble (join unitOf known parts) (join other known' parts) := by
  induction parts generalizing known known' with
  | nil => exact known_resembles
  | cons part parts induction =>
      obtain ⟨part_same, parts_same⟩ := List.forall_mem_cons.mp same
      have joined := known_resembles.units.combine part_same part.1
      refine induction ⟨joined.units, ?_⟩ parts_same
      exact congrArg₂ (· * ·) known_resembles.factor_eq joined.factor_eq

theorem isReduced_join [LawfulScalar K] {known : CompoundUnit K × K}
    (known_reduced : known.1.IsReduced) (reduced : ∀ part ∈ parts, (unitOf part.2).IsReduced) :
    (join unitOf known parts).1.IsReduced := by
  induction parts generalizing known with
  | nil => exact known_reduced
  | cons part parts induction =>
      obtain ⟨part_reduced, parts_reduced⟩ := List.forall_mem_cons.mp reduced
      refine induction ?_ parts_reduced
      obtain ⟨operator, name⟩ := part
      cases operator
      · exact known_reduced.multiply part_reduced
      · exact known_reduced.divide part_reduced

/-- Where only equal entries meet, the surpluses of all parts are added without a factor. -/
theorem join_of_even [DividingScalar K] {known : CompoundUnit K × K}
    (known_reduced : known.1.IsReduced) (reduced : ∀ part ∈ parts, (unitOf part.2).IsReduced)
    (even : JoinsEvenly unitOf known.1 parts) :
    (join unitOf known parts).2 = known.2 ∧
      ∀ entry : BaseUnit K, entry.isDimensionless = false →
        (join unitOf known parts).1.surplus entry = known.1.surplus entry +
          Side.surplus entry (entriesAbove unitOf parts) (entriesBelow unitOf parts) := by
  induction parts generalizing known with
  | nil => exact ⟨rfl, fun entry _ => (Int.add_zero _).symm⟩
  | cons part parts induction =>
      obtain ⟨part_reduced, parts_reduced⟩ := List.forall_mem_cons.mp reduced
      obtain ⟨known_above, known_below, known_entries⟩ := known_reduced
      obtain ⟨part_above, part_below, part_entries⟩ := part_reduced
      obtain ⟨above, below, entries, above_subset, below_subset⟩ :=
        known_entries.combine part_entries part.1
      have even' : Side.CancelsEvenly
          ((known.1.numerator ++ (unitOf part.2).sideAbove part.1) ++ entriesAbove unitOf parts)
          ((known.1.denominator ++ (unitOf part.2).sideBelow part.1) ++
            entriesBelow unitOf parts) := by
        rw [List.append_assoc, List.append_assoc]
        exact even
      have first_even := even'.mono (Side.dimensional_subset_append _ _)
        (Side.dimensional_subset_append _ _)
      obtain ⟨factor_one, first_surplus⟩ :=
        known_entries.combine_of_even part_entries part.1 first_even
      rw [← entries.dimensional_eq.1] at above_subset
      rw [← entries.dimensional_eq.2] at below_subset
      have rest_even : JoinsEvenly unitOf (joinPart unitOf known part).1 parts :=
        even'.mono (Side.dimensional_append_subset above_subset)
          (Side.dimensional_append_subset below_subset)
      have next_reduced : (joinPart unitOf known part).1.IsReduced := ⟨above, below, entries⟩
      obtain ⟨factor_eq, rest_surplus⟩ := induction next_reduced parts_reduced rest_even
      refine ⟨factor_eq.trans ?_, fun entry has_dimension => ?_⟩
      · rw [joinPart, factor_one, LawfulScalar.mul_one]
      · change (join unitOf (joinPart unitOf known part) parts).1.surplus entry = _
        rw [rest_surplus entry has_dimension, joinPart, first_surplus entry has_dimension,
          Int.add_assoc, ← Side.surplus_append]
        rfl

theorem JoinsEvenly.of_perm {unit : CompoundUnit K} (even : JoinsEvenly unitOf unit parts)
    (permuted : parts'.Perm parts) : JoinsEvenly unitOf unit parts' := by
  have subset {front : Side K} (side : Operator × String → Side K) :
      Side.dimensional (front ++ parts'.flatMap side) ⊆
        Side.dimensional (front ++ parts.flatMap side) :=
    (((permuted.flatMap_right side).append_left front).filter _).subset
  exact Side.CancelsEvenly.mono even (subset _) (subset _)

theorem join_of_perm [DividingScalar K] {known : CompoundUnit K × K}
    (known_reduced : known.1.IsReduced) (reduced : ∀ part ∈ parts, (unitOf part.2).IsReduced)
    (even : JoinsEvenly unitOf known.1 parts) (permuted : parts.Perm parts') :
    CompoundUnit.ResultsResemble (join unitOf known parts) (join unitOf known parts') := by
  have reduced' : ∀ part ∈ parts', (unitOf part.2).IsReduced :=
    fun part member => reduced part (permuted.mem_iff.mpr member)
  obtain ⟨_, _, entries⟩ := isReduced_join known_reduced reduced
  obtain ⟨_, _, entries'⟩ := isReduced_join known_reduced reduced'
  obtain ⟨factor_eq, surplus_eq⟩ := join_of_even known_reduced reduced even
  obtain ⟨factor_eq', surplus_eq'⟩ :=
    join_of_even known_reduced reduced' (even.of_perm permuted.symm)
  refine ⟨entries.resembles_of_surplus_eq entries' fun entry has_dimension => ?_,
    factor_eq.trans factor_eq'.symm⟩
  rw [surplus_eq entry has_dimension, surplus_eq' entry has_dimension]
  exact congrArg (_ + ·) (Side.surplus_perm (permuted.flatMap_right _) (permuted.flatMap_right _) _)

/-! ## Rearranged compositions -/

/--
The names above the line of two compositions are the same, or they are the same in another order and
only equal entries meet when they are multiplied; and likewise for the names below the line, when
the product of those above is divided by them.
-/
structure Rearranges (unitOf : String → CompoundUnit K) (composition other : Composition) :
    Prop where
  /-- The names above the line. -/
  above : composition.above = other.above ∨ composition.above.Perm other.above ∧
    JoinsEvenly unitOf (.ofSides [] [] .dimensionless) (composition.above.map (.times, ·))
  /-- The names below the line. -/
  below : composition.below = other.below ∨ composition.below.Perm other.below ∧
    JoinsEvenly unitOf (productOf unitOf (composition.above.map (.times, ·))).1
      (composition.below.map (.over, ·))

instance (unitOf : String → CompoundUnit K) (composition other : Composition) :
    Decidable (Rearranges unitOf composition other) :=
  decidable_of_iff
    ((composition.above = other.above ∨ composition.above.Perm other.above ∧
        JoinsEvenly unitOf (.ofSides [] [] .dimensionless) (composition.above.map (.times, ·))) ∧
      (composition.below = other.below ∨ composition.below.Perm other.below ∧
        JoinsEvenly unitOf (productOf unitOf (composition.above.map (.times, ·))).1
          (composition.below.map (.over, ·))))
    ⟨fun sides => ⟨sides.1, sides.2⟩, fun rearranges => ⟨rearranges.above, rearranges.below⟩⟩

/-- The same names, or other orders of them that join evenly, give equal units and one factor. -/
theorem join_of_eq_or_perm [DividingScalar K] {known : CompoundUnit K × K}
    (known_reduced : known.1.IsReduced) {names names' : List String} {operator : Operator}
    (reduced : ∀ name ∈ names, (unitOf name).IsReduced)
    (rearranged : names = names' ∨ names.Perm names' ∧
      JoinsEvenly unitOf known.1 (names.map (operator, ·))) :
    CompoundUnit.ResultsResemble (join unitOf known (names.map (operator, ·)))
      (join unitOf known (names'.map (operator, ·))) := by
  rcases rearranged with rfl | ⟨permuted, even⟩
  · exact ⟨.refl _, rfl⟩
  · refine join_of_perm known_reduced ?_ even (permuted.map _)
    intro part member
    obtain ⟨name, name_member, rfl⟩ := List.mem_map.mp member
    exact reduced name name_member

/-- A rearranged composition of equal units has an equal product and the same factor. -/
theorem Rearranges.product_resembles [DividingScalar K] {composition composition' : Composition}
    (rearranges : Rearranges unitOf composition composition')
    (reduced : ∀ part ∈ composition.parts, (unitOf part.2).IsReduced)
    (same : ∀ part ∈ composition'.parts, (unitOf part.2).Resembles (other part.2)) :
    CompoundUnit.ResultsResemble (composition.product unitOf) (composition'.product other) := by
  let start : CompoundUnit K × K := (.ofSides [] [] .dimensionless, 1)
  let multiplied := join unitOf start (composition.above.map (.times, ·))
  let multiplied' := join unitOf start (composition'.above.map (.times, ·))
  have start_reduced : start.1.IsReduced := ⟨[], [], .dimensionless⟩
  have reduced_above : ∀ name ∈ composition.above, (unitOf name).IsReduced := fun name member =>
    reduced (.times, name) (List.mem_append_left _ (List.mem_map_of_mem member))
  have reduced_below : ∀ name ∈ composition.below, (unitOf name).IsReduced := fun name member =>
    reduced (.over, name) (List.mem_append_right _ (List.mem_map_of_mem member))
  have multiplied_reduced : multiplied.1.IsReduced :=
    isReduced_join start_reduced (by simpa using reduced_above)
  have multiplied_resemble : CompoundUnit.ResultsResemble multiplied multiplied' :=
    join_of_eq_or_perm start_reduced reduced_above rearranges.above
  have divided_resemble :
      CompoundUnit.ResultsResemble (composition.product unitOf) (composition'.product unitOf) := by
    rw [product, product, productOf, productOf, parts, parts, List.foldl_append, List.foldl_append]
    exact (join_of_eq_or_perm multiplied_reduced reduced_below rearranges.below).trans
      (join_resembles multiplied_resemble fun part _ => .refl (unitOf part.2))
  have renamed_resemble :
      CompoundUnit.ResultsResemble (composition'.product unitOf) (composition'.product other) :=
    join_resembles ⟨.refl start.1, rfl⟩ same
  exact divided_resemble.trans renamed_resemble

end Composition
end UnitAlgebra
