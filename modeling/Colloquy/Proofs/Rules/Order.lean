import Colloquy.Rules.Compile

/-! The order in which rules are tried, as the insertion of one rule after the other makes it. -/

namespace Colloquy.Rules

variable {a b c r s : Rule} {rules : List Rule}

/-- One rule stands before another: by a higher rank, or by an earlier position at the same rank. -/
def Precedes (a b : Rule) : Prop := b.rank < a.rank ∨ a.rank = b.rank ∧ a.position < b.position

theorem precedes_iff : precedes a b = true ↔ Precedes a b := by
  simp [precedes, Precedes]

theorem Precedes.trans (first : Precedes a b) (second : Precedes b c) : Precedes a c := by
  unfold Precedes at *
  omega

/-- Rules at different positions are never on a par. -/
theorem Precedes.of_not (apart : a.position ≠ b.position) (not : ¬ Precedes a b) : Precedes b a := by
  unfold Precedes at *
  omega

theorem insertRule_perm (r : Rule) (rules : List Rule) : (insertRule r rules).Perm (r :: rules) := by
  induction rules with
  | nil => exact .refl _
  | cons s rest ih =>
    rw [insertRule]
    split
    · exact .refl _
    · exact (ih.cons s).trans (.swap r s rest)

/-- Arranging rules neither adds nor drops one. -/
theorem arrange_perm (rules : List Rule) : (arrange rules).Perm rules := by
  induction rules with
  | nil => exact .refl _
  | cons r rest ih => exact (insertRule_perm r _).trans (ih.cons r)

theorem insertRule_ordered (apart : ∀ s ∈ rules, r.position ≠ s.position)
    (ordered : rules.Pairwise Precedes) : (insertRule r rules).Pairwise Precedes := by
  induction rules with
  | nil => simp [insertRule]
  | cons s rest ih =>
    obtain ⟨before, ordered⟩ := List.pairwise_cons.mp ordered
    rw [insertRule]
    split
    · next first =>
      have first := precedes_iff.mp first
      refine List.pairwise_cons.mpr ⟨?_, List.pairwise_cons.mpr ⟨before, ordered⟩⟩
      intro t member
      rcases List.mem_cons.mp member with rfl | member
      · exact first
      · exact first.trans (before t member)
    · next later =>
      have later := Precedes.of_not (apart s List.mem_cons_self) fun h => later (precedes_iff.mpr h)
      refine List.pairwise_cons.mpr ⟨?_, ih (fun t member => apart t (.tail _ member)) ordered⟩
      intro t member
      rcases List.mem_cons.mp ((insertRule_perm r rest).mem_iff.mp member) with rfl | member
      · exact later
      · exact before t member

/-- Arranged rules are in order, if no two of them have one position. -/
theorem arrange_ordered (apart : (rules.map Rule.position).Nodup) :
    (arrange rules).Pairwise Precedes := by
  induction rules with
  | nil => exact .nil
  | cons r rest ih =>
    obtain ⟨fresh, apart⟩ := List.nodup_cons.mp apart
    refine insertRule_ordered (fun s member same => fresh ?_) (ih apart)
    exact List.mem_map.mpr ⟨s, (arrange_perm rest).mem_iff.mp member, same.symm⟩

end Colloquy.Rules
