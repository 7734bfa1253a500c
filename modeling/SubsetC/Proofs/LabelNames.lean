import SubsetC.Analysis.Target
import SubsetC.Lowering.Stmt
import SubsetC.Proofs.Naming
import Mathlib.Data.List.Nodup

/-!
# Texts of labels

A label ends in an underscore and a number drawn from the counter of the compilation unit. The
labels that a loop or switch gives rise to are made from its own label and have its number, in those
of cases in front of the number of the case. So two labels differ if they belong to different
numbers, and those that belong to one number differ in their stems or in the number of the case.
-/

namespace SubsetC

namespace Text

theorem labelText_eq (stem : Text) (number : Nat) :
    Context.labelText stem number = stem ++ ofAscii '_' :: ofNat number := by
  simp [Context.labelText, ofString_underscore]

theorem labelText_inj {left right : Text} {first second : Nat}
    (same : Context.labelText left first = Context.labelText right second) :
    left = right ∧ first = second := by
  rw [labelText_eq, labelText_eq] at same
  exact (mark_number_inj (by decide) (by decide) same).imp_right And.right

/-- A text that is itself no label. -/
def IsStem (stem : Text) : Prop := ∀ front number, stem ≠ Context.labelText front number

theorem isStem_of_getLast? {stem : Text} {byte : UInt8} (last : stem.getLast? = some byte)
    (notDigit : byte.toNat < 48 ∨ 57 < byte.toNat) : stem.IsStem := by
  rintro front number rfl
  have nonempty : ofNat number ≠ [] := by simp [ofNat]
  rw [labelText_eq, List.getLast?_append, List.getLast?_cons,
    List.getLast?_eq_some_getLast nonempty, Option.getD_some, Option.some_or,
    Option.some.injEq] at last
  have isDigit := isDigit_of_mem_ofNat (last ▸ List.getLast_mem nonempty)
  omega

/-- The label belongs to a number: it is made from a stem for it, or it is the label of a case for
it. -/
inductive Marks (number : Nat) : Text → Prop where
  | plain {stem : Text} (isStem : stem.IsStem) : Marks number (Context.labelText stem number)
  | case {stem : Text} (isStem : stem.IsStem) (index : Nat) :
      Marks number (Context.labelText (Context.labelText stem number) index)

theorem Marks.unique {first second : Nat} {label : Text} (left : label.Marks first)
    (right : label.Marks second) : first = second := by
  generalize same : label = other at right
  cases left with
  | plain isStem =>
      cases right with
      | plain _ => exact (labelText_inj same).2
      | case _ _ => exact absurd (labelText_inj same).1 (isStem _ _)
  | case isStem _ =>
      cases right with
      | plain isStem => exact absurd (labelText_inj same).1.symm (isStem _ _)
      | case _ _ => exact (labelText_inj (labelText_inj same).1).2

/-- Different labels that belong to numbers between two bounds. -/
structure Marked (low high : Nat) (labels : List Text) : Prop where
  le : low ≤ high
  nodup : labels.Nodup
  /-- Every label has its number. -/
  marks : ∀ label ∈ labels, ∃ number, low ≤ number ∧ number < high ∧ label.Marks number

namespace Marked

variable {low middle high : Nat} {first second : List Text}

theorem nil (le : low ≤ high) : Marked low high [] := ⟨le, List.nodup_nil, by simp⟩

/-- Labels with numbers from intervals that do not overlap. -/
theorem append (left : Marked low middle first) (right : Marked middle high second) :
    Marked low high (first ++ second) := by
  refine ⟨Nat.le_trans left.le right.le, List.nodup_append.2 ⟨left.nodup, right.nodup, ?_⟩, ?_⟩
  · rintro label isFirst _ isSecond rfl
    rcases left.marks label isFirst with ⟨number, _, below, marks⟩
    rcases right.marks label isSecond with ⟨other, above, _, others⟩
    have same := marks.unique others
    omega
  · intro label mem
    have leftLe := left.le
    have rightLe := right.le
    rcases List.mem_append.1 mem with mem | mem
    · rcases left.marks label mem with ⟨number, above, below, marks⟩
      exact ⟨number, above, by omega, marks⟩
    · rcases right.marks label mem with ⟨number, above, below, marks⟩
      exact ⟨number, by omega, below, marks⟩

/-- The order of labels does not matter. -/
theorem of_count (marked : Marked low high first)
    (same : ∀ label, second.count label = first.count label) : Marked low high second := by
  have perm : second.Perm first := List.perm_iff_count.2 same
  exact ⟨marked.le, perm.nodup_iff.2 marked.nodup,
    fun label mem => marked.marks label (perm.mem_iff.1 mem)⟩

/-- Labels of one number, made from different stems. -/
theorem of_stems {stems : List Text} (nodup : stems.Nodup) (isStem : ∀ stem ∈ stems, stem.IsStem)
    (number : Nat) :
    Marked number (number + 1) (stems.map fun stem => Context.labelText stem number) := by
  refine ⟨Nat.le_succ _, ?_, ?_⟩
  · exact List.Nodup.map (fun _ _ same => (labelText_inj same).1) nodup
  · intro label mem
    rcases List.mem_map.1 mem with ⟨stem, isMem, rfl⟩
    exact ⟨number, Nat.le_refl _, Nat.lt_succ_self _, .plain (isStem stem isMem)⟩

end Marked

end Text

end SubsetC
