import Mathlib.Data.List.TakeWhile
import Mathlib.Logic.Equiv.Basic
import SubsetC.Proofs.Naming

/-!
# Permutations of names

An internal name is an identifier of the source, or one with a dot and a number behind it. A change
of identifiers carries over to the internal names that are made from them, if their numbers were
drawn for objects of the source (`Text.internal`); names with later numbers belong to temporaries
and strings, and stay.

A change that tells the identifiers of a source apart does the same to them as a permutation of all
identifiers (`Text.exists_permutes`), so names never clash that did not clash before.
-/

namespace SubsetC.Text

/-! ### Stems -/

/-- The text through the first dot: the name a numbered name is made from. -/
def stem (name : Text) : Text := name.takeWhile (· ≠ ofAscii '.')

/-- The text from the first dot on. -/
def suffix (name : Text) : Text := name.dropWhile (· ≠ ofAscii '.')

theorem stem_append_suffix (name : Text) : name.stem ++ name.suffix = name :=
  List.takeWhile_append_dropWhile

theorem isPlain_stem (name : Text) : name.stem.IsPlain := by
  intro mem
  simpa using List.mem_takeWhile_imp mem

theorem stem_of_isPlain {name : Text} (isPlain : name.IsPlain) : name.stem = name := by
  refine List.takeWhile_eq_self_iff.2 fun byte mem => ?_
  have notDot : byte ≠ ofAscii '.' := fun isDot => isPlain (isDot ▸ mem)
  simpa using notDot

theorem suffix_of_isPlain {name : Text} (isPlain : name.IsPlain) : name.suffix = [] := by
  refine List.dropWhile_eq_nil_iff.2 fun byte mem => ?_
  have notDot : byte ≠ ofAscii '.' := fun isDot => isPlain (isDot ▸ mem)
  simpa using notDot

theorem numbered_eq (base : Text) (number : Nat) :
    numbered base number = base ++ ofAscii '.' :: ofNat number := by
  simp [numbered, ofString_dot]

/-- A suffix starts with a dot, so it stays the suffix behind any other plain text. -/
theorem stem_suffix_append {base : Text} (isPlain : base.IsPlain) (name : Text) :
    (base ++ name.suffix).stem = base ∧ (base ++ name.suffix).suffix = name.suffix := by
  have notDot : ∀ byte ∈ base, (decide (byte ≠ ofAscii '.')) = true := by
    intro byte mem
    have other : byte ≠ ofAscii '.' := fun isDot => isPlain (isDot ▸ mem)
    simpa using other
  have starts : ∀ (byte : UInt8) (rest : Text),
      name.suffix = byte :: rest → byte = ofAscii '.' := by
    intro byte rest same
    have isFirst := List.head?_dropWhile_not (· ≠ ofAscii '.') name
    rw [suffix] at same
    rw [same] at isFirst
    simpa using isFirst
  rw [stem, suffix.eq_1 (base ++ name.suffix), List.takeWhile_append_of_pos notDot,
    List.dropWhile_append_of_pos notDot]
  cases same : name.suffix with
  | nil => simp
  | cons byte rest => simp [starts byte rest same]

theorem stem_numbered (base : Text) (number : Nat) : (numbered base number).stem = base.stem := by
  rw [numbered_eq]
  induction base with
  | nil => exact List.takeWhile_cons_of_neg (by simp)
  | cons byte base ih =>
      rw [List.cons_append, stem, stem, List.takeWhile_cons, List.takeWhile_cons]
      split
      · exact congrArg _ ih
      · rfl

theorem suffix_numbered {base : Text} (isPlain : base.IsPlain) (number : Nat) :
    (numbered base number).suffix = ofAscii '.' :: ofNat number := by
  have split := stem_append_suffix (numbered base number)
  rw [stem_numbered, stem_of_isPlain isPlain] at split
  exact List.append_cancel_left (split.trans (numbered_eq base number))

/-! ### Internal names -/

/-- The text with its stem changed, if it has one. -/
def restem (change : Text → Text) (name : Text) : Text :=
  if name.stem = [] then name else change name.stem ++ name.suffix

/-- Whether a name is one of the source, or is made from one and has a number below a bound. -/
def IsOwned (bound : Nat) (name : Text) : Prop :=
  name.suffix = [] ∨ ∃ number < bound, name.suffix = ofAscii '.' :: ofNat number

instance (bound : Nat) (name : Text) : Decidable (name.IsOwned bound) := by
  unfold IsOwned
  infer_instance

/-- The internal name that takes the place of another one if identifiers change, when the objects of
the source have the numbers below a bound. -/
def internal (change : Text → Text) (bound : Nat) (name : Text) : Text :=
  if name.IsOwned bound then name.restem change else name

section

variable {change : Text → Text} {bound : Nat} {name base : Text}

section

variable (empty : change [] = [])

include empty

theorem restem_eq (name : Text) : name.restem change = change name.stem ++ name.suffix := by
  unfold restem
  split
  · rename_i noStem
    have split := stem_append_suffix name
    rw [noStem, List.nil_append] at split
    rw [noStem, empty, List.nil_append, split]
  · rfl

theorem restem_of_isPlain (isPlain : name.IsPlain) : name.restem change = change name := by
  rw [restem_eq empty, stem_of_isPlain isPlain, suffix_of_isPlain isPlain, List.append_nil]

theorem restem_numbered (isPlain : base.IsPlain) (number : Nat) :
    (numbered base number).restem change = numbered (change base) number := by
  rw [restem_eq empty, stem_numbered, stem_of_isPlain isPlain, suffix_numbered isPlain,
    numbered_eq]

/-- An identifier is changed like one. -/
theorem internal_of_isPlain (isPlain : name.IsPlain) :
    name.internal change bound = change name := by
  rw [internal, if_pos (.inl (suffix_of_isPlain isPlain)), restem_of_isPlain empty isPlain]

/-- The name of an object of the source keeps its number. -/
theorem internal_numbered_of_lt (isPlain : base.IsPlain) {number : Nat} (isOwned : number < bound) :
    (numbered base number).internal change bound = numbered (change base) number := by
  rw [internal, if_pos (.inr ⟨number, isOwned, suffix_numbered isPlain number⟩),
    restem_numbered empty isPlain]

end

theorem internal_id (bound : Nat) (name : Text) : name.internal id bound = name := by
  unfold internal
  split
  · exact (restem_eq rfl name).trans (stem_append_suffix name)
  · rfl

/-- The name of a temporary or a string stays. -/
theorem internal_numbered_of_le (isPlain : base.IsPlain) {number : Nat} (isLater : bound ≤ number) :
    (numbered base number).internal change bound = numbered base number := by
  refine if_neg fun isOwned => ?_
  rw [IsOwned, suffix_numbered isPlain] at isOwned
  rcases isOwned with none | ⟨other, below, same⟩
  · cases none
  · have := ofNat_injective (List.cons.inj same).2
    omega

end

/-! ### Permutations -/

/-- A change of names permutes identifiers and leaves the empty name alone. -/
structure Permutes (change : Text → Text) : Prop where
  /-- Different names stay different. -/
  injective : Function.Injective change
  /-- A name without a dot gets another one without a dot. -/
  isPlain : ∀ name : Text, name.IsPlain → (change name).IsPlain
  /-- The empty name stays. -/
  empty : change [] = []

namespace Permutes

variable {change : Text → Text}

theorem isEmpty (permutes : Permutes change) (name : Text) :
    (change name).isEmpty = name.isEmpty := by
  cases name with
  | nil => rw [permutes.empty]
  | cons byte rest =>
      rw [List.isEmpty_cons, List.isEmpty_eq_false_iff, ne_eq, ← permutes.empty]
      exact fun same => nomatch permutes.injective same

theorem restem_injective (permutes : Permutes change) : Function.Injective (restem change) := by
  intro left right same
  have isLeft := stem_suffix_append (permutes.isPlain _ left.isPlain_stem) left
  have isRight := stem_suffix_append (permutes.isPlain _ right.isPlain_stem) right
  rw [restem_eq permutes.empty, restem_eq permutes.empty] at same
  have stems : change left.stem = change right.stem := by rw [← isLeft.1, same, isRight.1]
  have suffixes : left.suffix = right.suffix := by rw [← isLeft.2, same, isRight.2]
  rw [← stem_append_suffix left, permutes.injective stems, suffixes, stem_append_suffix]

theorem suffix_restem (permutes : Permutes change) (name : Text) :
    (name.restem change).suffix = name.suffix := by
  rw [restem_eq permutes.empty]
  exact (stem_suffix_append (permutes.isPlain _ name.isPlain_stem) name).2

/-- Different internal names stay different. -/
theorem internal_injective (permutes : Permutes change) (bound : Nat) :
    Function.Injective (internal change bound) := by
  have isOwned (name : Text) : (name.restem change).IsOwned bound ↔ name.IsOwned bound := by
    rw [IsOwned, IsOwned, permutes.suffix_restem]
  intro left right same
  unfold internal at same
  split at same <;> split at same
  · exact permutes.restem_injective same
  · rename_i owned notOwned
    exact absurd (same ▸ (isOwned left).2 owned) notOwned
  · rename_i notOwned owned
    exact absurd (same ▸ (isOwned right).2 owned) notOwned
  · exact same

end Permutes

/-- Trading two identifiers permutes them. -/
theorem Permutes.swap {left right : Text} (isLeft : left.IsPlain ∧ left ≠ [])
    (isRight : right.IsPlain ∧ right ≠ []) : Permutes (Equiv.swap left right) where
  injective := Equiv.injective _
  isPlain name isPlain := by
    rw [Equiv.swap_apply_def]
    split
    · exact isRight.1
    · split
      · exact isLeft.1
      · exact isPlain
  empty := Equiv.swap_apply_of_ne_of_ne isLeft.2.symm isRight.2.symm

theorem Permutes.comp {first second : Text → Text} (permutes : Permutes second)
    (before : Permutes first) : Permutes (second ∘ first) where
  injective := permutes.injective.comp before.injective
  isPlain name isPlain := permutes.isPlain _ (before.isPlain name isPlain)
  empty := (congrArg second before.empty).trans permutes.empty

/-- An identifier becomes one, not the empty name. -/
theorem Permutes.isName {change : Text → Text} (permutes : Permutes change) {name : Text}
    (isName : name.IsPlain ∧ name ≠ []) : (change name).IsPlain ∧ change name ≠ [] :=
  ⟨permutes.isPlain name isName.1, fun none =>
    isName.2 (permutes.injective (none.trans permutes.empty.symm))⟩

/-- A change of identifiers that keeps those of a list apart does the same to them as a
permutation. -/
theorem exists_permutes {change : Text → Text} : ∀ {names : List Text},
    (∀ name ∈ names, name.IsPlain ∧ name ≠ []) →
    (∀ name ∈ names, (change name).IsPlain ∧ change name ≠ []) →
    (∀ left ∈ names, ∀ right ∈ names, change left = change right → left = right) →
      ∃ permuted : Text → Text, Permutes permuted ∧ ∀ name ∈ names, permuted name = change name
  | [], _, _, _ => ⟨id, ⟨Function.injective_id, fun _ => id, rfl⟩, by simp⟩
  | name :: names, areNames, becomeNames, apart => by
      rw [List.forall_mem_cons] at areNames becomeNames
      have apartRest : ∀ left ∈ names, ∀ right ∈ names, change left = change right → left = right :=
        fun left isLeft right isRight =>
          apart left (.tail _ isLeft) right (.tail _ isRight)
      rcases exists_permutes areNames.2 becomeNames.2 apartRest with ⟨permuted, permutes, agrees⟩
      -- the name's value so far and its wanted value trade places
      have trade := Permutes.swap (permutes.isName areNames.1) becomeNames.1
      refine ⟨_, trade.comp permutes, List.forall_mem_cons.2 ⟨Equiv.swap_apply_left _ _, ?_⟩⟩
      intro other mem
      by_cases same : other = name
      · rw [same]
        exact Equiv.swap_apply_left _ _
      · have notOld : change other ≠ permuted name := by
          rw [← agrees other mem]
          exact fun equal => same (permutes.injective equal)
        have notNew : change other ≠ change name := fun equal =>
          same (apart other (.tail _ mem) name (.head _) equal)
        rw [Function.comp_apply, agrees other mem]
        exact Equiv.swap_apply_of_ne_of_ne notOld notNew

/-- There are always more identifiers. -/
theorem exists_fresh (names : List Text) :
    ∃ name : Text, (name.IsPlain ∧ name ≠ []) ∧ name ∉ names := by
  refine ⟨List.replicate (names.flatten.length + 1) (ofAscii 'x'), ⟨?_, by simp⟩, fun mem => ?_⟩
  · intro isDot
    exact absurd (List.eq_of_mem_replicate isDot) (by decide)
  · have := (List.sublist_flatten_of_mem mem).length_le
    rw [List.length_replicate] at this
    omega

/-- If the permutations that leave some identifiers alone leave a name alone, then changes that agree
on these identifiers do the same to the name. -/
theorem internal_congr {identifiers : List Text} {bound : Nat} {name : Text}
    (stays : ∀ permuted, Permutes permuted → (∀ own ∈ identifiers, permuted own = own) →
      name.internal permuted bound = name) {change other : Text → Text}
    (agree : ∀ own ∈ identifiers, change own = other own) :
    name.internal change bound = name.internal other bound := by
  unfold internal restem
  by_cases isOwned : name.IsOwned bound
  · by_cases noStem : name.stem = []
    · rw [if_pos noStem, if_pos noStem]
    rw [if_neg noStem, if_neg noStem, agree name.stem]
    by_contra notOwn
    -- otherwise the stem could trade places with another identifier
    rcases exists_fresh (name.stem :: identifiers) with ⟨fresh, isName, isFresh⟩
    rw [List.mem_cons, not_or] at isFresh
    have permutes := Permutes.swap ⟨name.isPlain_stem, noStem⟩ isName
    have same := stays _ permutes fun own mem =>
      Equiv.swap_apply_of_ne_of_ne (fun isStem => notOwn (isStem ▸ mem))
        fun equal => isFresh.2 (equal ▸ mem)
    rw [internal, if_pos isOwned, restem_eq permutes.empty, Equiv.swap_apply_left] at same
    have stem := (stem_suffix_append isName.1 name).1
    rw [same] at stem
    exact isFresh.1 stem.symm
  · rw [if_neg isOwned, if_neg isOwned]

end SubsetC.Text
