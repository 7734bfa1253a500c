import SubsetC.CommandLine
import Mathlib.Data.List.Basic

/-!
# Paths of artifacts

An artifact is written beside the file it is made from, under the name of that file with another
extension. So the paths of both have the same parts but for the last one, and they are the same path
exactly if the file has the extension of the artifact already.
-/

namespace SubsetC

/-! ### Pieces of a text -/

namespace Text

variable {separator : UInt8}

theorem split_ne_nil (separator : UInt8) (text : Text) : split separator text ≠ [] := by
  induction text with
  | nil => simp [split]
  | cons byte text ih =>
      simp only [split]
      split_ifs
      · simp
      · split <;> simp

theorem split_of_notMem {text : Text} (notMem : separator ∉ text) :
    split separator text = [text] := by
  induction text with
  | nil => rfl
  | cons byte text ih =>
      rw [List.mem_cons, not_or] at notMem
      simp [split, ih notMem.2, Ne.symm notMem.1]

theorem split_append_cons (front back : Text) :
    split separator (front ++ separator :: back) =
      split separator front ++ split separator back := by
  induction front with
  | nil => simp [split]
  | cons byte front ih =>
      simp only [List.cons_append, split]
      split_ifs
      · rw [ih, List.cons_append]
      · rw [ih]
        cases pieces : split separator front with
        | nil => exact absurd pieces (split_ne_nil separator front)
        | cons piece rest => rfl

end Text

/-! ### Directories and names -/

namespace Path

variable {path name front word : Text}

theorem parent_append_fileName (path : Text) : parent path ++ fileName path = path := by
  have pieces := List.takeWhile_append_dropWhile (p := (· ≠ slash)) (l := path.reverse)
  have reversed := congrArg List.reverse pieces
  simpa only [parent, fileName, List.reverse_append, List.reverse_reverse] using reversed

theorem slash_notMem_fileName (path : Text) : slash ∉ fileName path := by
  intro mem
  have inside := List.all_eq_true.1 List.all_takeWhile slash (List.mem_reverse.1 mem)
  simp at inside

/-- The directory of a path is given with its slash, or not at all. -/
theorem parent_eq (path : Text) : parent path = [] ∨ ∃ front, parent path = front ++ [slash] := by
  unfold parent
  cases rest : path.reverse.dropWhile (· ≠ slash) with
  | nil => exact .inl rfl
  | cons byte bytes =>
      have isSlash := List.head?_dropWhile_not (· ≠ slash) path.reverse
      rw [rest] at isSlash
      have same : byte = slash := by simpa using isSlash
      exact .inr ⟨bytes.reverse, by simp [same]⟩

/-- The parts of a path are those of its directory and its name. -/
theorem exists_parts (path : Text) : ∃ directories : List Text, ∀ name, slash ∉ name →
    parts (parent path ++ name) = directories ++ [name] ∧
      isAbsolute (parent path ++ name) = isAbsolute (parent path) := by
  rcases parent_eq path with isEmpty | ⟨front, isFront⟩
  · refine ⟨[], fun name noSlash => ⟨?_, ?_⟩⟩
    · simp [parts, isEmpty, Text.split_of_notMem noSlash]
    · cases name with
      | nil => simp
      | cons byte name =>
          rw [List.mem_cons, not_or] at noSlash
          simp [isAbsolute, isEmpty, Ne.symm noSlash.1]
  · refine ⟨parts front, fun name noSlash => ⟨?_, ?_⟩⟩
    · simp [parts, isFront, Text.split_append_cons, Text.split_of_notMem noSlash]
    · simp [isAbsolute, isFront]

/-! ### Extensions -/

/-- The last dot of the last part is where the extension starts. -/
theorem stem_append_extension (noDot : dot ∉ word) (noSlash : slash ∉ word) :
    stem (front ++ dot :: word) = front := by
  have outside : ∀ byte ∈ word.reverse ++ [dot], byte ≠ slash := by
    intro byte mem
    rcases List.mem_append.1 mem with mem | mem
    · rintro rfl
      exact noSlash (List.mem_reverse.1 mem)
    · rw [List.mem_singleton.1 mem]
      decide
  have reversed : (front ++ dot :: word).reverse = (word.reverse ++ [dot]) ++ front.reverse := by
    simp
  have sameParent : parent (front ++ dot :: word) = parent front := by
    rw [parent, parent, reversed, List.dropWhile_append_of_pos (by simpa using outside)]
  have longName : fileName (front ++ dot :: word) = fileName front ++ dot :: word := by
    rw [fileName, fileName, reversed, List.takeWhile_append_of_pos (by simpa using outside)]
    simp
  have beforeDot : (fileName front ++ dot :: word).reverse.dropWhile (· ≠ dot) =
      dot :: (fileName front).reverse := by
    have inside : ∀ byte ∈ word.reverse, byte ≠ dot := by
      rintro byte mem rfl
      exact noDot (List.mem_reverse.1 mem)
    rw [List.reverse_append, List.reverse_cons, List.append_assoc,
      List.dropWhile_append_of_pos (by simpa using inside)]
    simp
  simp only [stem, longName, sameParent, beforeDot]
  simp [parent_append_fileName]

theorem exists_stem_eq (path : Text) :
    ∃ base, stem path = parent path ++ base ∧ slash ∉ base := by
  have noSlash := slash_notMem_fileName path
  by_cases hasDot : (fileName path).contains dot
  · refine ⟨_, if_pos hasDot, ?_⟩
    intro mem
    apply noSlash
    have suffix :
        ((fileName path).reverse.dropWhile (· ≠ dot)).drop 1 <:+ (fileName path).reverse :=
      (List.drop_suffix _ _).trans (List.dropWhile_suffix _)
    exact List.mem_reverse.1 (suffix.subset (List.mem_reverse.1 mem))
  · refine ⟨fileName path, ?_, noSlash⟩
    rw [parent_append_fileName]
    exact if_neg hasDot

end Path

/-! ### Names of artifacts -/

namespace CommandLine

def extension (stage : Stage) : Text :=
  if stage = .emit then Text.ofString ".s" else "." ++ stage.text

theorem extension_eq (stage : Stage) : ∃ word, extension stage = Path.dot :: word ∧ word ≠ [] ∧
    Path.dot ∉ word ∧ Path.slash ∉ word := by
  cases stage <;> exact ⟨_, rfl, by decide, by decide, by decide⟩

theorem artifactPath_eq_iff (file : Text) (stage : Stage) :
    artifactPath file stage = file ↔ extension stage <:+ file := by
  constructor
  · intro same
    exact ⟨Path.stem file, same⟩
  · rintro ⟨front, rfl⟩
    rcases extension_eq stage with ⟨word, isExtension, _, noDot, noSlash⟩
    change Path.stem (front ++ extension stage) ++ extension stage = _
    rw [isExtension, Path.stem_append_extension noDot noSlash]

/-- The artifact stands in the directory of the file, under a name that stands for no directory. -/
theorem exists_artifactName (file : Text) (stage : Stage) : ∃ name,
    artifactPath file stage = Path.parent file ++ name ∧ Path.slash ∉ name ∧
      name ∉ (["", ".", ".."].map Text.ofString) := by
  rcases Path.exists_stem_eq file with ⟨base, isStem, noSlash⟩
  rcases extension_eq stage with ⟨word, isExtension, nonempty, noDot, noSlash'⟩
  refine ⟨base ++ Path.dot :: word, ?_, ?_, ?_⟩
  · change Path.stem file ++ extension stage = _
    rw [isStem, isExtension, List.append_assoc]
  · simp only [List.mem_append, List.mem_cons, not_or]
    exact ⟨noSlash, by decide, noSlash'⟩
  · intro mem
    have onlyDots : (["", ".", ".."].map Text.ofString).all (·.all (· == Path.dot)) = true := by
      decide
    rcases List.exists_mem_of_ne_nil word nonempty with ⟨byte, isMem⟩
    have isDot := List.all_eq_true.1 (List.all_eq_true.1 onlyDots _ mem) byte (by simp [isMem])
    exact noDot (eq_of_beq isDot ▸ isMem)

end CommandLine

end SubsetC
