import SubsetC.Analysis.Target
import SubsetC.Lowering.Stmt
import SubsetC.Proofs.LabelNames
import SubsetC.Proofs.UniqueReading

/-!
# Fresh names

A context draws a number for every name and label it is asked for, and puts the number at the end of
the text, behind a dot or an underscore. So the text shows the number, whatever it is made from, and
texts that are drawn at different times differ. The labels that a loop or switch gives rise to begin
with a word of their own in front of its label, and labels of cases have the number of the case at
the end. The main statement is `Context.names_fresh`.
-/

namespace SubsetC

/-! ### Texts that end in a number -/

namespace Text

/-- The text ends in a number, behind a byte that is no digit. -/
def EndsIn (number : Nat) (text : Text) : Prop :=
  ∃ stem mark, IsMark mark ∧ text = stem ++ mark :: ofNat number

theorem EndsIn.unique {first second : Nat} {text : Text} (endsIn : text.EndsIn first)
    (endsIn' : text.EndsIn second) : first = second := by
  rcases endsIn with ⟨stem, mark, isMark, rfl⟩
  rcases endsIn' with ⟨otherStem, otherMark, isOtherMark, same⟩
  exact (mark_number_inj isMark isOtherMark same).2.2

theorem endsIn_numbered (base : Text) (number : Nat) : EndsIn number (numbered base number) := by
  refine ⟨base, ofAscii '.', by decide, ?_⟩
  simp [numbered, ofString_dot]

theorem endsIn_labelText (stem : Text) (number : Nat) :
    EndsIn number (Context.labelText stem number) :=
  ⟨stem, ofAscii '_', by decide, labelText_eq stem number⟩

end Text

/-! ### Calls of a context -/

/-- What a context is asked for. -/
inductive NameCall where
  | uniqueName (base : Text)
  | newLabel (stem : Text)
  /-- Labels made from several stems, which share their number. -/
  | newLabels (stems : List Text)
  deriving DecidableEq, Repr

namespace NameCall

def bases : NameCall → List Text
  | .uniqueName base => [base]
  | .newLabel stem => [stem]
  | .newLabels stems => stems

/-- The names or labels a context gives, and the context after it. -/
def answer (context : Context) : NameCall → List Text × Context
  | .uniqueName base =>
    let (name, after) := context.uniqueName base
    ([name], after)
  | .newLabel stem =>
    let (label, after) := context.newLabel stem
    ([label], after)
  | .newLabels stems => context.newLabels stems

variable (call : NameCall) (context : Context)

theorem answer_nextName : (call.answer context).2.nextName = context.nextName + 1 := by
  cases call <;> rfl

theorem answer_endsIn : ∀ text ∈ (call.answer context).1, text.EndsIn context.nextName := by
  cases call with
  | uniqueName base =>
      simpa [answer, Context.uniqueName, Text.numbered] using
        Text.endsIn_numbered base context.nextName
  | newLabel stem =>
      simpa [answer, Context.newLabel] using Text.endsIn_labelText stem context.nextName
  | newLabels stems =>
      simp only [answer, Context.newLabels, List.mem_map, forall_exists_index, and_imp,
        forall_apply_eq_imp_iff₂]
      intro stem _
      exact Text.endsIn_labelText stem context.nextName

theorem answer_length : (call.answer context).1.length = call.bases.length := by
  cases call <;> simp [answer, bases, Context.newLabels]

/-- Labels of one call differ exactly if their stems do. -/
theorem answer_nodup : (call.answer context).1.Nodup ↔ call.bases.Nodup := by
  cases call with
  | uniqueName | newLabel => simp [answer, bases]
  | newLabels stems =>
      apply List.nodup_map_iff
      intro left right same
      exact (Text.labelText_inj same).1

end NameCall

/-- The answers to calls one after the other. -/
def Context.answers (context : Context) : List NameCall → List (List Text)
  | [] => []
  | call :: calls => (call.answer context).1 :: (call.answer context).2.answers calls

namespace Context

/-- Every answer has a number of its own, which is not drawn before. -/
theorem answers_endsIn (context : Context) (calls : List NameCall) :
    ∀ texts ∈ context.answers calls, ∃ number, context.nextName ≤ number ∧
      ∀ text ∈ texts, text.EndsIn number := by
  induction calls generalizing context with
  | nil => simp [answers]
  | cons call calls ih =>
      intro texts mem
      rcases List.mem_cons.1 mem with rfl | mem
      · exact ⟨context.nextName, Nat.le_refl _, call.answer_endsIn context⟩
      · rcases ih _ texts mem with ⟨number, le, endsIn⟩
        rw [call.answer_nextName] at le
        exact ⟨number, by omega, endsIn⟩

theorem answers_pairwise (context : Context) (calls : List NameCall) :
    (context.answers calls).Pairwise List.Disjoint := by
  induction calls generalizing context with
  | nil => exact List.Pairwise.nil
  | cons call calls ih =>
      apply List.Pairwise.cons
      · intro texts mem text isFirst isLater
        rcases answers_endsIn _ calls texts mem with ⟨number, le, endsIn⟩
        have same := (call.answer_endsIn context text isFirst).unique (endsIn text isLater)
        rw [call.answer_nextName] at le
        omega
      · exact ih _

theorem answers_alike (context : Context) (calls : List NameCall) :
    List.Forall₂ (fun call texts => texts.length = call.bases.length ∧
      (texts.Nodup ↔ call.bases.Nodup)) calls (context.answers calls) := by
  induction calls generalizing context with
  | nil => exact .nil
  | cons call calls ih =>
      exact .cons ⟨call.answer_length context, call.answer_nodup context⟩ (ih _)

end Context

/-! ### Labels of loops and switches -/

/-- The labels that the label of a loop or switch gives rise to. -/
inductive LoopMark where
  | exit
  | next
  | start
  | default
  /-- A case, by the number of cases before it. -/
  | case (index : Nat)
  deriving DecidableEq, Repr

namespace LoopMark

/-- The label for a loop or switch with a label. -/
def text (label : Text) : LoopMark → Text
  | .exit => Targets.breakLabelOf (some label)
  | .next => Targets.continueLabelOf (some label)
  | .start => Targets.startLabelOf (some label)
  | .default => Targets.defaultLabel label
  | .case index => Targets.caseLabel label index

/-- The word in front of the label of the loop. -/
def opening : LoopMark → Text
  | .exit => "break_"
  | .next => "continue_"
  | .start => "start_"
  | .default => "default_"
  | .case _ => "case_"

def body (label : Text) : LoopMark → Text
  | .case index => Context.labelText label index
  | .exit | .next | .start | .default => label

theorem text_eq (mark : LoopMark) (label : Text) :
    mark.text label = mark.opening ++ mark.body label := by
  cases mark with
  | case index => simp [text, opening, body, Targets.caseLabel, Context.labelText]
  | exit | next | start | default => rfl

/-- The mark without the number of a case. -/
def sort : LoopMark → LoopMark
  | .case _ => .case 0
  | mark => mark

def sorts : List LoopMark := [.exit, .next, .start, .default, .case 0]

/-- The words that the stems of labels drawn in pairs begin with. -/
def pairOpenings : List Text := ["if_", "cond_", "and_", "or_"].map Text.ofString

theorem sort_mem_sorts (mark : LoopMark) : mark.sort ∈ sorts := by
  cases mark <;> simp [sorts, sort]

theorem opening_sort (mark : LoopMark) : mark.sort.opening = mark.opening := by
  cases mark <;> rfl

theorem prefixFree_openings : Text.PrefixFree (sorts.map opening ++ pairOpenings) := by decide

theorem opening_injOn_sorts : ∀ mark ∈ sorts, ∀ other ∈ sorts,
    mark.opening = other.opening → mark = other := by
  decide

theorem opening_notMem_pairOpenings : ∀ mark ∈ sorts, mark.opening ∉ pairOpenings := by decide

theorem opening_mem (mark : LoopMark) : mark.opening ∈ sorts.map opening ++ pairOpenings :=
  List.mem_append_left _ (List.mem_map.2 ⟨mark.sort, mark.sort_mem_sorts, mark.opening_sort⟩)

/-- A label shows what it marks, and for which loop or switch. -/
theorem text_inj {mark other : LoopMark} {label otherLabel : Text}
    (same : mark.text label = other.text otherLabel) : mark = other ∧ label = otherLabel := by
  rw [text_eq, text_eq] at same
  rcases prefixFree_openings.append_inj mark.opening_mem other.opening_mem same with ⟨opens, bodies⟩
  have sorts : mark.sort = other.sort := by
    apply opening_injOn_sorts _ mark.sort_mem_sorts _ other.sort_mem_sorts
    simpa only [opening_sort] using opens
  cases mark with
  | case index =>
      cases other with
      | case otherIndex =>
          rcases Text.labelText_inj bodies with ⟨labels, indices⟩
          exact ⟨by rw [indices], labels⟩
      | exit | next | start | default => cases sorts
  | exit | next | start | default =>
      cases other with
      | case otherIndex => cases sorts
      | exit | next | start | default => exact ⟨sorts, bodies⟩

theorem text_ne_of_pair (mark : LoopMark) (label : Text) {opening : Text}
    (isOpening : opening ∈ pairOpenings) (stem : Text) (number : Nat) :
    mark.text label ≠ Context.labelText (opening ++ stem) number := by
  intro same
  rw [text_eq, Context.labelText, List.append_assoc, List.append_assoc] at same
  have opens := (prefixFree_openings.append_inj mark.opening_mem
    (List.mem_append_right _ isOpening) same).1
  apply opening_notMem_pairOpenings _ mark.sort_mem_sorts
  rw [opening_sort, opens]
  exact isOpening

end LoopMark

/-- Names are fresh. The texts that different calls of one context give are all different, and the
labels of one call are if their stems are, one for each stem. Labels made from the labels of loops
and switches differ if they mark different places or belong to different labels, and they differ
from all labels that are drawn in pairs. -/
theorem Context.names_fresh (context : Context) (calls : List NameCall) :
    (context.answers calls).Pairwise List.Disjoint ∧
      List.Forall₂ (fun call texts => texts.length = call.bases.length ∧
        (texts.Nodup ↔ call.bases.Nodup)) calls (context.answers calls) ∧
      (∀ (mark other : LoopMark) (label otherLabel : Text),
        mark.text label = other.text otherLabel ↔ mark = other ∧ label = otherLabel) ∧
      ∀ (mark : LoopMark) (label : Text), ∀ opening ∈ LoopMark.pairOpenings,
        ∀ (stem : Text) (number : Nat),
          mark.text label ≠ Context.labelText (opening ++ stem) number := by
  refine ⟨context.answers_pairwise calls, context.answers_alike calls, ?_, ?_⟩
  · intro mark other label otherLabel
    constructor
    · exact LoopMark.text_inj
    · rintro ⟨rfl, rfl⟩
      rfl
  · intro mark label opening isOpening stem number
    exact mark.text_ne_of_pair label isOpening stem number

/-- Bases that look like names themselves, and a case against the end of a choice. -/
theorem Context.names_fresh_lookalikes :
    (Context.empty.answers [.uniqueName "x.1", .newLabel "x", .newLabels ["x_1", "x"]]).Pairwise
        List.Disjoint ∧
      Text.ofString "if_" ∈ LoopMark.pairOpenings ∧
      LoopMark.text "loop_1" (.case 2) ≠ Context.labelText ("if_" ++ "end") 2 := by
  have isOpening : Text.ofString "if_" ∈ LoopMark.pairOpenings := by decide
  have fresh := Context.empty.names_fresh
    [.uniqueName "x.1", .newLabel "x", .newLabels ["x_1", "x"]]
  exact ⟨fresh.1, isOpening, fresh.2.2.2 (.case 2) "loop_1" _ isOpening "end" 2⟩

end SubsetC
