import SubsetC.Proofs.Arithmetic
import SubsetC.Proofs.CodeLabels
import SubsetC.Proofs.Delivery
import SubsetC.Proofs.UniqueReading

/-!
# Texts of instructions

The text that names the fields of an instruction determines the instruction, except that constants
of the character types and of int with the same value look alike. The fields are read one after the
other, since their values are words that may have something in brackets behind them; what a word
stands for depends on the field. Names must not look like the marks of the text, and doubles are
left out. The main statement is `Instruction.debugText_eq_iff`.
-/

namespace SubsetC

open Text (IsBracketed IsWord Reads)

/-! ### Words -/

namespace Text

/-- A text of bytes of identifiers and dots, as the names of objects, functions and labels are. -/
def IsDotted (text : Text) : Prop := ∀ byte ∈ text, Lexer.isWord byte ∨ byte = ofAscii '.'

instance (text : Text) : Decidable text.IsDotted := List.decidableBAll _ text

theorem IsDotted.isWord {text : Text} (isDotted : text.IsDotted) : IsWord text := by
  intro byte mem ends
  have isNameByte := isDotted byte mem
  rcases endsWord_iff.1 ends with rfl | rfl | rfl | rfl | rfl | rfl <;> revert isNameByte <;> decide

end Text

/-! ### Constants -/

namespace Const

/-- The constant, with the value of a character as an int. -/
def promoted : Const → Const
  | .char value => .int value.toInt32
  | .uchar value => .int (Int32.ofInt value.toNat)
  | constant => constant

/-- The constant has the type int or a character type. -/
def isSmall : Const → Bool
  | .char _ | .uchar _ | .int _ => true
  | _ => false

/-- The promoted constant with a value and the suffix of its kind. -/
def ofNumber (number : Int) (suffix : Text) : Const :=
  if suffix = "" then .int (Int32.ofInt number)
  else if suffix = "U" then .uint (UInt32.ofNat number.toNat)
  else if suffix = "L" then .long (Int64.ofInt number)
  else .ulong (UInt64.ofNat number.toNat)

variable {constant left right : Const} {number : Int}

theorem promoted_eq_ofNumber (isNumber : constant.number? = some number) :
    constant.promoted = ofNumber number constant.suffix := by
  have suffixes : (Text.ofString "U" ≠ "" ∧ Text.ofString "L" ≠ "" ∧ Text.ofString "UL" ≠ "") ∧
      Text.ofString "L" ≠ "U" ∧ Text.ofString "UL" ≠ "U" ∧ Text.ofString "UL" ≠ "L" := by
    decide
  cases constant with
  | double value => cases isNumber
  | char value | uchar value | int value | uint value | long value | ulong value =>
      cases isNumber
      simp [promoted, ofNumber, suffix, suffixes]

theorem bmod_toNat (value : UInt8) : (value.toNat : Int).bmod Int32.size = value.toNat := by
  have bound := value.toNat_lt
  apply Int.bmod_eq_of_le
  · omega
  · simp only [Int32.size]
    omega

/-- Promotion brings together the constants of type int and of the character types that have the
same value, and no others. -/
theorem promoted_eq_iff (left right : Const) : left.promoted = right.promoted ↔
    left = right ∨ left.isSmall ∧ right.isSmall ∧ left.number? = right.number? := by
  cases left <;> cases right <;>
    simp [promoted, isSmall, number?, bmod_toNat, ← Int32.toInt_inj, ← Int8.toInt_inj,
      ← UInt8.toNat_inj]

theorem text_promoted (constant : Const) : constant.promoted.text = constant.text := by
  cases constant with
  | uchar value =>
      simp [promoted, text, literal, suffix, bmod_toNat]
      rfl
  | char | int | uint | long | ulong | double => simp [promoted, text, literal, suffix]

theorem text_eq_of_number? (isNumber : constant.number? = some number) :
    constant.text = Text.ofInt number ++ constant.suffix := by
  cases constant <;> cases isNumber <;> rfl

/-- The suffixes of integers, of which only letters are used. -/
theorem mem_suffix {byte : UInt8} (isNumber : constant.number? = some number)
    (mem : byte ∈ constant.suffix) : byte = Text.ofAscii 'U' ∨ byte = Text.ofAscii 'L' := by
  cases constant with
  | double value => cases isNumber
  | char | uchar | int => cases mem
  | uint value => exact .inl (List.mem_singleton.1 mem)
  | long value => exact .inr (List.mem_singleton.1 mem)
  | ulong value => exact (List.mem_cons.1 mem).imp_right List.mem_singleton.1

theorem isWord_text (isNumber : constant.number? = some number) : IsWord constant.text := by
  intro byte mem
  rw [text_eq_of_number? isNumber] at mem
  rcases List.mem_append.1 mem with mem | mem
  · exact Text.isWord_ofInt number byte mem
  · rcases mem_suffix isNumber mem with rfl | rfl <;> decide

/-- The text of an integer constant determines its value, and its kind up to promotion. -/
theorem promoted_eq_of_text_eq {otherNumber : Int} (isLeft : left.number? = some number)
    (isRight : right.number? = some otherNumber) (same : left.text = right.text) :
    left.promoted = right.promoted := by
  have inside : ∀ number, ∀ byte ∈ Text.ofInt number,
      ¬(byte = Text.ofAscii 'U' ∨ byte = Text.ofAscii 'L') := by
    rintro number _ mem (rfl | rfl)
    · exact absurd (Text.mem_ofInt mem) (by decide)
    · exact absurd (Text.mem_ofInt mem) (by decide)
  rw [text_eq_of_number? isLeft, text_eq_of_number? isRight] at same
  have parts := Text.append_inj_of_boundary _ (inside number) (inside otherNumber)
    (fun byte isFirst => mem_suffix isLeft (List.mem_of_mem_head? isFirst))
    (fun byte isFirst => mem_suffix isRight (List.mem_of_mem_head? isFirst)) same
  rw [promoted_eq_ofNumber isLeft, promoted_eq_ofNumber isRight, Text.ofInt_injective parts.1,
    parts.2]

end Const

/-! ### Operands -/

namespace Operand

variable {operand left right : Operand}

def promoted : Operand → Operand
  | .constant value => .constant value.promoted
  | .var name => .var name
  | .absent => .absent

/-- The operand is no double, and its name is made of bytes of identifiers and dots. -/
def IsReadable : Operand → Prop
  | .constant value => ∃ number, value.number? = some number
  | .var name => name.IsDotted
  | .absent => True

@[simp]
theorem isReadable_var {name : Text} : (var name).IsReadable ↔ name.IsDotted := Iff.rfl

@[simp]
theorem debugText_promoted (operand : Operand) :
    operand.promoted.debugText = operand.debugText := by
  cases operand with
  | constant value => simp [promoted, debugText, Const.text_promoted]
  | var | absent => rfl

theorem isBracketed_parens {front body : Text} (isFront : IsWord front) (isBody : IsWord body) :
    IsBracketed (front ++ "(" ++ body ++ ")") := by
  have notClosed : Text.ofAscii ')' ∉ body := fun mem => isBody _ mem (by decide)
  have isBracketed := @IsBracketed.inside front body (Text.ofAscii '(', Text.ofAscii ')') isFront
    (by decide) notClosed
  rw [List.append_assoc, List.append_assoc]
  exact isBracketed

theorem isBracketed_debugText (isReadable : operand.IsReadable) :
    IsBracketed operand.debugText := by
  cases operand with
  | constant value =>
      rcases isReadable with ⟨number, isNumber⟩
      exact @isBracketed_parens "Constant" _ (by decide) (Const.isWord_text isNumber)
  | var name => exact @isBracketed_parens "Var" _ (by decide) isReadable.isWord
  | absent => exact .word (by decide)

theorem promoted_eq_of_debugText_eq (isLeft : left.IsReadable) (isRight : right.IsReadable)
    (same : left.debugText = right.debugText) : left.promoted = right.promoted := by
  cases left with
  | constant value =>
      cases right with
      | constant value' =>
          rcases isLeft with ⟨number, isNumber⟩
          rcases isRight with ⟨number', isNumber'⟩
          simp only [debugText, List.append_assoc] at same
          have texts := List.append_cancel_right (List.append_cancel_left same)
          rw [promoted, promoted, Const.promoted_eq_of_text_eq isNumber isNumber' texts]
      | var | absent => exact absurd (List.cons.inj same).1 (by decide)
  | var name =>
      cases right with
      | var name' =>
          simp only [debugText, List.append_assoc] at same
          rw [List.append_cancel_right (List.append_cancel_left same)]
      | constant | absent => exact absurd (List.cons.inj same).1 (by decide)
  | absent =>
      cases right with
      | absent => rfl
      | constant | var => exact absurd (List.cons.inj same).1 (by decide)

theorem promoted_eq_iff (isLeft : left.IsReadable) (isRight : right.IsReadable) :
    left.promoted = right.promoted ↔ left.debugText = right.debugText := by
  constructor
  · intro same
    rw [← debugText_promoted left, same, debugText_promoted]
  · exact promoted_eq_of_debugText_eq isLeft isRight

/-! ### Lists of operands -/

theorem bracket_notMem_debugText (isReadable : operand.IsReadable) :
    Text.ofAscii ']' ∉ operand.debugText := by
  have inParens : ∀ front ∈ ["Constant(", "Var("].map Text.ofString, ∀ body : Text, IsWord body →
      Text.ofAscii ']' ∉ front ++ body ++ ")" := by
    intro front isFront body isBody mem
    have notFront : ∀ front ∈ ["Constant(", "Var("].map Text.ofString,
        Text.ofAscii ']' ∉ front := by
      decide
    rcases List.mem_append.1 mem with mem | mem
    · rcases List.mem_append.1 mem with mem | mem
      · exact notFront front isFront mem
      · exact isBody _ mem (by decide)
    · revert mem
      decide
  cases operand with
  | constant value =>
      rcases isReadable with ⟨number, isNumber⟩
      exact inParens _ (by simp) _ (Const.isWord_text isNumber)
  | var name => exact inParens _ (by simp) _ isReadable.isWord
  | absent => exact (by decide : Text.ofAscii ']' ∉ Text.ofString "None")

theorem debugText_starts (operand : Operand) :
    ∃ byte bytes, operand.debugText = byte :: bytes ∧ byte ≠ Text.ofAscii ']' := by
  cases operand <;> exact ⟨_, _, rfl, by decide⟩

def debugTexts (operands : List Operand) : Text :=
  "[" ++ Text.commas (operands.map debugText) ++ "]"

theorem isBracketed_debugTexts {operands : List Operand}
    (areReadable : ∀ operand ∈ operands, operand.IsReadable) :
    IsBracketed (debugTexts operands) := by
  have notClosed : Text.ofAscii ']' ∉ Text.commas (operands.map debugText) := by
    intro mem
    rcases Text.mem_commas mem with isComma | ⟨_, isText, mem⟩
    · revert isComma
      decide
    · rcases List.mem_map.1 isText with ⟨operand, isOperand, rfl⟩
      exact bracket_notMem_debugText (areReadable operand isOperand) mem
  exact @IsBracketed.inside [] _ (Text.ofAscii '[', Text.ofAscii ']') (by simp [IsWord])
    (by decide) notClosed

theorem map_debugText_inj {lefts rights : List Operand}
    (areLeft : ∀ operand ∈ lefts, operand.IsReadable)
    (areRight : ∀ operand ∈ rights, operand.IsReadable)
    (same : debugTexts lefts = debugTexts rights) :
    lefts.map debugText = rights.map debugText := by
  let among (text : Text) : Prop :=
    ∃ operand : Operand, operand.IsReadable ∧ operand.debugText = text
  have areAmong : ∀ operands : List Operand, (∀ operand ∈ operands, operand.IsReadable) →
      ∀ text ∈ operands.map debugText, among text := by
    intro operands areReadable text mem
    rcases List.mem_map.1 mem with ⟨operand, isOperand, written⟩
    exact ⟨operand, areReadable operand isOperand, written⟩
  have bracketed : ∀ text, among text → IsBracketed text := by
    rintro _ ⟨operand, isReadable, rfl⟩
    exact isBracketed_debugText isReadable
  have starts : ∀ text, among text →
      ∃ byte bytes, id text = byte :: bytes ∧ byte ≠ Text.ofAscii ']' := by
    rintro _ ⟨operand, _, rfl⟩
    exact operand.debugText_starts
  have texts : Text.commas ((lefts.map debugText).map id) ++ Text.ofAscii ']' :: [] =
      Text.commas ((rights.map debugText).map id) ++ Text.ofAscii ']' :: [] := by
    rw [List.map_id, List.map_id]
    simp only [debugTexts, List.append_assoc] at same
    exact List.append_cancel_left same
  exact (Text.commas_inj (by decide) (by decide) starts (areAmong lefts areLeft)
    (areAmong rights areRight) (fun text mem =>
      (Text.reads_of_isBracketed (bracketed text (areAmong lefts areLeft text mem))).mono bracketed)
    texts).1

theorem map_promoted_eq {lefts rights : List Operand}
    (areLeft : ∀ operand ∈ lefts, operand.IsReadable)
    (areRight : ∀ operand ∈ rights, operand.IsReadable)
    (same : lefts.map debugText = rights.map debugText) :
    lefts.map promoted = rights.map promoted := by
  induction lefts generalizing rights with
  | nil =>
      cases rights with
      | nil => rfl
      | cons right rights => cases same
  | cons left lefts ih =>
      cases rights with
      | nil => cases same
      | cons right rights =>
          simp only [List.forall_mem_cons] at areLeft areRight
          rcases List.cons.inj same with ⟨first, others⟩
          rw [List.map_cons, List.map_cons, promoted_eq_of_debugText_eq areLeft.1 areRight.1 first,
            ih areLeft.2 areRight.2 others]

end Operand

/-! ### Operations -/

theorem OneOp.isBracketed_name (op : OneOp) : IsBracketed op.name := by
  cases op <;> exact .word (by decide)

theorem OneOp.name_injective : Function.Injective name := by
  intro left right same
  have nodup : ([complement, negate, not].map name).Nodup := by decide
  exact List.inj_on_of_nodup_map nodup (by cases left <;> simp) (by cases right <;> simp) same

namespace TwoOp

def all : List TwoOp :=
  [ArithOp.add, .sub, .mul, .div, .rem, .bitAnd, .bitOr, .bitXor, .shiftLeft,
    .shiftRight].map arith ++
  [CompareOp.equal, .notEqual, .less, .lessEqual, .greater, .greaterEqual].map compare

theorem mem_all (op : TwoOp) : op ∈ all := by
  rcases op with op | op <;> cases op <;> decide

theorem isBracketed_name (op : TwoOp) : IsBracketed op.name := by
  have areWords : ∀ op ∈ all, IsWord op.name := by decide
  exact .word (areWords op op.mem_all)

theorem name_injective : Function.Injective name := by
  intro left right same
  have nodup : (all.map name).Nodup := by decide
  exact List.inj_on_of_nodup_map nodup left.mem_all right.mem_all same

end TwoOp

/-! ### Records -/

namespace Instruction

def fieldText (field : Text × Text) : Text := field.1 ++ ": " ++ field.2

/-- A label that is seen to start and to end. -/
def IsLabel (label : Text) : Prop :=
  label ≠ [] ∧ Text.ofAscii ':' ∉ label ∧ Text.ofAscii '\x7d' ∉ label

instance (label : Text) : Decidable (IsLabel label) := inferInstanceAs (Decidable (_ ∧ _ ∧ _))

/-- A field whose parts are seen to end. -/
structure IsField (field : Text × Text) : Prop where
  isLabel : IsLabel field.1
  isBracketed : IsBracketed field.2

theorem reads_field {field : Text × Text} (isField : IsField field) :
    Reads fieldText IsField field := by
  intro other isOther rest otherRest ends otherEnds same
  simp only [fieldText, List.append_assoc] at same
  have labels := Text.append_cons_inj_of_notMem isField.isLabel.2.1 isOther.isLabel.2.1 same
  have values := Text.reads_of_isBracketed isField.isBracketed other.2 isOther.isBracketed _ _ ends
    otherEnds (List.append_cancel_left labels.2)
  exact ⟨Prod.ext labels.1 values.1, values.2⟩

theorem record_eq (name : Text) (fields : List (Text × Text)) :
    record name fields = name ++ Text.ofAscii '\x7b' ::
      (Text.commas (fields.map fieldText) ++ [Text.ofAscii '\x7d']) := by
  rw [record, List.append_assoc, List.append_assoc]
  rfl

/-- A record determines its name and its fields. -/
theorem record_inj {name otherName : Text} {fields others : List (Text × Text)}
    (isName : Text.ofAscii '\x7b' ∉ name) (isOtherName : Text.ofAscii '\x7b' ∉ otherName)
    (areFields : ∀ field ∈ fields, IsField field) (areOthers : ∀ field ∈ others, IsField field)
    (same : record name fields = record otherName others) : name = otherName ∧ fields = others := by
  have starts : ∀ field, IsField field →
      ∃ byte bytes, fieldText field = byte :: bytes ∧ byte ≠ Text.ofAscii '\x7d' := by
    rintro ⟨label, value⟩ ⟨⟨nonempty, _, notClosed⟩, _⟩
    cases label with
    | nil => exact absurd rfl nonempty
    | cons byte bytes =>
        refine ⟨byte, _, rfl, ?_⟩
        rintro rfl
        exact notClosed (by simp)
  rw [record_eq, record_eq] at same
  have names := Text.append_cons_inj_of_notMem isName isOtherName same
  have fields := Text.commas_inj (by decide) (by decide) starts areFields areOthers
    (fun field mem => reads_field (areFields field mem)) names.2
  exact ⟨names.1, fields.1⟩

/-! ### Constructors -/

/-- The instruction with nothing in its fields but the operation. -/
def blank : Instruction → Instruction
  | .ret _ => .ret .absent
  | .convert op _ _ => .convert op .absent .absent
  | .unary _ _ _ => .unary .not .absent .absent
  | .binary _ _ _ _ => .binary (.arith .add) .absent .absent .absent
  | .copy _ _ => .copy .absent .absent
  | .getAddress _ _ => .getAddress .absent .absent
  | .load _ _ => .load .absent .absent
  | .store _ _ => .store .absent .absent
  | .addPointer _ _ _ _ => .addPointer .absent .absent 0 .absent
  | .copyToOffset _ _ _ => .copyToOffset .absent [] 0
  | .copyFromOffset _ _ _ => .copyFromOffset [] 0 .absent
  | .jump _ => .jump []
  | .jumpIfZero _ _ => .jumpIfZero .absent []
  | .jumpIfNotZero _ _ => .jumpIfNotZero .absent []
  | .label _ => .label []
  | .call _ _ _ => .call [] [] .absent

def blanks : List Instruction :=
  [ConvertOp.signExtend, .zeroExtend, .truncate, .doubleToInt, .doubleToUInt, .intToDouble,
    .uintToDouble].map (fun op => Instruction.convert op .absent .absent) ++
  [Instruction.ret .absent, .unary .not .absent .absent,
    .binary (.arith .add) .absent .absent .absent, .copy .absent .absent,
    .getAddress .absent .absent, .load .absent .absent, .store .absent .absent,
    .addPointer .absent .absent 0 .absent, .copyToOffset .absent [] 0,
    .copyFromOffset [] 0 .absent, .jump [], .jumpIfZero .absent [], .jumpIfNotZero .absent [],
    .label [], .call [] [] .absent]

theorem blank_mem_blanks (instruction : Instruction) : instruction.blank ∈ blanks := by
  cases instruction with
  | convert op => cases op <;> simp [blanks, blank]
  | _ => simp [blanks, blank]

theorem debugName_blank (instruction : Instruction) :
    instruction.blank.debugName = instruction.debugName := by
  cases instruction <;> rfl

theorem brace_notMem_debugName (instruction : Instruction) :
    Text.ofAscii '\x7b' ∉ instruction.debugName := by
  have notMem : ∀ blank ∈ blanks, Text.ofAscii '\x7b' ∉ blank.debugName := by decide
  rw [← debugName_blank]
  exact notMem _ instruction.blank_mem_blanks

theorem blank_eq_of_debugName {left right : Instruction}
    (same : left.debugName = right.debugName) : left.blank = right.blank := by
  have nodup : (blanks.map debugName).Nodup := by decide
  rw [← debugName_blank left, ← debugName_blank right] at same
  exact List.inj_on_of_nodup_map nodup left.blank_mem_blanks right.blank_mem_blanks same

/-! ### Fields -/

def fieldLabels : List Text :=
  ["Value", "Op", "Src", "Src1", "Src2", "Dst", "Ptr", "Index", "Scale", "Offset", "Cond",
    "Target", "Name", "Args"].map Text.ofString

theorem isLabel_of_mem {instruction : Instruction} {field : Text × Text}
    (mem : field ∈ instruction.debugFields) : IsLabel field.1 := by
  have areLabels : ∀ label ∈ fieldLabels, IsLabel label := by decide
  have labels : ∀ field ∈ instruction.debugFields, field.1 ∈ fieldLabels := by
    cases instruction <;> simp [debugFields, fieldLabels]
  exact areLabels _ (labels field mem)

/-- The names of labels and functions in an instruction. Other names are those of operands. -/
def symbols (instruction : Instruction) : List Text :=
  (Code.label? instruction).toList ++ (Code.target? instruction).toList ++
    (Code.callee? instruction).toList

/-- The instruction has no double, and all its names are made of bytes of identifiers and dots. -/
structure IsReadable (instruction : Instruction) : Prop where
  operand : ∀ operand ∈ instruction.operands, operand.IsReadable
  symbol : ∀ name ∈ instruction.symbols, name.IsDotted

theorem IsReadable.isField {instruction : Instruction} (isReadable : instruction.IsReadable)
    {field : Text × Text} (mem : field ∈ instruction.debugFields) : IsField field := by
  have ofName : ∀ name : Text, name.IsDotted → IsBracketed name := fun _ isDotted =>
    .word isDotted.isWord
  have ofSize : ∀ size : Size, IsBracketed (Text.ofInt size) := fun size =>
    .word (Text.isWord_ofInt size)
  have areBracketed : ∀ field ∈ instruction.debugFields, IsBracketed field.2 := by
    rcases isReadable with ⟨areOperands, areSymbols⟩
    cases instruction with
    | call function arguments target =>
        simp only [operands, List.forall_mem_append, List.forall_mem_singleton] at areOperands
        simp only [debugFields, List.forall_mem_cons]
        exact ⟨ofName function (areSymbols function (by simp [symbols, Code.callee?])),
          Operand.isBracketed_debugTexts areOperands.1,
          Operand.isBracketed_debugText areOperands.2, by simp⟩
    | _ =>
        simp_all [debugFields, operands, symbols, Code.label?, Code.target?,
          Operand.isBracketed_debugText, OneOp.isBracketed_name, TwoOp.isBracketed_name]
  exact ⟨isLabel_of_mem mem, areBracketed field mem⟩

/-! ### Instructions -/

/-- The instruction with its constants promoted. -/
def promoted : Instruction → Instruction
  | .ret value => .ret value.promoted
  | .convert op source target => .convert op source.promoted target.promoted
  | .unary op source target => .unary op source.promoted target.promoted
  | .binary op left right target => .binary op left.promoted right.promoted target.promoted
  | .copy source target => .copy source.promoted target.promoted
  | .getAddress source target => .getAddress source.promoted target.promoted
  | .load pointer target => .load pointer.promoted target.promoted
  | .store source pointer => .store source.promoted pointer.promoted
  | .addPointer pointer index scale target =>
      .addPointer pointer.promoted index.promoted scale target.promoted
  | .copyToOffset source target offset => .copyToOffset source.promoted target offset
  | .copyFromOffset source offset target => .copyFromOffset source offset target.promoted
  | .jump target => .jump target
  | .jumpIfZero condition target => .jumpIfZero condition.promoted target
  | .jumpIfNotZero condition target => .jumpIfNotZero condition.promoted target
  | .label name => .label name
  | .call function arguments target =>
      .call function (arguments.map Operand.promoted) target.promoted

theorem debugText_promoted (instruction : Instruction) :
    instruction.promoted.debugText = instruction.debugText := by
  have names : instruction.promoted.debugName = instruction.debugName := by
    cases instruction <;> rfl
  have fields : instruction.promoted.debugFields = instruction.debugFields := by
    cases instruction <;> simp [promoted, debugFields, Function.comp_def]
  rw [debugText, debugText, names, fields]

variable {left right : Instruction}

/-- Instructions of the same constructor whose fields have the same texts are the same when their
constants are promoted. -/
theorem promoted_eq_of_debugFields (isLeft : left.IsReadable) (isRight : right.IsReadable)
    (blanks : left.blank = right.blank) (fields : left.debugFields = right.debugFields) :
    left.promoted = right.promoted := by
  have areLeft := isLeft.operand
  have areRight := isRight.operand
  cases left with
  | ret value =>
      cases right with
      | ret value' =>
          simp_all [debugFields, operands, promoted, Operand.promoted_eq_iff]
      | _ => cases blanks
  | convert op source target =>
      cases right with
      | convert op' source' target' =>
          simp_all [debugFields, operands, promoted, blank, Operand.promoted_eq_iff]
      | _ => cases blanks
  | unary op source target =>
      cases right with
      | unary op' source' target' =>
          simp_all [debugFields, operands, promoted, Operand.promoted_eq_iff,
            OneOp.name_injective.eq_iff]
      | _ => cases blanks
  | binary op first second target =>
      cases right with
      | binary op' first' second' target' =>
          simp_all [debugFields, operands, promoted, Operand.promoted_eq_iff,
            TwoOp.name_injective.eq_iff]
      | _ => cases blanks
  | copy source target =>
      cases right with
      | copy source' target' =>
          simp_all [debugFields, operands, promoted, Operand.promoted_eq_iff]
      | _ => cases blanks
  | getAddress source target =>
      cases right with
      | getAddress source' target' =>
          simp_all [debugFields, operands, promoted, Operand.promoted_eq_iff]
      | _ => cases blanks
  | load pointer target =>
      cases right with
      | load pointer' target' =>
          simp_all [debugFields, operands, promoted, Operand.promoted_eq_iff]
      | _ => cases blanks
  | store source pointer =>
      cases right with
      | store source' pointer' =>
          simp_all [debugFields, operands, promoted, Operand.promoted_eq_iff]
      | _ => cases blanks
  | addPointer pointer index scale target =>
      cases right with
      | addPointer pointer' index' scale' target' =>
          simp_all [debugFields, operands, promoted, Operand.promoted_eq_iff,
            Text.ofInt_injective.eq_iff]
      | _ => cases blanks
  | copyToOffset source target offset =>
      cases right with
      | copyToOffset source' target' offset' =>
          simp_all [debugFields, operands, promoted, Operand.promoted_eq_iff,
            Text.ofInt_injective.eq_iff]
      | _ => cases blanks
  | copyFromOffset source offset target =>
      cases right with
      | copyFromOffset source' offset' target' =>
          simp_all [debugFields, operands, promoted, Operand.promoted_eq_iff,
            Text.ofInt_injective.eq_iff]
      | _ => cases blanks
  | jump target =>
      cases right with
      | jump target' =>
          simp_all [debugFields, promoted]
      | _ => cases blanks
  | jumpIfZero condition target =>
      cases right with
      | jumpIfZero condition' target' =>
          simp_all [debugFields, operands, promoted, Operand.promoted_eq_iff]
      | _ => cases blanks
  | jumpIfNotZero condition target =>
      cases right with
      | jumpIfNotZero condition' target' =>
          simp_all [debugFields, operands, promoted, Operand.promoted_eq_iff]
      | _ => cases blanks
  | label name =>
      cases right with
      | label name' =>
          simp_all [debugFields, promoted]
      | _ => cases blanks
  | call function arguments target =>
      cases right with
      | call function' arguments' target' =>
          simp only [operands, List.forall_mem_append, List.forall_mem_singleton]
            at areLeft areRight
          simp only [debugFields, List.cons.injEq, Prod.mk.injEq, true_and, and_true] at fields
          rcases fields with ⟨functions, argumentTexts, targets⟩
          have texts := Operand.map_debugText_inj areLeft.1 areRight.1 argumentTexts
          simp only [promoted, functions, Operand.map_promoted_eq areLeft.1 areRight.1 texts,
            Operand.promoted_eq_of_debugText_eq areLeft.2 areRight.2 targets]
      | _ => cases blanks

/-- The text that names the fields of an instruction determines the instruction, up to the kinds of
constants that are characters or ints of the same value. -/
theorem debugText_eq_iff (isLeft : left.IsReadable) (isRight : right.IsReadable) :
    left.debugText = right.debugText ↔ left.promoted = right.promoted := by
  constructor
  · intro same
    have parts := record_inj left.brace_notMem_debugName right.brace_notMem_debugName
      (fun _ mem => isLeft.isField mem) (fun _ mem => isRight.isField mem) same
    exact promoted_eq_of_debugFields isLeft isRight (blank_eq_of_debugName parts.1) parts.2
  · intro same
    rw [← debugText_promoted left, same, debugText_promoted]

/-- A call with a character, the call with an int in its place, and that with an unsigned one. -/
theorem debugText_eq_iff_call :
    let call (constant : Const) : Instruction :=
      .call "put" [.constant constant, .absent, .var "s.0"] .absent
    (call (.char 65)).IsReadable ∧ (call (.int 65)).IsReadable ∧ (call (.uint 65)).IsReadable ∧
      (call (.char 65)).debugText = (call (.int 65)).debugText ∧
      (call (.char 65)).debugText ≠ (call (.uint 65)).debugText := by
  intro call
  have isReadable : ∀ constant : Const, constant.number?.isSome → (call constant).IsReadable := by
    intro constant isNumber
    refine ⟨?_, ?_⟩
    · simp only [call, operands, List.cons_append, List.nil_append, List.forall_mem_cons]
      exact ⟨Option.isSome_iff_exists.1 isNumber, trivial,
        (by decide : Text.IsDotted "s.0"), trivial, by simp⟩
    · simp only [call, symbols, Code.label?, Code.target?, Code.callee?]
      decide
  have isChar := isReadable (.char 65) rfl
  have isInt := isReadable (.int 65) rfl
  have isUInt := isReadable (.uint 65) rfl
  refine ⟨isChar, isInt, isUInt, (debugText_eq_iff isChar isInt).2 (by decide), ?_⟩
  intro same
  exact absurd ((debugText_eq_iff isChar isUInt).1 same) (by decide)

end Instruction

end SubsetC
