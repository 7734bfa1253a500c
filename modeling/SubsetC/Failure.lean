import SubsetC.Diagnostic
import SubsetC.Const
import SubsetC.Operator
import SubsetC.Token
import SubsetC.Text.Quoted

/-!
# Failures

Everything that can stop a compilation, by cause. The causes a user is to blame for are syntax,
name, type and control flow errors; each has its wording here and nowhere else. The other failures
are internal: they arise when passes are run in an unexpected order, or at limits of the machine.
-/

namespace SubsetC

/-! ### Errors of the user -/

/-- How messages name a token. -/
def Token.mention (token : Token) : Text :=
  match token.kind with
  | .endOfInput => "end of input"
  | .identifier | .integer | .floating => Text.quote token.literal
  | kind => kind.text

/-- Violations of the grammar. -/
inductive SyntaxError where
  | invalidToken (literal : Text)
  | expected (kind : TokenKind) (found : Token)
  | expectedSpecifier (found : Token)
  | expectedDeclarator (found : Token)
  | expectedExpression (found : Token)
  | expectedAbstractDeclarator
  | storageNotAllowed
  | multipleStorage
  | duplicateSpecifier (keyword : Keyword)
  | voidCombined
  | doubleCombined
  | signedAndUnsigned
  | charCombined
  | functionInForInit
  | parameterNameOmitted (function : Text)
  | emptyInitializer
  | dimensionNotInteger
  | dimensionNotConstant (found : Token)
  | dimensionNotPositive
  | dimensionMissing
  | functionDerivation
  | arrayResult (function : Text)
  | functionParameter (parameter : Text)
  | integerTooLarge (literal : Text)
  | integerTooLargeForLong (literal : Text)
  | declarationNotAllowed
  deriving DecidableEq, Repr

def SyntaxError.message : SyntaxError → Text
  | .invalidToken literal => "invalid token " ++ Text.quote literal
  | .expected kind found => "expected " ++ kind.text ++ ", got " ++ found.mention
  | .expectedSpecifier found => "expected type specifier, got " ++ found.mention
  | .expectedDeclarator found => "expected declarator, got " ++ found.mention
  | .expectedExpression found => "expected expression, got " ++ found.mention
  | .expectedAbstractDeclarator => "expected abstract declarator"
  | .storageNotAllowed => "storage class not allowed here"
  | .multipleStorage => "multiple storage classes in declaration"
  | .duplicateSpecifier keyword => "duplicate type specifier " ++ keyword.text
  | .voidCombined => "void cannot be combined with other type specifiers"
  | .doubleCombined => "double cannot be combined with other type specifiers"
  | .signedAndUnsigned => "both signed and unsigned in type specifier"
  | .charCombined => "invalid type specifier combination with char"
  | .functionInForInit => "function declaration in for loop initializer"
  | .parameterNameOmitted function => "parameter name omitted in definition of " ++ function
  | .emptyInitializer => "empty initializer list"
  | .dimensionNotInteger => "array dimension must be an integer constant"
  | .dimensionNotConstant found =>
    "array dimension must be an integer constant, got " ++ found.mention
  | .dimensionNotPositive => "array dimension must be positive"
  | .dimensionMissing => "array dimension is required"
  | .functionDerivation => "Can't apply additional derivations to a function type"
  | .arrayResult function => "function " ++ function ++ " cannot return an array"
  | .functionParameter parameter =>
    "parameter " ++ (if parameter.isEmpty then Text.ofString "(unnamed)" else parameter) ++
      " cannot have function type"
  | .integerTooLarge literal => "integer constant " ++ literal ++ " is too large"
  | .integerTooLargeForLong literal => "integer constant " ++ literal ++ " is too large for long"
  | .declarationNotAllowed => "declaration is not allowed here"

/-- Violations of the rules for names and linkage. -/
inductive NameError where
  | undeclaredIdentifier (name : Text)
  | undeclaredFunction (name : Text)
  | functionRedeclared (name : Text)
  | duplicateParameter (name : Text)
  | conflictingLinkage (name : Text)
  | redeclaration (name : Text)
  | staticAfterNonStatic (name : Text)
  deriving DecidableEq, Repr

namespace NameError

def message : NameError → Text
  | .undeclaredIdentifier name => "undeclared identifier " ++ name
  | .undeclaredFunction name => "undeclared function " ++ name
  | .functionRedeclared name => name ++ " redeclared as a function with linkage"
  | .duplicateParameter name => "duplicate parameter " ++ name
  | .conflictingLinkage name => "conflicting linkage for " ++ name
  | .redeclaration name => "redeclaration of " ++ name
  | .staticAfterNonStatic name =>
    "static declaration of " ++ name ++ " follows non-static declaration"

def code : NameError → DiagnosticCode
  | .undeclaredIdentifier _ | .undeclaredFunction _ => .undeclared
  | .duplicateParameter _ | .redeclaration _ => .redeclared
  | .functionRedeclared _ | .conflictingLinkage _ | .staticAfterNonStatic _ => .linkageConflict

end NameError

/-- Violations of the rules for types. -/
inductive TypeError where
  | voidParameter (name : Text)
  | voidVariable (name : Text)
  | incompleteElement (type : CType)
  | nestedDefinition (name : Text)
  | staticBlockFunction (name : Text)
  | conflictingTypes (name : Text)
  | functionRedefinition (name : Text)
  | differentKind (name : Text)
  | redefinition (name : Text)
  | localExternInitializer (name : Text)
  | conditionNotScalar (type : CType)
  | storageInForInit
  | missingReturnValue
  | unexpectedReturnValue
  | switchNotInteger (type : CType)
  | caseNotInteger
  | functionAsValue
  | cannotConvert (source target : CType)
  | incompatiblePointers (left right : CType)
  | addressOfFunction
  | addressOfRvalue
  | dereferenceNonPointer (type : CType)
  | dereferenceVoid
  | invalidOperand (op : UnaryOp) (type : CType)
  | invalidOperands (op : BinaryOp) (left right : CType)
  | invalidAssignOperands (op : AssignOp) (left right : CType)
  | arrayNotAssignable (type : CType)
  | notAssignable
  | incompatibleBranches (thenType elseType : CType)
  | notFunction (name : Text)
  | argumentCount (name : Text) (expected given : Nat)
  | castToArray (type : CType)
  | castToFunction (type : CType)
  | castOfVoid (type : CType)
  | castBetween (source target : CType)
  | invalidSubscript (array index : CType)
  | cannotStep (type : CType)
  | sizeofIncomplete (type : CType)
  | stringTooLong (length : Nat) (type : CType)
  | bracesRequired (type : CType)
  | bracesAroundScalar (type : CType)
  | excessElements (type : CType)
  | notConstant
  deriving DecidableEq, Repr

def TypeError.message : TypeError → Text
  | .voidParameter name => "parameter " ++ name ++ " declared with type void"
  | .voidVariable name => "variable " ++ name ++ " declared with type void"
  | .incompleteElement type => "array has incomplete element type " ++ type.text
  | .nestedDefinition name => "nested function definition of " ++ name
  | .staticBlockFunction name => "block-scope function " ++ name ++ " cannot be static"
  | .conflictingTypes name => "conflicting types for " ++ name
  | .functionRedefinition name => "redefinition of function " ++ name
  | .differentKind name => name ++ " redeclared as a different kind of symbol"
  | .redefinition name => "redefinition of " ++ name
  | .localExternInitializer name => "initializer on local extern declaration of " ++ name
  | .conditionNotScalar type =>
    "controlling expression must have scalar type, not " ++ type.text
  | .storageInForInit => "storage class not allowed in for loop initializer"
  | .missingReturnValue => "non-void function should return a value"
  | .unexpectedReturnValue => "void function should not return a value"
  | .switchNotInteger type => "switch quantity must have integer type, not " ++ type.text
  | .caseNotInteger => "case value must be an integer"
  | .functionAsValue => "function designator cannot be used as a value"
  | .cannotConvert source target => "cannot convert " ++ source.text ++ " to " ++ target.text
  | .incompatiblePointers left right =>
    "incompatible pointer types " ++ left.text ++ " and " ++ right.text
  | .addressOfFunction => "cannot take the address of a function"
  | .addressOfRvalue => "cannot take the address of an rvalue"
  | .dereferenceNonPointer type => "cannot dereference non-pointer type " ++ type.text
  | .dereferenceVoid => "cannot dereference void pointer"
  | .invalidOperand op type =>
    let unary : Text := if op = .not ∨ op = .complement then "" else "unary "
    "invalid operand to " ++ unary ++ op.text ++ ": " ++ type.text
  | .invalidOperands op left right =>
    "invalid operands to " ++ op.text ++ ": " ++ left.text ++ " and " ++ right.text
  | .invalidAssignOperands op left right =>
    "invalid operands to " ++ op.text ++ ": " ++ left.text ++ " and " ++ right.text
  | .arrayNotAssignable type => "array type " ++ type.text ++ " is not assignable"
  | .notAssignable => "expression is not assignable"
  | .incompatibleBranches thenType elseType =>
    "incompatible operand types " ++ thenType.text ++ " and " ++ elseType.text ++
      " in conditional"
  | .notFunction name => "called object " ++ name ++ " is not a function"
  | .argumentCount name expected given =>
    "function " ++ name ++ " expects " ++ Text.ofNat expected ++ " arguments, got " ++
      Text.ofNat given
  | .castToArray type => "cannot cast to array type " ++ type.text
  | .castToFunction type => "cannot cast to function type " ++ type.text
  | .castOfVoid type => "cannot cast void expression to " ++ type.text
  | .castBetween source target => "cannot cast between " ++ source.text ++ " and " ++ target.text
  | .invalidSubscript array index =>
    "subscript requires a pointer to a complete type and an integer, got " ++ array.text ++
      " and " ++ index.text
  | .cannotStep type => "cannot increment or decrement " ++ type.text
  | .sizeofIncomplete type => "invalid application of sizeof to incomplete type " ++ type.text
  | .stringTooLong length type =>
    "initializer string of length " ++ Text.ofNat length ++ " is too long for " ++ type.text
  | .bracesRequired type =>
    "array " ++ type.text ++ " must be initialized with a brace-enclosed list"
  | .bracesAroundScalar type => "compound initializer for scalar type " ++ type.text
  | .excessElements type => "excess elements in initializer for " ++ type.text
  | .notConstant =>
    "initializer element is not a compile-time constant (static_non_const_array)"

/-- Violations of the rules for jumps and switches. -/
inductive FlowError where
  | caseOutsideSwitch
  | defaultOutsideSwitch
  | caseNotConstant
  | multipleDefaults
  | duplicateCase (value : Const)
  | breakOutsideLoop
  | continueOutsideLoop
  deriving DecidableEq, Repr

namespace FlowError

def message : FlowError → Text
  | .caseOutsideSwitch => "case label not within a switch statement"
  | .defaultOutsideSwitch => "default label not within a switch statement"
  | .caseNotConstant => "case label is not an integer constant expression"
  | .multipleDefaults => "multiple default labels in one switch"
  | .duplicateCase value => "duplicate case value " ++ value.text
  | .breakOutsideLoop => "break statement not within loop or switch"
  | .continueOutsideLoop => "continue statement not within a loop"

def code : FlowError → DiagnosticCode
  | .caseOutsideSwitch | .defaultOutsideSwitch => .caseOutsideSwitch
  | .caseNotConstant => .none
  | .multipleDefaults | .duplicateCase _ => .duplicateCase
  | .breakOutsideLoop => .breakOutsideLoop
  | .continueOutsideLoop => .continueOutsideLoop

end FlowError

/-- What a user is told about. -/
inductive UserError where
  | syntactic (error : SyntaxError)
  | name (error : NameError)
  | type (error : TypeError)
  | flow (error : FlowError)
  deriving DecidableEq, Repr

/-- The diagnostic for an error at a place. -/
def UserError.diagnostic (span : Span) : UserError → Diagnostic
  | .syntactic error => ⟨.parse, .none, span, error.message⟩
  | .name error => ⟨.name, error.code, span, error.message⟩
  | .type error => ⟨.type, .none, span, error.message⟩
  | .flow error => ⟨.controlFlow, error.code, span, error.message⟩

/-! ### Errors of the compiler -/

/-- Violations of what one pass expects of those before it. -/
inductive InternalError where
  /-- Typing meets a name without a symbol. -/
  | undeclared (name : Text)
  /-- Name resolution meets a tree that is already typed. -/
  | alreadyTyped
  /-- Lowering meets a function whose symbol is not a function. -/
  | notFunction (name : Text)
  /-- Frame layout meets a name without a symbol. -/
  | noSymbol (name : Text)
  /-- Lowering needs the value of an expression that has none. -/
  | noValue
  deriving DecidableEq, Repr

def InternalError.message : InternalError → Text
  | .undeclared name => "sema: " ++ name ++ " resolved but never declared"
  | .alreadyTyped => "sema: unknown expression *cabs.Decay"
  | .notFunction name => "tackygen: " ++ name ++ " is not a function"
  | .noSymbol name => "asmgen: " ++ name ++ " has no symbol"
  | .noValue => "expression without a value"

/-- Requests for things that do not exist. -/
inductive Missing where
  /-- The symbol of a name that has none. -/
  | symbol (name : Text)
  /-- A constant of a type that has none. -/
  | constant (type : CType)
  deriving DecidableEq, Repr

/-- The wording of such a request. -/
def Missing.message : Missing → Text
  | .symbol name => "symbols: no entry for " ++ name
  | .constant type => "consts: no constant of type " ++ type.text

/-- Limits of the machine. -/
inductive Fault where
  /-- A string literal ends beyond the source, which has the given length. -/
  | overrun (length : Nat)
  /-- A token is looked for where there is none. -/
  | index (place : Int)
  /-- An object is too large to be built in memory. -/
  | allocation
  /-- An object has the alignment zero. -/
  | alignment
  deriving DecidableEq, Repr

def Fault.message : Fault → Text
  | .overrun length =>
    "runtime error: slice bounds out of range [:" ++ Text.ofNat (length + 1) ++
      "] with length " ++ Text.ofNat length
  | .index place => "runtime error: index out of range [" ++ Text.ofInt place ++ "]"
  | .allocation => "runtime error: makeslice: len out of range"
  | .alignment => "runtime error: integer divide by zero"

/-- Why a compilation stops. -/
inductive Failure where
  /-- The user is told about an error at a place. -/
  | user (span : Span) (error : UserError)
  /-- A pass meets what an earlier pass should have prevented. -/
  | internal (error : InternalError)
  /-- Something that does not exist is asked for. -/
  | missing (what : Missing)
  /-- A limit of the machine is hit. -/
  | fault (limit : Fault)
  /-- A bound on recursion computed from the input was too small. -/
  | outOfFuel
  deriving DecidableEq, Repr

namespace Failure

/-- The diagnostic that reports a failure. All failures that are not the user's are internal
errors without a place. -/
def diagnostic : Failure → Diagnostic
  | .user span error => error.diagnostic span
  | .internal error => ⟨.internal, .none, .none, error.message⟩
  | .missing what => ⟨.internal, .none, .none, what.message⟩
  | .fault limit => ⟨.internal, .none, .none, limit.message⟩
  | .outOfFuel => ⟨.internal, .none, .none, "out of fuel"⟩

end Failure

end SubsetC
