import SubsetC.Analysis.Fold
import SubsetC.Analysis.Typing

/-!
# Initializers

The initializer of an automatic object is brought into the shape of its type: one typed expression
to a scalar, with zeros written out for the elements that are left out. The initializer of a
static object is computed into the list of items that lie in its memory.
-/

namespace SubsetC

namespace Expr

/-- An expression that initializes an object of a type. A string literal initializes an array of
characters if all its bytes but the terminating null fit; other arrays need braces. -/
def checkInitial (type : CType) (span : Span) (expr : Expr) : Pass Expr :=
  match type with
  | .array size element =>
    match expr with
    | .string _ bytes =>
      if !element.isCharacter then Pass.typeError span (.bracesRequired type)
      else if size < bytes.length then
        Pass.typeError expr.span (.stringTooLong bytes.length type)
      else expr.check
    | _ => Pass.typeError span (.bracesRequired type)
  | _ => do
    let value ← expr.checkValue
    value.assignTo type

/-- The expression without the conversions between pointer types around it, which do not change
an address. -/
def stripPointers : Expr → Expr
  | .cast note target operand isImplicit =>
    if target.isPointer && operand.type.isPointer then operand.stripPointers
    else .cast note target operand isImplicit
  | expr => expr

/-- The address of a static object as an item of an initializer at a place. -/
def staticAddress (span : Span) (name : Text) : Pass StaticItem := do
  if (← get).symbols.isStatic name then pure (.pointer name)
  else Pass.typeError span .notConstant

/-- The value of a typed constant expression of arithmetic type. -/
def scalarItem (type : CType) (expr : Expr) : Pass StaticItem :=
  match expr.fold? with
  | none => Pass.typeError expr.span .notConstant
  | some value =>
    match value.convert? type with
    | none => throw (.missing (.constant type))
    | some value => pure (.scalar value)

/-- The value of a typed constant expression of pointer type: a null pointer, the address of a
static object, or a string literal, which becomes a static object of its own. -/
def pointerItem (expr : Expr) : Pass StaticItem :=
  match expr.stripPointers with
  | .cast _ _ operand _ =>
    match operand.fold? with
    | some value =>
      if value.type.isInteger && value.isZero then pure (.scalar (.ulong 0))
      else Pass.typeError expr.span .notConstant
    | none => Pass.typeError expr.span .notConstant
  | .addressOf _ (.var _ name) => staticAddress expr.span name
  | .decay _ (.var _ name) => staticAddress expr.span name
  | .decay _ (.string _ bytes) => do pure (.pointer (← Pass.newString bytes))
  | _ => Pass.typeError expr.span .notConstant

/-- The items followed by the value of a typed constant expression. A zero joins a run of zero
bytes, unless it is a negative zero, which has a bit set. -/
def appendValue (type : CType) (items : List StaticItem) (expr : Expr) :
    Pass (List StaticItem) := do
  let item ← if type.isPointer then expr.pointerItem else expr.scalarItem type
  match item with
  | .scalar value =>
    if value.isZero && !value.isNegativeZero then pure (StaticItem.appendZero items type.size)
    else pure (items ++ [item])
  | _ => pure (items ++ [item])

/-- The items followed by those of a typed expression that initializes an object of a type. The
terminating null of a string is part of its item if the array has room for it. -/
def appendItems (type : CType) (items : List StaticItem) (expr : Expr) :
    Pass (List StaticItem) :=
  match type, expr with
  | .array size _, .string _ bytes =>
    let item := .string bytes (bytes.length < size)
    pure (StaticItem.appendZero (items ++ [item]) (size - bytes.length - 1))
  | _, _ => expr.appendValue type items

end Expr

namespace Initializer

/-- The explicit zero initializer of a type. -/
def zero (span : Span) : CType → Pass Initializer
  | .array size element => do
    let loc ← Pass.newLoc span
    pure (.compound loc (← Pass.times (zero span element) size.toNat))
  | type =>
    match Const.zero? type with
    | none => throw (.missing (.constant type))
    | some value => do
      let constantLoc ← Pass.newLoc span
      let loc ← Pass.newLoc span
      pure (.single loc (.constant ⟨constantLoc, some type, false⟩ value))

mutual

/-- The typed initializer of an automatic object. Braces around the initializer of a scalar are
dropped, and arrays get an initializer for each of their elements. -/
def checkAutomatic (type : CType) : Initializer → Pass Initializer
  | .single loc value => do pure (.single loc (← value.checkInitial type loc.span))
  | .compound loc items =>
    match type with
    | .array size element =>
      if size < items.length then Pass.typeError loc.span (.excessElements type)
      else do
        let given ← checkAutomaticList element items
        let zeros ← Pass.times (zero loc.span element) (size - items.length).toNat
        pure (.compound loc (given ++ zeros))
    | _ =>
      match items with
      | [.single loc value] => do pure (.single loc (← value.checkInitial type loc.span))
      | _ => Pass.typeError loc.span (.bracesAroundScalar type)

/-- The typed initializers of elements of an automatic array. -/
def checkAutomaticList (element : CType) : List Initializer → Pass (List Initializer)
  | [] => pure []
  | item :: items => do
    let item ← item.checkAutomatic element
    pure (item :: (← checkAutomaticList element items))

end

mutual

/-- The typed initializer of a static object, and the given items followed by those it stands
for. -/
def checkStatic (type : CType) (items : List StaticItem) :
    Initializer → Pass (Initializer × List StaticItem)
  | .single loc value => do
    let value ← value.checkInitial type loc.span
    pure (.single loc value, ← value.appendItems type items)
  | .compound loc elements =>
    match type with
    | .array size element =>
      if size < elements.length then Pass.typeError loc.span (.excessElements type)
      else do
        let (given, items) ← checkStaticList element items elements
        let missing := Size.mul (size - elements.length) element.size
        pure (.compound loc given, StaticItem.appendZero items missing)
    | _ =>
      match elements with
      | [.single innerLoc value] => do
        let value ← value.checkInitial type innerLoc.span
        pure (.compound loc [.single innerLoc value], ← value.appendItems type items)
      | _ => Pass.typeError loc.span (.bracesAroundScalar type)

/-- The typed initializers of elements of a static array, and the items so far. -/
def checkStaticList (element : CType) (items : List StaticItem) :
    List Initializer → Pass (List Initializer × List StaticItem)
  | [] => pure ([], items)
  | first :: rest => do
    let (first, items) ← first.checkStatic element items
    let (rest, items) ← checkStaticList element items rest
    pure (first :: rest, items)

end

end Initializer

end SubsetC
