import SubsetC.StaticItem

/-!
# Symbols

The symbol table of a compilation unit. It is keyed by internal names and keeps the order in which
names were first entered, so that later passes list them in that order.
-/

namespace SubsetC

/-- How a static object starts out. -/
inductive InitialValue where
  /-- A definition without an initializer. -/
  | tentative
  /-- A definition with an initializer. -/
  | initial (items : List StaticItem)
  | absent
  deriving DecidableEq, Repr

/-- How a symbol is stored. -/
inductive Storage where
  | function (defined isGlobal : Bool)
  /-- An object that lives as long as the program. -/
  | static (init : InitialValue) (isGlobal : Bool)
  /-- A read-only object, such as a string literal. -/
  | constant (init : StaticItem)
  /-- An automatic object or a temporary. -/
  | automatic
  deriving DecidableEq, Repr

/-- A row of the symbol table. -/
structure Symbol where
  /-- The internal name. -/
  name : Text
  /-- The type of the object or function. -/
  type : CType
  /-- Where and how it is stored. -/
  storage : Storage
  deriving DecidableEq, Repr

/-- The items of a static initializer in brackets. -/
def StaticItem.listText (items : List StaticItem) : Text :=
  "[" ++ Text.commas (items.map StaticItem.text) ++ "]"

def InitialValue.text : InitialValue → Text
  | .tentative => "tentative"
  | .initial items => StaticItem.listText items
  | .absent => "none"

def Storage.text : Storage → Text
  | .function defined isGlobal =>
    "function defined=" ++ Text.ofBool defined ++ " global=" ++ Text.ofBool isGlobal
  | .static init isGlobal => "static global=" ++ Text.ofBool isGlobal ++ " init=" ++ init.text
  | .constant init => "constant init=" ++ init.text
  | .automatic => "local"

/-- The line that shows a symbol. -/
def Symbol.text (symbol : Symbol) : Text :=
  symbol.name ++ " : " ++ symbol.type.text ++ " : " ++ symbol.storage.text

/-- The symbols in the order their names were first entered. -/
structure SymbolTable where
  /-- The rows, at most one to a name. -/
  symbols : List Symbol
  deriving DecidableEq, Repr

namespace SymbolTable

/-- The table without symbols. -/
def empty : SymbolTable := ⟨[]⟩

/-- The rows with the row of a symbol's name replaced, or with a new last row. -/
def put (symbol : Symbol) : List Symbol → List Symbol
  | [] => [symbol]
  | row :: rows => if row.name = symbol.name then symbol :: rows else row :: put symbol rows

/-- The table with a symbol entered or replaced. -/
def set (table : SymbolTable) (name : Text) (type : CType) (storage : Storage) : SymbolTable :=
  ⟨put ⟨name, type, storage⟩ table.symbols⟩

/-- The table with an automatic object entered. -/
def addLocal (table : SymbolTable) (name : Text) (type : CType) : SymbolTable :=
  table.set name type .automatic

def find? (table : SymbolTable) (name : Text) : Option Symbol :=
  table.symbols.find? fun symbol => symbol.name = name

/-- Whether a name is an object with static storage. -/
def isStatic (table : SymbolTable) (name : Text) : Bool :=
  match table.find? name with
  | some ⟨_, _, .static _ _⟩ | some ⟨_, _, .constant _⟩ => true
  | _ => false

def size (table : SymbolTable) : Nat := table.symbols.length

end SymbolTable

end SubsetC
