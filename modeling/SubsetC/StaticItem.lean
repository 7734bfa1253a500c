import SubsetC.Const
import SubsetC.Text.Escape

/-!
# Static initializer items

The initializer of a static object is a list of items that lie one after the other in memory.
-/

namespace SubsetC

/-- One item of a static initializer. -/
inductive StaticItem where
  | scalar (value : Const)
  /-- A run of zero bytes. -/
  | zero (size : Size)
  /-- The bytes of a string, followed by a null byte if it is terminated. -/
  | string (bytes : Text) (terminated : Bool)
  /-- The address of a static object. -/
  | pointer (name : Text)
  deriving DecidableEq, Repr

namespace StaticItem

/-- The number of bytes an item covers. -/
def size : StaticItem → Size
  | .scalar value => value.type.size
  | .zero size => size
  | .string bytes terminated => bytes.length + if terminated then 1 else 0
  | .pointer _ => 8

/-- The text dumps show for an item. -/
def text : StaticItem → Text
  | .scalar value => value.text
  | .zero size => "Zero(" ++ Text.ofInt size ++ ")"
  | .string bytes terminated =>
    "\"" ++ Text.escape bytes ++ (if terminated then "\\0" else "" : String) ++ "\""
  | .pointer name => "&" ++ name

/-- The number of bytes a list of items covers. -/
def totalSize (items : List StaticItem) : Size :=
  items.foldl (fun total item => Size.add total item.size) 0

/-- The items followed by a run of zero bytes. A run that is already last grows, and a run
without bytes is left out. -/
def appendZero (items : List StaticItem) (size : Size) : List StaticItem :=
  if size ≤ 0 then items
  else
    match items.getLast? with
    | some (.zero last) => items.dropLast ++ [.zero (Size.add last size)]
    | _ => items ++ [.zero size]

end StaticItem

end SubsetC
