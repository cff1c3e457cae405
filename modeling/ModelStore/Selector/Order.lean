import ModelStore.Direction
import ModelStore.Fault
import ModelStore.Model.Definition
import ModelStore.Text.Blank
import ModelStore.Text.Cut

/-! Orders such as `age DESC, name`. A text is cut at its commas, a list is taken item by
item, and empty items are passed over. The last word of an item names its direction if it
is ASC or DESC in any letter case and does not stand alone; the id property is ordered by
`_id`. -/

namespace ModelStore

abbrev SortKey := String × Direction

namespace Order

def isLetter (lower upper c : Char) : Bool := c == lower || c == upper

/-- The letter s, the long form of it included. -/
def isLetterS (c : Char) : Bool := isLetter 's' 'S' c || c == Char.ofNat 0x17F

def directionWord? : List Char → Option Direction
  | [a, s, c] =>
    if isLetter 'a' 'A' a && isLetterS s && isLetter 'c' 'C' c then some .asc else none
  | [d, e, s, c] =>
    if isLetter 'd' 'D' d && isLetter 'e' 'E' e && isLetterS s && isLetter 'c' 'C' c then some .desc
    else none
  | _ => none

/-- The name and the direction of an item without blanks at its ends. -/
def splitItem (cs : List Char) : List Char × Direction :=
  let word := (cs.reverse.takeWhile fun c => !Text.isBlank c).reverse
  let before := Text.trimEnd Text.isBlank (cs.take (cs.length - word.length))
  match directionWord? word with
  | some d => if before.isEmpty then (cs, .asc) else (before, d)
  | none => (cs, .asc)

def key? (idName : String) (item : String) : Option SortKey :=
  match Text.trim Text.isBlank item.toList with
  | [] => none
  | cs =>
    let (name, d) := splitItem cs
    let name := String.ofList name
    some (if name = idName then "_id" else name, d)

def texts : List Value → Except Fault (List String)
  | [] => .ok []
  | .str s :: rest => (texts rest).map (s :: ·)
  | v :: _ => .error (.query (.orderEntryNotText v))

def items (order : Value) : Except Fault (List String) :=
  match order with
  | .str s => .ok (Text.cut ',' s)
  | v =>
    match v.items? with
    | some items => texts items
    | none => .error (.query (.orderUnreadable v))

def nonEmpty (keys : List SortKey) : Option (List SortKey) :=
  if keys.isEmpty then none else some keys

def build (h : Handle) (order : Value) : Except Fault (Option (List SortKey)) :=
  if order.truthy then (items order).map fun is => nonEmpty (is.filterMap (key? h.idName))
  else .ok none

def toValue (keys : List SortKey) : Value :=
  .array (keys.map fun k => .object [(k.1, .str k.2.name)])

end Order

end ModelStore
