import ModelStore.Json.Writer
import ModelStore.Value.Ranking

/-! The order in which a store compares any two values. Null comes first, then truth values,
numbers, texts and arrays; everything else comes last and is compared by its JSON text with
the keys of objects in rising order. Only a number that is undefined has no place. -/

namespace ModelStore

namespace Value

mutual

def keySorted : Value → Value
  | array items => array (keySortedItems items)
  | object fields => object ((keySortedFields fields).mergeSort fun e f => !decide (f.1 < e.1))
  | v => v

def keySortedItems : List Value → List Value
  | [] => []
  | v :: rest => keySorted v :: keySortedItems rest

def keySortedFields : List (String × Value) → List (String × Value)
  | [] => []
  | (key, v) :: rest => (key, keySorted v) :: keySortedFields rest

end

def sortRank : Value → Nat
  | null => 0
  | bool _ => 1
  | int _ => 2
  | float _ => 2
  | str _ => 3
  | array _ => 4
  | _ => 5

end Value

def Quantity.collate? (x y : Quantity) : Option Ordering :=
  if x.same y then some .eq
  else if x.before y then some .lt
  else if y.before x then some .gt
  else none

def Scalar.collate? (a b : Scalar) : Option Ordering :=
  match a, b with
  | .null, _ => some .eq
  | .bool a, .bool b => some (compare a b)
  | .str s, .str t => some (compare s t)
  | a, b =>
    match a.quantity?, b.quantity? with
    | some x, some y => x.collate? y
    | _, _ => some (compare (Json.scalarText a) (Json.scalarText b))

namespace Value

mutual

def collate? : Value → Value → Option Ordering
  | array xs, w =>
    match w with
    | array ys => collateItems? xs ys
    | w => some (compare 4 w.sortRank)
  | v, w =>
    if v.sortRank = w.sortRank then
      match v, w with
      | scalar a, scalar b => a.collate? b
      | v, w => some (compare (Json.text v.keySorted) (Json.text w.keySorted))
    else some (compare v.sortRank w.sortRank)

/-- The first elements that differ decide; a list comes after its beginnings. -/
def collateItems? : List Value → List Value → Option Ordering
  | [], [] => some .eq
  | [], _ :: _ => some .lt
  | _ :: _, [] => some .gt
  | x :: xs, y :: ys =>
    match collate? x y with
    | some .eq => collateItems? xs ys
    | o => o

end

@[simp] theorem collate?_str_null (s : String) : (str s).collate? null = some .gt := rfl

end Value

end ModelStore
