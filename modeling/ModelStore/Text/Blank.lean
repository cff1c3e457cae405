/-! Blank characters and the trimming of text. `isWhiteSpace` is the Unicode property
White_Space; `isBlank` adds the four information separators U+001C to U+001F. -/

namespace ModelStore.Text

def isWhiteSpace (c : Char) : Bool :=
  let n := c.toNat
  (9 ≤ n && n ≤ 13) || n == 0x20 || n == 0x85 || n == 0xA0 || n == 0x1680 ||
    (0x2000 ≤ n && n ≤ 0x200A) || n == 0x2028 || n == 0x2029 || n == 0x202F ||
    n == 0x205F || n == 0x3000

def isBlank (c : Char) : Bool :=
  isWhiteSpace c || (0x1C ≤ c.toNat && c.toNat ≤ 0x1F)

def trimEnd (p : Char → Bool) (cs : List Char) : List Char :=
  (cs.reverse.dropWhile p).reverse

def trim (p : Char → Bool) (cs : List Char) : List Char :=
  trimEnd p (cs.dropWhile p)

def strip (s : String) : String :=
  String.ofList (trim isBlank s.toList)

@[simp] theorem trim_nil (p : Char → Bool) : trim p [] = [] := rfl

end ModelStore.Text
