/-! Small letters for the capital ones of ASCII. All other characters stay as they are. -/

namespace ModelStore.Text

def lower (c : Char) : Char := if 'A' ≤ c ∧ c ≤ 'Z' then Char.ofNat (c.toNat + 32) else c

end ModelStore.Text
