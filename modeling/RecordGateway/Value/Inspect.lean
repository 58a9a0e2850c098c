import RecordGateway.Decimal.Layout
import RecordGateway.Text.Quoted
import RecordGateway.Value

/-! Values in words, with their types, for messages that have to show whatever they are given. -/

namespace RecordGateway.Value

/-- Numbers from `1e-4` to below `1e16` are written in full, and a fraction is always shown. -/
def inspectLayout : Decimal.Layout where
  least := some (-4)
  greatest := some 15
  keepFraction := true
  plusSign := false
  tie := .upper
  infinity := "inf"
  nan := "NaN"

mutual

def inspect : Value → String
  | .nil => "Nil"
  | .bool value => if value then "Bool(true)" else "Bool(false)"
  | .int value => s!"Int({value.toInt})"
  | .float bits => "Float(" ++ inspectLayout.write bits ++ ")"
  | .string text => "String(" ++ Quoted.text text ++ ")"
  | .blob bytes => "Blob([" ++ ", ".intercalate (bytes.map fun byte => toString byte.toNat) ++ "])"
  | .geoJson text => "GeoJson(" ++ Quoted.text text ++ ")"
  | .packed particle bytes =>
    "Packed \x7b particle: " ++ particle.name ++ ", bytes: " ++ Quoted.bytes bytes ++ " \x7d"
  | .list items => "List([" ++ inspectItems items ++ "])"

/-- The items of a list in words. -/
def inspectItems : List Value → String
  | [] => ""
  | [item] => inspect item
  | item :: rest => inspect item ++ ", " ++ inspectItems rest

end

end RecordGateway.Value
