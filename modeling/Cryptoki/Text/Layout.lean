import Cryptoki.Text.Hex

/-! One-line renderings of composed values: records, tagged values, lists and optional values. -/
namespace Cryptoki.Layout

def list (items : List String) : String :=
  "[" ++ ", ".intercalate items ++ "]"

def tagged (tag : String) (content : String) : String :=
  tag ++ "(" ++ content ++ ")"

def option (content : Option String) : String :=
  match content with
  | none => "None"
  | some text => tagged "Some" text

def fields (items : List (String × String)) : String :=
  ", ".intercalate (items.map fun f => f.1 ++ ": " ++ f.2)

def record (name : String) (items : List (String × String)) : String :=
  name ++ " \x7b " ++ fields items ++ " \x7d"

/-- A record that does not show all it holds. -/
def openRecord (name : String) (items : List (String × String)) : String :=
  name ++ " \x7b " ++ fields items ++ ", .. \x7d"

def bool (b : Bool) : String := if b then "true" else "false"

def word (w : Word) : String := decimal w.toNat

end Cryptoki.Layout
