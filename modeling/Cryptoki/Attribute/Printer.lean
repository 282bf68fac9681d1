import Cryptoki.Attribute.Basic
import Cryptoki.Mechanism.Table
import Cryptoki.Text.Layout
import Cryptoki.Text.Quoted

/-! Attributes as text, with byte strings cut to a preview. -/
namespace Cryptoki

mutual

def AttributeValue.text : AttributeValue → String
  | .bool b => Layout.bool b
  | .ulong w => hexOfWord w
  | .bytes bs => preview bs
  | .date d => d.text
  | .mechanisms ids => Layout.list (ids.map fun id => quoted (mechanismName id))
  | .attributes entries => Layout.list (Attribute.textList entries)

def AttributeState.text : AttributeState → String
  | .absent => "<absent>"
  | .unavailable => "<unavailable>"
  | .null => "<null>"
  | .value v => v.text

def Attribute.text : Attribute → String
  | ⟨t, s⟩ => t.name ++ ": " ++ s.text

def Attribute.textList : List Attribute → List String
  | [] => []
  | a :: as => a.text :: Attribute.textList as

end

theorem Attribute.textList_eq_map (as : List Attribute) :
    Attribute.textList as = as.map Attribute.text := by
  induction as with
  | nil => simp [Attribute.textList]
  | cons a as ih => simp [Attribute.textList, ih]

end Cryptoki
