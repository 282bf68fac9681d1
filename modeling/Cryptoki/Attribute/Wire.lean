import Cryptoki.Attribute.Type
import Cryptoki.Text.Layout
import Cryptoki.Text.Quoted

/-! The native form of attributes: a code with raw bytes or with a template of its own. -/
namespace Cryptoki

mutual

inductive WireValue where
  | bytes (bs : Bytes)
  | nested (entries : List WireAttribute)

structure WireAttribute where
  type : Word
  value : WireValue

end

mutual

def WireValue.decEq (a b : WireValue) : Decidable (a = b) :=
  match a, b with
  | .bytes x, .bytes y => decidable_of_iff (x = y) (by simp)
  | .nested x, .nested y =>
    match WireAttribute.decEqList x y with
    | isTrue h => isTrue (by rw [h])
    | isFalse h => isFalse (by simp [h])
  | .bytes _, .nested _ | .nested _, .bytes _ => isFalse (by simp)

def WireAttribute.decEq (a b : WireAttribute) : Decidable (a = b) :=
  match a, b with
  | ⟨t, v⟩, ⟨u, w⟩ =>
    if h : t = u then
      match WireValue.decEq v w with
      | isTrue k => isTrue (by rw [h, k])
      | isFalse k => isFalse (by simp [k])
    else isFalse (by simp [h])

def WireAttribute.decEqList (a b : List WireAttribute) : Decidable (a = b) :=
  match a, b with
  | [], [] => isTrue rfl
  | x :: xs, y :: ys =>
    match WireAttribute.decEq x y with
    | isTrue h =>
      match WireAttribute.decEqList xs ys with
      | isTrue k => isTrue (by rw [h, k])
      | isFalse k => isFalse (by simp [k])
    | isFalse h => isFalse (by simp [h])
  | [], _ :: _ | _ :: _, [] => isFalse (by simp)

end

instance : DecidableEq WireValue := WireValue.decEq
instance : DecidableEq WireAttribute := WireAttribute.decEq

/-- The length that the native entry carries; an entry of a nested template takes 24 bytes. -/
def WireValue.length : WireValue → Nat
  | .bytes bs => bs.length
  | .nested entries => 24 * entries.length

def WireValue.isEmpty (v : WireValue) : Bool := v.length = 0

mutual

def WireValue.debug : WireValue → String
  | .bytes bs => Layout.tagged "Bytes" (preview bs)
  | .nested entries => Layout.tagged "Nested" (Layout.list (WireAttribute.debugList entries))

def WireAttribute.debug : WireAttribute → String
  | ⟨t, v⟩ => Layout.record "WireAttribute" [("type_", quoted (attributeName t)), ("value", v.debug)]

def WireAttribute.debugList : List WireAttribute → List String
  | [] => []
  | e :: es => e.debug :: WireAttribute.debugList es

end

theorem WireAttribute.debugList_eq_map (es : List WireAttribute) :
    WireAttribute.debugList es = es.map WireAttribute.debug := by
  induction es with
  | nil => simp [WireAttribute.debugList]
  | cons e es ih => simp [WireAttribute.debugList, ih]

end Cryptoki
