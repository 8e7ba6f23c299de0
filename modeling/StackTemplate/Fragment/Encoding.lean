import StackTemplate.Fragment
import StackTemplate.Json.Value

/-! Two JSON forms of a fragment: the intrinsic functions that a stack template
holds in its place, and the tree with the name of every node. -/
namespace StackTemplate.Fragment

open Json (Value)

/-- An object with a single entry. -/
def tagged (key : String) (value : Value) : Value :=
  .object [(key.toList, value)]

mutual

/-- The intrinsic function that computes a fragment; literal text is a string. -/
def encode : Fragment → Value
  | literal text => .string text
  | reference name => tagged "Ref" (.string name)
  | attributeOf name path => tagged "Fn::GetAtt" (.array [.string name, .string path])
  | lookup map keys => tagged "Fn::FindInMap" (.array (.string map :: encodeAll keys))
  | join parts => tagged "Fn::Join" (.array [.string [], .array (encodeAll parts)])

/-- The intrinsic functions of several fragments. -/
def encodeAll : List Fragment → List Value
  | [] => []
  | part :: parts => encode part :: encodeAll parts

end

mutual

/-- The tree of a fragment, each node under its name. -/
def outline : Fragment → Value
  | literal text => tagged "Literal" (.string text)
  | reference name => tagged "Expr" (tagged "Reference" (.string name))
  | attributeOf name path =>
    tagged "Expr" (tagged "Attribute"
      (.object [("name".toList, .string name), ("path".toList, .string path)]))
  | lookup map keys =>
    tagged "Expr" (tagged "MapLookup"
      (.object [("map".toList, .string map), ("keys".toList, .array (outlineAll keys))]))
  | join parts =>
    tagged "Expr" (tagged "Join" (.object [("parts".toList, .array (outlineAll parts))]))

/-- The trees of several fragments. -/
def outlineAll : List Fragment → List Value
  | [] => []
  | part :: parts => outline part :: outlineAll parts

end

theorem encodeAll_eq_map (parts : List Fragment) : encodeAll parts = parts.map encode := by
  induction parts with
  | nil => rfl
  | cons part parts ih => simp [encodeAll, ih]

end StackTemplate.Fragment
