import StackTemplate.Fragment.Encoding
import StackTemplate.Proofs.FragmentCollapse

/-! The encoding as intrinsic functions can be read back. The key of a call tells which
expression it is, and the first argument of a lookup is its mapping, whatever the keys
after it look like; so a decoder recovers every fragment, and accepts nothing else. -/
namespace StackTemplate.Fragment

open Json (Value)

mutual

/-- The fragment that a value encodes. A string is text wherever it stands. -/
def decode : Value → Option Fragment
  | .string text => some (literal text)
  | .object [(function, argument)] => decodeCall function argument
  | _ => none

/-- The expression that a function with its argument encodes. -/
def decodeCall (function : Text) : Value → Option Fragment
  | .string name => if function = "Ref".toList then some (reference name) else none
  | .array (.string first :: arguments) =>
    if function = "Fn::GetAtt".toList then
      match arguments with
      | [.string path] => some (attributeOf first path)
      | _ => none
    else if function = "Fn::FindInMap".toList then (decodeAll arguments).map (lookup first)
    else if function = "Fn::Join".toList ∧ first = [] then
      match arguments with
      | [.array parts] => (decodeAll parts).map join
      | _ => none
    else none
  | _ => none

/-- The fragments that several values encode, if each of them encodes one. -/
def decodeAll : List Value → Option (List Fragment)
  | [] => some []
  | value :: values => (decode value).bind fun part => (decodeAll values).map (part :: ·)

end

private theorem decodeAll_encodeAll {parts : List Fragment}
    (each : ∀ part ∈ parts, decode part.encode = some part) :
    decodeAll (encodeAll parts) = some parts := by
  induction parts with
  | nil => rfl
  | cons part parts ih =>
    obtain ⟨here, later⟩ := List.forall_mem_cons.mp each
    rw [encodeAll, decodeAll, here, ih later]
    rfl

/-- Decoding recovers what was encoded. -/
theorem decode_encode (fragment : Fragment) : decode fragment.encode = some fragment := by
  induction fragment using members_induction with
  | literal text => rfl
  | reference name => rfl
  | attributeOf name path => rfl
  | lookup map keys each =>
    have decoded := decodeAll_encodeAll each
    simp [encode, tagged, decode, decodeCall, decoded]
  | join parts each =>
    have decoded := decodeAll_encodeAll each
    simp [encode, tagged, decode, decodeCall, decoded]

/-- How a value can be decoded: text from a string, and one expression for each function. -/
inductive Decodes : Value → Fragment → Prop where
  | literal (text : Text) : Decodes (.string text) (.literal text)
  | reference (name : Text) : Decodes (tagged "Ref" (.string name)) (.reference name)
  | attributeOf (name path : Text) :
      Decodes (tagged "Fn::GetAtt" (.array [.string name, .string path])) (.attributeOf name path)
  | lookup (map : Text) {arguments : List Value} {keys : List Fragment}
      (inside : decodeAll arguments = some keys) :
      Decodes (tagged "Fn::FindInMap" (.array (.string map :: arguments))) (.lookup map keys)
  | join {arguments : List Value} {parts : List Fragment}
      (inside : decodeAll arguments = some parts) :
      Decodes (tagged "Fn::Join" (.array [.string [], .array arguments])) (.join parts)

private theorem decodes_of_decodeCall {function : Text} {argument : Value} {fragment : Fragment}
    (decoded : decodeCall function argument = some fragment) :
    Decodes (.object [(function, argument)]) fragment := by
  unfold decodeCall at decoded
  split at decoded
  · next name =>
    split at decoded <;> cases decoded
    next named => exact named ▸ .reference name
  · next first arguments =>
    split at decoded
    · next named =>
      split at decoded <;> cases decoded
      next path => exact named ▸ .attributeOf first path
    · split at decoded
      · next named =>
        obtain ⟨keys, inside, rfl⟩ := Option.map_eq_some_iff.mp decoded
        exact named ▸ .lookup first inside
      · split at decoded
        · next named =>
          obtain ⟨named, rfl⟩ := named
          split at decoded
          · next inner =>
            obtain ⟨parts, inside, rfl⟩ := Option.map_eq_some_iff.mp decoded
            exact named ▸ .join inside
          · cases decoded
        · cases decoded
  · cases decoded

private theorem decodes_of_decode {value : Value} {fragment : Fragment}
    (decoded : decode value = some fragment) : Decodes value fragment := by
  unfold decode at decoded
  split at decoded
  · next text =>
    cases decoded
    exact .literal text
  · exact decodes_of_decodeCall decoded
  · cases decoded

private theorem encodeAll_of_decodeAll {values : List Value} {parts : List Fragment}
    (each : ∀ part ∈ parts, ∀ value, decode value = some part → part.encode = value)
    (decoded : decodeAll values = some parts) : encodeAll parts = values := by
  induction values generalizing parts with
  | nil =>
    cases decoded
    rfl
  | cons value values ih =>
    obtain ⟨part, here, later⟩ := Option.bind_eq_some_iff.mp decoded
    obtain ⟨more, inside, rfl⟩ := Option.map_eq_some_iff.mp later
    obtain ⟨first, others⟩ := List.forall_mem_cons.mp each
    rw [encodeAll, first value here, ih others inside]

/-- Only encodings are decoded. -/
theorem encode_of_decode {value : Value} {fragment : Fragment} (decoded : decode value = some fragment) :
    fragment.encode = value := by
  induction fragment using members_induction generalizing value with
  | literal text =>
    cases decodes_of_decode decoded
    rfl
  | reference name =>
    cases decodes_of_decode decoded
    rfl
  | attributeOf name path =>
    cases decodes_of_decode decoded
    rfl
  | lookup map keys each =>
    cases decodes_of_decode decoded with
    | lookup map inside =>
      rw [encode, encodeAll_of_decodeAll (fun key member value => each key member) inside]
  | join parts each =>
    cases decodes_of_decode decoded with
    | join inside =>
      rw [encode, encodeAll_of_decodeAll (fun part member value => each part member) inside]

/-- The encoding loses nothing: the decoder gives back a fragment exactly for its
encoding, so no two fragments are encoded alike. -/
theorem encode_lossless :
    (∀ value fragment, decode value = some fragment ↔ encode fragment = value) ∧
      Function.Injective encode := by
  refine ⟨fun value fragment => ⟨encode_of_decode, ?_⟩, fun first second same => ?_⟩
  · rintro rfl
    exact decode_encode fragment
  · have decoded := decode_encode first
    rw [same, decode_encode second] at decoded
    exact (Option.some.inj decoded).symm

end StackTemplate.Fragment
