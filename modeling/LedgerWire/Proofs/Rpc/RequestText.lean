import LedgerWire.Proofs.Json.Number
import LedgerWire.Rpc.Request

set_option autoImplicit false

/-! # The two renderings of a request agree

The text of an envelope is put together from its parts and does not go through a JSON value. It is
the text of the value all the same, since neither the keys nor the names of the methods have
characters that are escaped. -/

namespace LedgerWire

namespace Json

theorem itemChars_eq_intercalate (items : List Json) :
    itemChars items = [','].intercalate (items.map chars) := by
  induction items with
  | nil => rfl
  | cons v vs ih =>
    cases vs with
    | nil => simp [itemChars]
    | cons w ws =>
      rw [itemChars, ih]
      simp

theorem toList_text (v : Json) : v.text.toList = v.chars :=
  String.toList_ofList

/-- The text of an array is put together from the texts of its items. -/
theorem text_array (items : List Json) :
    (array items).text = "[" ++ ",".intercalate (items.map text) ++ "]" := by
  have hitems : items.map (String.toList ∘ text) = items.map chars :=
    List.map_congr_left fun v _ => v.toList_text
  apply String.toList_injective
  simp [toList_text, chars, itemChars_eq_intercalate, hitems]

end Json

namespace Rpc

/-- No method name has a character that is escaped. -/
theorem Method.stringChars_name (m : Method) :
    Json.stringChars m.name = '"' :: m.name.toList ++ ['"'] := by
  cases m <;> decide

theorem stringChars_protocolVersion :
    Json.stringChars protocolVersion = '"' :: protocolVersion.toList ++ ['"'] := by
  decide

theorem Envelope.toText_eq_text (e : Envelope) : e.toText = e.toJson.text := by
  have hmethod : Json.stringChars "method" = "\"method\"".toList := by decide
  have hversion : Json.stringChars "jsonrpc" = "\"jsonrpc\"".toList := by decide
  have hid : Json.stringChars "id" = "\"id\"".toList := by decide
  have hkey : Json.stringChars "params" = "\"params\"".toList := by decide
  rw [toText, ← Json.text_array]
  apply String.toList_injective
  rw [Json.toList_text]
  -- both sides are the same characters, apart from how the digits of the id are spelled
  simp [toJson, memberText, Json.toList_text, Json.chars, Json.memberChars, Json.natural,
    Json.Number.chars, hmethod, hversion, hid, hkey, e.method.stringChars_name,
    stringChars_protocolVersion, Decimal.toDigits_eq_naturalChars]

/-- The text of a request is that of its value. -/
theorem Request.toText_eq_text (r : Request) : r.toText = r.toJson.text :=
  r.single.toText_eq_text

end Rpc

end LedgerWire
