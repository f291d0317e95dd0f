import JuanSfu.Utils.SUtil

/-!
# `Json::Value` as the handlers read it

Only the type of a value and its string content matter to the program; of a
number it never reads more than that it is one.
-/

namespace JuanSfu

inductive Json where
  | null
  | boolean (b : Bool)
  | number
  | string (s : Str)
  | array (elems : List Json)
  | object (members : List (Str × Json))

/-- `json[key]` on a `const Json::Value`: absent members are null, and a value
that is neither null nor an object throws. -/
def Json.index (json : Json) (key : Str) : Result Json :=
  match json with
  | .null => .ok .null
  | .object members => .ok ((members.lookup key).getD .null)
  | _ => .error .jsonThrew

/-- `GET_JSON_STRING(json, item, last)`. -/
def getJsonString (json : Json) (item last : Str) : Result Str :=
  match json with
  | .null => .ok last
  | json => do
      match ← json.index item with
      | .string s => .ok s
      | _ => .ok last

/-- An array or an object: what the strict parser lets be the top of a document. -/
def Json.isContainer : Json → Bool
  | .array _ | .object _ => true
  | _ => false

/-- `SUtil::parseJson`: a byte order mark is passed over, and the empty text is
no document. `reader` is `Json::Reader::parse` in strict mode. -/
def parseJson (reader : Str → Option Json) (text : Str) : Option Json :=
  let temp := if text.take 3 = [0xEF, 0xBB, 0xBF] then text.drop 3 else text
  if temp.length ≤ 0 then none else reader temp

/-- The members of an object can be looked up. -/
theorem exists_getJsonString (members : List (Str × Json)) (item last : Str) :
    ∃ s, getJsonString (.object members) item last = .ok s := by
  have heq : getJsonString (.object members) item last =
      match (members.lookup item).getD .null with
      | .string s => .ok s
      | _ => .ok last := rfl
  rw [heq]
  split
  · exact ⟨_, rfl⟩
  · exact ⟨_, rfl⟩

/-- Those of an array cannot. -/
theorem getJsonString_array (elems : List Json) (item last : Str) :
    getJsonString (.array elems) item last = .error .jsonThrew := rfl

/-- The three strings by which a request names its sender and its target. -/
def requestOf (cmd roomId uid : Str) (rest : List (Str × Json)) : Json :=
  .object ([(str "cmd", .string cmd), (str "roomId", .string roomId),
    (str "uid", .string uid)] ++ rest)

end JuanSfu
