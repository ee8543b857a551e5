import PathFilter.Json.Token

/-!
# JSON values

The tokens of a JSON text are read one after the other, with a stack of the arrays and objects that
are still open. Objects keep their members in order, and a name may occur twice.

## Main definitions

* `JsonValue`: the values
* `JsonReader`: the state between two tokens
* `JsonReader.step?`: the state after one more token
* `JsonValue.parse? text`: the value of a text
-/

namespace PathFilter

/-- A JSON value. -/
inductive JsonValue where
  | null
  | bool (b : Bool)
  /-- A number without sign, fraction and exponent. -/
  | natural (n : Nat)
  /-- Any other number. -/
  | otherNumber
  /-- A string, if its literal stands for a text. -/
  | string (text : Option Text)
  | array (items : List JsonValue)
  | object (members : List (Option Text × JsonValue))

/-- An array or an object that is still open, its latest part first. -/
inductive JsonFrame where
  | array (items : List JsonValue)
  /-- An object, and the name whose value is read. -/
  | object (members : List (Option Text × JsonValue)) (name : Option Text)

/-- What may come next. -/
inductive JsonNext where
  | value
  | valueOrClose
  | name
  | nameOrClose
  | colon
  | separator
  | nothing
deriving DecidableEq, Repr

/-- The state between two tokens. -/
structure JsonReader where
  /-- The open arrays and objects, innermost first. -/
  stack : List JsonFrame
  /-- What may come next. -/
  next : JsonNext
  /-- The value, once it is complete. -/
  result : Option JsonValue

namespace JsonReader

/-- The state before the first token. -/
def start : JsonReader := ⟨[], .value, none⟩

/-- The state after a value is complete. -/
def complete (v : JsonValue) : List JsonFrame → JsonReader
  | [] => ⟨[], .nothing, some v⟩
  | .array items :: stack => ⟨.array (v :: items) :: stack, .separator, none⟩
  | .object members name :: stack =>
    ⟨.object ((name, v) :: members) name :: stack, .separator, none⟩

/-- The value of a token that is a value by itself. -/
def scalar? : JsonToken → Option JsonValue
  | .null => some .null
  | .bool b => some (.bool b)
  | .natural n => some (.natural n)
  | .otherNumber => some .otherNumber
  | .string s => some (.string s)
  | _ => none

/-- The state after the first token of a value. -/
def beginValue? (stack : List JsonFrame) : JsonToken → Option JsonReader
  | .openArray => some ⟨.array [] :: stack, .valueOrClose, none⟩
  | .openObject => some ⟨.object [] none :: stack, .nameOrClose, none⟩
  | token => (scalar? token).map (complete · stack)

/-- The state after a closing bracket. -/
def close? : List JsonFrame → JsonToken → Option JsonReader
  | .array items :: stack, .closeArray => some (complete (.array items.reverse) stack)
  | .object members _ :: stack, .closeObject => some (complete (.object members.reverse) stack)
  | _, _ => none

/-- The state after the name of a member. -/
def beginMember? : List JsonFrame → JsonToken → Option JsonReader
  | .object members _ :: stack, .string name => some ⟨.object members name :: stack, .colon, none⟩
  | _, _ => none

/-- The state after a comma. -/
def continue? : List JsonFrame → Option JsonReader
  | .array items :: stack => some ⟨.array items :: stack, .value, none⟩
  | .object members name :: stack => some ⟨.object members name :: stack, .name, none⟩
  | [] => none

/-- **The state after one more token**, or `none` if the token cannot stand there. -/
def step? (r : JsonReader) (token : JsonToken) : Option JsonReader :=
  match r.next with
  | .value => beginValue? r.stack token
  | .valueOrClose => if token = .closeArray then close? r.stack token else beginValue? r.stack token
  | .name => beginMember? r.stack token
  | .nameOrClose =>
    if token = .closeObject then close? r.stack token else beginMember? r.stack token
  | .colon => if token = .colon then some ⟨r.stack, .value, none⟩ else none
  | .separator => if token = .comma then continue? r.stack else close? r.stack token
  | .nothing => none

end JsonReader

namespace JsonValue

/-- **The value of a JSON text**, or `none` if it is not well formed. -/
def parse? (text : Text) : Option JsonValue := do
  let tokens ← JsonToken.scan? text
  let reader ← tokens.foldlM JsonReader.step? JsonReader.start
  reader.result

/-- The values of a record, in the order of its field names: an array of that many items, or an
object that has every field once. Members of other names are passed over. -/
def fields? (names : List Text) : JsonValue → Option (List JsonValue)
  | array items => if items.length = names.length then some items else none
  | object members => do
    let named ← members.mapM fun (name, v) => name.map (·, v)
    names.mapM fun n =>
      match named.filter (·.1 == n) with
      | [(_, v)] => some v
      | _ => none
  | _ => none

/-- The value of an enumeration: its name, or an object whose only member has that name and no
value. -/
def choice? : JsonValue → Option Text
  | string name => name
  | object [(name, null)] => name
  | _ => none

end JsonValue

end PathFilter
