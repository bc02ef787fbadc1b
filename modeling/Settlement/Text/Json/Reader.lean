import Settlement.Text.Json.Token

namespace Settlement

namespace Json

/-- A container that waits for its next value. What it holds so far stands in reverse. The
containers that are not closed yet are kept in a list, the innermost first, so nesting is not
limited. -/
inductive Frame
  | array (items : List Json)
  | object (members : List (Written × Json)) (key : Written)

/-- What has to come next, within the containers `outer`. After the last token the reader has a
value only in the state `nothing`. -/
inductive Due
  | value (outer : List Frame)
  /-- The first item or the end of an array. -/
  | firstItem (outer : List Frame)
  /-- A comma or the end of an array. -/
  | moreItems (items : List Json) (outer : List Frame)
  /-- The first key or the end of an object. -/
  | firstKey (outer : List Frame)
  | key (members : List (Written × Json)) (outer : List Frame)
  | colon (members : List (Written × Json)) (key : Written) (outer : List Frame)
  /-- A comma or the end of an object. -/
  | moreMembers (members : List (Written × Json)) (outer : List Frame)
  /-- Nothing: the value is complete. -/
  | nothing (json : Json)

/-- Puts a complete value into the innermost container, or ends the text if there is none. -/
def fill (json : Json) : List Frame → Due
  | [] => .nothing json
  | .array items :: outer => .moreItems (json :: items) outer
  | .object members key :: outer => .moreMembers ((key, json) :: members) outer

/-- Takes a token with which a value begins. A container is opened by it, any other value is
complete at once. -/
def begin? (outer : List Frame) : Token → Option Due
  | .null => some (fill .null outer)
  | .bool b => some (fill (.bool b) outer)
  | .number n => some (fill (.number n) outer)
  | .string s => some (fill (.string s) outer)
  | .openArray => some (.firstItem outer)
  | .openObject => some (.firstKey outer)
  | _ => none

/-- Takes a token. One that cannot come here makes the whole text unreadable. -/
def step? : Due → Token → Option Due
  | .value outer, t => begin? outer t
  | .firstItem outer, .closeArray => some (fill (.array []) outer)
  | .firstItem outer, t => begin? (.array [] :: outer) t
  | .moreItems items outer, .comma => some (.value (.array items :: outer))
  | .moreItems items outer, .closeArray => some (fill (.array items.reverse) outer)
  | .firstKey outer, .closeObject => some (fill (.object []) outer)
  | .firstKey outer, .string key => some (.colon [] key outer)
  | .key members outer, .string key => some (.colon members key outer)
  | .colon members key outer, .colon => some (.value (.object members key :: outer))
  | .moreMembers members outer, .comma => some (.key members outer)
  | .moreMembers members outer, .closeObject => some (fill (.object members.reverse) outer)
  | _, _ => none

/-- Reads a value from all of the tokens. Neither may a container be open at the end nor a token be
left over. -/
def ofTokens? (tokens : List Token) : Option Json := do
  match ← tokens.foldlM step? (.value []) with
  | .nothing json => some json
  | _ => none

/-- Reads a text that consists of a value, with blanks around it. -/
def ofText? (text : String) : Option Json := do ofTokens? (← Token.scan? text.toList)

end Json

end Settlement
