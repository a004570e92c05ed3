import PlcTags.Json.Basic

/-!
# Requests and responses

A request names what it is about by its target: a path, and a query after a question
mark.  A response has a status, and may have a content with its type.
-/

namespace PlcTags.Gateway

structure Request where
  method : String := "GET"
  target : String
  /-- Names and values; the case of a name does not count. -/
  headers : List (String × String) := []
  body : ByteArray := .empty

namespace Request

/-- The target without what follows a number sign. -/
def resource (request : Request) : List Char :=
  request.target.toList.takeWhile (· ≠ '#')

/-- The parts of the path, which begins with a slash. -/
def path (request : Request) : String :=
  String.ofList (request.resource.takeWhile (· ≠ '?'))

def query (request : Request) : String :=
  String.ofList ((request.resource.dropWhile (· ≠ '?')).drop 1)

/-- The value of a header. -/
def header? (request : Request) (name : String) : Option String :=
  (request.headers.find? (·.1.toLower == name)).map (·.2)

/-- The value of a header, if it can be shown. -/
def shownHeader? (request : Request) (name : String) : Option String :=
  (request.header? name).filter fun value =>
    value.toList.all fun c => c == '\t' || (' ' ≤ c && c ≤ '~')

end Request

/-- What a response holds. -/
inductive Content where
  | json (value : Json)
  /-- A text with its type. -/
  | text (type text : String)
  deriving Repr

def Content.type : Content → String
  | json _ => "application/json"
  | text type _ => type

structure Response where
  status : Nat
  content : Option Content := none
  /-- The name under which a client should save the content. -/
  fileName : Option String := none
  /-- How many tags an export left out. -/
  skippedTags : Option Nat := none
  deriving Repr

namespace Response

def ofJson (value : Json) : Response :=
  { status := 200, content := some (.json value) }

/-- A request that could not be understood, with an explanation for people. -/
def misunderstood (status : Nat) (explanation : String) : Response :=
  { status, content := some (.text "text/plain; charset=utf-8" explanation) }

/-- The value of the header that says what the content is. -/
def contentType? (response : Response) : Option String :=
  response.content.map Content.type

/-- The response without the text of its content. -/
def headOnly (response : Response) : Response :=
  { response with content := response.content.map fun content => .text content.type "" }

/-- The value of the header that says how to save the content. -/
def disposition? (response : Response) : Option String :=
  response.fileName.map fun name => "attachment; filename=\"" ++ name ++ "\""

/-- An error as JSON, with more about it. -/
def error (status : Nat) (code message : String) (more : List (String × Json)) : Response :=
  { status
    content := some (.json (.object [("error",
      .object ([("code", .string code), ("message", .string message)] ++ more))])) }

end Response

end PlcTags.Gateway
