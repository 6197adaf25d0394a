import PressRegister.Consult
import PressRegister.Json.Printer
import PressRegister.Json.Reader
import PressRegister.Remote.Address
import PressRegister.Settings
import PressRegister.Writer

/-!
# A store behind an address

Questions and mutations are posted to a store, which answers with a document: an
object whose member `data` holds what was asked for and whose member `errors`
lists what went wrong. How a request is exchanged for a response is a parameter.

## Main definitions

* `Request`, `Response`, `Exchange`: what is sent, what comes back, and how.
* `Remote.request`: the request that starts at an endpoint.
* `Reply.read`: what a response says.
* `Remote.query`, `Remote.mutate`: questions and mutations.
-/

namespace PressRegister

/-- A posted request. -/
structure Request where
  url : String
  /-- The access token in the head of the request. -/
  token : Option String
  contentType : String
  body : String
  deriving DecidableEq, Repr

/-- The method of every request. -/
def Request.method : String := "POST"

/-- The response to a request. -/
structure Response where
  status : Nat
  body : String
  deriving DecidableEq, Repr

/-- How a request is exchanged for a response; a failed exchange has a reason. -/
abbrev Exchange := Request → Except String Response

/-! ### Replies -/

/-- What a response says: data, or why the store refused the request. -/
inductive Reply where
  | data (value : Json)
  | rejected (message : String)
  deriving Repr

namespace Reply

open Json (Document)

/-- The members of an object with given names; names that stand twice and names that
cannot be read fail, and all other members are passed over. -/
def members? (names : List String) (members : List (Option String × Document)) :
    Option (List (Option Document)) :=
  if members.any (·.1.isNone) then none
  else names.mapM fun name =>
    match members.filter (·.1 == some name) with
    | [] => some none
    | [m] => some (some m.2)
    | _ => none

/-- The parts of a record, told by name or in a fixed order. -/
def parts? (names : List String) : Document → Option (List (Option Document))
  | .object members => members? names members
  | .array items =>
    if items.length ≤ names.length then
      some ((List.range names.length).map fun i => items[i]?)
    else none
  | _ => none

/-- The message of an error. -/
def message? (d : Document) : Option String :=
  match parts? ["message"] d with
  | some [some (.string s)] => s
  | _ => none

/-- The messages of a list of errors; a list that is not there has none. -/
def messages? : Option Document → Option (List String)
  | none => some []
  | some (.array items) => items.mapM message?
  | _ => none

/-- The data of a response; data that are not there are `null`. -/
def data? : Option Document → Option Json
  | none => some .null
  | some d => d.value (Json.maxDepth - 1)

/-- What a successful response says. -/
def ofDocument? (d : Document) : Option Reply := do
  match ← parts? ["data", "errors"] d with
  | [content, errors] =>
    let value ← data? content
    let messages ← messages? errors
    return if messages.isEmpty then .data value
    else .rejected ("; ".intercalate messages)
  | _ => none

/-- A text without a byte order mark at its start. -/
def withoutMark (s : String) : String :=
  match s.toList with
  | '\uFEFF' :: rest => String.ofList rest
  | _ => s

/-- What a response says. -/
def read (r : Response) : Except Error Reply :=
  if r.status < 200 || 300 ≤ r.status then
    .ok (.rejected ("status " ++ Number.natText r.status ++ ": " ++ withoutMark r.body))
  else match (Document.parse? r.body).bind ofDocument? with
    | some reply => .ok reply
    | none => .error (.store "network error: error decoding response body")

end Reply

/-! ### Questions and mutations -/

/-- Where a store is, and the token that gives access to it. -/
structure Remote where
  endpoint : String
  accessToken : Option String
  deriving DecidableEq, Repr

namespace Remote

/-- The store that settings name. -/
def ofSettings (s : Settings) : Remote :=
  ⟨s.endpoint, s.accessToken⟩

/-- Whether a character may stand in the head of a request. -/
def isHeadChar (c : Char) : Bool :=
  (0x20 ≤ c.toNat && c.toNat != 0x7f) || c == '\t'

/-- Why no request can be made from an address or token. -/
def requestFailure : String := "builder error"

/-- The request that posts a body to a path at the endpoint. -/
def request (r : Remote) (path contentType body : String) : Except String Request :=
  match Address.read? (r.endpoint ++ path) with
  | none => .error requestFailure
  | some address =>
    if r.accessToken.all fun token => token.toList.all isHeadChar then
      .ok ⟨address.text, r.accessToken, contentType, body⟩
    else .error requestFailure

/-- The posted form of a question. -/
def questionBody (q : Question) : String :=
  (Json.ofMembers [("query", .string q.text),
    ("variables", .object (q.bindings.entries.map fun v => (v.1, .string v.2)))]).compact

/-- The response to a posted body. -/
def post (r : Remote) (exchange : Exchange) (path contentType body : String) :
    Except String Response := do
  exchange (← r.request path contentType body)

/-- Asks a question. -/
def query (r : Remote) (exchange : Exchange) (q : Question) : Except Error Json := do
  let response ← (r.post exchange "/query" "application/json" (questionBody q)).mapError
    fun reason => .store ("network error: " ++ reason)
  match ← Reply.read response with
  | .data value => .ok value
  | .rejected message => .error (.store message)

/-- The identifiers of new nodes in the data of a reply. -/
def newUids (data : Json) : NewUids :=
  match data.member? "uids" with
  | some (.object members) =>
    Table.ofList (members.filterMap fun m => m.2.string?.map fun u => (m.1, u))
  | _ => .empty

/-- Writes a mutation within one transaction. -/
def mutate (r : Remote) (exchange : Exchange) (m : Mutation) : Except Error NewUids := do
  let response ← (r.post exchange "/mutate?commitNow=true" "application/rdf" m.body).mapError
    .storeConflict
  let reply ← (Reply.read response).mapError fun e => .storeConflict e.message
  match reply with
  | .data value => .ok (newUids value)
  | .rejected message => .error (.storeConflict message)

/-- What submissions and searches can know of a store behind an address. -/
def directory (r : Remote) (exchange : Exchange) (schema : Schema) : Directory where
  schema
  answer := r.query exchange

end Remote

end PressRegister
