import LibraryPlayer.Catalog.Query
import LibraryPlayer.Catalog.Reply

/-! # The catalog's client

The client knows the base address of the catalog and turns a query into one request, or into none
when the query has no words.  What comes back is judged by `Answer.tracks`: a status other than
success is reported as such, while a failed connection and a body that cannot be read are both a
failed request.
-/

namespace LibraryPlayer

/-- A client of the catalog at a base address. -/
structure Client where
  base : String
  deriving DecidableEq

namespace Client

/-- The client of a base address, which is freed of blanks around it and made to end in a
slash. -/
def ofBase (base : String) : Client :=
  let trimmed := (Text.trim base).toList
  ⟨.ofList (if trimmed.getLast? = some '/' then trimmed else trimmed ++ ['/'])⟩

/-- The address of a path under the base; slashes in front of the path are dropped. -/
def url (c : Client) (path : String) : String :=
  c.base ++ .ofList (path.toList.dropWhile (· = '/'))

/-- The address that a query is sent to; none when there is nothing to ask. -/
def queryUrl? (c : Client) (query : String) : Option String := (Query.path? query).map c.url

end Client

/-- What comes back for a request. -/
inductive Answer where
  /-- The connection failed. -/
  | disconnected
  /-- A status and a body. -/
  | reply (status : Nat) (body : Json.Bytes)

/-- Why a query has no tracks to show. -/
inductive QueryFailure where
  /-- The connection failed, or the body is no reply. -/
  | request
  /-- The catalog answered with another status than success. -/
  | status (code : Nat)
  deriving DecidableEq

/-- The text of a failure; that of a failed request goes on with its particulars. -/
def QueryFailure.message : QueryFailure → String
  | .request => "request failed"
  | .status code => "server returned status " ++ code.repr

namespace Answer

/-- Statuses from 200 to 299 mean success. -/
def isSuccess (status : Nat) : Bool := 200 ≤ status && status ≤ 299

/-- The answer with a status that a connection may or may not have delivered: what is not a status
between 100 and 999 is a failed connection. -/
def ofStatus (status : Option Nat) (body : Json.Bytes) : Answer :=
  match status with
  | some n => if 100 ≤ n ∧ n ≤ 999 then .reply n body else .disconnected
  | none => .disconnected

/-- The tracks of an answer, or why there are none. -/
def tracks : Answer → Except QueryFailure (List Track)
  | disconnected => .error .request
  | reply status body =>
    if isSuccess status then
      match Reply.ofJson body with
      | .ok tracks => .ok tracks
      | .error _ => .error .request
    else .error (.status status)

end Answer

/-- Runs a query against a catalog that gives one answer: the requests that are sent, and the
outcome.  A query without words asks nothing and has no tracks. -/
def Client.query (c : Client) (query : String) (answer : Answer) :
    List String × Except QueryFailure (List Track) :=
  match c.queryUrl? query with
  | none => ([], .ok [])
  | some url => ([url], answer.tracks)

end LibraryPlayer
