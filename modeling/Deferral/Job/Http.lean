/-
# Deferral.Job.Http -- a queue behind an HTTP endpoint

A submission is one POST request with a JSON body. A token in the settings, or a
name and a password in the address, authorizes it. An address that is none, a
token that a header cannot hold, and values that JSON cannot hold are refused
before anything is sent.
-/

import Deferral.Address
import Deferral.Job
import Deferral.Text.Base64
import Deferral.Value.Json

namespace Deferral

/-! ## Endpoints and requests -/

/-- Where jobs are submitted. -/
structure Endpoint where
  /-- The address. -/
  url : Value
  /-- A token that authorizes the requests. -/
  token : Value
  /-- The seconds to wait for an answer, as they were configured. -/
  timeout : Value

namespace Endpoint

/-- The endpoint of the given settings, which must have an address. -/
def ofSettings (url token timeout : Value) : Except Failure Endpoint :=
  if url.isPresent then .ok ⟨url, token, timeout⟩ else .error .emptyQueueUrl

end Endpoint

/-- A request that was sent. -/
structure Request where
  address : Address
  contentType : String
  /-- The header that authorizes the request. -/
  authorization : Option String
  timeout : Value
  body : Value

namespace Request

/-- The text of the address. -/
def url (request : Request) : String := String.ofList request.address.text

end Request

/-! ## Submissions -/

/-- The body of a submission. -/
def submissionBody (kind : JobKind) (payload startAfter : Value) : Value :=
  .map [(.text "name", .text kind.name), (.text "data", payload), (.text "startafter", startAfter)]

namespace Endpoint

/-- The header with the token of an endpoint. -/
def tokenHeader (endpoint : Endpoint) : Except Failure (Option String) :=
  if endpoint.token.isPresent then
    endpoint.token.plainString.map fun token => some s!"Bearer {token}"
  else .ok none

/-- The header with the name and the password of an address. -/
def credentialsHeader (address : Address) : Option String :=
  address.credentials?.map fun (name, password) =>
    let joined := name ++ ':' :: password
    s!"Basic {String.ofList (base64 (utf8Bytes joined))}"

/-- The address that the requests go to. -/
def address (endpoint : Endpoint) : Except Failure Address :=
  match endpoint.url with
  | .text url =>
    match Address.ofText url.toList with
    | .ok address => .ok address.target
    | .error _ => .error .malformedAddress
  | _ => .error .wrongType

/-- A header can hold a text, which then consists of ASCII characters. -/
def checkHeader (text : String) : Except Failure Unit :=
  if isAsciiText text.toList then .ok () else .error .nonAsciiHeader

/-- The request of a submission. -/
def request (endpoint : Endpoint) (kind : JobKind) (payload startAfter : Value) :
    Except Failure Request := do
  let token ← endpoint.tokenHeader
  let address ← endpoint.address
  token.forM checkHeader
  let body ← (submissionBody kind payload startAfter).asJson
  return {
    address, body
    contentType := "application/json"
    -- The token gives way to what the address says.
    authorization := credentialsHeader address <|> token
    timeout := endpoint.timeout }

end Endpoint

end Deferral
