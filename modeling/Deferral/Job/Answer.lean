/-
# Deferral.Job.Answer -- answers to submissions

An endpoint takes a job if it answers with a status from 200 to 299. Any other
status, and a transport that fails, gives a report.
-/

import Deferral.Address
import Deferral.Failure

namespace Deferral

/-- The answer to a request. -/
inductive Answer where
  /-- A status, and the location that the answer points to. -/
  | status (code : Nat) (location : Option String)
  /-- The transport failed. -/
  | transportFailure (report : String)
  /-- The transport broke down apart from the exchange with the endpoint. -/
  | breakdown (kind : String)
deriving Repr

namespace Answer

/-- The answer of an endpoint that nothing else is known of. -/
def accepted : Answer := .status 200 none

end Answer

/-! ## Failing answers -/

/-- The standard reasons of statuses. -/
def reasonPhrases : List (Nat × String) :=
  [(100, "Continue"), (101, "Switching Protocols"), (102, "Processing"), (103, "Early Hints"),
   (200, "OK"), (201, "Created"), (202, "Accepted"), (203, "Non-Authoritative Information"),
   (204, "No Content"), (205, "Reset Content"), (206, "Partial Content"), (207, "Multi-Status"),
   (208, "Already Reported"), (226, "IM Used"), (300, "Multiple Choices"),
   (301, "Moved Permanently"), (302, "Found"), (303, "See Other"), (304, "Not Modified"),
   (305, "Use Proxy"), (307, "Temporary Redirect"), (308, "Permanent Redirect"),
   (400, "Bad Request"), (401, "Unauthorized"), (402, "Payment Required"), (403, "Forbidden"),
   (404, "Not Found"), (405, "Method Not Allowed"), (406, "Not Acceptable"),
   (407, "Proxy Authentication Required"), (408, "Request Timeout"), (409, "Conflict"),
   (410, "Gone"), (411, "Length Required"), (412, "Precondition Failed"),
   (413, "Request Entity Too Large"), (414, "Request-URI Too Long"),
   (415, "Unsupported Media Type"), (416, "Requested Range Not Satisfiable"),
   (417, "Expectation Failed"), (418, "I'm a teapot"), (421, "Misdirected Request"),
   (422, "Unprocessable Entity"), (423, "Locked"), (424, "Failed Dependency"),
   (425, "Too Early"), (426, "Upgrade Required"), (428, "Precondition Required"),
   (429, "Too Many Requests"), (431, "Request Header Fields Too Large"),
   (451, "Unavailable For Legal Reasons"), (500, "Internal Server Error"),
   (501, "Not Implemented"), (502, "Bad Gateway"), (503, "Service Unavailable"),
   (504, "Gateway Timeout"), (505, "HTTP Version Not Supported"),
   (506, "Variant Also Negotiates"), (507, "Insufficient Storage"), (508, "Loop Detected"),
   (510, "Not Extended"), (511, "Network Authentication Required")]

/-- The reason of a status, or nothing. -/
def reasonOf (code : Nat) : String := (reasonPhrases.lookup code).getD ""

/-- What a class of statuses is called. -/
def statusClass (code : Nat) : String :=
  match code / 100 with
  | 1 => "Informational response"
  | 3 => "Redirect response"
  | 4 => "Client error"
  | 5 => "Server error"
  | _ => "Invalid status code"

/-- The statuses that send the client to another location. -/
def redirects (code : Nat) : Bool := [301, 302, 303, 307, 308].contains code

/-- The line on the location of a redirect. -/
def locationLine (code : Nat) : Option String → String
  | some location => if redirects code then s!"\nRedirect location: '{location}'" else ""
  | none => ""

/-- The page on statuses. -/
def statusPage : String := "https://developer.mozilla.org/en-US/docs/Web/HTTP/Status/"

/-- The report on a status that does not accept a job. -/
def statusReport? (url : String) (code : Nat) (location : Option String) : Option String :=
  -- Redirects are not followed, so they are failures, too.
  if code / 100 = 2 then none
  else some (s!"{statusClass code} '{code} {reasonOf code}' for url '{url}'" ++
    locationLine code location ++ s!"\nFor more information check: {statusPage}{code}")

/-- Why a redirect cannot be prepared for. A location that is no address breaks the
protocol; one that goes together with the address of the request to none is the
fault of neither. -/
def checkLocation (address : Address) (location : String) : Except Failure (Option String) :=
  match Address.ofText location.toList with
  | .error fault =>
    .ok (some s!"Invalid URL in location header: {String.ofList fault.words}.")
  | .ok target =>
    match address.leadsTo target with
    | .error _ => .error .malformedAddress
    | .ok _ => .ok none

/-- The report on an answer that does not accept a job, if it can be dealt with. -/
def Answer.report? (address : Address) : Answer → Except Failure (Option String)
  | .transportFailure report => .ok (some report)
  | .breakdown kind => .error (.transportBroken kind)
  | .status code location => do
    -- No other answer is looked at for its location, and a header holds ASCII only.
    let next := if redirects code then location else none
    if next.any fun text => !isAsciiText text.toList then throw .nonAsciiHeader
    -- Cookies are looked for in every answer, which takes an address with a scheme.
    if !address.isAbsolute then throw .relativeAddress
    let broken ← match next with
      | some location => checkLocation address location
      | none => pure none
    return broken <|> statusReport? (String.ofList address.text) code location

end Deferral
