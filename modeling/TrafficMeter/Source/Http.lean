import TrafficMeter.Failure

/-!
Requests over HTTP. A `Transport` answers one request; `get` is a whole call, which follows
redirects up to a limit.
-/

namespace TrafficMeter.Http

/-- The answer to a request; it has no body if that broke off on the way. -/
structure Response where
  status : Nat
  location : Option String
  body : Option (List UInt8)
  deriving DecidableEq, Repr

abbrev Transport := String → Except HttpFault Response

def scheme? (url : String) : Option String :=
  let name := url.toList.takeWhile fun c => c.isAlphanum || c == '+' || c == '-' || c == '.'
  match name, (url.toList.drop name.length).head? with
  | first :: _, some ':' => if first.isAlpha then some (String.ofList name).toLower else none
  | _, _ => none

def urlFault? (url : String) : Option HttpFault :=
  match scheme? url with
  | none => some .relativeUrl
  | some "http" | some "https" => none
  | some _ => some (.unknownScheme url)

def origin (url : String) : String := "/".intercalate ((url.splitOn "/").take 3)

def resolve (base location : String) : String :=
  if (scheme? location).isSome then location
  else if location.startsWith "//" then (scheme? base).getD "" ++ ":" ++ location
  else if location.startsWith "/" then origin base ++ location
  else "/".intercalate ((base.splitOn "/").dropLast ++ [location])

def Response.redirect? (r : Response) : Option String :=
  if [301, 302, 303, 307, 308].contains r.status then r.location else none

def maxRedirects : Nat := 10

/-- Requests a URL and goes on while there are redirects; `requested` is named in a failure. -/
def follow (transport : Transport) (requested : String) : Nat → String → Except HttpFault Response
  | 0, url => do
    let response ← transport url
    if response.redirect?.isSome then .error (.tooManyRedirects requested) else return response
  | redirects + 1, url => do
    let response ← transport url
    match response.redirect? with
    | some location => follow transport requested redirects (resolve url location)
    | none => return response

def get (transport : Transport) (url : String) : Except HttpFault Response :=
  match urlFault? url with
  | some fault => .error fault
  | none => follow transport url maxRedirects url

def Response.isSuccess (r : Response) : Bool := 200 ≤ r.status && r.status < 300

def reason? : Nat → Option String
  | 100 => "Continue"
  | 101 => "Switching Protocols"
  | 102 => "Processing"
  | 200 => "OK"
  | 201 => "Created"
  | 202 => "Accepted"
  | 203 => "Non Authoritative Information"
  | 204 => "No Content"
  | 205 => "Reset Content"
  | 206 => "Partial Content"
  | 207 => "Multi-Status"
  | 208 => "Already Reported"
  | 226 => "IM Used"
  | 300 => "Multiple Choices"
  | 301 => "Moved Permanently"
  | 302 => "Found"
  | 303 => "See Other"
  | 304 => "Not Modified"
  | 305 => "Use Proxy"
  | 307 => "Temporary Redirect"
  | 308 => "Permanent Redirect"
  | 400 => "Bad Request"
  | 401 => "Unauthorized"
  | 402 => "Payment Required"
  | 403 => "Forbidden"
  | 404 => "Not Found"
  | 405 => "Method Not Allowed"
  | 406 => "Not Acceptable"
  | 407 => "Proxy Authentication Required"
  | 408 => "Request Timeout"
  | 409 => "Conflict"
  | 410 => "Gone"
  | 411 => "Length Required"
  | 412 => "Precondition Failed"
  | 413 => "Payload Too Large"
  | 414 => "URI Too Long"
  | 415 => "Unsupported Media Type"
  | 416 => "Range Not Satisfiable"
  | 417 => "Expectation Failed"
  | 418 => "I'm a teapot"
  | 421 => "Misdirected Request"
  | 422 => "Unprocessable Entity"
  | 423 => "Locked"
  | 424 => "Failed Dependency"
  | 425 => "Too Early"
  | 426 => "Upgrade Required"
  | 428 => "Precondition Required"
  | 429 => "Too Many Requests"
  | 431 => "Request Header Fields Too Large"
  | 451 => "Unavailable For Legal Reasons"
  | 500 => "Internal Server Error"
  | 501 => "Not Implemented"
  | 502 => "Bad Gateway"
  | 503 => "Service Unavailable"
  | 504 => "Gateway Timeout"
  | 505 => "HTTP Version Not Supported"
  | 506 => "Variant Also Negotiates"
  | 507 => "Insufficient Storage"
  | 508 => "Loop Detected"
  | 510 => "Not Extended"
  | 511 => "Network Authentication Required"
  | _ => none

def reason (status : Nat) : String := (reason? status).getD "<unknown status code>"

end TrafficMeter.Http
