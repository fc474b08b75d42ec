import Upmpdcli.Lib.Machine
import Upmpdcli.Lib.VarMap
import Upmpdcli.Cdplugins.CurlFetch
import Upmpdcli.ContentDirectory

set_option autoImplicit false

/- The reply to a proxied request: the range which the client asks for, what the fetch thread
has got from the server when the handler is called again, and what the handler says. -/
namespace Upmpdcli

/-- A response as it is given to libmicrohttpd. It has no body, or the one which the content
reader gives. No size is `MHD_SIZE_UNKNOWN`. -/
structure MhdResponse where
  code : Nat
  headers : List (String × String) := []
  size : Option Nat := some 0
  reader : Bool := false
deriving DecidableEq

/-- The resource from this offset on, or something else, such as an error page. -/
inductive OriginBody
  | part (start : Nat)
  | page (contents : List UInt8)
deriving DecidableEq

/-- What the server replies to a fetch. `lines` has all the header lines which libcurl gets,
those of redirections among them. -/
structure OriginReply where
  code : Nat
  lines : List String
  body : OriginBody
deriving DecidableEq

def OriginReply.contents (reply : OriginReply) (resource : List UInt8) : List UInt8 :=
  match reply.body with
  | .part start => resource.drop start
  | .page contents => contents

namespace StreamProxy

/-- The text behind the first `bytes=`. -/
def afterBytes : List Char → Option (List Char)
  | [] => none
  | c :: rest =>
      if "bytes=".toList.isPrefixOf (c :: rest) then some ((c :: rest).drop 6) else afterBytes rest

/-- Where the loop of `parseRanges` begins again: behind each comma. -/
def afterCommas : List Char → List (List Char)
  | [] => []
  | c :: rest => if c = ',' then rest :: afterCommas rest else afterCommas rest

/-- One turn of the loop. A comma in front of the dash does not end the second part. -/
def parseRange (ranges : List Char) : Option (Int × Int) := do
  let dash ← ranges.idxOf? '-'
  let firstPart := ranges.take dash
  let start := if firstPart = [] then 0 else Smallut.atoll (String.ofList firstPart)
  let secondPart :=
    match ranges.idxOf? ',' with
    | some comma =>
        if dash < comma then (ranges.drop (dash + 1)).take (comma - dash - 1)
        else ranges.drop (dash + 1)
    | none => ranges.drop (dash + 1)
  let fin := if secondPart = [] then -1 else Smallut.atoll (String.ofList secondPart)
  pure (start, fin)

def parseRanges (ranges : String) : Option (List (Int × Int)) := do
  let rest ← afterBytes ranges.toList
  (rest :: afterCommas rest).mapM parseRange

/-- `processRange`: the offset, or the response which is queued for another range. -/
def processRange : Option String → Except MhdResponse Nat
  | none => .ok 0
  | some rangeh =>
      match parseRanges rangeh with
      | some ((start, fin) :: more) =>
          if fin ≠ -1 ∨ more ≠ [] then .error { code := 416 } else .ok (start % 2 ^ 64).toNat
      | some [] | none => .ok 0

/-- How the first call of the handler ends: the request is over, with a queued response or
none and with `MHD_YES` or `MHD_NO`, or the fetch is started. -/
inductive FirstCall
  | ended (queued : Option MhdResponse) (ret : Bool)
  | started (offset : Nat)
deriving DecidableEq

/-- The first call of `answerConn`. -/
def answerConnFirst (method : String) (range : Option String) (ret : UrlTransReturn)
    (url : String) : FirstCall :=
  if method ≠ "GET" ∧ method ≠ "HEAD" then .ended none false
  else
    match processRange range with
    | .error response => .ended (some response) false
    | .ok offset =>
        match ret with
        | .error => .ended none false
        | .redirect => .ended (some { code := 302, headers := [("Location", url)] }) true
        | .proxy => .started offset

/-- libmicrohttpd sends nothing when the handler returns `MHD_NO`. -/
def FirstCall.sent : FirstCall → Option MhdResponse
  | .ended queued true => queued
  | .ended _ false | .started _ => none

end StreamProxy

/-- What the handler can know of the fetch, and all the data which libcurl has delivered. -/
structure HeaderFetch where
  headers : List (String × String) := []
  headersOk : Bool := false
  received : List UInt8 := []
  curldone : Bool := false
  curlCode : CURLcode := .ok
  curlHttpCode : Nat := 200
deriving DecidableEq

namespace HeaderFetch

/-- `curlHeaderCB`. -/
def curlHeaderCB (m : HeaderFetch) (contents : String) : HeaderFetch :=
  let header := (Smallut.trimstring contents " \t\r\n").toList
  if header = [] then { m with headersOk := true }
  else
    match header.idxOf? ':' with
    | none => m
    | some colon =>
        let hname := String.ofList ((header.take colon).map Char.toLower)
        let val := Smallut.trimstring (String.ofList (header.drop (colon + 1))) " \t"
        { m with headers := VarMap.set m.headers hname val }

/-- The end of `curl_easy_perform`. Only a transfer which ends well sets the http code. -/
def performed (m : HeaderFetch) (code : CURLcode) (httpCode : Nat) : HeaderFetch :=
  { m with
    curldone := true
    curlCode := code
    curlHttpCode := if code = .ok then httpCode else m.curlHttpCode }

/-- `waitForHeaders` waits while this is false. -/
def ready (m : HeaderFetch) : Bool := m.curldone || m.received ≠ []

def headerValue (m : HeaderFetch) (hname : String) : Option String :=
  if m.headersOk then m.headers.lookup hname else none

/-- The http code which `fetchDone` tells, if the transfer is done. -/
def fetchDone (m : HeaderFetch) : Option Nat := if m.curldone then some m.curlHttpCode else none

end HeaderFetch

namespace StreamProxy

/-- The size given to libmicrohttpd. -/
def contentLength (cl : String) : Option Nat :=
  let size := (Smallut.atoll cl % 2 ^ 64).toNat
  if cl = "" ∨ size = 2 ^ 64 - 1 then none else some size

def httpCodeOr500 (httpcode : Nat) : Nat := if httpcode ≠ 0 then httpcode else 500

/-- The second call of `answerConn`. It gets the headers from the fetch as it is when
`waitForHeaders` returns, and whether it is done from a later one. The http code is not
initialized when it is not done. -/
def answerConnSecond (m later : HeaderFetch) (garbage : Nat) : MhdResponse :=
  if m.headersOk then
    let cl := (m.headerValue "content-length").getD ""
    let ct := (m.headerValue "content-type").getD ""
    { code := (later.fetchDone.map httpCodeOr500).getD 200
      headers :=
        ("Accept-Ranges", "bytes") ::
          ((if cl = "" then [] else [("Content-Length", cl)]) ++
            if ct = "" then [] else [("Content-Type", ct)])
      size := contentLength cl
      reader := true }
  else { code := httpCodeOr500 (later.fetchDone.getD garbage) }

end StreamProxy

/-- The fetch with what libcurl has still to deliver: the header lines, then the body. -/
structure HeaderRun where
  fetch : HeaderFetch := {}
  lines : List String
  rest : List UInt8
deriving DecidableEq

inductive HeaderAct
  | header
  | write (count : Nat)
  | performed (code : CURLcode)
deriving DecidableEq

namespace HeaderRun

def start (reply : OriginReply) (resource : List UInt8) : HeaderRun :=
  { lines := reply.lines, rest := reply.contents resource }

/-- The transfer can fail at any point. It is fine only when everything has come. -/
def next (reply : OriginReply) (s : HeaderRun) : HeaderAct → Option HeaderRun
  | .header =>
      match s.lines with
      | [] => none
      | line :: lines => some { s with fetch := s.fetch.curlHeaderCB line, lines }
  | .write count =>
      if s.lines = [] ∧ 0 < count ∧ count ≤ s.rest.length then
        some
          { s with
            fetch := { s.fetch with received := s.fetch.received ++ s.rest.take count }
            rest := s.rest.drop count }
      else none
  | .performed code =>
      if code = .ok → s.lines = [] ∧ s.rest = [] then
        some { s with fetch := s.fetch.performed code reply.code }
      else none

def step (reply : OriginReply) (s : HeaderRun) (action : HeaderAct) : Option (HeaderRun × Unit) :=
  if s.fetch.curldone then none else (s.next reply action).map (·, ())

end HeaderRun

end Upmpdcli
