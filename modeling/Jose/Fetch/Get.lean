import Jose.Fetch.Client
import Jose.Fetch.Reason
import Jose.Text.Charset

/-! Fetching with retries. Only a response of status 200 is a success; a failure that may
pass is tried again, after a wait that may double each time. The connection is a function
from the number of the attempt to what comes of it. -/
namespace Jose.Fetch
open Text

structure Get where
  retries : Nat
  initialWait : Nat
  progressive : Bool
  /-- In characters; none unless it is positive. -/
  bodyLimit : Int
  proxy : Option String
  trusted : List Bytes
  deriving DecidableEq, Repr

/-- A response as it arrives: its body in pieces, and the failure that it breaks off with,
if it does. -/
structure Arrival where
  status : Nat
  headers : List (String × Bytes)
  chunks : List Bytes
  failure? : Option Failure
  deriving DecidableEq, Repr

def Arrival.isWhole (a : Arrival) : Bool := a.failure?.isNone

/-- What comes of one attempt. -/
inductive Reply where
  | failed (failure : Failure)
  | response (arrival : Arrival)
  deriving DecidableEq, Repr

/-- The end of a fetch: the result, the number of attempts and the waits between them. -/
structure Fetched where
  result : Except FetchError Response
  attempts : Nat
  waits : List Nat

namespace Get

def default : Get := ⟨3, 180, true, 1024 * 512, none, []⟩

/-- In milliseconds, like all waits. -/
def maxWait : Nat := 8000

/-- The longest span of time that is counted. -/
def maxSpan : Nat := (UInt64.size - 1) * 1000 + 999

def maxFactor : Nat := UInt32.size - 1

/-- The wait after the failed attempt of this number, the first of which is one. Both the
power and the product stop at their largest values. -/
def retryWait (g : Get) (attempt : Nat) : Nat :=
  if g.progressive then
    let factor := min (Nat.pow 2 (min 32 (attempt - 1))) maxFactor
    min (min (g.initialWait * factor) maxSpan) maxWait
  else g.initialWait

def isVisible (b : UInt8) : Bool := b = 0x09 || 0x20 ≤ b && b < 0x7f

/-- The first header of this name in lower case. -/
def headerBytes? (name : String) : List (String × Bytes) → Option Bytes
  | [] => none
  | (n, value) :: rest => if n = name then some value else headerBytes? name rest

def trimQuotes (cs : List Char) : List Char :=
  ((cs.dropWhile (· = '"')).reverse.dropWhile (· = '"')).reverse

def charsetPrefix : List Char := "charset=".toList

/-- The name in the first parameter that begins with `charset=`, blanks left out. -/
def declaredCharset? (contentType : List Char) : Option String :=
  ((contentType.filter (· ≠ ' ')).splitOn ';').findSome? fun part =>
    if charsetPrefix.isPrefixOf part then
      some (String.ofList (trimQuotes (part.drop charsetPrefix.length)))
    else none

/-- UTF-8 unless the content type names another charset that is supported. -/
def charsetOf (headers : List (String × Bytes)) : Charset :=
  match headerBytes? "content-type" headers with
  | none => .utf8
  | some value =>
    if value.all isVisible then
      ((declaredCharset? (value.map Charset.charOf)).bind Charset.ofName?).getD .utf8
    else .utf8

/-- The values of each name, in the order they came in. -/
def headerMap (headers : List (String × Bytes)) : Named (List String) :=
  headers.foldl (fun map (name, value) =>
    map.insert name ((map.get? name).getD [] ++ [Utf8.decodeLossy value])) []

/-- The most bytes that can be within the limit: a character takes up to four in UTF-8. -/
def byteLimit? (g : Get) (charset : Charset) : Option Nat :=
  if g.bodyLimit ≤ 0 then none
  else some (min (g.bodyLimit.toNat * (if charset = .utf8 then 4 else 1)) (UInt64.size - 1))

def exceeds (limit : Option Nat) (n : Nat) : Bool :=
  match limit with
  | some limit => limit < n
  | none => false

/-- Reads on as long as the bytes are within the limit, up to the end or the failure. -/
def readBody (g : Get) (url : String) (limit : Option Nat) (failure? : Option Failure)
    (read : Bytes) :
    List Bytes → Except FetchError Bytes
  | [] =>
    match failure? with
    | some failure => .error (failure.classify url)
    | none => .ok read
  | chunk :: chunks =>
    let read := read ++ chunk
    if exceeds limit read.length then .error (.tooLarge g.bodyLimit)
    else readBody g url limit failure? read chunks

/-- The text of a body; what the charset cannot decode is read as UTF-8 with
replacements. -/
def bodyText (charset : Charset) (bytes : Bytes) : String :=
  match charset.decode bytes with
  | .ok text => text
  | .error _ => Utf8.decodeLossy bytes

def receive (g : Get) (url : String) (a : Arrival) : Except FetchError Response := do
  if a.status = 404 || a.status = 410 then .error (.notFound url)
  if a.status ≠ 200 then .error (.status a.status (standardReason a.status) url)
  let charset := charsetOf a.headers
  let bytes ← g.readBody url (g.byteLimit? charset) a.failure? [] a.chunks
  let body := bodyText charset bytes
  if 0 < g.bodyLimit && g.bodyLimit < body.length then .error (.tooLarge g.bodyLimit)
  return .new a.status (standardReason a.status) (headerMap a.headers) body

def attempt (g : Get) (url : String) : Reply → Except FetchError Response
  | .failed failure => .error (failure.classify url)
  | .response a => g.receive url a

/-- Attempts from number `i` on, with so many retries left. -/
def tries (g : Get) (outcome : Nat → Except FetchError Response) : (retries i : Nat) → Fetched
  | retries, i =>
    match outcome i with
    | .ok response => ⟨.ok response, i + 1, []⟩
    | .error e =>
      if e.isRetryable then
        match retries with
        | 0 => ⟨.error e, i + 1, []⟩
        | retries + 1 =>
          let rest := tries g outcome retries (i + 1)
          { rest with waits := g.retryWait (i + 1) :: rest.waits }
      else ⟨.error e, i + 1, []⟩

variable {Url : Type}

/-- What is wrong with the configuration. The proxy is looked at first, then the
certificates in their order, and then the client is built from them. -/
def configurationFault? (g : Get) (client : Client Url) : Option String :=
  let proxyFault := g.proxy.bind fun proxy =>
    (client.proxyFault? proxy).map fun why => "invalid proxy '" ++ proxy ++ "': " ++ why
  let certificateFault := (g.trusted.findSome? client.certificateFault?).map fun why =>
    "invalid trusted certificate: " ++ why
  let buildFault := (client.buildFault? g.proxy g.trusted).map fun why =>
    "unable to build HTTP client: " ++ why
  proxyFault <|> certificateFault <|> buildFault

def checkConfiguration (g : Get) (client : Client Url) : Except FetchError Unit :=
  match g.configurationFault? client with
  | some detail => .error (.configuration detail)
  | none => .ok ()

/-- The location is looked at first, then the configuration, and only then anything is
sent. -/
def fetch (g : Get) (client : Client Url) (connection : Url → Nat → Reply)
    (location : String) : Fetched :=
  match client.readUrl location with
  | .error reason => ⟨.error (.invalidUrl location reason), 0, []⟩
  | .ok url =>
    match g.checkConfiguration client with
    | .error e => ⟨.error e, 0, []⟩
    | .ok () =>
      g.tries (fun i => g.attempt (client.urlText url) (connection url i)) g.retries 0

end Get
end Jose.Fetch
