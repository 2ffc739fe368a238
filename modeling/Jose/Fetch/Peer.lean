import Jose.Fetch.Get

/-! The outer layer of the program: a scripted peer in the place of the network and of the
client library on it. It answers the request of number `i` with line `i`, and with the
last line from then on; it closes every connection, says so, and does not speak TLS. It
only runs the program, and no statement about a fetch is made of it. -/
namespace Jose.Fetch
open Text

inductive Line where
  | hangUp
  | send (status : String) (headers : List (String × Bytes)) (body : Bytes) (missing : Nat)
  deriving DecidableEq, Repr

structure Peer where
  script : List Line
  deriving DecidableEq, Repr

namespace Peer

/-- The number at the start of a status line, which has three digits. -/
def statusCode? (status : String) : Option Nat := do
  let code := status.toList.takeWhile (· ≠ ' ')
  guard (code.length = 3)
  guard (code.all Char.isDigit)
  let n ← (String.ofList code).toNat?
  guard (100 ≤ n)
  return n

def isTokenChar (c : Char) : Bool :=
  c.isAlphanum || c ∈ "!#$%&'*+-.^_|~".toList || c.toNat = 0x60

def isToken (name : String) : Bool := !name.isEmpty && name.toList.all isTokenChar

def isHeaderByte (b : UInt8) : Bool := b = 0x09 || 0x20 ≤ b && b ≠ 0x7f

def isBlank (b : UInt8) : Bool := b = 0x09 || b = 0x20

def trimBlanks (bs : Bytes) : Bytes :=
  ((bs.dropWhile isBlank).reverse.dropWhile isBlank).reverse

/-- A header as it is received: the name in lower case and the value without blanks around
it. -/
def received? (header : String × Bytes) : Option (String × Bytes) :=
  if isToken header.1 && header.2.all isHeaderByte then
    some (header.1.toLower, trimBlanks header.2)
  else none

/-- Interim responses are passed over, and then nothing comes. -/
def isInterim (status : Nat) : Bool := status < 200 && status ≠ 101

/-- A failure without any TLS in it. -/
def broken : Reply := .failed ⟨"", none⟩

def reply : Line → Reply
  | .hangUp => broken
  | .send status headers body missing =>
    let all := headers ++ [("Content-Length", Utf8.encode (toString (body.length + missing))),
      ("Connection", Utf8.encode "close")]
    match statusCode? status, all.mapM received? with
    | some code, some received =>
      if isInterim code then broken
      else .response ⟨code, received, [body], if missing = 0 then none else some ⟨"", none⟩⟩
    | _, _ => broken

/-- A peer is there with a script, without a proxy in between, and under two schemes. -/
def accepts (p : Peer) (g : Get) (scheme : String) : Bool :=
  !p.script.isEmpty && g.proxy.isNone && (scheme = "http" || scheme = "https")

def connection (p : Peer) (g : Get) (scheme : String) (i : Nat) : Reply :=
  match p.script[i]? <|> p.script.getLast? with
  | none => broken
  | some line =>
    if !p.accepts g scheme then broken
    else if scheme = "http" then reply line
    else .failed ⟨"", some (.tls "")⟩

/-- A fetch from the peer, and the number of connections that it has accepted. -/
def serve {Url : Type} (p : Peer) (g : Get) (client : Client Url) (scheme : Url → String)
    (location : String) : Fetched × Nat :=
  let fetched := g.fetch client (fun url => p.connection g (scheme url)) location
  match client.readUrl location with
  | .ok url => (fetched, if p.accepts g (scheme url) then fetched.attempts else 0)
  | .error _ => (fetched, 0)

end Peer
end Jose.Fetch
