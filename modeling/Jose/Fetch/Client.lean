import Jose.Bytes
import Jose.Fetch.Response

/-! What a fetch leaves to its HTTP client: how a location is read, what is wrong with a
proxy or a certificate, and the failures of a connection. The client is a library of its
own, so it is taken as it comes, and what is said of a fetch holds with any client. -/
namespace Jose.Fetch

/-- An error among the causes of a failure. -/
inductive Cause where
  | tls (reason : String)
  /-- An I/O error around another error, which its own source skips. -/
  | io (wrapped : Cause)
  | dueTo (source : Cause)
  | last
  deriving DecidableEq, Repr

/-- The first TLS error on the way down the causes. -/
def Cause.tls? : Cause → Option String
  | tls reason => some reason
  | io wrapped => wrapped.tls?
  | dueTo source => source.tls?
  | last => none

/-- A failure of the client: its text, and the error that it goes back to, if there is
any. -/
structure Failure where
  message : String
  source : Option Cause
  deriving DecidableEq, Repr

def Failure.tls? (f : Failure) : Option String := f.source.bind Cause.tls?

/-- Failures of TLS are told from all others. -/
def Failure.classify (url : String) (f : Failure) : FetchError :=
  match f.tls? with
  | some reason => .tls url reason
  | none => .transfer url f.message

/-- A client by what it reads locations as, how it writes them, and what it finds wrong
with a proxy, a certificate, or with all that it is built from. -/
structure Client (Url : Type) where
  readUrl : String → Except String Url
  urlText : Url → String
  proxyFault? : String → Option String
  certificateFault? : Bytes → Option String
  buildFault? : Option String → List Bytes → Option String

end Jose.Fetch
