import Jose.Named
import Jose.Text.Quoted

/-! Fetched responses and the failures to fetch one. -/
namespace Jose.Fetch
open Text

structure Response where
  status : Nat
  message : String
  headers : Named (List String)
  body : String
  deriving DecidableEq, Repr

namespace Response

/-- Header names in lower case; of names that become the same, the last one stays. -/
def new (status : Nat) (message : String) (headers : List (String × List String))
    (body : String) : Response :=
  ⟨status, message,
    Named.ofList (headers.map fun (name, values) => (name.toLower, values)), body⟩

/-- The values of a header under any case of its name. -/
def headerValues (r : Response) (name : String) : List String :=
  (r.headers.get? name.toLower).getD []

def shownHeader (header : String × List String) : String :=
  quoted header.1 ++ ": " ++ quotedList header.2

/-- The body is shown by its length only. -/
def shown (r : Response) : String :=
  "SimpleResponse \x7b status_code: " ++ toString r.status ++ ", status_message: " ++
    quoted r.message ++ ", headers: \x7b" ++ ", ".intercalate (r.headers.map shownHeader) ++
    "\x7d, body_chars: " ++ toString r.body.length ++ " \x7d"

end Response

inductive FetchError where
  | invalidUrl (url reason : String)
  | configuration (detail : String)
  | tls (url reason : String)
  | notFound (url : String)
  | tooLarge (limit : Int)
  | status (code : Nat) (message url : String)
  | transfer (url reason : String)
  deriving DecidableEq, Repr

namespace FetchError

/-- Another attempt may succeed. -/
def isRetryable : FetchError → Bool
  | status _ _ _ | transfer _ _ => true
  | _ => false

def message : FetchError → String
  | invalidUrl url reason => "Invalid URL '" ++ url ++ "': " ++ reason
  | configuration detail => "HTTP client configuration error: " ++ detail
  | tls url reason => "TLS failure fetching " ++ url ++ ": " ++ reason
  | notFound url => url ++ " was not found"
  | tooLarge limit =>
    "More than " ++ toString limit ++ " characters have been read from the response body."
  | status code message url =>
    "Non 200 status code (" ++ toString code ++ " " ++ message ++ ") returned from " ++ url
  | transfer url reason => "I/O failure fetching " ++ url ++ ": " ++ reason

end FetchError
end Jose.Fetch
