import Jose.Algorithm.Basic
import Jose.Algorithm.Constraints
import Jose.Algorithm.ContentEncryption
import Jose.Algorithm.KeyManagement
import Jose.Algorithm.Signature
import Jose.Bytes
import Jose.Cipher.Aes
import Jose.Cipher.Cbc
import Jose.Claims.Basic
import Jose.Claims.DateRules
import Jose.Claims.NumericDate
import Jose.Claims.Validator
import Jose.Compact
import Jose.Config
import Jose.Consumer
import Jose.Decimal.Binary64
import Jose.Decimal.Shortest
import Jose.Encrypted
import Jose.Envelope
import Jose.Error
import Jose.Fetch.Client
import Jose.Fetch.Get
import Jose.Fetch.Peer
import Jose.Fetch.Reason
import Jose.Fetch.Response
import Jose.Hash.Hmac
import Jose.Hash.Sha2
import Jose.Headers
import Jose.Json.Decode
import Jose.Json.Fault
import Jose.Json.Number
import Jose.Json.Read
import Jose.Json.Skip
import Jose.Json.Value
import Jose.Json.Write
import Jose.Key
import Jose.Named
import Jose.Object
import Jose.Proofs.Algorithm.Basic
import Jose.Proofs.Algorithm.ContentEncryption
import Jose.Proofs.Algorithm.ContentEncryption.Boundaries
import Jose.Proofs.Algorithm.KeyManagement
import Jose.Proofs.Algorithm.Signature
import Jose.Proofs.Bytes
import Jose.Proofs.Cipher.Aes
import Jose.Proofs.Cipher.Cbc
import Jose.Proofs.Compact
import Jose.Proofs.Compact.Layout
import Jose.Proofs.Consumer.Depth
import Jose.Proofs.Consumer.Layer
import Jose.Proofs.Consumer.Process
import Jose.Proofs.Decimal.Binary64
import Jose.Proofs.Decimal.Shortest
import Jose.Proofs.Encrypted
import Jose.Proofs.Encrypted.Canonical
import Jose.Proofs.Encrypted.Kept
import Jose.Proofs.Encrypted.Rejection
import Jose.Proofs.Encrypted.RoundTrip
import Jose.Proofs.Encrypted.Run
import Jose.Proofs.Envelope
import Jose.Proofs.Fetch.Attempt
import Jose.Proofs.Fetch.BodyLimit
import Jose.Proofs.Fetch.ContentType
import Jose.Proofs.Fetch.DeclaredCharset
import Jose.Proofs.Fetch.HeaderValues
import Jose.Proofs.Fetch.Retry
import Jose.Proofs.Hash.Hmac
import Jose.Proofs.Headers
import Jose.Proofs.Headers.RoundTrip
import Jose.Proofs.Headers.Wire
import Jose.Proofs.Json.Number
import Jose.Proofs.Json.Read
import Jose.Proofs.Json.Real
import Jose.Proofs.Json.RealText
import Jose.Proofs.Json.RoundTrip
import Jose.Proofs.Json.Scientific
import Jose.Proofs.Json.String
import Jose.Proofs.Json.Value
import Jose.Proofs.Named
import Jose.Proofs.Object
import Jose.Proofs.Policy
import Jose.Proofs.PublicKey.Rsa
import Jose.Proofs.Result
import Jose.Proofs.Signed.Basic
import Jose.Proofs.Signed.Canonical
import Jose.Proofs.Signed.Payload
import Jose.Proofs.Signed.Restricted
import Jose.Proofs.Signed.RoundTrip
import Jose.Proofs.Signed.Run
import Jose.Proofs.Signed.Verdict
import Jose.Proofs.Text.Base64Url
import Jose.Proofs.Text.Base64Url.Digits
import Jose.Proofs.Text.Canonical
import Jose.Proofs.Text.Charset
import Jose.Proofs.Text.LetterCase
import Jose.Proofs.Text.Separated
import Jose.Proofs.Text.Utf8
import Jose.PublicKey.Curve
import Jose.PublicKey.Der
import Jose.PublicKey.Ecdsa
import Jose.PublicKey.Import
import Jose.PublicKey.Modular
import Jose.PublicKey.Rsa
import Jose.Signed
import Jose.Text.Base64Url
import Jose.Text.Charset
import Jose.Text.Quoted
import Jose.Text.Unseen
import Jose.Text.Utf8
import Jose.Proofs.Consumer.Wrapping
import Jose.Proofs.Consumer.Nesting
import Jose.Proofs.Algorithm.Signature.KeyFamily
import Jose.Proofs.Algorithm.Signature.ModulusSize
import Jose.Proofs.Signed.KeyFamily
import Jose.Proofs.Signed.Detached
import Jose.Proofs.Signed.InPlace
import Jose.Consumer.Builder
import Jose.Proofs.Claims.DateRules
import Jose.Proofs.Claims.DateRules.Acceptance
import Jose.Proofs.Claims.RoundTrip
import Jose.Proofs.Claims.Validator
import Jose.Proofs.Consumer.Builder
import Jose.Proofs.Consumer.Validation
import Jose.Proofs.Encrypted.Vector
import Jose.Proofs.Fetch.Wait
import Jose.Proofs.Algorithm.Registry
import Jose.Proofs.Text.WellFormed
