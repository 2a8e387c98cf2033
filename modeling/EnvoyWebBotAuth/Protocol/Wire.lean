import EnvoyWebBotAuth.Protocol.Discovery
/-!
# The module to resolver contract

The request and response types of `protocol/src/lib.rs`. SHA-256, base64 and
the JSON codecs derived for the types are outside the repository and stay
parameters.
-/

namespace EnvoyWebBotAuth.Protocol

abbrev Bytes := List UInt8

inductive ResolverApiVersion where
  | v1
  deriving DecidableEq, Repr

structure ResolveRequest where
  apiVersion : ResolverApiVersion
  discovery : DiscoveryMechanism
  agentUrl : String
  keyId : String
  deriving DecidableEq, Repr

/-- Its `kty` and `crv` have one value each, `OKP` and `Ed25519`. -/
structure Ed25519Jwk where
  x : String
  deriving DecidableEq, Repr

inductive ResolveResponse where
  | resolved (normalizedIdentifier : String) (jwk : Ed25519Jwk)
  | keyNotFound (normalizedIdentifier : String)
  deriving DecidableEq, Repr

structure Digest where
  sha256 : Bytes → Bytes
  encode : Bytes → String
  decode : String → Option Bytes

namespace Ed25519Jwk

/-- The RFC 7638 thumbprint: the digest of the members in order. -/
def b64Thumbprint (d : Digest) (jwk : Ed25519Jwk) : String :=
  let canonical := "\x7b\"crv\":\"Ed25519\",\"kty\":\"OKP\",\"x\":\"" ++ jwk.x ++ "\"\x7d"
  d.encode (d.sha256 canonical.toUTF8.toList)

def isValidPublicKey (d : Digest) (jwk : Ed25519Jwk) : Bool :=
  match d.decode jwk.x with
  | some bytes => bytes.length = 32
  | none => false

end Ed25519Jwk

/-- The JSON codecs of the two wire types. -/
structure WireJson where
  requestToVec : ResolveRequest → Option Bytes
  requestFromSlice : Bytes → Option ResolveRequest
  responseToVec : ResolveResponse → Option Bytes
  responseFromSlice : Bytes → Option ResolveResponse

end EnvoyWebBotAuth.Protocol
