import EnvoyWebBotAuth.Lib.Result
import EnvoyWebBotAuth.Resolver.Fetch
/-!
# Resources

Parsing key sets and client metadata (`resource.rs`). The JSON decoders
derived for the wire types are outside the repository.
-/
open EnvoyWebBotAuth.Lib EnvoyWebBotAuth.Protocol

namespace EnvoyWebBotAuth.Resolver

structure ResourceKeyEntry where
  jwk : Ed25519Jwk
  kid : Option String
  deriving DecidableEq

structure CimdResource where
  inlineJwks : Option (List ResourceKeyEntry)
  jwksUri : Option Url
  deriving DecidableEq

inductive ParsedResource where
  | jwks (keys : List ResourceKeyEntry)
  | cimd (cimd : CimdResource)
  deriving DecidableEq

structure FetchedJwk where
  kty : String
  crv : Option String
  kid : Option String
  x : Option String

structure FetchedJwks where
  keys : List FetchedJwk

structure FetchedCimd where
  clientId : String
  jwks : Option FetchedJwks
  jwksUri : Option String

/-- What parsing a resource uses of other crates. -/
structure ResourceCrates where
  url : UrlCrate
  digest : Digest
  jwksFromSlice : Bytes → Option FetchedJwks
  cimdFromSlice : Bytes → Option FetchedCimd

variable (c : ResourceCrates)

def invalidResource : FetchError := .new .invalidResource

/-- The closure of `parse_keys` over the keys it keeps. -/
def parseKey (directory : Bool) (key : FetchedJwk) : Except FetchError ResourceKeyEntry := do
  let x ← okOr invalidResource key.x
  let jwk : Ed25519Jwk := ⟨x⟩
  ensure (jwk.isValidPublicKey c.digest = true) invalidResource
  ensure (¬(directory = true ∧ key.kid.any (· ≠ jwk.b64Thumbprint c.digest) = true)) invalidResource
  .ok ⟨jwk, key.kid⟩

def parseKeys (jwks : FetchedJwks) (maxKeys : Nat) (directory : Bool) :
    Except FetchError (List ResourceKeyEntry) := do
  ensure (jwks.keys.length ≤ maxKeys) invalidResource
  (jwks.keys.filter (fun key => key.kty = "OKP" && key.crv = some "Ed25519")).mapM (parseKey c directory)

/-- The `jwks_uri` of client metadata. -/
def parseJwksUri (uri : String) : Except FetchError Url := do
  ensure (uri.utf8ByteSize ≤ maxAgentUrlBytes) invalidResource
  let url ← okOr invalidResource (c.url.parse uri)
  .ok { url with fragment := none }

def parseCimd (metadata : FetchedCimd) (maxKeys : Nat) : Except FetchError CimdResource :=
  match metadata.jwks, metadata.jwksUri with
  | some jwks, none => do
    let keys ← parseKeys c jwks maxKeys false
    .ok ⟨some keys, none⟩
  | none, some uri => do
    let url ← parseJwksUri c uri
    .ok ⟨none, some url⟩
  | _, _ => .error invalidResource

def parseResource (kind : ResourceKind) (fetchedUrl : Url) (body : Bytes) (maxKeys : Nat) :
    Except FetchError ParsedResource :=
  match kind with
  | .jwks => do
    let jwks ← okOr invalidResource (c.jwksFromSlice body)
    let keys ← parseKeys c jwks maxKeys (isDirectoryUrl fetchedUrl)
    .ok (.jwks keys)
  | .cimd => do
    let metadata ← okOr invalidResource (c.cimdFromSlice body)
    ensure (metadata.clientId = c.url.asStr fetchedUrl) invalidResource
    let cimd ← parseCimd c metadata maxKeys
    .ok (.cimd cimd)

/-! ## What is parsed -/

/-- A key set comes of a fetch for one, metadata of a fetch for it. -/
theorem parseResource_kind {kind : ResourceKind} {url : Url} {body : Bytes} {maxKeys : Nat} {r : ParsedResource}
    (h : parseResource c kind url body maxKeys = .ok r) :
    (kind = .jwks ∧ ∃ keys, r = .jwks keys) ∨ (kind = .cimd ∧ ∃ cimd, r = .cimd cimd) := by
  cases kind with
  | jwks =>
    simp only [parseResource, bind_ok] at h
    obtain ⟨_, -, keys, -, h⟩ := h
    exact .inl ⟨rfl, keys, (Except.ok.inj h).symm⟩
  | cimd =>
    simp only [parseResource, bind_ok] at h
    obtain ⟨_, -, _, -, cimd, -, h⟩ := h
    exact .inr ⟨rfl, cimd, (Except.ok.inj h).symm⟩

/-- Metadata has a key set or names one. -/
theorem parseResource_keys {url : Url} {body : Bytes} {maxKeys : Nat} {cimd : CimdResource}
    (h : parseResource c .cimd url body maxKeys = .ok (.cimd cimd)) :
    cimd.inlineJwks.isSome ∨ cimd.jwksUri.isSome := by
  simp only [parseResource, bind_ok] at h
  obtain ⟨metadata, -, _, -, cimd', hc, he⟩ := h
  obtain rfl : cimd' = cimd := by simpa using he
  unfold parseCimd at hc
  split at hc
  · rw [bind_ok] at hc
    obtain ⟨keys, -, hc⟩ := hc
    obtain rfl := Except.ok.inj hc
    exact .inl rfl
  · rw [bind_ok] at hc
    obtain ⟨second, -, hc⟩ := hc
    obtain rfl := Except.ok.inj hc
    exact .inr rfl
  · cases hc

/-- A second document is named only by metadata whose `client_id` is its URL. -/
theorem parseResource_jwksUri {url : Url} {body : Bytes} {maxKeys : Nat} {cimd : CimdResource} {second : Url}
    (h : parseResource c .cimd url body maxKeys = .ok (.cimd cimd)) (hs : cimd.jwksUri = some second) :
    ∃ metadata uri parsed, c.cimdFromSlice body = some metadata ∧ metadata.clientId = c.url.asStr url ∧
      metadata.jwks = none ∧ metadata.jwksUri = some uri ∧ c.url.parse uri = some parsed ∧
      second = { parsed with fragment := none } := by
  simp only [parseResource, bind_ok, okOr_ok, ensure_ok] at h
  obtain ⟨metadata, hm, _, hid, cimd', hc, he⟩ := h
  obtain rfl : cimd' = cimd := by simpa using he
  unfold parseCimd at hc
  split at hc
  · rw [bind_ok] at hc
    obtain ⟨keys, -, hc⟩ := hc
    obtain rfl := Except.ok.inj hc
    cases hs
  · rename_i uri hj hu
    simp only [parseJwksUri, bind_ok, okOr_ok, ensure_ok] at hc
    obtain ⟨second', ⟨_, -, parsed, hp, hq⟩, hc⟩ := hc
    obtain rfl := Except.ok.inj hc
    obtain rfl := Except.ok.inj hq
    exact ⟨metadata, uri, parsed, hm, hid, hj, hu, hp, (Option.some.inj hs).symm⟩
  · cases hc

end EnvoyWebBotAuth.Resolver
