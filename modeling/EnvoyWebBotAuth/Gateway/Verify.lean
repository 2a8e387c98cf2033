import EnvoyWebBotAuth.Gateway.Candidate
/-!
# Resolver responses

Reading the resolver's answer and checking the signature with the key in it
(`verify.rs`).
-/
open EnvoyWebBotAuth.Lib EnvoyWebBotAuth.Protocol

namespace EnvoyWebBotAuth.Gateway

/-- `str::parse::<u32>`: an optional `+`, then digits. -/
def parseU32 (text : List Char) : Option UInt32 :=
  let digits := match text with
    | '+' :: rest => rest
    | _ => text
  if digits ≠ [] ∧ ∀ d ∈ digits, d.isDigit then
    let value := digits.foldl (fun n d => 10 * n + (d.toNat - '0'.toNat)) 0
    if value < 2 ^ 32 then some (UInt32.ofNat value) else none
  else none

/-- The first `:status` value that is a number. A byte that is not ASCII is no
digit, so it needs no decoding. -/
def responseStatus (headers : Option (List (Bytes × Bytes))) : Option UInt32 :=
  headers.bind fun headers => headers.findSome? fun (name, value) =>
    if name = ":status".toUTF8.toList then parseU32 (value.map (fun b => Char.ofNat b.toNat)) else none

def joinResponseBody (chunks : List Bytes) : Option Bytes := do
  let length ← chunks.foldlM (fun length chunk => checkedAddUsize length chunk.length) 0
  if length > maxResolveBodyBytes then none else some chunks.flatten

variable {Verifier KeyRing : Type} (wba : WebBotAuth Verifier KeyRing)

def verifyResolverResponse (candidate : VerificationCandidate Verifier)
    (response : Except Reason ResolveResponse) : VerificationResult :=
  match response with
  | .error reason => .unverified .unavailable reason
  | .ok (.keyNotFound normalizedIdentifier) =>
    if normalizedIdentifier = candidate.normalizedIdentifier then .unverified .keyNotFound .keyNotFound
    else .unverified .unavailable .resolverIdentifier
  | .ok (.resolved normalizedIdentifier wireJwk) =>
    if normalizedIdentifier ≠ candidate.normalizedIdentifier then .unverified .unavailable .resolverIdentifier
    else
      let jwk : Okp := { crv := "Ed25519", x := wireJwk.x }
      if wba.b64Thumbprint jwk ≠ candidate.keyId then .unverified .unavailable .keyThumbprint
      else match wba.tryImportJwk jwk with
        | none => .unverified .unavailable .keyAlgorithm
        | some keyring =>
          if wba.verify candidate.verifier keyring then .verified ⟨normalizedIdentifier, candidate.keyId⟩
          else .invalid .rejected .signatureVerification

theorem verify_verified {candidate : VerificationCandidate Verifier} {response : Except Reason ResolveResponse}
    {id : VerifiedIdentity} (h : verifyResolverResponse wba candidate response = .verified id) :
    id = ⟨candidate.normalizedIdentifier, candidate.keyId⟩ ∧
    ∃ jwk, response = .ok (.resolved candidate.normalizedIdentifier jwk) ∧
      wba.b64Thumbprint ⟨"Ed25519", jwk.x⟩ = candidate.keyId ∧
      ∃ keyring, wba.tryImportJwk ⟨"Ed25519", jwk.x⟩ = some keyring ∧
        wba.verify candidate.verifier keyring = true := by
  unfold verifyResolverResponse at h
  split at h
  · cases h
  · split at h <;> cases h
  · rename_i identifier jwk
    by_cases hid : identifier = candidate.normalizedIdentifier
    · subst hid
      rw [if_neg (by simp)] at h
      by_cases ht : wba.b64Thumbprint ⟨"Ed25519", jwk.x⟩ = candidate.keyId
      · simp only [ht, ne_eq, not_true_eq_false, if_false] at h
        split at h
        · cases h
        · rename_i keyring hring
          split at h
          · rename_i hv
            cases h
            exact ⟨rfl, jwk, rfl, ht, keyring, hring, hv⟩
          · cases h
      · simp [ht] at h
    · simp [hid] at h

end EnvoyWebBotAuth.Gateway
