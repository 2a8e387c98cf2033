import EnvoyWebBotAuth.Contract.Agreement
import EnvoyWebBotAuth.Resolver.Selection
/-!
# A key the module accepts

The module accepts a key by its thumbprint; the resolver selects one by its
label first. They agree on a key list just when the first key labelled with the
key id, if there is one, has it as its thumbprint. Trusted: both compute one
thumbprint (`ThumbprintsAgree`).
-/
open EnvoyWebBotAuth.Lib EnvoyWebBotAuth.Protocol EnvoyWebBotAuth.Gateway EnvoyWebBotAuth.Resolver

namespace EnvoyWebBotAuth.Contract

variable {Verifier KeyRing P L : Type} {wba : WebBotAuth Verifier KeyRing} {s : ResolverService P L}

/-- The thumbprints of RFC 7638 of both crates. -/
def ThumbprintsAgree (wba : WebBotAuth Verifier KeyRing) (d : Digest) : Prop :=
  ∀ x, wba.b64Thumbprint ⟨"Ed25519", x⟩ = Ed25519Jwk.b64Thumbprint d ⟨x⟩

/-- A key with the thumbprint is found if there is one; or else none is. -/
structure SelectsByThumbprint (s : ResolverService P L) (request : ResolveRequest) (target : DiscoveryTarget)
    (keys : List ResourceKeyEntry) : Prop where
  found : (∃ key ∈ keys, key.jwk.b64Thumbprint s.crates.resource.digest = request.keyId) →
    ∃ jwk, selectKey s.crates.resource.digest keys request.keyId = some jwk ∧
      jwk.b64Thumbprint s.crates.resource.digest = request.keyId
  absent : (∀ key ∈ keys, key.jwk.b64Thumbprint s.crates.resource.digest ≠ request.keyId) →
    selectKey s.crates.resource.digest keys request.keyId = none ∧
      respond s request target keys = .keyNotFound target.normalizedIdentifier

theorem selectsByThumbprint_iff (request : ResolveRequest) (target : DiscoveryTarget) (keys : List ResourceKeyEntry) :
    SelectsByThumbprint s request target keys ↔
      LabelledByThumbprint s.crates.resource.digest keys request.keyId := by
  constructor
  · intro h key hk
    have hsel := selectKey_labelled (d := s.crates.resource.digest) hk
    by_cases hfound : ∃ key ∈ keys, key.jwk.b64Thumbprint s.crates.resource.digest = request.keyId
    · obtain ⟨jwk, hjwk, hthumb⟩ := h.found hfound
      rw [hsel] at hjwk
      rw [Option.some.inj hjwk, hthumb]
    · have habsent : ∀ key ∈ keys, key.jwk.b64Thumbprint s.crates.resource.digest ≠ request.keyId :=
        fun key hk he => hfound ⟨key, hk, he⟩
      rw [(h.absent habsent).1] at hsel
      cases hsel
  · intro h
    cases hl : labelled keys request.keyId with
    | some key =>
      have hsel := selectKey_labelled (d := s.crates.resource.digest) hl
      refine ⟨fun _ => ⟨key.jwk, hsel, h key hl⟩, fun habsent => ?_⟩
      exact absurd (h key hl) (habsent key (List.mem_of_find?_eq_some hl))
    | none =>
      rcases selectKey_unlabelled (d := s.crates.resource.digest) hl with ⟨hnone, hno⟩ | ⟨jwk, hsome, hthumb⟩
      · refine ⟨?_, fun _ => ⟨hnone, by rw [respond, hnone]⟩⟩
        rintro ⟨key, hk, he⟩
        exact absurd he (hno key hk)
      · refine ⟨fun _ => ⟨jwk, hsome, hthumb⟩, fun habsent => ?_⟩
        obtain ⟨key, hk, he⟩ := selectKey_mem hsome
        exact absurd (he ▸ hthumb) (habsent key hk)

/-- The module turns down a key for its thumbprint just when the label misled
the resolver. -/
theorem verify_thumbprint_iff (hd : ThumbprintsAgree wba s.crates.resource.digest)
    {candidate : VerificationCandidate Verifier} {target : DiscoveryTarget}
    (hid : target.normalizedIdentifier = candidate.normalizedIdentifier) (keys : List ResourceKeyEntry) :
    verifyResolverResponse wba candidate (.ok (respond s (resolveRequest candidate) target keys)) ≠
        .unverified .unavailable .keyThumbprint ↔
      LabelledByThumbprint s.crates.resource.digest keys candidate.keyId := by
  have hresolved : ∀ jwk : Ed25519Jwk,
      verifyResolverResponse wba candidate (.ok (.resolved target.normalizedIdentifier jwk)) =
          .unverified .unavailable .keyThumbprint ↔
        jwk.b64Thumbprint s.crates.resource.digest ≠ candidate.keyId := by
    intro jwk
    have hagree : wba.b64Thumbprint ⟨"Ed25519", jwk.x⟩ = jwk.b64Thumbprint s.crates.resource.digest := hd jwk.x
    unfold verifyResolverResponse
    simp only [hid, ne_eq, not_true_eq_false, if_false, hagree]
    by_cases ht : jwk.b64Thumbprint s.crates.resource.digest = candidate.keyId
    · simp only [ht, not_true_eq_false, if_false, iff_false]
      split
      · simp
      · split <;> simp
    · simp [ht]
  unfold respond
  simp only [resolveRequest]
  cases hl : labelled keys candidate.keyId with
  | some key =>
    simp only [selectKey_labelled hl, ne_eq, hresolved, not_not]
    constructor
    · intro ht key' hk
      rw [← Option.some.inj (hl.symm.trans hk)]
      exact ht
    · exact fun h => h key hl
  | none =>
    have hlabelled : LabelledByThumbprint s.crates.resource.digest keys candidate.keyId := by
      intro key hk
      rw [hl] at hk
      cases hk
    refine ⟨fun _ => hlabelled, fun _ => ?_⟩
    rcases selectKey_unlabelled (d := s.crates.resource.digest) hl with ⟨hnone, -⟩ | ⟨jwk, hsome, hthumb⟩
    · simp [hnone, verifyResolverResponse, hid]
    · simp only [hsome, ne_eq, hresolved, hthumb, not_true_eq_false, not_false_eq_true]

/-- The resolver selects by thumbprint, and the module takes its answer for a
candidate, just when no label of another key is in the way. -/
theorem keys_selected_by_thumbprint_iff (sfv : Sfv) (hd : ThumbprintsAgree wba s.crates.resource.digest) :
    (∀ request target keys, SelectsByThumbprint s request target keys ↔
      LabelledByThumbprint s.crates.resource.digest keys request.keyId) ∧
    ∀ request acceptLegacy required now maxLifetime clockSkew candidate,
      VerificationCandidate.parse sfv wba s.crates.resource.url request acceptLegacy required now maxLifetime clockSkew =
        .ok candidate →
      ∀ target, validateRequest s.crates.resource.url (resolveRequest candidate) = .ok target →
        ∀ keys, verifyResolverResponse wba candidate (.ok (respond s (resolveRequest candidate) target keys)) ≠
            .unverified .unavailable .keyThumbprint ↔
          LabelledByThumbprint s.crates.resource.digest keys candidate.keyId := by
  refine ⟨selectsByThumbprint_iff, ?_⟩
  intro request acceptLegacy required now maxLifetime clockSkew candidate h target hv keys
  obtain ⟨agentKey, agent, hchecked⟩ := parse_ok sfv wba s.crates.resource.url h
  obtain ⟨target', htarget, hid⟩ := hchecked.target
  refine verify_thumbprint_iff hd ?_ keys
  -- the request passed the checks, so its target is the candidate's
  unfold validateRequest at hv
  split at hv
  · cases hv
  · simp only [resolveRequest, htarget] at hv
    rw [← Except.ok.inj hv, hid]

/-- The sample crate of the module, with the thumbprints of the sample keys. -/
def wbaAtSampleKeys : WebBotAuth ParsedLabel String :=
  { sampleWba with b64Thumbprint := fun okp => Ed25519Jwk.b64Thumbprint digestAtSampleKeys ⟨okp.x⟩ }

/-- The sample key among others, with its label and without one. -/
def labelledKeys : List ResourceKeyEntry :=
  [⟨otherKey.jwk, some "other"⟩, ⟨otherKey.jwk, none⟩, ⟨testKey.jwk, some testKey.thumbprint⟩]

def unlabelledKeys : List ResourceKeyEntry :=
  [⟨otherKey.jwk, some "other"⟩, ⟨testKey.jwk, none⟩, ⟨otherKey.jwk, none⟩]

def directoryTarget : DiscoveryTarget :=
  ⟨⟨"https", "", none, some "agent.example", none, directoryPath, none, none⟩, sampleCandidate.normalizedIdentifier⟩

theorem keys_selected_by_thumbprint_iff_sample :
    verifyResolverResponse wbaAtSampleKeys sampleCandidate
        (.ok (respond testKeyService (resolveRequest sampleCandidate) directoryTarget labelledKeys)) ≠
      .unverified .unavailable .keyThumbprint ∧
    verifyResolverResponse wbaAtSampleKeys sampleCandidate
        (.ok (respond testKeyService (resolveRequest sampleCandidate) directoryTarget unlabelledKeys)) ≠
      .unverified .unavailable .keyThumbprint := by
  have hd : ThumbprintsAgree wbaAtSampleKeys testKeyService.crates.resource.digest := fun x => rfl
  have hiff := (keys_selected_by_thumbprint_iff sampleSfv hd).2 (Gateway.sampleRequest sampleMemberLine) false
    ["@authority"] 1735690000 86400 5 sampleCandidate (by decide +kernel) directoryTarget (by decide +kernel)
  refine ⟨(hiff labelledKeys).2 ?_, (hiff unlabelledKeys).2 ?_⟩
  · intro key hk
    have hfirst : labelled labelledKeys sampleCandidate.keyId = some ⟨testKey.jwk, some testKey.thumbprint⟩ := by
      decide +kernel
    obtain rfl := Option.some.inj (hfirst.symm.trans hk)
    decide +kernel
  · -- no key has the label, so the thumbprint decides
    intro key hk
    have hnone : labelled unlabelledKeys sampleCandidate.keyId = none := by decide +kernel
    rw [hnone] at hk
    cases hk

/-- A key set in which the thumbprint of the second key is the label of the first. -/
def misleadingKeys : List ResourceKeyEntry := [⟨otherKey.jwk, some testKey.thumbprint⟩, ⟨testKey.jwk, none⟩]

def misleadingCrates : ResourceCrates where
  url := sampleUrls
  digest := digestAtSampleKeys
  jwksFromSlice _ := some ⟨[⟨"OKP", some "Ed25519", some testKey.thumbprint, some otherKey.jwk.x⟩,
    ⟨"OKP", some "Ed25519", none, some testKey.jwk.x⟩]⟩
  cimdFromSlice _ := none

/-- A candidate for the second key. -/
def misledCandidate : VerificationCandidate ParsedLabel where
  verifier := sampleCandidate.verifier
  discovery := .jwksUri
  signedUrl := "https://agent.example/k"
  normalizedIdentifier := "https://agent.example/k"
  keyId := testKey.thumbprint

/-- The first key is selected, and the module turns it down. -/
theorem misleading_label :
    parseResource misleadingCrates .jwks (sampleUrl ['k']) [] 32 = .ok (.jwks misleadingKeys) ∧
    (∃ key ∈ misleadingKeys, key.jwk.b64Thumbprint digestAtSampleKeys = misledCandidate.keyId) ∧
    selectKey digestAtSampleKeys misleadingKeys misledCandidate.keyId = some otherKey.jwk ∧
    otherKey.jwk.b64Thumbprint digestAtSampleKeys ≠ misledCandidate.keyId ∧
    verifyResolverResponse wbaAtSampleKeys misledCandidate (.ok (.resolved "https://agent.example/k" otherKey.jwk)) =
      .unverified .unavailable .keyThumbprint := by
  refine ⟨by decide +kernel, ⟨⟨testKey.jwk, none⟩, by decide, by decide +kernel⟩, by decide +kernel, by decide +kernel, ?_⟩
  decide +kernel

end EnvoyWebBotAuth.Contract
