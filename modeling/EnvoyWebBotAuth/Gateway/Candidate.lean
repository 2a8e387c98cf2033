import EnvoyWebBotAuth.Gateway.Policy
import EnvoyWebBotAuth.Gateway.Request
/-!
# Verification candidates

What a request must carry before a resolver is asked for a key
(`candidate.rs`). `parse_ok` sums a successful parse up: every check it makes,
on the parsed copy it makes it on.
-/
open EnvoyWebBotAuth.Lib EnvoyWebBotAuth.Protocol

namespace EnvoyWebBotAuth.Gateway

structure VerificationCandidate (Verifier : Type) where
  verifier : Verifier
  discovery : DiscoveryMechanism
  signedUrl : String
  normalizedIdentifier : String
  keyId : String
  deriving DecidableEq

inductive CandidateError where
  | malformed
  | multipleSignatures
  | missingSignatureAgent
  | signatureAgentNotBound
  | unsupportedDiscoveryType
  | invalidDiscoveryUrl
  | profileFieldTooLarge
  | missingRequiredComponent
  | invalidFreshness
  | unsupportedAlgorithm
  deriving DecidableEq, Repr

def CandidateError.result : CandidateError → VerificationResult
  | .malformed => .invalid .malformed .malformedProfile
  | .multipleSignatures => .unverified .unsupported .unsupportedMultipleSignatures
  | .missingSignatureAgent => .invalid .rejected .missingSignatureAgent
  | .signatureAgentNotBound => .invalid .rejected .signatureAgentNotBound
  | .unsupportedDiscoveryType => .unverified .unsupported .unsupportedDiscoveryType
  | .invalidDiscoveryUrl => .invalid .rejected .invalidDiscoveryUrl
  | .profileFieldTooLarge => .invalid .malformed .profileFieldTooLarge
  | .missingRequiredComponent => .invalid .rejected .missingRequiredComponent
  | .invalidFreshness => .invalid .rejected .invalidFreshness
  | .unsupportedAlgorithm => .unverified .unsupported .unsupportedAlgorithm

theorem candidate_error_unverified (e : CandidateError) (id : VerifiedIdentity) : e.result ≠ .verified id := by
  cases e <;> exact nofun

inductive SignatureAgentForm where
  | dictionary
  | legacyItem
  deriving DecidableEq, Repr

structure SelectedAgent where
  item : Item
  form : SignatureAgentForm
  deriving DecidableEq

/-! ## The profile label -/

/-- An inner list whose `tag` parameter is the string `web-bot-auth`. -/
def carriesProfileTag : ListEntry → Bool
  | .innerList list => (list.params.get "tag").bind BareItem.asString = some "web-bot-auth"
  | .item _ => false

def profileLabelsIn (dictionary : Dictionary) : List String :=
  (dictionary.entries.filter (fun e => carriesProfileTag e.2)).map Prod.fst

variable (sfv : Sfv) {Verifier KeyRing : Type} (wba : WebBotAuth Verifier KeyRing) (c : UrlCrate)

/-- The loop of `profile_signature_label`. -/
def profileLabels : List String → Except CandidateError (List String)
  | [] => .ok []
  | value :: values => do
    let dictionary ← okOr .malformed (sfv.parseDictionary value)
    let labels ← profileLabels values
    .ok (profileLabelsIn dictionary ++ labels)

def profileSignatureLabel (values : List String) : Except CandidateError String := do
  match ← profileLabels sfv values with
  | [] => .error .malformed
  | [label] => .ok label
  | _ => .error .multipleSignatures

theorem profileSignatureLabel_ok {values : List String} {label : String} :
    profileSignatureLabel sfv values = .ok label ↔ profileLabels sfv values = .ok [label] := by
  rw [profileSignatureLabel, bind_ok]
  constructor
  · rintro ⟨labels, hl, h⟩
    split at h
    · cases h
    · cases h; exact hl
    · cases h
  · intro h
    exact ⟨[label], h, rfl⟩

/-! ## Freshness -/

/-- `i64::try_from` of a `u64` -/
def i64TryFrom (value : UInt64) : Option Int64 :=
  if value.toNat < 2 ^ 63 then some (Int64.ofNat value.toNat) else none

/-- `u64::try_from` of an `i64` -/
def u64TryFrom (value : Int64) : Option UInt64 :=
  if 0 ≤ value then some (UInt64.ofNat value.toInt.toNat) else none

/-- `i64::checked_sub` -/
def checkedSub (a b : Int64) : Option Int64 :=
  let difference := a.toInt - b.toInt
  if -2 ^ 63 ≤ difference ∧ difference < 2 ^ 63 then some (Int64.ofInt difference) else none

/-- `i64::saturating_add` -/
def saturatingAdd (a b : Int64) : Int64 := Int64.ofInt (max (-2 ^ 63) (min (2 ^ 63 - 1) (a.toInt + b.toInt)))

/-- `i64::saturating_sub` -/
def saturatingSub (a b : Int64) : Int64 := Int64.ofInt (max (-2 ^ 63) (min (2 ^ 63 - 1) (a.toInt - b.toInt)))

def validateFreshness (created expires : Option Int64) (now : Int64) (maxLifetime clockSkew : UInt64) :
    Except CandidateError Unit := do
  let created ← okOr .invalidFreshness created
  let expires ← okOr .invalidFreshness expires
  let skew ← okOr .invalidFreshness (i64TryFrom clockSkew)
  let lifetime ← okOr .invalidFreshness (checkedSub expires created)
  if lifetime < 0 ∨ (u64TryFrom lifetime).all (maxLifetime < ·)
      ∨ saturatingAdd now skew < created ∨ expires < saturatingSub now skew then
    .error .invalidFreshness
  else .ok ()

theorem toInt_of_range {i : Int} (h : -2 ^ 63 ≤ i ∧ i < 2 ^ 63) : (Int64.ofInt i).toInt = i :=
  Int64.toInt_ofInt_of_le h.1 h.2

theorem i64TryFrom_eq_some {value : UInt64} {i : Int64} (h : i64TryFrom value = some i) :
    i.toInt = value.toNat := by
  unfold i64TryFrom at h
  split at h
  · rename_i hv
    cases h
    rw [Int64.toInt_ofNat_of_lt hv]
  · cases h

theorem checkedSub_eq_some {a b d : Int64} (h : checkedSub a b = some d) : d.toInt = a.toInt - b.toInt := by
  unfold checkedSub at h
  simp only at h
  split at h
  · rename_i hd
    cases h
    exact toInt_of_range hd
  · cases h

theorem saturatingAdd_lt {a b x : Int64} (hb : 0 ≤ b.toInt) :
    saturatingAdd a b < x ↔ a.toInt + b.toInt < x.toInt := by
  have hx := x.toInt_lt
  have ha := a.le_toInt
  rw [Int64.lt_iff_toInt_lt, saturatingAdd, toInt_of_range (by omega)]
  omega

theorem lt_saturatingSub {a b x : Int64} (hb : 0 ≤ b.toInt) :
    x < saturatingSub a b ↔ x.toInt < a.toInt - b.toInt := by
  have hx := x.le_toInt
  have ha := a.toInt_lt
  rw [Int64.lt_iff_toInt_lt, saturatingSub, toInt_of_range (by omega)]
  omega

/-- The signature's lifetime is neither negative nor above the maximum, and
`now` is inside it, up to the skew. No value wraps around. -/
theorem validateFreshness_ok {created expires : Option Int64} {now : Int64} {maxLifetime clockSkew : UInt64}
    (h : validateFreshness created expires now maxLifetime clockSkew = .ok ()) :
    ∃ c e, created = some c ∧ expires = some e ∧ c.toInt ≤ e.toInt ∧ e.toInt - c.toInt ≤ maxLifetime.toNat ∧
      c.toInt ≤ now.toInt + clockSkew.toNat ∧ now.toInt - clockSkew.toNat ≤ e.toInt := by
  simp only [validateFreshness, bind_ok, okOr_ok] at h
  obtain ⟨c, rfl, e, rfl, skew, hs, lifetime, hl, h⟩ := h
  have hskew := i64TryFrom_eq_some hs
  have hpos : 0 ≤ skew.toInt := by omega
  split at h
  · cases h
  · rename_i hn
    simp only [not_or, Int64.not_lt, saturatingAdd_lt hpos, lt_saturatingSub hpos, hskew] at hn
    obtain ⟨hl0, hm, hc, he⟩ := hn
    have hl := checkedSub_eq_some hl
    have h0 : 0 ≤ lifetime.toInt := Int64.le_iff_toInt_le.1 hl0
    refine ⟨c, e, rfl, rfl, by omega, ?_, by omega, by omega⟩
    have hlt := lifetime.toInt_lt
    rw [u64TryFrom, if_pos hl0] at hm
    simp only [Option.all_some, decide_eq_true_eq, UInt64.not_lt, UInt64.le_iff_toNat_le,
      UInt64.toNat_ofNat'] at hm
    omega

/-! ## Coverage -/

/-- The name `validate_coverage` pushes for a component. -/
def coverageName : CoveredComponent → Option String
  | .derived (.method false) => some "@method"
  | .derived (.path false) => some "@path"
  | .derived (.targetUri false) => some "@target-uri"
  | .derived (.authority false) => some "@authority"
  | .http field => some field.name
  | _ => none

def isAuthorityOrTarget : CoveredComponent → Bool
  | .derived (.targetUri false) | .derived (.authority false) => true
  | _ => false

/-- The member of Signature-Agent under `agentKey`. -/
def isBoundAgent (agentKey : Option String) : CoveredComponent → Bool
  | .http field => field.name == "signature-agent" && match field.parameters with
    | [.key key] => agentKey == some key
    | _ => false
  | _ => false

/-- The whole Signature-Agent field. -/
def isLegacyAgent : CoveredComponent → Bool
  | .http field => field.name == "signature-agent" && field.parameters == []
  | _ => false

structure Coverage where
  authorityOrTarget : Bool
  boundAgent : Bool
  legacyAgent : Bool
  names : List String

/-- The loop body of `validate_coverage`. -/
def Coverage.visit (agentKey : Option String) (v : Coverage) (component : CoveredComponent) : Coverage where
  authorityOrTarget := v.authorityOrTarget || isAuthorityOrTarget component
  boundAgent := v.boundAgent || isBoundAgent agentKey component
  legacyAgent := v.legacyAgent || isLegacyAgent component
  names := v.names ++ (coverageName component).toList

def validateCoverage (components : IndexMap CoveredComponent String) (agentKey : Option String)
    (agentForm : SignatureAgentForm) (requiredComponents : List String) : Except CandidateError Unit := do
  let v := components.keys.foldl (Coverage.visit agentKey) ⟨false, false, false, []⟩
  ensure v.authorityOrTarget .missingRequiredComponent
  let agentIsBound : Bool := match agentForm with
    | .dictionary => v.boundAgent
    | .legacyItem => v.legacyAgent
  ensure agentIsBound .signatureAgentNotBound
  ensure (∀ required ∈ requiredComponents, required ∈ v.names) .missingRequiredComponent

theorem coverage_foldl (agentKey : Option String) (keys : List CoveredComponent) (v : Coverage) :
    keys.foldl (Coverage.visit agentKey) v =
      ⟨v.authorityOrTarget || keys.any isAuthorityOrTarget, v.boundAgent || keys.any (isBoundAgent agentKey),
        v.legacyAgent || keys.any isLegacyAgent, v.names ++ keys.filterMap coverageName⟩ := by
  induction keys generalizing v with
  | nil => simp
  | cons x keys ih =>
    rw [List.foldl_cons, ih]
    cases hx : coverageName x <;> simp [Coverage.visit, hx, Bool.or_assoc]

theorem isAuthorityOrTarget_iff {x : CoveredComponent} :
    isAuthorityOrTarget x = true ↔ x = .derived (.targetUri false) ∨ x = .derived (.authority false) := by
  unfold isAuthorityOrTarget; split <;> simp_all

theorem isBoundAgent_iff {agentKey : Option String} {x : CoveredComponent} :
    isBoundAgent agentKey x = true ↔ ∃ k, agentKey = some k ∧ x = .http ⟨"signature-agent", [.key k]⟩ := by
  rcases x with ⟨name, parameters⟩ | component
  · simp only [isBoundAgent, Bool.and_eq_true, beq_iff_eq, CoveredComponent.http.injEq, HTTPField.mk.injEq]
    split
    · simp only [beq_iff_eq, List.cons.injEq, HTTPFieldParameter.key.injEq, and_true]
      constructor
      · rintro ⟨hn, hk⟩
        exact ⟨_, hk, hn, rfl⟩
      · rintro ⟨k, hk, hn, rfl⟩
        exact ⟨hn, hk⟩
    · rename_i hne
      refine ⟨nofun, ?_⟩
      rintro ⟨k, -, -, rfl⟩
      exact absurd rfl (hne k)
  · simp [isBoundAgent]

theorem isLegacyAgent_iff {x : CoveredComponent} :
    isLegacyAgent x = true ↔ x = .http ⟨"signature-agent", []⟩ := by
  rcases x with ⟨name, parameters⟩ | component <;> simp [isLegacyAgent]

/-- What the covered components must hold of the selected agent. -/
def AgentCovered (keys : List CoveredComponent) (agentKey : Option String) : SignatureAgentForm → Prop
  | .dictionary => ∃ k, agentKey = some k ∧ .http ⟨"signature-agent", [.key k]⟩ ∈ keys
  | .legacyItem => .http ⟨"signature-agent", []⟩ ∈ keys

theorem validateCoverage_ok {components : IndexMap CoveredComponent String} {agentKey : Option String}
    {agentForm : SignatureAgentForm} {requiredComponents : List String} :
    validateCoverage components agentKey agentForm requiredComponents = .ok () ↔
      (.derived (.authority false) ∈ components.keys ∨ .derived (.targetUri false) ∈ components.keys) ∧
      AgentCovered components.keys agentKey agentForm ∧
      ∀ required ∈ requiredComponents, ∃ x ∈ components.keys, coverageName x = some required := by
  simp only [validateCoverage, ensure_bind_ok, ensure_ok, coverage_foldl, Bool.false_or, List.nil_append,
    List.mem_filterMap]
  refine and_congr ?_ (and_congr ?_ .rfl)
  · simp only [List.any_eq_true, isAuthorityOrTarget_iff]
    constructor
    · rintro ⟨x, hx, rfl | rfl⟩
      · exact .inr hx
      · exact .inl hx
    · rintro (hx | hx)
      · exact ⟨_, hx, .inr rfl⟩
      · exact ⟨_, hx, .inl rfl⟩
  · cases agentForm with
    | dictionary =>
      simp only [List.any_eq_true, isBoundAgent_iff, AgentCovered]
      constructor
      · rintro ⟨x, hx, k, hk, rfl⟩
        exact ⟨k, hk, hx⟩
      · rintro ⟨k, hk, hx⟩
        exact ⟨_, hx, k, hk, rfl⟩
    | legacyItem => simp [isLegacyAgent_iff, AgentCovered]

/-! ## The agent -/

/-- The member a covered Signature-Agent field names, if it names one. -/
def agentFieldKey (field : HTTPField) : Except CandidateError (Option String) :=
  match field.parameters with
  | [] => .ok none
  | [.key key] => .ok (some key)
  | _ => .error .malformed

def signedAgentMemberKey (components : IndexMap CoveredComponent String) :
    Except CandidateError (Option String) :=
  (components.keys.findSome? (fun
    | .http field => if field.name = "signature-agent" then some (agentFieldKey field) else none
    | _ => none)).getD (.error .signatureAgentNotBound)

/-- The inner loop of `signature_agent_key_from_input`. -/
def agentKeyOfItems : List Item → Except CandidateError (Option String)
  | [] => .error .signatureAgentNotBound
  | item :: items => do
    match ← okOr .malformed (wba.componentOfItem item) with
    | .http field =>
      if field.name = "signature-agent" then agentFieldKey field else agentKeyOfItems items
    | .derived _ => agentKeyOfItems items

def signatureAgentKeyFromInput : List String → String → Except CandidateError (Option String)
  | [], _ => .error .malformed
  | value :: values, label => do
    let dictionary ← okOr .malformed (sfv.parseDictionary value)
    match dictionary.get label with
    | some (.innerList list) => agentKeyOfItems wba list.items
    | _ => signatureAgentKeyFromInput values label

def supportedAlgorithm (parameters : Parameters) : Bool :=
  match parameters.get "alg" with
  | none => true
  | some value => value.asString = some "ed25519"

/-- The loop of `select_agent`; `none` when it leaves with `dictionary_valid`
false. -/
def mergeDictionaries : List String → Dictionary → Option Dictionary
  | [], dictionary => some dictionary
  | value :: values, dictionary =>
    (sfv.parseDictionary value).bind fun parsed => mergeDictionaries values (dictionary.extend parsed.entries)

def selectAgent (values : List String) (agentKey : Option String) (acceptLegacy : Bool) :
    Except CandidateError SelectedAgent :=
  match mergeDictionaries sfv values IndexMap.empty with
  | some dictionary =>
    match agentKey.bind dictionary.get with
    | some (.item item) => .ok ⟨item, .dictionary⟩
    | some (.innerList _) => .error .malformed
    | none => .error .missingSignatureAgent
  | none =>
    if acceptLegacy ∧ agentKey.isNone then
      match values with
      | [value] => do
        let item ← okOr .malformed (sfv.parseItem value)
        .ok ⟨item, .legacyItem⟩
      | _ => .error .malformed
    else .error .malformed

def parseAgent (item : Item) : Except CandidateError (String × DiscoveryMechanism) := do
  let signedUrl ← okOr .malformed item.bareItem.asString
  match item.params.get "type" with
  | none => .ok (signedUrl, .directory)
  | some value =>
    match value.asToken with
    | some "directory" => .ok (signedUrl, .directory)
    | some "jwks_uri" => .ok (signedUrl, .jwksUri)
    | some "cimd" => .ok (signedUrl, .cimd)
    | _ => .error .unsupportedDiscoveryType

/-! ## The candidate -/

/-- The `map_err` on `parse_discovery_target`. -/
def discoveryTarget (signedUrl : String) (discovery : DiscoveryMechanism) :
    Except CandidateError DiscoveryTarget :=
  match parseDiscoveryTarget c signedUrl discovery with
  | .ok target => .ok target
  | .error .tooLong => .error .profileFieldTooLarge
  | .error _ => .error .invalidDiscoveryUrl

def VerificationCandidate.parse (request : RequestComponents) (acceptLegacy : Bool)
    (requiredComponents : List String) (now : Int64) (maxLifetime clockSkew : UInt64) :
    Except CandidateError (VerificationCandidate Verifier) := do
  let profileLabel ← profileSignatureLabel sfv request.signatureInput
  let expectedAgentKey ← signatureAgentKeyFromInput sfv wba request.signatureInput profileLabel
  let agent ← selectAgent sfv request.signatureAgent expectedAgentKey acceptLegacy
  let verifier ← okOr .malformed (wba.parse (request.lookupComponent sfv))
  let parsed := wba.getParsedLabel verifier
  ensure (parsed.label = profileLabel) .malformed
  let agentKey ← signedAgentMemberKey parsed.base.components
  ensure (agentKey = expectedAgentKey) .malformed
  let details := parsed.base.parameters.details
  ensure (supportedAlgorithm parsed.base.parameters.raw) .unsupportedAlgorithm
  validateFreshness details.created details.expires now maxLifetime clockSkew
  validateCoverage parsed.base.components agentKey agent.form requiredComponents
  let keyId ← okOr .malformed details.keyid
  ensure (keyId ≠ "") .malformed
  let (signedUrl, discovery) ← parseAgent agent.item
  ensure (keyId.utf8ByteSize ≤ maxKeyIdBytes) .profileFieldTooLarge
  let target ← discoveryTarget c signedUrl discovery
  .ok { verifier, discovery, signedUrl, normalizedIdentifier := target.normalizedIdentifier, keyId }

theorem supportedAlgorithm_iff {parameters : Parameters} :
    supportedAlgorithm parameters = true ↔
      parameters.get "alg" = none ∨ parameters.get "alg" = some (.string "ed25519") := by
  unfold supportedAlgorithm
  cases h : parameters.get "alg" with
  | none => simp
  | some value => cases value <;> simp [BareItem.asString]

theorem discoveryTarget_ok {signedUrl : String} {discovery : DiscoveryMechanism} {target : DiscoveryTarget} :
    discoveryTarget c signedUrl discovery = .ok target ↔
      parseDiscoveryTarget c signedUrl discovery = .ok target := by
  unfold discoveryTarget
  split <;> simp_all

theorem parseAgent_string {item : Item} {signedUrl : String} {discovery : DiscoveryMechanism}
    (h : parseAgent item = .ok (signedUrl, discovery)) : item.bareItem = .string signedUrl := by
  simp only [parseAgent, bind_ok, okOr_ok] at h
  obtain ⟨text, ht, h⟩ := h
  have hurl : text = signedUrl := by
    split at h
    · cases h
      rfl
    · split at h <;> cases h <;> rfl
  unfold BareItem.asString at ht
  split at ht
  · rename_i s hs
    rw [hs, Option.some.inj ht, hurl]
  · cases ht

/-- What a candidate was checked for: the request's fields were read, merged
and parsed apart from each other, and all readings name one member of
Signature-Agent, `agentKey`. -/
structure Checked (request : RequestComponents) (acceptLegacy : Bool) (requiredComponents : List String)
    (now : Int64) (maxLifetime clockSkew : UInt64) (candidate : VerificationCandidate Verifier)
    (agentKey : Option String) (agent : SelectedAgent) : Prop where
  parsed : wba.parse (request.lookupComponent sfv) = some candidate.verifier
  tagged : profileLabels sfv request.signatureInput = .ok [(wba.getParsedLabel candidate.verifier).label]
  inputKey : signatureAgentKeyFromInput sfv wba request.signatureInput
    (wba.getParsedLabel candidate.verifier).label = .ok agentKey
  signedKey : signedAgentMemberKey (wba.getParsedLabel candidate.verifier).base.components = .ok agentKey
  selected : selectAgent sfv request.signatureAgent agentKey acceptLegacy = .ok agent
  algorithm : supportedAlgorithm (wba.getParsedLabel candidate.verifier).base.parameters.raw = true
  fresh : validateFreshness (wba.getParsedLabel candidate.verifier).base.parameters.details.created
    (wba.getParsedLabel candidate.verifier).base.parameters.details.expires now maxLifetime clockSkew = .ok ()
  coverage : validateCoverage (wba.getParsedLabel candidate.verifier).base.components agentKey agent.form
    requiredComponents = .ok ()
  keyId : (wba.getParsedLabel candidate.verifier).base.parameters.details.keyid = some candidate.keyId
  keyId_ne : candidate.keyId ≠ ""
  keyId_size : candidate.keyId.utf8ByteSize ≤ maxKeyIdBytes
  agentItem : parseAgent agent.item = .ok (candidate.signedUrl, candidate.discovery)
  target : ∃ target, parseDiscoveryTarget c candidate.signedUrl candidate.discovery = .ok target ∧
    target.normalizedIdentifier = candidate.normalizedIdentifier

theorem parse_ok {request : RequestComponents} {acceptLegacy : Bool} {requiredComponents : List String}
    {now : Int64} {maxLifetime clockSkew : UInt64} {candidate : VerificationCandidate Verifier}
    (h : VerificationCandidate.parse sfv wba c request acceptLegacy requiredComponents now maxLifetime clockSkew =
      .ok candidate) :
    ∃ agentKey agent, Checked sfv wba c request acceptLegacy requiredComponents now maxLifetime clockSkew
      candidate agentKey agent := by
  simp only [VerificationCandidate.parse, bind_ok, ensure_ok, okOr_ok, profileSignatureLabel_ok,
    discoveryTarget_ok] at h
  obtain ⟨label, hlabel, key, hkey, agent, hagent, verifier, hparse, -, rfl, key', hkey', -, rfl, -, halg,
    ⟨⟩, hfresh, ⟨⟩, hcov, keyId, hid, -, hne, ⟨url, mechanism⟩, hitem, -, hsize, target, htarget, h⟩ := h
  cases h
  exact ⟨key', agent, hparse, hlabel, hkey, hkey', hagent, halg, hfresh, hcov, hid, hne, hsize, hitem,
    target, htarget, rfl⟩

end EnvoyWebBotAuth.Gateway
