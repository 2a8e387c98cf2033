import EnvoyWebBotAuth.Gateway.Agent
/-!
# Legacy support only adds requests

`accept_legacy` is looked at only where the agent is selected, and there only
if a line is no dictionary and no member is named. So whatever is accepted
without it is accepted with it, and as the same candidate.
-/
open EnvoyWebBotAuth.Lib EnvoyWebBotAuth.Protocol

namespace EnvoyWebBotAuth.Gateway

/-- Every Signature-Agent line is a dictionary. -/
def ReadableAgent (sfv : Sfv) (request : RequestComponents) : Prop :=
  ∀ line ∈ request.signatureAgent, (sfv.parseDictionary line).isSome

/-- The component covers the Signature-Agent field or a member of it. -/
def coversSignatureAgent : CoveredComponent → Bool
  | .http field => field.name = "signature-agent"
  | .derived _ => false

/-- What is to hold of a request that is accepted in the legacy form only. -/
structure AcceptedAsLegacy (sfv : Sfv) {Verifier KeyRing : Type} (wba : WebBotAuth Verifier KeyRing)
    (request : RequestComponents) (candidate : VerificationCandidate Verifier) : Prop where
  /-- One line, which is no dictionary but the item of the agent URL. -/
  line : ∃ line item, request.signatureAgent = [line] ∧ sfv.parseDictionary line = none ∧
    sfv.parseItem line = some item ∧ item.bareItem = .string candidate.signedUrl
  /-- The first component that covers Signature-Agent names no member. -/
  field : (wba.getParsedLabel candidate.verifier).base.components.keys.find? coversSignatureAgent = some agentField

section Selection

variable {sfv : Sfv} {values : List String} {agentKey : Option String} {agent : SelectedAgent}

theorem mergeDictionaries_isSome (d : Dictionary) :
    (mergeDictionaries sfv values d).isSome ↔ ∀ line ∈ values, (sfv.parseDictionary line).isSome := by
  induction values generalizing d with
  | nil => simp [mergeDictionaries]
  | cons value values ih =>
    rw [mergeDictionaries, List.forall_mem_cons]
    cases sfv.parseDictionary value with
    | none => simp
    | some parsed => simp [ih]

/-- If the lines are dictionaries, the flag is not looked at. -/
theorem selectAgent_readable (h : ∀ line ∈ values, (sfv.parseDictionary line).isSome) (acceptLegacy : Bool) :
    selectAgent sfv values agentKey acceptLegacy = selectAgent sfv values agentKey false := by
  obtain ⟨d, hd⟩ := Option.isSome_iff_exists.1 ((mergeDictionaries_isSome IndexMap.empty).2 h)
  unfold selectAgent
  rw [hd]

/-- Without the flag only dictionaries are selected from. -/
theorem readable_of_selectAgent (h : selectAgent sfv values agentKey false = .ok agent) :
    ∀ line ∈ values, (sfv.parseDictionary line).isSome := by
  rw [← mergeDictionaries_isSome IndexMap.empty]
  unfold selectAgent at h
  split at h
  · rename_i d hd
    rw [hd, Option.isSome_some]
  · rw [if_neg (by simp)] at h
    cases h

/-- What is selected with the flag only is the item on the one line. -/
theorem selectAgent_added (h : selectAgent sfv values agentKey true = .ok agent)
    (hno : selectAgent sfv values agentKey false ≠ .ok agent) :
    agentKey = none ∧ ∃ line, values = [line] ∧ sfv.parseDictionary line = none ∧
      sfv.parseItem line = some agent.item := by
  have hkey : agentKey = none := by
    cases agentKey with
    | none => rfl
    | some k => exact absurd (selectAgent_key.2 (selectAgent_key.1 h)) hno
  subst hkey
  obtain ⟨-, line, item, rfl, hitem, rfl⟩ := selectAgent_legacy h
  refine ⟨rfl, line, rfl, ?_, hitem⟩
  cases hd : sfv.parseDictionary line with
  | none => rfl
  | some d =>
    have hreadable : ∀ l ∈ [line], (sfv.parseDictionary l).isSome := by simp [hd]
    rw [selectAgent_readable hreadable] at h
    exact absurd h hno

end Selection

theorem signedAgentMemberKey_none {components : IndexMap CoveredComponent String}
    (h : signedAgentMemberKey components = .ok none) : components.keys.find? coversSignatureAgent = some agentField := by
  unfold signedAgentMemberKey at h
  generalize components.keys = keys at h ⊢
  induction keys with
  | nil => cases h
  | cons x xs ih =>
    rw [List.findSome?_cons] at h
    rw [List.find?_cons]
    cases x with
    | derived component => exact ih h
    | http field =>
      by_cases hname : field.name = "signature-agent"
      · simp only [hname, if_true, Option.getD_some] at h
        simp only [coversSignatureAgent, hname, decide_true]
        unfold agentFieldKey at h
        split at h
        · rename_i hparameters
          rw [agentField, headerSignatureAgent, ← hname, ← hparameters]
        · cases h
        · cases h
      · simp only [hname, if_false] at h
        simp only [coversSignatureAgent, hname, decide_false]
        exact ih h

section Parse

variable (sfv : Sfv) {Verifier KeyRing : Type} (wba : WebBotAuth Verifier KeyRing) (c : UrlCrate)
  (request : RequestComponents) (requiredComponents : List String) (now : Int64) (maxLifetime clockSkew : UInt64)

/-- The flag is for the selection of the agent. -/
theorem parse_flag : ∃ goOn : String → Option String → SelectedAgent →
      Except CandidateError (VerificationCandidate Verifier),
    ∀ acceptLegacy, VerificationCandidate.parse sfv wba c request acceptLegacy requiredComponents now maxLifetime
      clockSkew = (do
        let label ← profileSignatureLabel sfv request.signatureInput
        let agentKey ← signatureAgentKeyFromInput sfv wba request.signatureInput label
        let agent ← selectAgent sfv request.signatureAgent agentKey acceptLegacy
        goOn label agentKey agent) :=
  ⟨_, fun _ => rfl⟩

variable {sfv wba c request requiredComponents now maxLifetime clockSkew}

theorem parse_readable (h : ReadableAgent sfv request) (acceptLegacy : Bool) :
    VerificationCandidate.parse sfv wba c request acceptLegacy requiredComponents now maxLifetime clockSkew =
      VerificationCandidate.parse sfv wba c request false requiredComponents now maxLifetime clockSkew := by
  obtain ⟨goOn, heq⟩ := parse_flag sfv wba c request requiredComponents now maxLifetime clockSkew
  simp only [heq, selectAgent_readable h acceptLegacy]

/-- A request that is accepted without the flag has readable lines. -/
theorem readable_of_parse {candidate : VerificationCandidate Verifier}
    (h : VerificationCandidate.parse sfv wba c request false requiredComponents now maxLifetime clockSkew =
      .ok candidate) : ReadableAgent sfv request := by
  obtain ⟨agentKey, agent, hchecked⟩ := parse_ok sfv wba c h
  exact readable_of_selectAgent hchecked.selected

theorem acceptedAsLegacy {candidate : VerificationCandidate Verifier}
    (h : VerificationCandidate.parse sfv wba c request true requiredComponents now maxLifetime clockSkew =
      .ok candidate)
    (hno : ∀ other, VerificationCandidate.parse sfv wba c request false requiredComponents now maxLifetime
      clockSkew ≠ .ok other) : AcceptedAsLegacy sfv wba request candidate := by
  obtain ⟨agentKey, agent, hchecked⟩ := parse_ok sfv wba c h
  have hadded : selectAgent sfv request.signatureAgent agentKey false ≠ .ok agent := by
    intro hs
    rw [parse_readable (readable_of_selectAgent hs)] at h
    exact hno candidate h
  obtain ⟨rfl, line, hline, hdictionary, hitem⟩ := selectAgent_added hchecked.selected hadded
  exact ⟨⟨line, agent.item, hline, hdictionary, hitem, parseAgent_string hchecked.agentItem⟩,
    signedAgentMemberKey_none hchecked.signedKey⟩

end Parse

theorem legacy_only_adds (sfv : Sfv) {Verifier KeyRing : Type} (wba : WebBotAuth Verifier KeyRing) (c : UrlCrate)
    (request : RequestComponents) (requiredComponents : List String) (now : Int64) (maxLifetime clockSkew : UInt64) :
    (∀ candidate,
      VerificationCandidate.parse sfv wba c request false requiredComponents now maxLifetime clockSkew = .ok candidate →
      VerificationCandidate.parse sfv wba c request true requiredComponents now maxLifetime clockSkew = .ok candidate) ∧
    (∀ candidate,
      VerificationCandidate.parse sfv wba c request true requiredComponents now maxLifetime clockSkew = .ok candidate →
      (∀ other, VerificationCandidate.parse sfv wba c request false requiredComponents now maxLifetime clockSkew ≠
        .ok other) → AcceptedAsLegacy sfv wba request candidate) ∧
    (ReadableAgent sfv request →
      VerificationCandidate.parse sfv wba c request true requiredComponents now maxLifetime clockSkew =
        VerificationCandidate.parse sfv wba c request false requiredComponents now maxLifetime clockSkew) := by
  refine ⟨fun candidate h => ?_, fun candidate h hno => acceptedAsLegacy h hno, fun h => parse_readable h true⟩
  rw [parse_readable (readable_of_parse h)]
  exact h

end EnvoyWebBotAuth.Gateway
