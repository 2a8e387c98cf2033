import EnvoyWebBotAuth.Gateway.Candidate
/-!
# Required components

Which component a required name stands for, and what `validate_coverage` makes
of a list of names a configuration accepts. The filter resolves a component for
every such name, but the coverage check has no name for two of them
(`unnamed`), so a list that requires one of these is met by no request.
-/
open EnvoyWebBotAuth.Lib EnvoyWebBotAuth.Protocol

namespace EnvoyWebBotAuth.Gateway

/-- The derived component a required name stands for. -/
def derivedComponent : String → Option DerivedComponent
  | "@method" => some (.method false)
  | "@authority" => some (.authority false)
  | "@scheme" => some (.scheme false)
  | "@target-uri" => some (.targetUri false)
  | "@path" => some (.path false)
  | "@query" => some (.query false)
  | _ => none

/-- The name is covered, as a derived component or as a field. -/
def CoversName (keys : List CoveredComponent) (name : String) : Prop :=
  (∃ component, derivedComponent name = some component ∧ .derived component ∈ keys) ∨
    ∃ parameters, .http ⟨name, parameters⟩ ∈ keys

structure Covers (keys : List CoveredComponent) (agentKey : Option String) (agentForm : SignatureAgentForm)
    (requiredComponents : List String) : Prop where
  authority : .derived (.authority false) ∈ keys ∨ .derived (.targetUri false) ∈ keys
  agent : AgentCovered keys agentKey agentForm
  required : ∀ name ∈ requiredComponents, CoversName keys name

/-- The accepted names `validate_coverage` has no derived component for. -/
def unnamed : List String := ["@scheme", "@query"]

/-- A component some request has a value for counts as the name. -/
def Satisfiable (sfv : Sfv) (name : String) : Prop :=
  ∃ component, coverageName component = some name ∧ ∃ request : RequestComponents,
    request.lookupComponent sfv component ≠ []

/-- A derived component counts as the name that stands for it, except for two. -/
theorem coverageName_derived {component : DerivedComponent} {name : String} :
    coverageName (.derived component) = some name ↔ derivedComponent name = some component ∧ name ∉ unnamed := by
  constructor
  · intro h
    unfold coverageName at h
    split at h
    case h_6 => cases h
    all_goals
      rename_i hc
      cases hc
    all_goals
      cases h
      exact ⟨rfl, by decide⟩
  · rintro ⟨h, hn⟩
    unfold derivedComponent at h
    split at h
    case h_3 => exact absurd (by decide) hn
    case h_6 => exact absurd (by decide) hn
    all_goals cases h
    all_goals rfl

/-- What counts as a name covers it; what covers it counts, but for two names. -/
theorem counted_iff {keys : List CoveredComponent} {name : String} :
    (∃ x ∈ keys, coverageName x = some name) ↔
      CoversName keys name ∧ (name ∈ unnamed → ∃ parameters, .http ⟨name, parameters⟩ ∈ keys) := by
  constructor
  · rintro ⟨x, hx, hname⟩
    cases x with
    | http field =>
      obtain ⟨fieldName, parameters⟩ := field
      obtain rfl : fieldName = name := Option.some.inj hname
      exact ⟨.inr ⟨parameters, hx⟩, fun _ => ⟨parameters, hx⟩⟩
    | derived component =>
      obtain ⟨hd, hn⟩ := coverageName_derived.1 hname
      exact ⟨.inl ⟨component, hd, hx⟩, fun h => absurd h hn⟩
  · rintro ⟨⟨component, hd, hx⟩ | ⟨parameters, hx⟩, hfield⟩
    · by_cases hn : name ∈ unnamed
      · obtain ⟨parameters, hx⟩ := hfield hn
        exact ⟨_, hx, rfl⟩
      · exact ⟨_, hx, coverageName_derived.2 ⟨hd, hn⟩⟩
    · exact ⟨_, hx, rfl⟩

theorem validateCoverage_covers {components : IndexMap CoveredComponent String} {agentKey : Option String}
    {agentForm : SignatureAgentForm} {requiredComponents : List String} :
    validateCoverage components agentKey agentForm requiredComponents = .ok () ↔
      Covers components.keys agentKey agentForm requiredComponents ∧
      ∀ name ∈ requiredComponents, name ∈ unnamed → ∃ parameters, .http ⟨name, parameters⟩ ∈ components.keys := by
  rw [validateCoverage_ok]
  simp only [counted_iff]
  constructor
  · rintro ⟨hauthority, hagent, hrequired⟩
    exact ⟨⟨hauthority, hagent, fun name hn => (hrequired name hn).1⟩, fun name hn => (hrequired name hn).2⟩
  · rintro ⟨hc, hfields⟩
    exact ⟨hc.authority, hc.agent, fun name hn => ⟨hc.required name hn, hfields name hn⟩⟩

/-! ## What can be required -/

/-- A message in which every component a name stands for is covered. -/
def fullyCovered : IndexMap CoveredComponent String where
  entries := [(.derived (.method false), "GET"), (.derived (.authority false), "example.com"),
    (.derived (.scheme false), "https"), (.derived (.targetUri false), "https://example.com/"),
    (.derived (.path false), "/"), (.derived (.query false), ""), (.http ⟨"signature", []⟩, "sig1=:AA==:"),
    (.http ⟨"signature-input", []⟩, "sig1=()"), (.http ⟨"signature-agent", []⟩, "\"https://agent.example\"")]
  nodup := by decide

theorem agentCovered_fullyCovered : AgentCovered fullyCovered.keys none .legacyItem := by
  unfold AgentCovered
  decide

theorem coversName_fullyCovered {name : String} (h : validComponentName name = true) :
    CoversName fullyCovered.keys name := by
  simp only [validComponentName, decide_eq_true_eq, List.mem_cons, List.not_mem_nil, or_false] at h
  rcases h with rfl | rfl | rfl | rfl | rfl | rfl | rfl | rfl | rfl
  all_goals first
    | exact .inl ⟨_, rfl, by decide⟩
    | exact .inr ⟨[], by decide⟩

/-- The filter has a value for a field of no other name. -/
theorem lookup_field {sfv : Sfv} {request : RequestComponents} {name : String} {parameters : List HTTPFieldParameter}
    (h : request.lookupComponent sfv (.http ⟨name, parameters⟩) ≠ []) :
    name ∈ [headerSignatureAgent, headerSignature, headerSignatureInput] := by
  by_contra hn
  simp only [List.mem_cons, List.not_mem_nil, or_false, not_or] at hn
  obtain ⟨hagent, hsignature, hinput⟩ := hn
  apply h
  unfold RequestComponents.lookupComponent
  simp only [if_neg hagent, if_neg hsignature, if_neg hinput, ite_self]

theorem satisfiable_iff {sfv : Sfv} {name : String} (h : validComponentName name = true) :
    Satisfiable sfv name ↔ name ∉ unnamed := by
  constructor
  · rintro ⟨component, hname, request, hvalue⟩ hn
    cases component with
    | http field =>
      obtain ⟨fieldName, parameters⟩ := field
      obtain rfl : fieldName = name := Option.some.inj hname
      have hfield := lookup_field hvalue
      simp only [unnamed, List.mem_cons, List.not_mem_nil, or_false] at hn
      rcases hn with rfl | rfl
      · exact absurd hfield (by decide)
      · exact absurd hfield (by decide)
    | derived component => exact (coverageName_derived.1 hname).2 hn
  · intro hn
    simp only [validComponentName, decide_eq_true_eq, List.mem_cons, List.not_mem_nil, or_false] at h
    let request : RequestComponents := ⟨"GET", "https", "example.com", "/", "", ["sig1=:AA==:"], ["sig1=()"], ["agent"]⟩
    rcases h with rfl | rfl | rfl | rfl | rfl | rfl | rfl | rfl | rfl
    · exact ⟨.derived (.method false), rfl, request, nofun⟩
    · exact ⟨.derived (.authority false), rfl, request, nofun⟩
    · exact absurd (by decide) hn
    · exact ⟨.derived (.targetUri false), rfl, request, nofun⟩
    · exact ⟨.derived (.path false), rfl, request, nofun⟩
    · exact absurd (by decide) hn
    · exact ⟨.http ⟨"signature", []⟩, rfl, request, nofun⟩
    · exact ⟨.http ⟨"signature-input", []⟩, rfl, request, nofun⟩
    · exact ⟨.http ⟨"signature-agent", []⟩, rfl, request, nofun⟩

/-- The check is exact for a list of names, and each of them can be met, just
when the list requires neither of the two that have no name. -/
theorem coverage_exact_iff {fromSlice : List UInt8 → Option Settings} {config : List UInt8} {settings : Settings}
    (sfv : Sfv) (h : Settings.parse fromSlice config = .ok settings) :
    ((∀ components agentKey agentForm,
        validateCoverage components agentKey agentForm settings.requiredComponents = .ok () ↔
          Covers components.keys agentKey agentForm settings.requiredComponents) ↔
      "@scheme" ∉ settings.requiredComponents ∧ "@query" ∉ settings.requiredComponents) ∧
    ((∀ name ∈ settings.requiredComponents, Satisfiable sfv name) ↔
      "@scheme" ∉ settings.requiredComponents ∧ "@query" ∉ settings.requiredComponents) := by
  have hvalid := settings_parse_components h
  have hunnamed : ("@scheme" ∉ settings.requiredComponents ∧ "@query" ∉ settings.requiredComponents) ↔
      ∀ name ∈ settings.requiredComponents, name ∉ unnamed := by
    simp only [unnamed, List.mem_cons, List.not_mem_nil, or_false, not_or]
    constructor
    · rintro ⟨hs, hq⟩ name hn
      exact ⟨fun he => hs (he ▸ hn), fun he => hq (he ▸ hn)⟩
    · intro hall
      exact ⟨fun hs => (hall _ hs).1 rfl, fun hq => (hall _ hq).2 rfl⟩
  rw [hunnamed]
  constructor
  · constructor
    · intro hexact name hn hu
      have hcovers : Covers fullyCovered.keys none .legacyItem settings.requiredComponents :=
        ⟨.inl (by decide), agentCovered_fullyCovered, fun name hn => coversName_fullyCovered (hvalid name hn)⟩
      -- no request has a field of this name
      obtain ⟨parameters, hfield⟩ := (validateCoverage_covers.1 ((hexact _ _ _).2 hcovers)).2 name hn hu
      simp only [unnamed, List.mem_cons, List.not_mem_nil, or_false] at hu
      rcases hu with rfl | rfl <;> simp [fullyCovered, IndexMap.keys] at hfield
    · intro hnone components agentKey agentForm
      rw [validateCoverage_covers]
      exact ⟨And.left, fun hc => ⟨hc, fun name hn hu => absurd hu (hnone name hn)⟩⟩
  · constructor
    · intro hall name hn
      exact (satisfiable_iff (hvalid name hn)).1 (hall name hn)
    · intro hnone name hn
      exact (satisfiable_iff (hvalid name hn)).2 (hnone name hn)

/-- Requiring the query, as the documentation allows. -/
def queryRequired : Settings := { requiredComponents := ["@query"] }

theorem coverage_exact_iff_sample :
    (validateCoverage fullyCovered none .legacyItem ["@method", "@target-uri"] = .ok () ↔
      Covers fullyCovered.keys none .legacyItem ["@method", "@target-uri"]) ∧
    Satisfiable ⟨fun _ => none, fun _ _ => none, fun _ => none, fun _ => "", fun _ => True⟩ "@method" := by
  have h : Settings.parse (fun _ => some { requiredComponents := ["@method", "@target-uri"] }) [123] =
      .ok { requiredComponents := ["@method", "@target-uri"] } := by decide
  obtain ⟨hexact, hmet⟩ :=
    coverage_exact_iff ⟨fun _ => none, fun _ _ => none, fun _ => none, fun _ => "", fun _ => True⟩ h
  exact ⟨hexact.2 (by decide) _ _ _, hmet.2 (by decide) _ (by simp)⟩

/-- A configuration that requires the query is accepted, and refuses a request
that covers every component. -/
theorem query_never_covered : Settings.parse (fun _ => some queryRequired) [123] = .ok queryRequired ∧
    Covers fullyCovered.keys none .legacyItem queryRequired.requiredComponents ∧
    validateCoverage fullyCovered none .legacyItem queryRequired.requiredComponents = .error .missingRequiredComponent := by
  refine ⟨by decide, ⟨.inl (by decide), agentCovered_fullyCovered, ?_⟩, by decide⟩
  intro name hn
  obtain rfl := List.mem_singleton.1 hn
  exact .inl ⟨_, rfl, by decide⟩

end EnvoyWebBotAuth.Gateway
