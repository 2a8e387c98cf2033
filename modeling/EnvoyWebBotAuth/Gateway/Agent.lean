import EnvoyWebBotAuth.Gateway.Candidate
import EnvoyWebBotAuth.Protocol.Identifier
/-!
# The resolved agent is the signed agent

Signature-Agent is merged twice: `select_agent` parses each line and extends a
dictionary, `select_dictionary_member` hands one dictionary to the parser line
after line. `mergeDictionaries_eq_visit` says both give the same dictionary, so
the item that is resolved is the item whose serialisation is signed.
-/
open EnvoyWebBotAuth.Lib EnvoyWebBotAuth.Protocol

namespace EnvoyWebBotAuth.Gateway

variable {sfv : Sfv} {Verifier KeyRing : Type} {wba : WebBotAuth Verifier KeyRing}

/-! ## The two merges -/

theorem mergeDictionaries_eq_visit (h : sfv.Lawful) (values : List String) (d : Dictionary) :
    mergeDictionaries sfv values d = visitDictionaries sfv values d := by
  induction values generalizing d with
  | nil => rfl
  | cons value values ih =>
    rw [mergeDictionaries, visitDictionaries]
    rcases h.entries value with ⟨hp, hv⟩ | ⟨es, hp, hv⟩
    · rw [hp, hv]; rfl
    · rw [hp, hv]
      simp only [Option.bind_some, IndexMap.extend_ofEntries]
      exact ih _

/-- An entry of the merged dictionary was there before or is one of a line. -/
theorem merge_from {values : List String} {k : String} {entry : ListEntry} :
    ∀ {d merged : Dictionary}, mergeDictionaries sfv values d = some merged → merged.get k = some entry →
      d.get k = some entry ∨ ∃ line parsed, sfv.parseDictionary line = some parsed ∧ parsed.get k = some entry := by
  induction values with
  | nil =>
    intro d merged hm hg
    cases hm
    exact .inl hg
  | cons value values ih =>
    intro d merged hm hg
    obtain ⟨parsed, hp, hm⟩ := Option.bind_eq_some_iff.1 hm
    rcases ih hm hg with hext | hline
    · rcases IndexMap.get_extend hext with hold | hnew
      · exact .inl hold
      · exact .inr ⟨value, parsed, hp, IndexMap.get_eq_some_iff.2 hnew⟩
    · exact .inr hline

/-- So what was merged from nothing is in a line. -/
theorem merged_from {values : List String} {k : String} {entry : ListEntry} {merged : Dictionary}
    (hm : mergeDictionaries sfv values IndexMap.empty = some merged) (hg : merged.get k = some entry) :
    ∃ line parsed, sfv.parseDictionary line = some parsed ∧ parsed.get k = some entry := by
  rcases merge_from hm hg with he | hline
  · rw [IndexMap.get_empty] at he
    cases he
  · exact hline

theorem merge_wellFormed (h : sfv.Lawful) {values : List String} {k : String} {item : Item} {merged : Dictionary}
    (hm : mergeDictionaries sfv values IndexMap.empty = some merged) (hg : merged.get k = some (.item item)) :
    sfv.WellFormed item := by
  obtain ⟨line, parsed, hp, hk⟩ := merged_from hm hg
  exact h.wellFormed line parsed k item hp hk

/-! ## Selection and lookup -/

theorem selectAgent_key {values : List String} {k : String} {acceptLegacy : Bool} {agent : SelectedAgent} :
    selectAgent sfv values (some k) acceptLegacy = .ok agent ↔
      ∃ d item, mergeDictionaries sfv values IndexMap.empty = some d ∧ d.get k = some (.item item) ∧
        agent = ⟨item, .dictionary⟩ := by
  unfold selectAgent
  cases hm : mergeDictionaries sfv values IndexMap.empty with
  | none => simp
  | some d =>
    simp only [Option.bind_some]
    split
    · rename_i item hg
      simp [hg, eq_comm]
    · rename_i list hg
      simp [hg]
    · rename_i hg
      simp [hg]

/-- Without a key only a single line that is an item, not a dictionary, is
selected. -/
theorem selectAgent_legacy {values : List String} {acceptLegacy : Bool} {agent : SelectedAgent}
    (h : selectAgent sfv values none acceptLegacy = .ok agent) :
    acceptLegacy = true ∧ ∃ line item, values = [line] ∧ sfv.parseItem line = some item ∧
      agent = ⟨item, .legacyItem⟩ := by
  unfold selectAgent at h
  split at h
  · cases h
  · split at h
    · rename_i hl
      split at h
      · rename_i line _
        obtain ⟨item, hi, h⟩ := bind_ok.1 h
        cases h
        exact ⟨hl.1, line, item, rfl, okOr_ok.1 hi, rfl⟩
      · cases h
    · cases h

def agentMember (k : String) : CoveredComponent := .http ⟨headerSignatureAgent, [.key k]⟩

def agentField : CoveredComponent := .http ⟨headerSignatureAgent, []⟩

theorem lookup_agentMember (r : RequestComponents) (k : String) :
    r.lookupComponent sfv (agentMember k) = (selectDictionaryMember sfv r.signatureAgent k).toList := by
  simp [RequestComponents.lookupComponent, agentMember]

theorem lookup_agentField (r : RequestComponents) : r.lookupComponent sfv agentField = r.signatureAgent := by
  simp [RequestComponents.lookupComponent, agentField]

theorem selectDictionaryMember_eq {values : List String} {k text : String} :
    selectDictionaryMember sfv values k = some text ↔
      ∃ d item, visitDictionaries sfv values IndexMap.empty = some d ∧ d.get k = some (.item item) ∧
        sfv.serializeItem item = text := by
  simp only [selectDictionaryMember, Option.bind_eq_bind, Option.bind_eq_some_iff]
  constructor
  · rintro ⟨d, hv, entry, hg, h⟩
    split at h
    · cases h; exact ⟨d, _, hv, hg, rfl⟩
    · cases h
  · rintro ⟨d, item, hv, hg, rfl⟩
    exact ⟨d, hv, _, hg, rfl⟩

/-- An item is selected under a key exactly if its serialisation is the one
value of the member under that key. -/
theorem selectAgent_iff_lookup (h : sfv.Lawful) (r : RequestComponents) (k : String) (acceptLegacy : Bool)
    {item : Item} (hitem : sfv.WellFormed item) :
    (∃ form, selectAgent sfv r.signatureAgent (some k) acceptLegacy = .ok ⟨item, form⟩) ↔
      r.lookupComponent sfv (agentMember k) = [sfv.serializeItem item] := by
  rw [lookup_agentMember, Option.toList_eq_singleton_iff, selectDictionaryMember_eq,
    ← mergeDictionaries_eq_visit h]
  constructor
  · rintro ⟨form, hs⟩
    obtain ⟨d, item', hm, hg, heq⟩ := selectAgent_key.1 hs
    cases heq
    exact ⟨d, item, hm, hg, rfl⟩
  · rintro ⟨d, item', hm, hg, heq⟩
    have hwf : sfv.WellFormed item' := merge_wellFormed h hm hg
    obtain rfl := h.serialize_inj item' item hwf hitem heq
    exact ⟨.dictionary, selectAgent_key.2 ⟨d, item', hm, hg, rfl⟩⟩

/-! ## The signature base -/

/-- What the agent item has to do with the base: a value in it is the item's
serialisation, or the line the item was parsed from. -/
def AgentSigned (sfv : Sfv) (base : SignatureBase) (agent : SelectedAgent) : Prop :=
  match agent.form with
  | .dictionary => ∃ k, (agentMember k, sfv.serializeItem agent.item) ∈ base.components.entries
  | .legacyItem => ∃ line, (agentField, line) ∈ base.components.entries ∧ sfv.parseItem line = some agent.item

theorem base_entry (hwba : wba.Lawful) {message : SignedMessage} {verifier : Verifier}
    (hparse : wba.parse message = some verifier) {component : CoveredComponent}
    (hc : component ∈ (wba.getParsedLabel verifier).base.components.keys) {x : String}
    (hx : message component = [x]) : (component, x) ∈ (wba.getParsedLabel verifier).base.components.entries := by
  obtain ⟨⟨component', value⟩, he, rfl⟩ := List.mem_map.1 hc
  obtain rfl := hwba.base_value message verifier hparse _ he x hx
  exact he

/-- The agent of a candidate is read from the signed item. -/
theorem checked_agent_signed {c : UrlCrate} (hsfv : sfv.Lawful) (hwba : wba.Lawful) {request : RequestComponents}
    {acceptLegacy : Bool} {required : List String} {now : Int64} {maxLifetime clockSkew : UInt64}
    {candidate : VerificationCandidate Verifier} {agentKey : Option String} {agent : SelectedAgent}
    (h : Checked sfv wba c request acceptLegacy required now maxLifetime clockSkew candidate agentKey agent) :
    AgentSigned sfv (wba.getParsedLabel candidate.verifier).base agent := by
  have hcovered := (validateCoverage_ok.1 h.coverage).2.1
  cases agentKey with
  | some k =>
    obtain ⟨d, item, hm, hg, rfl⟩ := selectAgent_key.1 h.selected
    obtain ⟨k', hk, hmem⟩ := hcovered
    cases hk
    have hwf : sfv.WellFormed item := merge_wellFormed hsfv hm hg
    have hlookup := (selectAgent_iff_lookup hsfv request k acceptLegacy hwf).1 ⟨_, h.selected⟩
    exact ⟨k, base_entry hwba h.parsed hmem hlookup⟩
  | none =>
    obtain ⟨-, line, item, hline, hitem, rfl⟩ := selectAgent_legacy h.selected
    exact ⟨line, base_entry hwba h.parsed hcovered (by rw [← hline]; exact lookup_agentField request), hitem⟩

/-! ## A sample request

One agent signs one request, once in each form. The outside functions are
tables of what they answer on it. -/

def sampleAgentItem : Item := ⟨.string "https://agent.example", IndexMap.empty⟩

def sampleMemberLine : String := "sig1=\"https://agent.example\""

def sampleLegacyLine : String := "\"https://agent.example\""

def sampleInputLine : String :=
  "sig1=(\"@authority\" \"signature-agent\";key=\"sig1\");created=1735689600;expires=1735693200;keyid=\"poqkLGiymh_W0uP6PZFw-dvez3QJT5SolqXBCW38r0U\";tag=\"web-bot-auth\""

/-- The test key's signature of the sample request. -/
def sampleSignatureLine : String :=
  "sig1=:kezWoSbku9HcoYDovvtgYclSC3vCiVdCnC76c29iuNSgS1SFj/q0hqNdMNL+rBOj2b/yk8WBH1v6nRaLEi5WCw==:"

def sampleKeyId : String := "poqkLGiymh_W0uP6PZFw-dvez3QJT5SolqXBCW38r0U"

def sampleAuthorityItem : Item := ⟨.string "@authority", IndexMap.empty⟩

def sampleMemberItem : Item := ⟨.string "signature-agent", IndexMap.ofEntries [("key", .string "sig1")]⟩

def sampleParams : Parameters :=
  IndexMap.ofEntries [("created", .integer 1735689600), ("expires", .integer 1735693200), ("keyid", .string sampleKeyId),
    ("tag", .string "web-bot-auth")]

/-- What a line holds, if it is a dictionary. -/
def sampleEntries (line : String) : Option (List (String × ListEntry)) :=
  if line = sampleMemberLine then some [("sig1", .item sampleAgentItem)]
  else if line = sampleInputLine then some [("sig1", .innerList ⟨[sampleAuthorityItem, sampleMemberItem], sampleParams⟩)]
  else none

def sampleSfv : Sfv where
  parseDictionary line := (sampleEntries line).map IndexMap.ofEntries
  visitDictionary line d := (sampleEntries line).map d.extend
  parseItem line := if line = sampleLegacyLine then some sampleAgentItem else none
  serializeItem item := if item = sampleAgentItem then sampleLegacyLine else ""
  WellFormed item := item = sampleAgentItem

theorem sampleSfv_lawful : sampleSfv.Lawful where
  entries line := by
    cases h : sampleEntries line with
    | none => exact .inl ⟨by simp [sampleSfv, h], by simp [sampleSfv, h]⟩
    | some es => exact .inr ⟨es, by simp [sampleSfv, h], by simp [sampleSfv, h]⟩
  wellFormed line d key item hp hg := by
    simp only [sampleSfv, sampleEntries] at hp
    split at hp
    · cases hp
      have hm := IndexMap.get_eq_some_iff.1 hg
      simp only [IndexMap.ofEntries, IndexMap.extend_cons, IndexMap.extend_nil, IndexMap.insert, IndexMap.empty,
        putEntry, List.mem_singleton, Prod.mk.injEq, ListEntry.item.injEq] at hm
      exact hm.2
    · split at hp
      · cases hp
        have hm := IndexMap.get_eq_some_iff.1 hg
        simp [IndexMap.ofEntries, IndexMap.insert, IndexMap.empty, putEntry] at hm
      · cases hp
  serialize_inj i j hi hj _ := by rw [show i = sampleAgentItem from hi, show j = sampleAgentItem from hj]

def sampleLabel (authority agent : String) : ParsedLabel where
  label := "sig1"
  base := {
    components := IndexMap.ofEntries [(.derived (.authority false), authority), (agentMember "sig1", agent)]
    parameters := ⟨sampleParams, some 1735689600, some 1735693200, some sampleKeyId⟩ }

/-- A digest that knows the thumbprint of one key. -/
def sampleDigest : Digest where
  sha256 bytes := bytes
  encode bytes :=
    if bytes = "\x7b\"crv\":\"Ed25519\",\"kty\":\"OKP\",\"x\":\"JrQLj5P_89iXES9-vFgrIy29clF9CC_oPPsw3c5D0bs\"\x7d".toUTF8.toList
    then sampleKeyId else ""
  decode _ := none

/-- A parsed verifier is the label it verifies, with the sample signature; a key
ring holds one key. -/
def sampleWba : WebBotAuth ParsedLabel String where
  componentOfItem item :=
    if item = sampleAuthorityItem then some (.derived (.authority false))
    else if item = sampleMemberItem then some (agentMember "sig1")
    else none
  parse message :=
    match message (.derived (.authority false)), message (agentMember "sig1") with
    | [authority], [agent] =>
      if message (.http ⟨headerSignature, []⟩) = [sampleSignatureLine] ∧
          message (.http ⟨headerSignatureInput, []⟩) = [sampleInputLine] then
        some (sampleLabel authority agent)
      else none
    | _, _ => none
  getParsedLabel verifier := verifier
  b64Thumbprint okp := Ed25519Jwk.b64Thumbprint sampleDigest ⟨okp.x⟩
  tryImportJwk okp := if okp.crv = "Ed25519" then some okp.x else none
  verify verifier keyring :=
    verifier = sampleLabel "example.test" sampleLegacyLine ∧ keyring = "JrQLj5P_89iXES9-vFgrIy29clF9CC_oPPsw3c5D0bs"

theorem sampleWba_parse {message : SignedMessage} {verifier : ParsedLabel} (h : sampleWba.parse message = some verifier) :
    ∃ authority agent, message (.derived (.authority false)) = [authority] ∧ message (agentMember "sig1") = [agent] ∧
      verifier = sampleLabel authority agent := by
  simp only [sampleWba] at h
  split at h
  · rename_i authority agent ha hg
    split at h
    · exact ⟨authority, agent, ha, hg, (Option.some.inj h).symm⟩
    · cases h
  · cases h

theorem sampleWba_lawful : sampleWba.Lawful where
  base_value message verifier h e he x hx := by
    obtain ⟨authority, agent, ha, hg, rfl⟩ := sampleWba_parse h
    have hm : e = (.derived (.authority false), authority) ∨ e = (agentMember "sig1", agent) := by
      simpa [sampleWba, sampleLabel, IndexMap.ofEntries, IndexMap.insert, IndexMap.empty, putEntry, agentMember] using he
    rcases hm with rfl | rfl
    · rw [ha] at hx; cases hx; rfl
    · rw [hg] at hx; cases hx; rfl

def sampleRequest (agentLine : String) : RequestComponents :=
  { RequestComponents.fromPseudoHeaders "GET" "example.test" "/" with
    signature := [sampleSignatureLine], signatureInput := [sampleInputLine], signatureAgent := [agentLine] }

def sampleCandidate : VerificationCandidate ParsedLabel where
  verifier := sampleLabel "example.test" sampleLegacyLine
  discovery := .directory
  signedUrl := "https://agent.example"
  normalizedIdentifier := "https://agent.example/.well-known/http-message-signatures-directory"
  keyId := sampleKeyId

theorem sampleRequest_parse :
    VerificationCandidate.parse sampleSfv sampleWba sampleUrls (sampleRequest sampleMemberLine) false ["@authority"]
      1735690000 86400 5 = .ok sampleCandidate := by
  decide +kernel

/-! ## The agent -/

/-- The agent that is resolved is the agent that was signed. -/
theorem resolved_agent_is_signed (c : UrlCrate) (hsfv : sfv.Lawful) (hwba : wba.Lawful) :
    (∀ (r : RequestComponents) (k : String) (acceptLegacy : Bool) (item : Item), sfv.WellFormed item →
      ((∃ form, selectAgent sfv r.signatureAgent (some k) acceptLegacy = .ok ⟨item, form⟩) ↔
        r.lookupComponent sfv (agentMember k) = [sfv.serializeItem item])) ∧
    (∀ (r : RequestComponents) (item : Item),
      selectAgent sfv r.signatureAgent none true = .ok ⟨item, .legacyItem⟩ →
        ∃ line, r.signatureAgent = [line] ∧ r.lookupComponent sfv agentField = [line] ∧
          sfv.parseItem line = some item) ∧
    ∀ (request : RequestComponents) (acceptLegacy : Bool) (required : List String) (now : Int64)
      (maxLifetime clockSkew : UInt64) (candidate : VerificationCandidate Verifier),
      VerificationCandidate.parse sfv wba c request acceptLegacy required now maxLifetime clockSkew =
        .ok candidate →
      ∃ agentKey agent, selectAgent sfv request.signatureAgent agentKey acceptLegacy = .ok agent ∧
        parseAgent agent.item = .ok (candidate.signedUrl, candidate.discovery) ∧
        AgentSigned sfv (wba.getParsedLabel candidate.verifier).base agent := by
  refine ⟨fun r k acceptLegacy item hitem => selectAgent_iff_lookup hsfv r k acceptLegacy hitem, ?_, ?_⟩
  · intro r item h
    obtain ⟨-, line, item', hline, hitem, heq⟩ := selectAgent_legacy h
    cases heq
    exact ⟨line, hline, (lookup_agentField r).trans hline, hitem⟩
  · intro request acceptLegacy required now maxLifetime clockSkew candidate h
    obtain ⟨agentKey, agent, hchecked⟩ := parse_ok sfv wba c h
    exact ⟨agentKey, agent, hchecked.selected, hchecked.agentItem, checked_agent_signed hsfv hwba hchecked⟩

theorem resolved_agent_is_signed_sample :
    (sampleRequest sampleMemberLine).lookupComponent sampleSfv (agentMember "sig1") =
      [sampleSfv.serializeItem sampleAgentItem] ∧
    (∃ line, (sampleRequest sampleLegacyLine).signatureAgent = [line] ∧
      (sampleRequest sampleLegacyLine).lookupComponent sampleSfv agentField = [line] ∧
      sampleSfv.parseItem line = some sampleAgentItem) ∧
    ∃ agentKey agent, selectAgent sampleSfv [sampleMemberLine] agentKey false = .ok agent ∧
      parseAgent agent.item = .ok ("https://agent.example", .directory) ∧
      AgentSigned sampleSfv sampleCandidate.verifier.base agent :=
  have h := resolved_agent_is_signed sampleUrls sampleSfv_lawful sampleWba_lawful
  ⟨(h.1 (sampleRequest sampleMemberLine) "sig1" false sampleAgentItem rfl).1 ⟨.dictionary, by decide +kernel⟩,
    h.2.1 (sampleRequest sampleLegacyLine) sampleAgentItem (by decide +kernel),
    h.2.2 (sampleRequest sampleMemberLine) false ["@authority"] 1735690000 86400 5 sampleCandidate
      sampleRequest_parse⟩

end EnvoyWebBotAuth.Gateway
