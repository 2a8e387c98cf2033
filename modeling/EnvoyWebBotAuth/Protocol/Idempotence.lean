import EnvoyWebBotAuth.Protocol.Identifier
/-!
# Normalising twice

Normalising decodes, changes the case of escapes and drops dot segments in one
pass each. A second pass finds work only where literals of the first come to
look like an escape that is not written so; `Stable` tokens have none. On these
paths normalising is idempotent, and on no others.
-/
open EnvoyWebBotAuth.Lib

namespace EnvoyWebBotAuth.Protocol

/-! ## Paths -/

theorem normalizePath_slash (path : List Char) : normalizePath ('/' :: path) =
    '/' :: rfcDots.removeDots '/' (pathEncoding.render (pathEncoding.canonical path)) := by
  have hslash : normalizePercentEncoding ('/' :: path) = '/' :: normalizePercentEncoding path := by
    rw [normalizePercentEncoding]
    intro high low rest h
    simp at h
  rw [normalizePath, hslash, normalize_eq_render, removeDotSegments_eq]

/-- The dot segments of tokens are those of their text. -/
theorem tokenForms_rfcDots : pathEncoding.tokenForms rfcDots = tokenDots := by
  have hrender : ∀ ts (text : List Char), '%' ∉ text →
      (pathEncoding.render ts = text ↔ ts = text.map .literal) := by
    intro ts text hp
    constructor
    · rintro rfl
      exact pathEncoding.literals_of_render hp
    · rintro rfl
      simp [PercentEncoding.render, List.flatMap_map, PercentEncoding.write]
  have hsingle : (pathEncoding.tokenForms rfcDots).single = tokenDots.single := by
    funext ts
    exact decide_eq_decide.2 (hrender ts ['.'] (by decide))
  have hdouble : (pathEncoding.tokenForms rfcDots).double = tokenDots.double := by
    funext ts
    exact decide_eq_decide.2 (hrender ts ['.', '.'] (by decide))
  exact DotForms.ext_forms hsingle hdouble rfl

theorem stable_slash {ts : List Token} : pathEncoding.Stable (.literal '/' :: ts) ↔ pathEncoding.Stable ts := by
  have hslash : pathEncoding.rewritten (.literal '/' :: ts) = false := pathEncoding.rewritten_of_ne_percent (by decide) ts
  simp only [PercentEncoding.Stable, hslash, true_and]

theorem normalizePath_again_iff (path : List Char) :
    normalizePath (normalizePath ('/' :: path)) = normalizePath ('/' :: path) ↔
      pathEncoding.Stable (canonicalTokens ('/' :: path)) := by
  rw [normalizePath_slash path, normalizePath_slash, List.cons.injEq, canonicalTokens, stable_slash,
    ← tokenForms_rfcDots]
  simp only [true_and]
  exact pathEncoding.removeDots_again_iff rfcDots (by decide) slash_no_digit path

/-! ## URLs -/

variable {c : UrlCrate}

/-- Every mechanism gives an accepted URL; the directory's has a path of its own. -/
theorem accepted_of_parse (hc : c.Lawful) {value : String} {m : DiscoveryMechanism} {target : DiscoveryTarget}
    (h : parseDiscoveryTarget c value m = .ok target) :
    Accepted c target.fetchUrl target.normalizedIdentifier := by
  by_cases hm : m = .directory
  · subst hm
    unfold parseDiscoveryTarget at h
    split at h
    · cases h
    · split at h
      · cases h
      · rename_i url hurl
        simp only [if_true, true_and] at h
        repeat' split at h
        all_goals cases h
        rename_i hs hh hu _
        simp only [not_not, not_or, Option.not_isSome_iff_eq_none] at hs hu
        have hv : c.Valid url := .parsed hurl
        have hvalid : c.Valid (c.setPath url directoryPath) := .setPath _ hv
        rw [setPath_directory hc hv hs] at hvalid ⊢
        exact ⟨.setFragment hvalid, hs, hh, hu, rfl, rfl⟩
  · exact parse_accepted hm h

/-- The tokens of the identifier's path, without what the URL parser takes for
dot segments and the segments it goes up from. -/
def identifierTokens (url : Url) : List Token :=
  (pathEncoding.tokenForms urlDots).removeDots (.literal '/') (pathEncoding.canonical url.pathTail)

theorem identifierPath_again_iff (url : Url) :
    identifierPath (identifierPath url.pathTail) = identifierPath url.pathTail ↔
      pathEncoding.Stable (identifierTokens url) :=
  pathEncoding.removeDots_again_iff urlDots (by decide) slash_no_digit url.pathTail

/-- The normalised URL is accepted, from its own text. -/
theorem accepted_normalizedUrl (hc : c.Lawful) {url : Url} {identifier : String} (h : Accepted c url identifier) :
    Accepted c (normalizedUrl c url) (c.asStr (normalizedUrl c (normalizedUrl c url))) := by
  have hvalid : c.Valid (normalizedUrl c url) := .setPath _ (.setFragment (.setQuery h.valid))
  have heq := normalizedUrl_eq hc h.valid h.scheme
  constructor
  · exact hvalid
  · rw [heq]
    exact h.scheme
  · rw [heq]
    exact h.host
  · rw [heq]
    exact h.userInfo
  · rw [heq]
  · rfl

theorem normalizedUrl_again_iff (hc : c.Lawful) {url : Url} {identifier : String} (h : Accepted c url identifier) :
    c.asStr (normalizedUrl c (normalizedUrl c url)) = identifier ↔ pathEncoding.Stable (identifierTokens url) := by
  have hagain := accepted_normalizedUrl hc h
  have htail : (normalizedUrl c url).pathTail = identifierPath url.pathTail := by
    rw [normalizedUrl_eq hc h.valid h.scheme]
    simp [Url.pathTail]
  rw [← identifierPath_again_iff, h.identifier]
  constructor
  · intro heq
    have htext := hc.roundTrip _ (accepted_normalizedUrl hc hagain).valid (accepted_normalizedUrl hc hagain).scheme
    rw [heq, hc.roundTrip _ hagain.valid hagain.scheme] at htext
    have hurl := congrArg Url.pathTail (Option.some.inj htext)
    rw [htail, normalizedUrl_eq hc hagain.valid hagain.scheme, htail] at hurl
    simpa [Url.pathTail] using hurl.symm
  · intro heq
    rw [normalizedUrl_eq hc hagain.valid hagain.scheme, htail, heq, normalizedUrl_eq hc h.valid h.scheme]

/-- No escape of an unreserved octet, none with a lower-case digit, and no dot
segment, escaped or not. -/
structure NormalPath (path : List Char) : Prop where
  escapes : ∀ h l high low, ['%', h, l] <:+: path → hexValue h = some high → hexValue l = some low →
    unreserved (escapedByte high low) = false ∧ h = hexDigit high ∧ l = hexDigit low
  dots : ∀ s ∈ path.splitOn '/', urlDots.Plain s

theorem normalPath_iff (url : Url) : NormalPath (identifierPath url.pathTail) ↔
    pathEncoding.Stable (identifierTokens url) := by
  have hwrite : ∀ h l high low, pathEncoding.write (pathEncoding.decode (.octet (high, low))) = ['%', h, l] ↔
      unreserved (escapedByte high low) = false ∧ h = hexDigit high ∧ l = hexDigit low := by
    intro h l high low
    have hplain : pathEncoding.plain (high, low) =
        if unreserved (escapedByte high low) then some (escapedByte high low) else none := rfl
    cases hu : unreserved (escapedByte high low) with
    | true => simp [PercentEncoding.decode, hplain, hu, PercentEncoding.write]
    | false =>
      have hdigits : PercentEncoding.write pathEncoding (.octet (high, low)) = ['%', hexDigit high, hexDigit low] := rfl
      simp only [PercentEncoding.decode, hplain, hu, hdigits, Bool.false_eq_true, if_false, List.cons.injEq, true_and,
        and_true]
      exact and_congr eq_comm eq_comm
  have hliterals : pathEncoding.render ((identifierPath url.pathTail).map .literal) = identifierPath url.pathTail := by
    simp [PercentEncoding.render, List.flatMap_map, PercentEncoding.write]
  have hstable : pathEncoding.Stable ((identifierPath url.pathTail).map .literal) ↔
      pathEncoding.Stable (identifierTokens url) := by
    have hreserved : ∀ t ∈ (identifierPath url.pathTail).map .literal, pathEncoding.Reserved t := by
      intro t ht
      obtain ⟨ch, -, rfl⟩ := List.mem_map.1 ht
      trivial
    rw [← pathEncoding.canonical_render_iff hreserved, hliterals, ← identifierPath_again_iff]
    exact (pathEncoding.removeDots_canonical_iff urlDots (urlDots.plain_removeDots '/' _)).symm
  rw [← hstable, pathEncoding.stable_literals_iff]
  constructor
  · intro hnormal h l high low hin hh hl
    exact (hwrite h l high low).2 (hnormal.escapes h l high low hin hh hl)
  · intro hall
    exact ⟨fun h l high low hin hh hl => (hwrite h l high low).1 (hall h l high low hin hh hl),
      urlDots.plain_removeDots '/' _⟩

/-- Normalising a path twice is normalising it once just when its tokens are
stable. The identifier of an accepted URL is its own identifier, if it is not
too long to be parsed, and is in normal form, just when what is kept of the
tokens of its path is stable. -/
theorem normalization_idempotent_iff (hc : c.Lawful) :
    (∀ path : List Char, path.head? = some '/' →
      (normalizePath (normalizePath path) = normalizePath path ↔ pathEncoding.Stable (canonicalTokens path))) ∧
    ∀ value m target, parseDiscoveryTarget c value m = .ok target →
      ((∃ again, parseDiscoveryTarget c target.normalizedIdentifier .jwksUri = .ok again ∧
          again.normalizedIdentifier = target.normalizedIdentifier) ↔
        target.normalizedIdentifier.utf8ByteSize ≤ maxAgentUrlBytes ∧
          pathEncoding.Stable (identifierTokens target.fetchUrl)) ∧
      ((∃ url, c.parse target.normalizedIdentifier = some url ∧ NormalPath url.pathTail) ↔
        pathEncoding.Stable (identifierTokens target.fetchUrl)) := by
  constructor
  · intro path hpath
    obtain ⟨tail, rfl⟩ := List.head?_eq_some_iff.1 hpath
    exact normalizePath_again_iff tail
  · intro value m target h
    have haccepted := accepted_of_parse hc h
    have hagain := accepted_normalizedUrl hc haccepted
    have hparse : c.parse target.normalizedIdentifier = some (normalizedUrl c target.fetchUrl) := by
      rw [haccepted.identifier]
      exact hc.roundTrip _ hagain.valid hagain.scheme
    constructor
    · constructor
      · rintro ⟨again, hagain', heq⟩
        have hsize := hagain'
        unfold parseDiscoveryTarget at hsize
        split at hsize
        · cases hsize
        · rename_i hle
          have hle := Nat.le_of_not_lt hle
          have htext := accepted_parse hc hagain (by rw [← haccepted.identifier]; exact hle)
          rw [← haccepted.identifier, hagain'] at htext
          obtain rfl := Except.ok.inj htext
          exact ⟨hle, (normalizedUrl_again_iff hc haccepted).1 heq⟩
      · rintro ⟨hle, hstable⟩
        have htext := accepted_parse hc hagain (by rw [← haccepted.identifier]; exact hle)
        rw [← haccepted.identifier] at htext
        exact ⟨_, htext, (normalizedUrl_again_iff hc haccepted).2 hstable⟩
    · have htail : (normalizedUrl c target.fetchUrl).pathTail = identifierPath target.fetchUrl.pathTail := by
        rw [normalizedUrl_eq hc haccepted.valid haccepted.scheme]
        simp [Url.pathTail]
      rw [hparse, ← normalPath_iff, ← htail]
      constructor
      · rintro ⟨url, hurl, hnormal⟩
        rwa [Option.some.inj hurl]
      · exact fun hnormal => ⟨_, rfl, hnormal⟩

/-- The parser does not go up from the drive letter, so the stray percent sign
stays. -/
example : (pathEncoding.render (identifierTokens (sampleUrl "x%4%31/C:/%2%65%2%65/%2%65%2%65".toList)) = "x%41/C:/".toList) ∧
    ¬pathEncoding.Stable (identifierTokens (sampleUrl "x%4%31/C:/%2%65%2%65/%2%65%2%65".toList)) := by decide +kernel

theorem normalization_idempotent_iff_sample :
    ∃ again, parseDiscoveryTarget sampleUrls "https://agent.example/a%2Fb" .jwksUri = .ok again ∧
      again.normalizedIdentifier = "https://agent.example/a%2Fb" :=
  (((normalization_idempotent_iff sampleUrls_lawful).2 "https://agent.example/%61%2fb" .cimd
    ⟨sampleUrl "%61%2fb".toList, "https://agent.example/a%2Fb"⟩ (by decide +kernel)).1).2 (by decide +kernel)

/-- A stray percent sign before a digit and an escaped digit comes to escape a
letter. -/
theorem normalization_not_idempotent :
    normalizePath (normalizePath "/%4%31".toList) ≠ normalizePath "/%4%31".toList ∧
    ∃ target again, parseDiscoveryTarget sampleUrls "https://agent.example/%4%31" .jwksUri = .ok target ∧
      parseDiscoveryTarget sampleUrls target.normalizedIdentifier .jwksUri = .ok again ∧
      again.normalizedIdentifier ≠ target.normalizedIdentifier :=
  ⟨by decide +kernel, ⟨sampleUrl "%4%31".toList, "https://agent.example/%41"⟩,
    ⟨sampleUrl "%41".toList, "https://agent.example/A"⟩, by decide +kernel⟩

end EnvoyWebBotAuth.Protocol
