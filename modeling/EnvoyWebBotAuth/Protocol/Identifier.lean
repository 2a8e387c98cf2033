import EnvoyWebBotAuth.Lib.PercentEncoding
import EnvoyWebBotAuth.Lib.Text
import EnvoyWebBotAuth.Protocol.Discovery
/-!
# Normalised identifiers

When two URLs get one identifier. `normalizePercentEncoding` is the rendering
of the canonical tokens of a path (`normalize_eq_render`), and rendering loses
the difference between an escape and literals that look like one. `Clean` paths
have no such literals and no segment that `set_path` would take for a dot
segment. Clean URLs are told apart; any other URL shares its identifier with a
clean one.
-/
open EnvoyWebBotAuth.Lib

namespace EnvoyWebBotAuth.Protocol

/-! ## Normalising as rendering -/

/-- The escapes of `normalize_percent_encoding`. -/
def pathEncoding : PercentEncoding where
  value := hexValue
  digit := hexDigit
  plain o := if unreserved (escapedByte o.1 o.2) then some (escapedByte o.1 o.2) else none
  value_digit := by decide
  value_percent := by decide
  plain_ne_percent := fun ⟨h, l⟩ => by revert h l; decide +kernel

theorem slash_no_digit : pathEncoding.value '/' = none := by decide

theorem plain_ne_slash : ∀ o, pathEncoding.plain o ≠ some '/' := fun ⟨h, l⟩ => by revert h l; decide +kernel

theorem normalize_eq_render (path : List Char) :
    normalizePercentEncoding path = pathEncoding.render (pathEncoding.canonical path) := by
  rw [PercentEncoding.canonical_eq, PercentEncoding.render_map_token]
  fun_induction normalizePercentEncoding path with
  | case1 h l rest high low hh hl hu ih =>
    have hv : (pathEncoding.value h).isSome ∧ (pathEncoding.value l).isSome := by simp [pathEncoding, hh, hl]
    rw [PercentEncoding.chunks, if_pos hv, List.flatMap_cons, ← ih]
    simp [PercentEncoding.token, PercentEncoding.read, PercentEncoding.decode, PercentEncoding.write,
      pathEncoding, hh, hl, hu]
  | case2 h l rest high low hh hl hu ih =>
    have hv : (pathEncoding.value h).isSome ∧ (pathEncoding.value l).isSome := by simp [pathEncoding, hh, hl]
    rw [PercentEncoding.chunks, if_pos hv, List.flatMap_cons, ← ih]
    simp [PercentEncoding.token, PercentEncoding.read, PercentEncoding.decode, PercentEncoding.write,
      pathEncoding, hh, hl, hu]
  | case3 h l rest hv ih =>
    have hv : ¬ ((pathEncoding.value h).isSome ∧ (pathEncoding.value l).isSome) := by
      rintro ⟨hh, hl⟩
      obtain ⟨i, hi⟩ := Option.isSome_iff_exists.1 hh
      obtain ⟨j, hj⟩ := Option.isSome_iff_exists.1 hl
      exact hv i j hi hj
    rw [PercentEncoding.chunks, if_neg hv, List.flatMap_cons, ← ih]
    rfl
  | case4 b rest hb ih =>
    rw [PercentEncoding.chunks, List.flatMap_cons, ← ih]
    · rfl
    · rintro h l rest' rfl rfl
      exact hb h l rest' rfl rfl
  | case5 => rfl

/-! ## Paths without dot segments -/

/-- No segment is spelled `.` or `..`. -/
def NoDots (path : List Char) : Prop := ∀ s ∈ path.splitOn '/', s ≠ ['.'] ∧ s ≠ ['.', '.']

/-- The dot segments of RFC 3986. -/
def rfcDots : DotForms Char where
  single s := s = ['.']
  double s := s = ['.', '.']
  keeps _ := false
  single_nil := by decide
  double_nil := by decide

@[simp] theorem rfcDots_up (done : List (List Char)) : rfcDots.up done = done.dropLast :=
  rfcDots.up_of_keeps_nothing (fun _ => rfl) done

theorem plain_of_noDots {path : List Char} (h : NoDots path) : ∀ s ∈ path.splitOn '/', rfcDots.Plain s :=
  fun s hs => ⟨decide_eq_false (h s hs).1, decide_eq_false (h s hs).2⟩

/-- The output of the loop: every segment kept so far after its slash. -/
def joined (done : List (List Char)) : List Char := done.flatMap ('/' :: ·)

theorem joined_eq {segs : List (List Char)} (hne : segs ≠ []) : joined segs = '/' :: ['/'].intercalate segs := by
  induction segs, hne using List.recNeNil with
  | singleton s => simp [joined]
  | cons s segs hne ih =>
    rw [joined, List.flatMap_cons, ← joined, ih, List.intercalate_cons_of_ne_nil hne]
    simp

/-- The output is cut at its last slash. -/
theorem removeLastPathSegment_append {after : List Char} (h : '/' ∉ after) (before : List Char) :
    removeLastPathSegment (before ++ '/' :: after) = before := by
  have hreverse : '/' ∉ after.reverse := fun hm => h (List.mem_reverse.1 hm)
  rw [removeLastPathSegment, if_pos (by simp), List.reverse_append, List.reverse_cons, List.append_assoc,
    List.singleton_append, dropWhile_ne_append hreverse, List.drop_one, List.tail_cons, List.reverse_reverse]

theorem removeLastPathSegment_joined {done : List (List Char)} (h : ∀ s ∈ done, '/' ∉ s) :
    removeLastPathSegment (joined done) = joined done.dropLast := by
  induction done using List.reverseRecOn with
  | nil => rfl
  | append_singleton done s _ =>
    have hjoined : joined (done ++ [s]) = joined done ++ '/' :: s := by simp [joined]
    rw [hjoined, List.dropLast_concat, removeLastPathSegment_append (h s (by simp))]

/-- A first segment that is no dot segment goes to the output as it is. -/
theorem dotStep_segment {path : List Char} (h : rfcDots.Plain (path.takeWhile (· ≠ '/'))) (output : List Char) :
    dotStep ('/' :: path) output = (path.dropWhile (· ≠ '/'), output ++ '/' :: path.takeWhile (· ≠ '/')) := by
  obtain ⟨hsingle, hdouble⟩ := h
  have hsingle := of_decide_eq_false hsingle
  have hdouble := of_decide_eq_false hdouble
  unfold dotStep
  rw [if_neg (by simp)]
  split <;> rename_i heq
  · cases heq
  · cases heq
  · cases heq
    exact absurd rfl hsingle
  · cases heq
    exact absurd rfl hsingle
  · cases heq
    exact absurd rfl hdouble
  · cases heq
    exact absurd rfl hdouble
  · cases heq; rfl
  · cases heq

/-- The loop drops the dot segments one by one. -/
theorem dotLoop_segments (fuel : Nat) : ∀ (path : List Char) (done : List (List Char)), path.length < fuel →
    (∀ s ∈ done, '/' ∉ s) →
    dotLoop fuel ('/' :: path) (joined done) = some (joined (rfcDots.dropDots done (path.splitOn '/'))) := by
  induction fuel with
  | zero => intro _ _ h; exact absurd h (Nat.not_lt_zero _)
  | succ fuel ih =>
    intro path done hlen hdone
    have hlast : ∀ s ∈ done.dropLast, '/' ∉ s := fun s hs => hdone s (List.dropLast_subset _ hs)
    rw [dotLoop]
    by_cases hm : '/' ∈ path
    · obtain ⟨s, rest, rfl, hs⟩ := List.eq_append_cons_of_mem hm
      have htake := takeWhile_ne_append hs rest
      have hdrop := dropWhile_ne_append hs rest
      have hrest : rest.length < fuel := by
        simp only [List.length_append, List.length_cons] at hlen
        omega
      obtain ⟨s', segs, hsplit⟩ := List.exists_cons_of_ne_nil (List.splitOn_ne_nil '/' rest)
      rw [List.splitOn_append_cons_self_of_not_mem hs, hsplit, DotForms.dropDots, rfcDots_up]
      by_cases hdouble : s = ['.', '.']
      · subst hdouble
        rw [if_pos (by decide), ← hsplit, ← ih rest _ hrest hlast, ← removeLastPathSegment_joined hdone]
        rfl
      · by_cases hsingle : s = ['.']
        · subst hsingle
          rw [if_neg (by decide), if_pos (by decide), ← hsplit, ← ih rest done hrest hdone]
          rfl
        · have hplain : rfcDots.Plain s := ⟨decide_eq_false hsingle, decide_eq_false hdouble⟩
          have hdone' : ∀ t ∈ done ++ [s], '/' ∉ t := by
            intro t ht
            rcases List.mem_append.1 ht with ht | ht
            · exact hdone t ht
            · rw [List.mem_singleton.1 ht]
              exact hs
          have hjoined : joined done ++ '/' :: s = joined (done ++ [s]) := by simp [joined]
          rw [if_neg (by simp [hplain.2]), if_neg (by simp [hplain.1]), ← hsplit, ← ih rest _ hrest hdone',
            dotStep_segment (by rw [htake]; exact hplain), htake, hdrop, hjoined]
    · have htake := takeWhile_ne_self hm
      have hdrop := dropWhile_ne_self hm
      have hend : ∀ output, 0 < fuel → dotLoop fuel ['/'] output = some (output ++ ['/']) := by
        intro output hpos
        obtain ⟨fuel, rfl⟩ := Nat.exists_eq_succ_of_ne_zero (Nat.pos_iff_ne_zero.1 hpos)
        cases fuel <;> rfl
      rw [List.splitOn_eq_singleton hm, DotForms.dropDots, rfcDots_up]
      by_cases hdouble : path = ['.', '.']
      · subst hdouble
        have hpos : 0 < fuel := by
          simp only [List.length_cons, List.length_nil] at hlen
          omega
        rw [if_pos (by decide)]
        have hstep : dotStep ['/', '.', '.'] (joined done) = (['/'], joined done.dropLast) := by
          rw [← removeLastPathSegment_joined hdone]
          rfl
        rw [hstep, hend _ hpos]
        simp [joined]
      · by_cases hsingle : path = ['.']
        · subst hsingle
          have hpos : 0 < fuel := by
            simp only [List.length_cons, List.length_nil] at hlen
            omega
          rw [if_neg (by decide), if_pos (by decide)]
          have hstep : dotStep ['/', '.'] (joined done) = (['/'], joined done) := rfl
          rw [hstep, hend _ hpos]
          simp [joined]
        · have hplain : rfcDots.Plain path := ⟨decide_eq_false hsingle, decide_eq_false hdouble⟩
          rw [if_neg (by simp [hplain.2]), if_neg (by simp [hplain.1]), dotStep_segment (by rw [htake]; exact hplain),
            htake, hdrop]
          cases fuel <;> simp [dotLoop, joined]

/-- `remove_dot_segments` of a path that starts with a slash. -/
theorem removeDotSegments_eq (path : List Char) : removeDotSegments ('/' :: path) = '/' :: rfcDots.removeDots '/' path := by
  have hloop := dotLoop_segments ('/' :: path).length path [] (by simp) nofun
  rw [joined_eq (rfcDots.dropDots_ne_nil (List.splitOn_ne_nil '/' path) [])] at hloop
  unfold removeDotSegments
  exact Option.get_of_eq_some _ hloop

theorem removeDotSegments_noDots {path : List Char} (h : NoDots path) :
    removeDotSegments ('/' :: path) = '/' :: path := by
  rw [removeDotSegments_eq, rfcDots.removeDots_of_plain (plain_of_noDots h)]

/-! ## Spellings of a dot -/

theorem hexValue_range {c : Char} {i : Fin 16} (h : hexValue c = some i) :
    (48 ≤ c.toNat ∧ c.toNat ≤ 57 ∧ i.val = c.toNat - 48) ∨ (97 ≤ c.toNat ∧ c.toNat ≤ 102 ∧ i.val = c.toNat - 87) ∨
    (65 ≤ c.toNat ∧ c.toNat ≤ 70 ∧ i.val = c.toNat - 55) := by
  have hle : ∀ d e : Char, d ≤ e ↔ d.toNat ≤ e.toNat := fun d e => UInt32.le_iff_toNat_le
  unfold hexValue at h
  simp only [hle] at h
  split at h
  · rename_i hr
    cases h
    have h0 : '0'.toNat = 48 := rfl
    have h9 : '9'.toNat = 57 := rfl
    simp only [Fin.val_ofNat]
    omega
  · split at h
    · rename_i hr
      cases h
      have ha : 'a'.toNat = 97 := rfl
      have hf : 'f'.toNat = 102 := rfl
      simp only [Fin.val_ofNat]
      omega
    · split at h
      · rename_i hr
        cases h
        have hA : 'A'.toNat = 65 := rfl
        have hF : 'F'.toNat = 70 := rfl
        simp only [Fin.val_ofNat]
        omega
      · cases h

theorem hexValue_two {c : Char} (h : hexValue c = some 2) : c = '2' := by
  have hv : (2 : Fin 16).val = 2 := rfl
  have hc : c.toNat = '2'.toNat := by
    have h2 : '2'.toNat = 50 := rfl
    have := hexValue_range h
    omega
  exact Char.toNat_inj.1 hc

theorem hexValue_fourteen {c : Char} (h : hexValue c = some 14) : c = 'e' ∨ c = 'E' := by
  have hv : (14 : Fin 16).val = 14 := rfl
  have hc : c.toNat = 'e'.toNat ∨ c.toNat = 'E'.toNat := by
    have h1 : 'e'.toNat = 101 := rfl
    have h2 : 'E'.toNat = 69 := rfl
    have := hexValue_range h
    omega
  exact hc.imp Char.toNat_inj.1 Char.toNat_inj.1

theorem plain_dot : ∀ h l, pathEncoding.plain (h, l) = some '.' → h = 2 ∧ l = 14 := by decide +kernel

/-- What reads as a dot is spelled as one. -/
theorem raw_of_dot {c : Chunk} {cs : List Chunk} (hf : pathEncoding.Fits c cs)
    (h : pathEncoding.token c = .literal '.') : c.raw ∈ dotSpellings := by
  cases c with
  | literal c =>
    obtain rfl : c = '.' := by simpa [PercentEncoding.token, PercentEncoding.read, PercentEncoding.decode] using h
    decide
  | escape a b =>
    obtain ⟨i, hi⟩ := Option.isSome_iff_exists.1 hf.1
    obtain ⟨j, hj⟩ := Option.isSome_iff_exists.1 hf.2
    simp only [PercentEncoding.token, PercentEncoding.read, PercentEncoding.decode, hi, hj, Option.getD_some] at h
    split at h
    · rename_i d hd
      cases h
      obtain ⟨rfl, rfl⟩ := plain_dot i j hd
      obtain rfl := hexValue_two hi
      rcases hexValue_fourteen hj with rfl | rfl <;> decide
    · cases h

/-- The dot segments of RFC 3986, over tokens. -/
def tokenDots : DotForms Token where
  single ts := ts = [.literal '.']
  double ts := ts = [.literal '.', .literal '.']
  keeps _ := false
  single_nil := by decide
  double_nil := by decide

/-- A segment that is no dot segment to the URL parser has no dot segment as
its tokens. -/
theorem plain_canonical {s : List Char} (h : urlDots.Plain s) : tokenDots.Plain (pathEncoding.canonical s) := by
  have hraw := pathEncoding.chunks_raw s
  have hf := pathEncoding.faithful_chunks s
  rw [PercentEncoding.canonical_eq]
  refine ⟨decide_eq_false fun ht => ?_, decide_eq_false fun ht => ?_⟩
  · obtain ⟨c, hc, htok⟩ := List.map_eq_singleton_iff.1 ht
    rw [hc] at hraw hf
    have hs : s ∈ dotSpellings := by
      rw [← hraw, List.flatMap_singleton]
      exact raw_of_dot hf.1 htok
    exact absurd h.1 (by simp [urlDots, hs])
  · obtain ⟨c, rest, hc, htok, hrest⟩ := List.map_eq_cons_iff.1 ht
    obtain ⟨c', rfl, htok'⟩ := List.map_eq_singleton_iff.1 hrest
    rw [hc] at hraw hf
    have hs : s ∈ dotSpellings.flatMap (fun d => dotSpellings.map (d ++ ·)) := by
      rw [← hraw, List.flatMap_cons, List.flatMap_singleton]
      exact List.mem_flatMap.2 ⟨_, raw_of_dot hf.1 htok, List.mem_map.2 ⟨_, raw_of_dot hf.2.1 htok', rfl⟩⟩
    exact absurd h.2 (by simp only [urlDots, hs]; decide)

/-- A rendered path has a dot segment only where the tokens have one. -/
theorem noDots_render {path : List Char} (h : ∀ s ∈ path.splitOn '/', urlDots.Plain s) :
    NoDots (pathEncoding.render (pathEncoding.canonical path)) := by
  have hliterals : ∀ {s text}, pathEncoding.render (pathEncoding.canonical s) = text → '%' ∉ text →
      pathEncoding.canonical s = text.map .literal := by
    rintro s _ rfl hp
    exact pathEncoding.literals_of_render hp
  intro t ht
  rw [pathEncoding.splitOn_render (by decide) slash_no_digit plain_ne_slash] at ht
  obtain ⟨s, hs, rfl⟩ := List.mem_map.1 ht
  obtain ⟨hsingle, hdouble⟩ := plain_canonical (h s hs)
  refine ⟨fun he => ?_, fun he => ?_⟩
  · exact absurd (hliterals he (by decide)) (of_decide_eq_false hsingle)
  · exact absurd (hliterals he (by decide)) (of_decide_eq_false hdouble)

/-- A segment spelled as a dot segment renders as one. -/
theorem plain_of_render {s : List Char} (h : urlDots.Plain (pathEncoding.render (pathEncoding.canonical s))) :
    urlDots.Plain s := by
  have hsingle : ∀ s ∈ dotSpellings, urlDots.single (pathEncoding.render (pathEncoding.canonical s)) = true := by
    decide +kernel
  have hdouble : ∀ s ∈ dotSpellings.flatMap (fun d => dotSpellings.map (d ++ ·)),
      urlDots.double (pathEncoding.render (pathEncoding.canonical s)) = true := by
    decide +kernel
  refine ⟨decide_eq_false fun hs => ?_, decide_eq_false fun hs => ?_⟩
  · exact absurd (hsingle s hs) (by simp [h.1])
  · exact absurd (hdouble s hs) (by simp [h.2])

/-! ## Identifiers of paths -/

/-- The tokens of a path that RFC 3986 compares. -/
def canonicalTokens : List Char → List Token
  | '/' :: path => .literal '/' :: tokenDots.removeDots (.literal '/') (pathEncoding.canonical path)
  | path => pathEncoding.canonical path

/-- No literals that look like the escape of a reserved octet, and no segment
that is written as a dot segment. -/
def CleanPath (path : List Char) : Prop :=
  pathEncoding.Unambiguous (pathEncoding.canonical path) ∧
    ∀ s ∈ (pathEncoding.render (pathEncoding.canonical path)).splitOn '/', urlDots.Plain s

instance (path : List Char) : Decidable (CleanPath path) := by unfold CleanPath; infer_instance

/-- Normalising a parsed path only rewrites escapes: it has no dot segments. -/
theorem normalizePath_eq {path : List Char} (h : ∀ s ∈ path.splitOn '/', urlDots.Plain s) :
    normalizePath ('/' :: path) = '/' :: pathEncoding.render (pathEncoding.canonical path) := by
  have hslash : normalizePercentEncoding ('/' :: path) = '/' :: normalizePercentEncoding path := by
    rw [normalizePercentEncoding]
    exact nofun
  rw [normalizePath, hslash, normalize_eq_render]
  exact removeDotSegments_noDots (noDots_render h)

theorem canonicalTokens_eq {path : List Char} (h : ∀ s ∈ path.splitOn '/', urlDots.Plain s) :
    canonicalTokens ('/' :: path) = .literal '/' :: pathEncoding.canonical path := by
  rw [canonicalTokens, tokenDots.removeDots_of_plain]
  intro ts hts
  rw [pathEncoding.splitOn_canonical (by decide) slash_no_digit plain_ne_slash] at hts
  obtain ⟨s, hs, rfl⟩ := List.mem_map.1 hts
  exact plain_canonical (h s hs)

/-- The path of the identifier. -/
def identifierPath (path : List Char) : List Char :=
  urlDots.removeDots '/' (pathEncoding.render (pathEncoding.canonical path))

theorem identifierPath_clean {path : List Char} (h : CleanPath path) :
    identifierPath path = pathEncoding.render (pathEncoding.canonical path) :=
  urlDots.removeDots_of_plain h.2

/-- Clean paths with one identifier have the same tokens. -/
theorem clean_injective {p q : List Char} (hp : CleanPath p) (hq : CleanPath q)
    (h : identifierPath p = identifierPath q) : pathEncoding.canonical p = pathEncoding.canonical q := by
  rw [identifierPath_clean hp, identifierPath_clean hq] at h
  exact pathEncoding.render_injective hp.1 hq.1 (pathEncoding.reserved_canonical p)
    (pathEncoding.reserved_canonical q) h

/-- The clean path with the identifier of `path`. -/
@[irreducible] def cleaned (path : List Char) : List Char := pathEncoding.repair urlDots '/' path

theorem render_cleaned (path : List Char) :
    pathEncoding.render (pathEncoding.canonical (cleaned path)) = identifierPath path := by
  rw [cleaned]
  exact pathEncoding.render_repair urlDots (by decide) slash_no_digit plain_ne_slash path

theorem cleanPath_cleaned (path : List Char) : CleanPath (cleaned path) := by
  refine ⟨?_, ?_⟩
  · rw [cleaned]
    exact pathEncoding.unambiguous_repair urlDots (by decide) slash_no_digit path
  · rw [render_cleaned]
    exact urlDots.plain_removeDots '/' _

theorem identifierPath_cleaned (path : List Char) : identifierPath (cleaned path) = identifierPath path := by
  rw [identifierPath_clean (cleanPath_cleaned path), render_cleaned]

theorem plain_cleaned (path : List Char) : ∀ s ∈ (cleaned path).splitOn '/', urlDots.Plain s := by
  intro s hs
  refine plain_of_render ((cleanPath_cleaned path).2 _ ?_)
  rw [pathEncoding.splitOn_render (by decide) slash_no_digit plain_ne_slash]
  exact List.mem_map.2 ⟨s, hs, rfl⟩

/-! ## Identifiers of URLs -/

variable {c : UrlCrate}

/-- The path of a URL after its slash. -/
def Url.pathTail (url : Url) : List Char := url.path.toList.tail

def Clean (url : Url) : Prop := CleanPath url.pathTail

instance (url : Url) : Decidable (Clean url) := inferInstanceAs (Decidable (CleanPath _))

/-- Scheme, host and port agree, and the paths are equivalent. -/
def SameResource (u v : Url) : Prop :=
  u.scheme = v.scheme ∧ u.host = v.host ∧ u.port = v.port ∧
    canonicalTokens u.path.toList = canonicalTokens v.path.toList

instance (u v : Url) : Decidable (SameResource u v) := by unfold SameResource; infer_instance

/-- A URL whose resource is discovered under a mechanism other than the
directory. -/
structure Accepted (c : UrlCrate) (url : Url) (identifier : String) : Prop where
  valid : c.Valid url
  scheme : url.scheme = "https"
  host : ¬ url.host.isNone = true
  userInfo : url.username = "" ∧ url.password = none
  fragment : url.fragment = none
  identifier : identifier = c.asStr (normalizedUrl c url)

theorem parse_accepted {value : String} {m : DiscoveryMechanism} {target : DiscoveryTarget} (hm : m ≠ .directory)
    (h : parseDiscoveryTarget c value m = .ok target) :
    Accepted c target.fetchUrl target.normalizedIdentifier := by
  unfold parseDiscoveryTarget at h
  split at h
  · cases h
  · split at h
    · cases h
    · rename_i url hurl
      simp only [hm, if_false, false_and] at h
      repeat' split at h
      all_goals cases h
      rename_i hs hh hu
      simp only [not_not, not_or, Option.not_isSome_iff_eq_none] at hs hu
      exact ⟨.setFragment (.parsed hurl), hs, hh, hu, rfl, rfl⟩

/-- A URL is accepted from its own text. -/
theorem accepted_parse (hc : c.Lawful) {url : Url} {identifier : String} (h : Accepted c url identifier)
    (hsize : (c.asStr url).utf8ByteSize ≤ maxAgentUrlBytes) :
    parseDiscoveryTarget c (c.asStr url) .jwksUri = .ok ⟨url, identifier⟩ := by
  have hfrag : { url with fragment := none } = url := by rw [← h.fragment]
  have hnot : DiscoveryMechanism.jwksUri ≠ .directory := nofun
  unfold parseDiscoveryTarget
  rw [if_neg (Nat.not_lt.2 hsize), hc.roundTrip url h.valid h.scheme]
  simp only
  rw [if_neg (not_not.2 h.scheme), if_neg h.host, if_neg (by simp [h.userInfo]), if_neg (fun hd => hnot hd.1)]
  simp only [hnot, if_false, hfrag, h.identifier]

theorem pathChar_escapes (hc : c.Lawful) : c.pathChar '%' = true ∧ c.pathChar '/' = true ∧
    (∀ i, c.pathChar (pathEncoding.digit i) = true) ∧
    ∀ o ch, pathEncoding.plain o = some ch → c.pathChar ch = true := by
  have hdigit : ∀ i, (pathEncoding.digit i).isAlphanum = true := by decide
  refine ⟨hc.pathChar _ (.inr (by decide)), hc.pathChar _ (.inr (by decide)), fun i => hc.pathChar _ (.inl (hdigit i)),
    fun o ch h => hc.pathChar _ ?_⟩
  simp only [pathEncoding] at h
  split at h
  · rename_i hu
    cases h
    simp only [unreserved, Bool.or_eq_true, decide_eq_true_eq] at hu
    refine hu.imp id fun hm => ?_
    simp only [List.mem_cons, List.not_mem_nil, or_false] at hm ⊢
    tauto
  · cases h

theorem setPath_directory (hc : c.Lawful) {url : Url} (hv : c.Valid url) (hs : url.scheme = "https") :
    c.setPath url directoryPath = { url with path := directoryPath } := by
  have htail : directoryPath = String.ofList ('/' :: directoryPath.toList.tail) := by decide
  have hchars : ∀ ch ∈ directoryPath.toList.tail, ch.isAlphanum ∨ ch ∈ ['-', '.', '_', '~', '%', '/'] := by decide
  have hplain : urlDots.removeDots '/' directoryPath.toList.tail = directoryPath.toList.tail := by decide +kernel
  rw [htail, hc.setPath url _ hv hs (fun ch hch => hc.pathChar ch (hchars ch hch)), hplain]

/-- The normalised URL: the path is replaced, the query goes. -/
theorem normalizedUrl_eq (hc : c.Lawful) {url : Url} (hv : c.Valid url) (hs : url.scheme = "https") :
    normalizedUrl c url = { url with
      path := String.ofList ('/' :: identifierPath url.pathTail), query := none, fragment := none } := by
  obtain ⟨p, hp, hchars, hdots⟩ := hc.path url hv hs
  obtain ⟨hpercent, -, hdigit, hplain⟩ := pathChar_escapes hc
  have htail : url.pathTail = p := by simp [Url.pathTail, hp]
  have hlist : url.path.toList = '/' :: p := by simp [hp]
  have hv' : c.Valid { { url with query := none } with fragment := none } := .setFragment (.setQuery hv)
  unfold normalizedUrl
  simp only [hlist]
  rw [normalizePath_eq hdots, hc.setPath _ _ hv' hs (pathEncoding.forall_render hpercent hdigit hplain hchars), htail]
  rfl

/-- Two URLs with one identifier agree but for their query, up to the
identifiers of their paths. -/
theorem identifier_eq (hc : c.Lawful) {u v : Url} {i : String} (hu : Accepted c u i) (hv : Accepted c v i) :
    u.scheme = v.scheme ∧ u.host = v.host ∧ u.port = v.port ∧
      identifierPath u.pathTail = identifierPath v.pathTail := by
  have hvalid : ∀ {w : Url}, c.Valid w → c.Valid (normalizedUrl c w) := fun hw =>
    .setPath _ (.setFragment (.setQuery hw))
  have hparse : ∀ {w : Url}, Accepted c w i → c.parse i = some (normalizedUrl c w) := by
    intro w hw
    rw [hw.identifier]
    refine hc.roundTrip _ (hvalid hw.valid) ?_
    rw [normalizedUrl_eq hc hw.valid hw.scheme]
    exact hw.scheme
  have heq := Option.some.inj ((hparse hu).symm.trans (hparse hv))
  rw [normalizedUrl_eq hc hu.valid hu.scheme, normalizedUrl_eq hc hv.valid hv.scheme] at heq
  injection heq with hscheme huser hpass hhost hport hpath
  refine ⟨hscheme, hhost, hport, ?_⟩
  simpa using String.ofList_injective hpath

theorem canonicalTokens_accepted (hc : c.Lawful) {u : Url} {i : String} (hu : Accepted c u i) :
    canonicalTokens u.path.toList = .literal '/' :: pathEncoding.canonical u.pathTail := by
  obtain ⟨p, hp, -, hdots⟩ := hc.path u hu.valid hu.scheme
  simp [Url.pathTail, hp, canonicalTokens_eq hdots]

/-- Clean URLs with one identifier are one resource. -/
theorem clean_same (hc : c.Lawful) {u v : Url} {i : String} (hu : Accepted c u i) (hv : Accepted c v i)
    (hcu : Clean u) (hcv : Clean v) : SameResource u v := by
  obtain ⟨hscheme, hhost, hport, hpath⟩ := identifier_eq hc hu hv
  refine ⟨hscheme, hhost, hport, ?_⟩
  rw [canonicalTokens_accepted hc hu, canonicalTokens_accepted hc hv, clean_injective hcu hcv hpath]

/-! ## The clean URL with the same identifier -/

def cleanedUrl (url : Url) : Url := { url with path := String.ofList ('/' :: cleaned url.pathTail) }

theorem pathTail_cleanedUrl (url : Url) : (cleanedUrl url).pathTail = cleaned url.pathTail := by
  simp [Url.pathTail, cleanedUrl]

theorem clean_cleanedUrl (url : Url) : Clean (cleanedUrl url) := by
  rw [Clean, pathTail_cleanedUrl]
  exact cleanPath_cleaned _

theorem pathChar_cleaned (hc : c.Lawful) {path : List Char} (h : ∀ ch ∈ path, c.pathChar ch = true) :
    ∀ ch ∈ cleaned path, c.pathChar ch = true := by
  obtain ⟨hpercent, hslash, hdigit, -⟩ := pathChar_escapes hc
  rw [cleaned]
  exact pathEncoding.forall_repair hslash hpercent hdigit urlDots h

theorem accepted_cleanedUrl (hc : c.Lawful) {url : Url} {i : String} (h : Accepted c url i) :
    Accepted c (cleanedUrl url) i ∧ (c.asStr (cleanedUrl url)).utf8ByteSize ≤ (c.asStr url).utf8ByteSize := by
  obtain ⟨p, hp, hchars, -⟩ := hc.path url h.valid h.scheme
  have htail : url.pathTail = p := by simp [Url.pathTail, hp]
  have hcleaned := pathChar_cleaned hc hchars
  have hset : c.setPath url (String.ofList ('/' :: cleaned p)) = cleanedUrl url := by
    rw [hc.setPath url _ h.valid h.scheme hcleaned, urlDots.removeDots_of_plain (plain_cleaned p), cleanedUrl, htail]
  have hvalid : c.Valid (cleanedUrl url) := by
    rw [← hset]
    exact .setPath _ h.valid
  have hnormalized : normalizedUrl c (cleanedUrl url) = normalizedUrl c url := by
    have hscheme : (cleanedUrl url).scheme = "https" := by simp only [cleanedUrl, h.scheme]
    rw [normalizedUrl_eq hc h.valid h.scheme, normalizedUrl_eq hc hvalid hscheme, pathTail_cleanedUrl,
      identifierPath_cleaned]
    simp only [cleanedUrl]
  have haccepted : Accepted c (cleanedUrl url) i := {
    valid := hvalid
    scheme := by simp only [cleanedUrl, h.scheme]
    host := by simpa only [cleanedUrl] using h.host
    userInfo := by simpa only [cleanedUrl] using h.userInfo
    fragment := by simp only [cleanedUrl, h.fragment]
    identifier := by rw [hnormalized, h.identifier] }
  refine ⟨haccepted, ?_⟩
  · have hslash : ∀ ch ∈ '/' :: cleaned p, c.pathChar ch = true :=
      List.forall_mem_cons.2 ⟨(pathChar_escapes hc).2.1, hcleaned⟩
    have hsize := hc.asStr_size url ('/' :: cleaned p) h.valid h.scheme hslash
    have hle : (cleaned p).length ≤ p.length := by
      rw [cleaned]
      exact pathEncoding.repair_size urlDots '/' p
    have hlen : url.path.length = p.length + 1 := by rw [hp, String.length_ofList, List.length_cons]
    rw [cleanedUrl, htail]
    simp only [List.length_cons] at hsize
    omega

/-- A URL that is not clean is another resource than its clean one. -/
theorem not_same_cleanedUrl (hc : c.Lawful) {url : Url} {i : String} (h : Accepted c url i) (hn : ¬ Clean url) :
    ¬ SameResource url (cleanedUrl url) := by
  rintro ⟨-, -, -, htokens⟩
  rw [canonicalTokens_accepted hc h, canonicalTokens_accepted hc (accepted_cleanedUrl hc h).1] at htokens
  have heq := (List.cons.inj htokens).2
  refine hn ?_
  have hclean := clean_cleanedUrl url
  unfold Clean CleanPath at hclean ⊢
  rwa [← heq] at hclean

/-! ## The URLs of one origin

A URL crate for one origin and plain paths. -/

def sampleOrigin : String := "https://agent.example"

def samplePathChar (ch : Char) : Bool := ch.isAlphanum || ch ∈ ['-', '.', '_', '~', '%', '/', ':', '|']

def sampleUrl (path : List Char) : Url :=
  ⟨"https", "", none, some "agent.example", none, String.ofList ('/' :: path), none, none⟩

def sampleUrls : UrlCrate where
  parse text := match sampleOrigin.toList.isPrefixOf? text.toList with
    | some ('/' :: path) =>
      if ∀ ch ∈ path, samplePathChar ch = true then some (sampleUrl (urlDots.removeDots '/' path)) else none
    | some [] => some (sampleUrl [])
    | _ => none
  setPath url path := match path.toList with
    | '/' :: path =>
      if ∀ ch ∈ path, samplePathChar ch = true then
        { url with path := String.ofList ('/' :: urlDots.removeDots '/' path) }
      else url
    | _ => url
  asStr url := String.ofList (sampleOrigin.toList ++ url.path.toList)
  portOrKnownDefault _ := some 443
  originAscii _ := sampleOrigin
  pathChar := samplePathChar

theorem samplePathChar_removeDots {path : List Char} (h : ∀ ch ∈ path, samplePathChar ch = true) :
    ∀ ch ∈ urlDots.removeDots '/' path, samplePathChar ch = true := by
  refine urlDots.forall_removeDots (P := fun path => ∀ ch ∈ path, samplePathChar ch = true) (fun s rest => ?_) nofun h
  have hslash : samplePathChar '/' = true := by decide
  simp [or_imp, forall_and, hslash]

theorem sampleUrls_valid {url : Url} (h : sampleUrls.Valid url) :
    ∃ path, url = sampleUrl path ∧ (∀ ch ∈ path, samplePathChar ch = true) ∧
      ∀ s ∈ path.splitOn '/', urlDots.Plain s := by
  induction h with
  | parsed h =>
    simp only [sampleUrls] at h
    split at h
    · rename_i path _
      split at h
      · rename_i hp
        cases h
        exact ⟨_, rfl, samplePathChar_removeDots hp, urlDots.plain_removeDots '/' path⟩
      · cases h
    · cases h
      exact ⟨[], rfl, nofun, by decide⟩
    · cases h
  | setPath p _ ih =>
    simp only [sampleUrls]
    split
    · rename_i path _
      split
      · rename_i hp
        obtain ⟨_, rfl, -⟩ := ih
        exact ⟨_, rfl, samplePathChar_removeDots hp, urlDots.plain_removeDots '/' path⟩
      · exact ih
    · exact ih
  | setQuery _ ih =>
    obtain ⟨path, rfl, h⟩ := ih
    exact ⟨path, rfl, h⟩
  | setFragment _ ih =>
    obtain ⟨path, rfl, h⟩ := ih
    exact ⟨path, rfl, h⟩

theorem utf8ByteSize_of_ascii {text : List Char} (h : ∀ ch ∈ text, ch.utf8Size = 1) :
    (String.ofList text).utf8ByteSize = text.length := by
  induction text with
  | nil => rfl
  | cons ch text ih =>
    rw [List.forall_mem_cons] at h
    rw [String.ofList_cons, String.utf8ByteSize_append, String.utf8ByteSize_singleton, ih h.2, h.1,
      List.length_cons, Nat.add_comm]

theorem samplePathChar_ascii {ch : Char} (h : samplePathChar ch = true) : ch.utf8Size = 1 := by
  rw [Char.utf8Size_eq_one_iff]
  rw [samplePathChar, Bool.or_eq_true] at h
  rcases h with h | h
  · have hclasses : ch.isAlphanum = ((decide ('A'.val ≤ ch.val ∧ ch.val ≤ 'Z'.val) ||
        decide ('a'.val ≤ ch.val) && decide (ch.val ≤ 'z'.val)) ||
          decide ('0'.val ≤ ch.val) && decide (ch.val ≤ '9'.val)) := rfl
    simp only [hclasses, Bool.or_eq_true, Bool.and_eq_true, decide_eq_true_eq, UInt32.le_iff_toNat_le, ge_iff_le] at h ⊢
    have hz : 'z'.val.toNat = 122 := rfl
    have hZ : 'Z'.val.toNat = 90 := rfl
    have h9 : '9'.val.toNat = 57 := rfl
    have hmax : (127 : UInt32).toNat = 127 := rfl
    omega
  · have hall : ∀ ch ∈ ['-', '.', '_', '~', '%', '/', ':', '|'], ch.val ≤ 127 := by decide
    exact hall ch (of_decide_eq_true h)

theorem isPrefixOf?_append (xs ys : List Char) : xs.isPrefixOf? (xs ++ ys) = some ys := by
  induction xs with
  | nil => cases ys <;> rfl
  | cons x xs ih => simp [List.isPrefixOf?, ih]

theorem sampleUrls_lawful : sampleUrls.Lawful where
  roundTrip u hu _ := by
    obtain ⟨path, rfl, hchars, hdots⟩ := sampleUrls_valid hu
    simp only [sampleUrls, sampleUrl, String.toList_ofList, isPrefixOf?_append]
    rw [if_pos hchars, urlDots.removeDots_of_plain hdots]
  path u hu _ := by
    obtain ⟨path, rfl, h⟩ := sampleUrls_valid hu
    exact ⟨path, rfl, h⟩
  setPath u p _ _ hp := by
    have hp' : ∀ ch ∈ p, samplePathChar ch = true := hp
    simp only [sampleUrls, String.toList_ofList, if_pos hp']
  pathChar ch h := by
    simp only [sampleUrls, samplePathChar, Bool.or_eq_true, decide_eq_true_eq]
    exact h.imp_right (List.mem_append_left [':', '|'])
  asStr_size u p hu _ hp := by
    obtain ⟨path, rfl, hchars, -⟩ := sampleUrls_valid hu
    have hslash : ∀ ch ∈ '/' :: path, samplePathChar ch = true := List.forall_mem_cons.2 ⟨by decide, hchars⟩
    have hsize : ∀ q : List Char, (∀ ch ∈ q, samplePathChar ch = true) →
        (String.ofList (sampleOrigin.toList ++ q)).utf8ByteSize = sampleOrigin.utf8ByteSize + q.length := by
      intro q hq
      rw [String.ofList_append, String.utf8ByteSize_append, String.ofList_toList,
        utf8ByteSize_of_ascii (fun ch hc => samplePathChar_ascii (hq ch hc))]
    simp only [sampleUrls, sampleUrl, String.toList_ofList, String.length_ofList, hsize p hp, hsize _ hslash]
    omega

/-! ## Collisions -/

/-- Two URLs of one identifier are one resource if both are clean; and a URL
whose text fits the limit is clean exactly if it is one resource with every
clean URL of its identifier. -/
theorem identifier_collisions (hc : c.Lawful) :
    (∀ value value' m m' target target', m ≠ .directory → m' ≠ .directory →
      parseDiscoveryTarget c value m = .ok target → parseDiscoveryTarget c value' m' = .ok target' →
      Clean target.fetchUrl → Clean target'.fetchUrl →
      target.normalizedIdentifier = target'.normalizedIdentifier →
      SameResource target.fetchUrl target'.fetchUrl) ∧
    ∀ value m target, m ≠ .directory → parseDiscoveryTarget c value m = .ok target →
      (c.asStr target.fetchUrl).utf8ByteSize ≤ maxAgentUrlBytes →
      (Clean target.fetchUrl ↔ ∀ value' m' target', m' ≠ .directory →
        parseDiscoveryTarget c value' m' = .ok target' → Clean target'.fetchUrl →
        target.normalizedIdentifier = target'.normalizedIdentifier →
        SameResource target.fetchUrl target'.fetchUrl) := by
  have hsame : ∀ value value' m m' target target', m ≠ .directory → m' ≠ .directory →
      parseDiscoveryTarget c value m = .ok target → parseDiscoveryTarget c value' m' = .ok target' →
      Clean target.fetchUrl → Clean target'.fetchUrl →
      target.normalizedIdentifier = target'.normalizedIdentifier →
      SameResource target.fetchUrl target'.fetchUrl := by
    intro value value' m m' target target' hm hm' h h' hclean hclean' heq
    exact clean_same hc (parse_accepted hm h) (heq ▸ parse_accepted hm' h') hclean hclean'
  refine ⟨hsame, fun value m target hm h hsize => ⟨fun hclean value' m' target' hm' h' hclean' heq => ?_, ?_⟩⟩
  · exact hsame value value' m m' target target' hm hm' h h' hclean hclean' heq
  · intro hall
    by_contra hn
    have haccepted := parse_accepted hm h
    obtain ⟨haccepted', hsize'⟩ := accepted_cleanedUrl hc haccepted
    have hparse := accepted_parse hc haccepted' (hsize'.trans hsize)
    exact not_same_cleanedUrl hc haccepted hn
      (hall _ .jwksUri _ (by decide) hparse (clean_cleanedUrl _) rfl)

theorem identifier_collisions_sample :
    SameResource (sampleUrl "%2f".toList) (sampleUrl "%2F".toList) ∧ ¬ Clean (sampleUrl "%2%46".toList) :=
  have h := identifier_collisions sampleUrls_lawful
  ⟨h.1 "https://agent.example/%2f" "https://agent.example/%2F" .cimd .jwksUri
      ⟨sampleUrl "%2f".toList, "https://agent.example/%2F"⟩ ⟨sampleUrl "%2F".toList, "https://agent.example/%2F"⟩
      (by decide) (by decide) (by decide +kernel) (by decide +kernel) (by decide +kernel) (by decide +kernel) rfl,
    fun hclean => absurd
      ((h.2 "https://agent.example/%2%46" .cimd ⟨sampleUrl "%2%46".toList, "https://agent.example/%2F"⟩
        (by decide) (by decide +kernel) (by decide +kernel)).1 hclean "https://agent.example/%2F" .cimd
        ⟨sampleUrl "%2F".toList, "https://agent.example/%2F"⟩ (by decide) (by decide +kernel) (by decide +kernel) rfl)
      (by decide +kernel)⟩

/-- A stray `%` before a digit and an escaped digit has the identifier of an
escaped slash. -/
theorem identifier_collision_sample :
    ∃ target target',
      parseDiscoveryTarget sampleUrls "https://agent.example/%2%46" .cimd = .ok target ∧
      parseDiscoveryTarget sampleUrls "https://agent.example/%2F" .cimd = .ok target' ∧
      target.normalizedIdentifier = target'.normalizedIdentifier ∧
      ¬ SameResource target.fetchUrl target'.fetchUrl :=
  ⟨⟨sampleUrl "%2%46".toList, "https://agent.example/%2F"⟩, ⟨sampleUrl "%2F".toList, "https://agent.example/%2F"⟩,
    by decide +kernel⟩

end EnvoyWebBotAuth.Protocol
