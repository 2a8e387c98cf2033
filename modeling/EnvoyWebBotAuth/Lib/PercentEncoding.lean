import EnvoyWebBotAuth.Lib.Segments
/-!
# Percent encoding

A text read once from left to right is a list of tokens: a valid escape is an
octet, any other character stands for itself. `canonical` replaces the octets
of plain characters by these characters; `render` writes tokens out again.

Rendering is not injective: a literal `%` before two literal digits looks like
an escape. `Unambiguous` rules that out, and on such token lists `render` is
injective (`render_injective`). `repair` turns any text into one with the same
rendering and unambiguous tokens, without making it longer.
-/

namespace EnvoyWebBotAuth.Lib

/-- The high and the low half of a byte. -/
abbrev Octet := Fin 16 × Fin 16

/-- The hex digits a reader accepts, the one a writer uses for each value, and
the characters that need no escape. -/
structure PercentEncoding where
  value : Char → Option (Fin 16)
  digit : Fin 16 → Char
  plain : Octet → Option Char
  value_digit : ∀ i, value (digit i) = some i
  value_percent : value '%' = none
  plain_ne_percent : ∀ o, plain o ≠ some '%'

inductive Token where
  | literal (c : Char)
  | octet (o : Octet)
  deriving DecidableEq

/-- A token with the text it was read from. -/
inductive Chunk where
  | literal (c : Char)
  | escape (h l : Char)
  deriving DecidableEq

namespace PercentEncoding

variable (e : PercentEncoding)

theorem ne_percent {c : Char} (h : (e.value c).isSome) : c ≠ '%' := by
  rintro rfl
  rw [e.value_percent] at h
  cases h

theorem digit_isSome (i : Fin 16) : (e.value (e.digit i)).isSome := by
  rw [e.value_digit, Option.isSome_some]

theorem digit_injective {i j : Fin 16} (h : e.digit i = e.digit j) : i = j :=
  Option.some.inj ((e.value_digit i).symm.trans (h ▸ e.value_digit j))

/-! ## Reading -/

def chunks : List Char → List Chunk
  | '%' :: h :: l :: rest =>
    if (e.value h).isSome ∧ (e.value l).isSome then .escape h l :: chunks rest
    else .literal '%' :: chunks (h :: l :: rest)
  | c :: rest => .literal c :: chunks rest
  | [] => []

end PercentEncoding

def Chunk.raw : Chunk → List Char
  | .literal c => [c]
  | .escape h l => ['%', h, l]

namespace PercentEncoding

variable (e : PercentEncoding)

/-- The token as read. -/
def read : Chunk → Token
  | .literal c => .literal c
  | .escape h l => .octet ((e.value h).getD 0, (e.value l).getD 0)

/-- Octets of plain characters become these characters. -/
def decode : Token → Token
  | .literal c => .literal c
  | .octet o => match e.plain o with
    | some c => .literal c
    | none => .octet o

def token (c : Chunk) : Token := e.decode (e.read c)

def tokenise (text : List Char) : List Token := (e.chunks text).map e.read

def canonical (text : List Char) : List Token := (e.tokenise text).map e.decode

theorem canonical_eq (text : List Char) : e.canonical text = (e.chunks text).map e.token := by
  simp [canonical, tokenise, token]

/-- How a token is written. -/
def write : Token → List Char
  | .literal c => [c]
  | .octet (h, l) => ['%', e.digit h, e.digit l]

def render (ts : List Token) : List Char := ts.flatMap e.write

/-- What is written without a `%` was literals. -/
theorem literals_of_render {ts : List Token} (h : '%' ∉ e.render ts) : ts = (e.render ts).map .literal := by
  induction ts with
  | nil => rfl
  | cons t ts ih =>
    rw [render, List.flatMap_cons, List.mem_append, not_or] at h
    cases t with
    | literal c => rw [render, List.flatMap_cons, write, List.singleton_append, List.map_cons, ← render, ← ih h.2]
    | octet o => exact absurd (by simp [write]) h.1

/-- A token of a text is no octet of a plain character. -/
def Reserved : Token → Prop
  | .literal _ => True
  | .octet o => e.plain o = none

theorem reserved_decode (t : Token) : e.Reserved (e.decode t) := by
  cases t with
  | literal c => trivial
  | octet o =>
    rw [decode]
    cases h : e.plain o with
    | none => exact h
    | some c => trivial

theorem reserved_canonical (text : List Char) : ∀ t ∈ e.canonical text, e.Reserved t := by
  intro t ht
  obtain ⟨t', -, rfl⟩ := List.mem_map.1 ht
  exact e.reserved_decode t'

/-- Only a `%` reads as a literal `%`. -/
theorem token_percent {c : Chunk} : e.token c = .literal '%' ↔ c = .literal '%' := by
  cases c with
  | literal c => simp [token, read, decode]
  | escape h l =>
    simp only [token, read, decode]
    split
    · rename_i c hc
      simp only [Token.literal.injEq, reduceCtorEq, iff_false]
      rintro rfl
      exact e.plain_ne_percent _ hc
    · simp

/-! ## Unambiguous tokens -/

/-- The tokens start with literals that look like the escape of a reserved
octet. -/
def Spells (ts : List Token) : Prop :=
  ∃ h l rest, ts = .literal '%' :: .literal (e.digit h) :: .literal (e.digit l) :: rest ∧ e.plain (h, l) = none

/-- Nowhere do literals look like the escape of a reserved octet. -/
def Unambiguous : List Token → Prop
  | [] => True
  | t :: ts => ¬ e.Spells (t :: ts) ∧ Unambiguous ts

instance (ts : List Token) : Decidable (e.Spells ts) :=
  match ts with
  | .literal p :: .literal a :: .literal b :: rest =>
    decidable_of_iff (p = '%' ∧ ∃ h, a = e.digit h ∧ ∃ l, b = e.digit l ∧ e.plain (h, l) = none) (by
      constructor
      · rintro ⟨rfl, h, rfl, l, rfl, hp⟩
        exact ⟨h, l, rest, rfl, hp⟩
      · rintro ⟨h, l, rest', heq, hp⟩
        cases heq
        exact ⟨rfl, h, rfl, l, rfl, hp⟩)
  | [] | [_] | [_, _] => .isFalse (by rintro ⟨_, _, _, h, -⟩; simp at h)
  | .octet _ :: _ :: _ :: _ | .literal _ :: .octet _ :: _ :: _ | .literal _ :: .literal _ :: .octet _ :: _ =>
    .isFalse (by rintro ⟨_, _, _, h, -⟩; simp at h)

instance decidableUnambiguous : ∀ ts, Decidable (e.Unambiguous ts)
  | [] => .isTrue trivial
  | t :: ts =>
    have := decidableUnambiguous ts
    inferInstanceAs (Decidable (¬ e.Spells (t :: ts) ∧ e.Unambiguous ts))

/-- Two digits that are written first were literals. -/
theorem literals_of_digits {ts : List Token} {a b : Char} {rest : List Char} (h : e.render ts = a :: b :: rest)
    (ha : (e.value a).isSome) (hb : (e.value b).isSome) :
    ∃ ts', ts = .literal a :: .literal b :: ts' ∧ rest = e.render ts' := by
  cases ts with
  | nil => cases h
  | cons t ts =>
    cases t with
    | octet o =>
      simp only [render, List.flatMap_cons, write, List.cons_append, List.cons.injEq] at h
      exact absurd h.1.symm (e.ne_percent ha)
    | literal c =>
      simp only [render, List.flatMap_cons, write, List.cons_append, List.nil_append, List.cons.injEq] at h
      obtain ⟨rfl, h⟩ := h
      cases ts with
      | nil => cases h
      | cons t ts =>
        cases t with
        | octet o =>
          simp only [List.flatMap_cons, write, List.cons_append, List.cons.injEq] at h
          exact absurd h.1.symm (e.ne_percent hb)
        | literal c =>
          simp only [List.flatMap_cons, write, List.cons_append, List.nil_append, List.cons.injEq] at h
          obtain ⟨rfl, h⟩ := h
          exact ⟨ts, rfl, h.symm⟩

theorem spells_cons {ts : List Token} {o : Octet} (ho : e.plain o = none) {rest : List Char}
    (h : e.render ts = e.digit o.1 :: e.digit o.2 :: rest) : e.Spells (.literal '%' :: ts) := by
  obtain ⟨ts', rfl, -⟩ := e.literals_of_digits h (e.digit_isSome o.1) (e.digit_isSome o.2)
  exact ⟨o.1, o.2, ts', rfl, ho⟩

/-- Unambiguous tokens are told apart by their rendering. -/
theorem render_injective {ts ts' : List Token} (hu : e.Unambiguous ts) (hu' : e.Unambiguous ts')
    (hr : ∀ t ∈ ts, e.Reserved t) (hr' : ∀ t ∈ ts', e.Reserved t) (h : e.render ts = e.render ts') : ts = ts' := by
  induction ts generalizing ts' with
  | nil =>
    cases ts' with
    | nil => rfl
    | cons t' ts' => rcases t' with c | ⟨a, b⟩ <;> simp [render, write] at h
  | cons t ts ih =>
    cases ts' with
    | nil => rcases t with c | ⟨a, b⟩ <;> simp [render, write] at h
    | cons t' ts' =>
      have ih := fun h => ih hu.2 hu'.2 (fun x hx => hr x (List.mem_cons_of_mem _ hx))
        (fun x hx => hr' x (List.mem_cons_of_mem _ hx)) h
      rcases t with c | ⟨a, b⟩ <;> rcases t' with c' | ⟨a', b'⟩ <;>
        simp only [render, List.flatMap_cons, write, List.cons_append, List.nil_append, List.cons.injEq] at h
      · obtain ⟨rfl, h⟩ := h
        rw [ih h]
      · obtain ⟨rfl, h⟩ := h
        exact absurd (e.spells_cons (hr' _ List.mem_cons_self) h) hu.1
      · obtain ⟨rfl, h⟩ := h
        exact absurd (e.spells_cons (hr _ List.mem_cons_self) h.symm) hu'.1
      · obtain ⟨-, ha, hb, h⟩ := h
        rw [e.digit_injective ha, e.digit_injective hb, ih h]

/-! ## Chunks that are read back -/

/-- Two literal hex digits come first. -/
def HexPair (cs : List Chunk) : Prop :=
  ∃ h l rest, cs = .literal h :: .literal l :: rest ∧ (e.value h).isSome ∧ (e.value l).isSome

/-- The chunk is read as itself before these chunks. -/
def Fits : Chunk → List Chunk → Prop
  | .literal c, cs => c = '%' → ¬ e.HexPair cs
  | .escape h l, _ => (e.value h).isSome ∧ (e.value l).isSome

def Faithful : List Chunk → Prop
  | [] => True
  | c :: cs => e.Fits c cs ∧ Faithful cs

theorem chunks_raw (text : List Char) : (e.chunks text).flatMap Chunk.raw = text := by
  fun_induction e.chunks text <;> simp_all [Chunk.raw]

theorem chunks_of_not_percent {c : Char} (hc : c ≠ '%') (rest : List Char) :
    e.chunks (c :: rest) = .literal c :: e.chunks rest := by
  rw [chunks]
  rintro h l rest' rfl
  exact absurd rfl hc

/-- Literal digits at the front of the chunks are digits at the front of the
text. -/
theorem hexPair_chunks {text : List Char} (h : e.HexPair (e.chunks text)) :
    ∃ h l rest, text = h :: l :: rest ∧ (e.value h).isSome ∧ (e.value l).isSome := by
  obtain ⟨h, l, rest, hc, hh, hl⟩ := h
  have hraw := e.chunks_raw text
  rw [hc] at hraw
  exact ⟨h, l, rest.flatMap Chunk.raw, hraw.symm, hh, hl⟩

theorem faithful_chunks (text : List Char) : e.Faithful (e.chunks text) := by
  fun_induction e.chunks text with
  | case1 h l rest hv ih => exact ⟨hv, ih⟩
  | case2 h l rest hv ih =>
    refine ⟨fun _ hp => hv ?_, ih⟩
    obtain ⟨h', l', rest', heq, hh, hl⟩ := e.hexPair_chunks hp
    cases heq
    exact ⟨hh, hl⟩
  | case3 c rest hc ih =>
    refine ⟨?_, ih⟩
    rintro rfl hp
    obtain ⟨h, l, rest', rfl, -, -⟩ := e.hexPair_chunks hp
    exact hc h l rest' rfl rfl
  | case4 => trivial

theorem hexPair_of_raw {cs : List Chunk} {h l : Char} {rest : List Char}
    (heq : cs.flatMap Chunk.raw = h :: l :: rest) (hh : (e.value h).isSome) (hl : (e.value l).isSome) :
    e.HexPair cs := by
  match cs with
  | [] => cases heq
  | .escape _ _ :: _ =>
    simp only [List.flatMap_cons, Chunk.raw, List.cons_append, List.cons.injEq] at heq
    exact absurd heq.1.symm (e.ne_percent hh)
  | [.literal _] => simp [Chunk.raw] at heq
  | .literal _ :: .escape _ _ :: _ =>
    simp only [List.flatMap_cons, Chunk.raw, List.cons_append, List.nil_append, List.cons.injEq] at heq
    exact absurd heq.2.1.symm (e.ne_percent hl)
  | .literal h' :: .literal l' :: cs' =>
    simp only [List.flatMap_cons, Chunk.raw, List.cons_append, List.nil_append, List.cons.injEq] at heq
    obtain ⟨rfl, rfl, -⟩ := heq
    exact ⟨h', l', cs', rfl, hh, hl⟩

theorem chunks_percent {rest : List Char}
    (h : ∀ a b rest', rest = a :: b :: rest' → ¬ ((e.value a).isSome ∧ (e.value b).isSome)) :
    e.chunks ('%' :: rest) = .literal '%' :: e.chunks rest := by
  match rest with
  | [] => rfl
  | [_] => rfl
  | a :: b :: rest' => rw [chunks, if_neg (h a b rest' rfl)]

/-- Faithful chunks are read back from their text. -/
theorem chunks_of_faithful {cs : List Chunk} (h : e.Faithful cs) : e.chunks (cs.flatMap Chunk.raw) = cs := by
  induction cs with
  | nil => rfl
  | cons c cs ih =>
    cases c with
    | escape a b =>
      have hd : (e.value a).isSome ∧ (e.value b).isSome := h.1
      simp only [List.flatMap_cons, Chunk.raw, List.cons_append, List.nil_append, chunks, if_pos hd, ih h.2]
    | literal c =>
      rw [List.flatMap_cons, Chunk.raw, List.singleton_append]
      by_cases hc : c = '%'
      · subst hc
        rw [e.chunks_percent, ih h.2]
        rintro a b rest heq ⟨ha, hb⟩
        exact h.1 rfl (e.hexPair_of_raw heq ha hb)
      · rw [e.chunks_of_not_percent hc, ih h.2]

/-! ## Repairing -/

/-- The digits two chunks spell after a literal `%`, if they spell a reserved
octet. -/
def spelled (a b c : Chunk) : Option (Char × Char) :=
  if a = .literal '%' then
    match e.token b, e.token c with
    | .literal h, .literal l =>
      match e.value h, e.value l with
      | some i, some j => if e.digit i = h ∧ e.digit j = l ∧ e.plain (i, j) = none then some (h, l) else none
      | _, _ => none
    | _, _ => none
  else none

theorem spelled_eq_some {a b c : Chunk} {h l : Char} :
    e.spelled a b c = some (h, l) ↔
      a = .literal '%' ∧ ∃ i j, e.token b = .literal h ∧ e.token c = .literal l ∧ e.digit i = h ∧ e.digit j = l ∧
        e.plain (i, j) = none := by
  constructor
  · intro hs
    unfold spelled at hs
    split at hs
    · rename_i ha
      split at hs
      · rename_i hb hc
        split at hs
        · rename_i i j _ _
          split at hs
          · rename_i hd
            cases hs
            exact ⟨ha, i, j, hb, hc, hd⟩
          · cases hs
        · cases hs
      · cases hs
    · cases hs
  · rintro ⟨rfl, i, j, hb, hc, rfl, rfl, hp⟩
    simp [spelled, hb, hc, e.value_digit, hp]

/-- Write what literals spell as the escape it looks like. -/
def merge : List Chunk → List Chunk
  | a :: b :: c :: rest =>
    match e.spelled a b c with
    | some (h, l) => .escape h l :: merge rest
    | none => a :: merge (b :: c :: rest)
  | cs => cs

theorem token_escape_spelled {a b c : Chunk} {h l : Char} (hs : e.spelled a b c = some (h, l)) :
    ∃ i j, e.token (.escape h l) = .octet (i, j) ∧ e.digit i = h ∧ e.digit j = l := by
  obtain ⟨-, i, j, -, -, rfl, rfl, hp⟩ := e.spelled_eq_some.1 hs
  exact ⟨i, j, by simp [token, read, decode, e.value_digit, hp], rfl, rfl⟩

theorem render_merge (cs : List Chunk) : e.render ((e.merge cs).map e.token) = e.render (cs.map e.token) := by
  fun_induction e.merge cs with
  | case1 a b c rest h l hs ih =>
    obtain ⟨i, j, ht, hi, hj⟩ := e.token_escape_spelled hs
    obtain ⟨rfl, _, _, hb, hc, -⟩ := e.spelled_eq_some.1 hs
    have hp : e.token (.literal '%') = .literal '%' := rfl
    simp only [render, List.map_cons, List.flatMap_cons, ht, hb, hc, hp, write, hi, hj] at ih ⊢
    rw [ih]
    rfl
  | case2 a b c rest hs ih =>
    simp only [render, List.map_cons, List.flatMap_cons] at ih ⊢
    rw [ih]
  | case3 => rfl

theorem raw_pos (c : Chunk) : 1 ≤ c.raw.length := by
  cases c <;> simp [Chunk.raw]

theorem merge_size (cs : List Chunk) :
    ((e.merge cs).flatMap Chunk.raw).length ≤ (cs.flatMap Chunk.raw).length := by
  fun_induction e.merge cs with
  | case1 a b c rest h l hs ih =>
    have ha := raw_pos a
    have hb := raw_pos b
    have hc := raw_pos c
    have he : (Chunk.escape h l).raw.length = 3 := rfl
    simp only [List.flatMap_cons, List.length_append, he] at ih ⊢
    omega
  | case2 a b c rest hs ih =>
    simp only [List.flatMap_cons, List.length_append] at ih ⊢
    omega
  | case3 => exact Nat.le_refl _

/-- A literal at the front was there before merging. -/
theorem merge_literal {cs rest : List Chunk} {c : Char} (h : e.merge cs = .literal c :: rest) :
    ∃ rest', cs = .literal c :: rest' ∧ rest = e.merge rest' := by
  match cs with
  | [] => cases h
  | [a] => cases h; exact ⟨[], rfl, rfl⟩
  | [a, b] => cases h; exact ⟨[b], rfl, rfl⟩
  | a :: b :: d :: cs =>
    rw [merge] at h
    split at h
    · cases h
    · cases h; exact ⟨b :: d :: cs, rfl, rfl⟩

theorem hexPair_merge {cs : List Chunk} (h : e.HexPair (e.merge cs)) : e.HexPair cs := by
  obtain ⟨a, b, rest, hm, ha, hb⟩ := h
  obtain ⟨rest', rfl, hm'⟩ := e.merge_literal hm
  obtain ⟨rest'', rfl, -⟩ := e.merge_literal hm'.symm
  exact ⟨a, b, rest'', rfl, ha, hb⟩

theorem fits_merge {c : Chunk} {cs : List Chunk} (h : e.Fits c cs) : e.Fits c (e.merge cs) := by
  cases c with
  | literal c => exact fun hc hp => h hc (e.hexPair_merge hp)
  | escape a b => exact h

theorem faithful_merge {cs : List Chunk} (h : e.Faithful cs) : e.Faithful (e.merge cs) := by
  fun_induction e.merge cs with
  | case1 a b c rest d l hs ih =>
    obtain ⟨-, i, j, -, -, rfl, rfl, -⟩ := e.spelled_eq_some.1 hs
    exact ⟨⟨by simp [e.value_digit], by simp [e.value_digit]⟩, ih h.2.2.2⟩
  | case2 a b c rest hs ih => exact ⟨e.fits_merge h.1, ih h.2⟩
  | case3 => exact h

/-- A token that is a literal was not made by merging. -/
theorem merge_token {cs : List Chunk} {c : Char} {ts : List Token}
    (h : (e.merge cs).map e.token = .literal c :: ts) :
    ∃ x rest, cs = x :: rest ∧ e.token x = .literal c ∧ (e.merge rest).map e.token = ts := by
  match cs with
  | [] => cases h
  | [a] =>
    obtain ⟨ha, rfl⟩ := List.cons.inj h
    exact ⟨a, [], rfl, ha, rfl⟩
  | [a, b] =>
    obtain ⟨ha, rfl⟩ := List.cons.inj h
    exact ⟨a, [b], rfl, ha, rfl⟩
  | a :: b :: d :: cs =>
    rw [merge] at h
    split at h
    · rename_i hs
      obtain ⟨i, j, ht, -⟩ := e.token_escape_spelled hs
      rw [List.map_cons, ht] at h
      cases h
    · obtain ⟨ha, rfl⟩ := List.cons.inj h
      exact ⟨a, b :: d :: cs, rfl, ha, rfl⟩

theorem unambiguous_merge (cs : List Chunk) : e.Unambiguous ((e.merge cs).map e.token) := by
  fun_induction e.merge cs with
  | case1 a b c rest h l hs ih =>
    refine ⟨?_, ih⟩
    rintro ⟨_, _, _, heq, -⟩
    obtain ⟨i, j, ht, -⟩ := e.token_escape_spelled hs
    rw [ht] at heq
    cases heq
  | case2 a b c rest hs ih =>
    refine ⟨?_, ih⟩
    rintro ⟨i, j, ts, heq, hp⟩
    obtain ⟨ha, heq⟩ := List.cons.inj heq
    obtain ⟨x, rest', hx, hb, heq⟩ := e.merge_token heq
    cases hx
    obtain ⟨y, rest'', hy, hc, -⟩ := e.merge_token heq
    cases hy
    have hsome := e.spelled_eq_some.2 ⟨e.token_percent.1 ha, i, j, hb, hc, rfl, rfl, hp⟩
    rw [hs] at hsome
    cases hsome
  | case3 cs hcs =>
    match cs with
    | [] => trivial
    | [a] => exact ⟨by rintro ⟨_, _, _, h, -⟩; simp at h, trivial⟩
    | [a, b] =>
      exact ⟨by rintro ⟨_, _, _, h, -⟩; simp at h, by rintro ⟨_, _, _, h, -⟩; simp at h, trivial⟩
    | a :: b :: c :: rest => exact absurd rfl (hcs a b c rest)

/-! ## Segments -/

theorem digit_ne {a : Char} (ha : e.value a = none) (i : Fin 16) : e.digit i ≠ a := by
  rintro rfl
  rw [e.value_digit] at ha
  cases ha

/-- What literals spell does not reach across a character that is no digit. -/
theorem spells_append {a : Char} (ha : e.value a = none) {ts : List Token} (hne : ts ≠ []) (rest : List Token) :
    e.Spells (ts ++ .literal a :: rest) ↔ e.Spells ts := by
  constructor
  · rintro ⟨i, j, ts', heq, hp⟩
    match ts with
    | [] => exact absurd rfl hne
    | [t] =>
      simp only [List.cons_append, List.nil_append, List.cons.injEq, Token.literal.injEq] at heq
      exact absurd heq.2.1.symm (e.digit_ne ha i)
    | [t, t'] =>
      simp only [List.cons_append, List.nil_append, List.cons.injEq, Token.literal.injEq] at heq
      exact absurd heq.2.2.1.symm (e.digit_ne ha j)
    | t :: t' :: t'' :: ts =>
      simp only [List.cons_append, List.cons.injEq] at heq
      obtain ⟨rfl, rfl, rfl, -⟩ := heq
      exact ⟨i, j, ts, rfl, hp⟩
  · rintro ⟨i, j, ts', rfl, hp⟩
    exact ⟨i, j, _, rfl, hp⟩

theorem unambiguous_append {a : Char} (hpercent : a ≠ '%') (ha : e.value a = none) (ts rest : List Token) :
    e.Unambiguous (ts ++ .literal a :: rest) ↔ e.Unambiguous ts ∧ e.Unambiguous rest := by
  induction ts with
  | nil =>
    have hfront : ¬ e.Spells (.literal a :: rest) := by
      rintro ⟨_, _, _, heq, -⟩
      simp only [List.cons.injEq, Token.literal.injEq] at heq
      exact hpercent heq.1
    simp [Unambiguous, hfront]
  | cons t ts ih =>
    rw [List.cons_append, Unambiguous, Unambiguous, ih, ← List.cons_append,
      e.spells_append ha (List.cons_ne_nil t ts), and_assoc]

theorem hexPair_append {a : Char} (ha : e.value a = none) (cs rest : List Chunk) :
    e.HexPair (cs ++ .literal a :: rest) ↔ e.HexPair cs := by
  have hdigit : ∀ c, (e.value c).isSome → c ≠ a := by
    rintro _ hv rfl
    simp [ha] at hv
  constructor
  · rintro ⟨h, l, cs', heq, hh, hl⟩
    match cs with
    | [] =>
      simp only [List.nil_append, List.cons.injEq, Chunk.literal.injEq] at heq
      exact absurd heq.1.symm (hdigit h hh)
    | [c] =>
      simp only [List.cons_append, List.nil_append, List.cons.injEq, Chunk.literal.injEq] at heq
      exact absurd heq.2.1.symm (hdigit l hl)
    | c :: c' :: cs =>
      simp only [List.cons_append, List.cons.injEq] at heq
      obtain ⟨rfl, rfl, -⟩ := heq
      exact ⟨h, l, cs, rfl, hh, hl⟩
  · rintro ⟨h, l, cs', rfl, hh, hl⟩
    exact ⟨h, l, _, rfl, hh, hl⟩

theorem faithful_append {a : Char} (hpercent : a ≠ '%') (ha : e.value a = none) (cs rest : List Chunk) :
    e.Faithful (cs ++ .literal a :: rest) ↔ e.Faithful cs ∧ e.Faithful rest := by
  induction cs with
  | nil =>
    have hfront : e.Fits (.literal a) rest := fun h => absurd h hpercent
    simp [Faithful, hfront]
  | cons c cs ih =>
    have hfits : e.Fits c (cs ++ .literal a :: rest) ↔ e.Fits c cs := by
      cases c with
      | literal c => simp only [Fits, e.hexPair_append ha]
      | escape h l => rfl
    rw [List.cons_append, Faithful, Faithful, ih, hfits, and_assoc]

/-- A rendering has no new characters but plain ones and those of escapes. -/
theorem forall_render {Q : Char → Prop} (hpercent : Q '%') (hdigit : ∀ i, Q (e.digit i))
    (hplain : ∀ o c, e.plain o = some c → Q c) {text : List Char} (h : ∀ c ∈ text, Q c) :
    ∀ c ∈ e.render (e.canonical text), Q c := by
  intro c hc
  rw [canonical_eq, render, List.flatMap_map] at hc
  obtain ⟨x, hx, hc⟩ := List.mem_flatMap.1 hc
  have hraw : ∀ c ∈ x.raw, Q c := fun c hc =>
    h c (e.chunks_raw text ▸ List.mem_flatMap.2 ⟨x, hx, hc⟩)
  cases x with
  | literal d =>
    obtain rfl := List.mem_singleton.1 hc
    exact hraw c (List.mem_singleton.2 rfl)
  | escape a b =>
    simp only [token, read, decode] at hc
    split at hc
    · rename_i d hd
      obtain rfl := List.mem_singleton.1 hc
      exact hplain _ _ hd
    · simp only [write, List.mem_cons, List.not_mem_nil, or_false] at hc
      rcases hc with rfl | rfl | rfl
      · exact hpercent
      · exact hdigit _
      · exact hdigit _

/-- Reading a text with a separator is reading both sides of it. -/
theorem chunks_append {a : Char} (hpercent : a ≠ '%') (ha : e.value a = none) (s rest : List Char) :
    e.chunks (s ++ a :: rest) = e.chunks s ++ .literal a :: e.chunks rest := by
  have h := e.chunks_of_faithful ((e.faithful_append hpercent ha (e.chunks s) (e.chunks rest)).2
    ⟨e.faithful_chunks s, e.faithful_chunks rest⟩)
  rwa [List.flatMap_append, List.flatMap_cons, e.chunks_raw, e.chunks_raw] at h

/-- No other chunk is written with a separator in it. -/
theorem not_mem_write {a : Char} (hpercent : a ≠ '%') (ha : e.value a = none) (hplain : ∀ o, e.plain o ≠ some a)
    {c : Chunk} (hc : c ≠ .literal a) : a ∉ e.write (e.token c) := by
  intro hm
  cases c with
  | literal c =>
    simp only [token, read, decode, write, List.mem_singleton] at hm
    exact hc (by rw [hm])
  | escape h l =>
    simp only [token, read, decode] at hm
    split at hm
    · rename_i c hp
      obtain rfl := List.mem_singleton.1 hm
      exact hplain _ hp
    · simp only [write, List.mem_cons, List.not_mem_nil, or_false] at hm
      rcases hm with hm | hm | hm
      · exact hpercent hm
      · exact e.digit_ne ha _ hm.symm
      · exact e.digit_ne ha _ hm.symm

theorem mem_chunks_literal {a : Char} {text : List Char} (h : .literal a ∈ e.chunks text) : a ∈ text := by
  rw [← e.chunks_raw text]
  exact List.mem_flatMap.2 ⟨_, h, List.mem_singleton.2 rfl⟩

/-! ## Texts with dot segments -/

/-- A chunk segment has the form its rendering has. -/
def chunkForms (f : DotForms Char) : DotForms Chunk where
  single s := f.single (s.flatMap (fun c => e.write (e.token c)))
  double s := f.double (s.flatMap (fun c => e.write (e.token c)))
  keeps s := f.keeps (s.flatMap (fun c => e.write (e.token c)))
  single_nil := f.single_nil
  double_nil := f.double_nil

theorem render_map_token (cs : List Chunk) :
    e.render (cs.map e.token) = cs.flatMap (fun c => e.write (e.token c)) := by
  simp [render, List.flatMap_map]

/-- Merge what looks like an escape, then drop the segments that render as dot
segments. -/
def repairChunks (f : DotForms Char) (sep : Char) (text : List Char) : List Chunk :=
  (e.chunkForms f).removeDots (.literal sep) (e.merge (e.chunks text))

def repair (f : DotForms Char) (sep : Char) (text : List Char) : List Char :=
  (e.repairChunks f sep text).flatMap Chunk.raw

section
variable (f : DotForms Char) {sep : Char} (hpercent : sep ≠ '%') (hsep : e.value sep = none)
include hpercent hsep

theorem chunks_repair (text : List Char) : e.chunks (e.repair f sep text) = e.repairChunks f sep text :=
  e.chunks_of_faithful ((e.chunkForms f).forall_removeDots (fun s rest => e.faithful_append hpercent hsep s rest)
    trivial (e.faithful_merge (e.faithful_chunks text)))

/-- The repaired text is unambiguous. -/
theorem unambiguous_repair (text : List Char) : e.Unambiguous (e.canonical (e.repair f sep text)) := by
  rw [canonical_eq, e.chunks_repair f hpercent hsep]
  refine (e.chunkForms f).forall_removeDots (P := fun cs => e.Unambiguous (cs.map e.token)) ?_ trivial
    (e.unambiguous_merge _)
  intro s rest
  rw [List.map_append, List.map_cons]
  exact e.unambiguous_append hpercent hsep _ _

/-- It renders as the text does without dot segments. -/
theorem render_repair (hplain : ∀ o, e.plain o ≠ some sep) (text : List Char) :
    e.render (e.canonical (e.repair f sep text)) = f.removeDots sep (e.render (e.canonical text)) := by
  rw [canonical_eq, canonical_eq, e.chunks_repair f hpercent hsep, ← e.render_merge (e.chunks text),
    render_map_token, render_map_token]
  exact ((e.chunkForms f).removeDots_flatMap rfl (fun c hc => e.not_mem_write hpercent hsep hplain hc)
    (fun _ => rfl) (fun _ => rfl) (fun _ => rfl) _).symm

/-- The rendering has the renderings of the segments as its segments. -/
theorem splitOn_render (hplain : ∀ o, e.plain o ≠ some sep) (text : List Char) :
    (e.render (e.canonical text)).splitOn sep = (text.splitOn sep).map (fun s => e.render (e.canonical s)) := by
  refine splitOn_of_append (F := fun s => e.render (e.canonical s)) (fun s rest => ?_) (fun s hs hm => ?_) text
  · simp only [canonical_eq, e.chunks_append hpercent hsep, List.map_append, List.map_cons, render,
      List.flatMap_append, List.flatMap_cons]
    rfl
  · rw [canonical_eq, render_map_token] at hm
    obtain ⟨c, hc, hm⟩ := List.mem_flatMap.1 hm
    by_cases hl : c = .literal sep
    · exact hs (e.mem_chunks_literal (hl ▸ hc))
    · exact e.not_mem_write hpercent hsep hplain hl hm

theorem splitOn_canonical (hplain : ∀ o, e.plain o ≠ some sep) (text : List Char) :
    (e.canonical text).splitOn (.literal sep) = (text.splitOn sep).map e.canonical := by
  refine splitOn_of_append (F := e.canonical) (fun s rest => ?_) (fun s hs hm => ?_) text
  · simp only [canonical_eq, e.chunks_append hpercent hsep, List.map_append, List.map_cons]
    rfl
  · rw [canonical_eq] at hm
    obtain ⟨c, hc, hm⟩ := List.mem_map.1 hm
    by_cases hl : c = .literal sep
    · exact hs (e.mem_chunks_literal (hl ▸ hc))
    · exact e.not_mem_write hpercent hsep hplain hl (by rw [hm]; exact List.mem_singleton.2 rfl)
end

theorem repair_size (f : DotForms Char) (sep : Char) (text : List Char) :
    (e.repair f sep text).length ≤ text.length :=
  calc (e.repair f sep text).length
      ≤ ((e.merge (e.chunks text)).flatMap Chunk.raw).length := (e.chunkForms f).removeDots_size rfl _
    _ ≤ ((e.chunks text).flatMap Chunk.raw).length := e.merge_size _
    _ = text.length := by rw [e.chunks_raw]

theorem mem_merge {cs : List Chunk} {c : Char} (h : c ∈ (e.merge cs).flatMap Chunk.raw) :
    c ∈ cs.flatMap Chunk.raw ∨ c = '%' ∨ ∃ i, c = e.digit i := by
  fun_induction e.merge cs with
  | case1 a b d rest x y hs ih =>
    obtain ⟨-, i, j, -, -, rfl, rfl, -⟩ := e.spelled_eq_some.1 hs
    simp only [List.flatMap_cons, Chunk.raw, List.cons_append, List.nil_append, List.mem_cons] at h
    rcases h with h | h | h | h
    · exact .inr (.inl h)
    · exact .inr (.inr ⟨i, h⟩)
    · exact .inr (.inr ⟨j, h⟩)
    · exact (ih h).imp_left fun h => by simp [h]
  | case2 a b d rest hs ih =>
    rcases List.mem_append.1 (List.flatMap_cons ▸ h) with h | h
    · exact .inl (by simp [h])
    · exact (ih h).imp_left fun h => by rw [List.flatMap_cons]; exact List.mem_append_right _ h
  | case3 => exact .inl h

/-- A repaired text has no new characters but those of escapes. -/
theorem forall_repair {Q : Char → Prop} {sep : Char} (hsep : Q sep) (hpercent : Q '%') (hdigit : ∀ i, Q (e.digit i))
    (f : DotForms Char) {text : List Char} (h : ∀ c ∈ text, Q c) : ∀ c ∈ e.repair f sep text, Q c := by
  refine (e.chunkForms f).forall_removeDots (P := fun cs => ∀ c ∈ cs.flatMap Chunk.raw, Q c) ?_ nofun ?_
  · intro s rest
    simp only [List.flatMap_append, List.flatMap_cons, Chunk.raw, List.singleton_append, List.mem_append,
      List.mem_cons]
    constructor
    · exact fun h => ⟨fun c hc => h c (.inl hc), fun c hc => h c (.inr (.inr hc))⟩
    · rintro ⟨hs, hr⟩ c (hc | rfl | hc)
      · exact hs c hc
      · exact hsep
      · exact hr c hc
  · intro c hc
    rcases e.mem_merge hc with hc | rfl | ⟨i, rfl⟩
    · exact h c (e.chunks_raw text ▸ hc)
    · exact hpercent
    · exact hdigit i

/-! ## Texts that are left as they are -/

/-- The tokens start with literals that look like an escape which is written
differently once it is read. -/
def rewritten : List Token → Bool
  | .literal p :: .literal a :: .literal b :: _ =>
    match e.value a, e.value b with
    | some i, some j => p = '%' && e.write (e.decode (.octet (i, j))) ≠ ['%', a, b]
    | _, _ => false
  | _ => false

/-- Nowhere do literals look like such an escape. -/
def Stable : List Token → Prop
  | [] => True
  | t :: ts => e.rewritten (t :: ts) = false ∧ Stable ts

instance decidableStable : ∀ ts, Decidable (e.Stable ts)
  | [] => .isTrue trivial
  | t :: ts =>
    have := decidableStable ts
    inferInstanceAs (Decidable (e.rewritten (t :: ts) = false ∧ e.Stable ts))

theorem rewritten_of_ne_percent {c : Char} (hc : c ≠ '%') (ts : List Token) :
    e.rewritten (.literal c :: ts) = false := by
  unfold rewritten
  split
  · rename_i heq
    cases heq
    split
    · simp [hc]
    · rfl
  · rfl

theorem rewritten_of_no_digits (t : Token) {ts : List Token}
    (h : ∀ a b rest, e.render ts = a :: b :: rest → ¬ ((e.value a).isSome ∧ (e.value b).isSome)) :
    e.rewritten (t :: ts) = false := by
  unfold rewritten
  split
  · rename_i p a b rest heq
    cases heq
    split
    · rename_i i j hi hj
      exact absurd ⟨by rw [hi]; rfl, by rw [hj]; rfl⟩ (h a b _ rfl)
    · rfl
  · rfl

/-- What an octet is written as can be told from what comes after it. -/
theorem write_octet_append_iff {i j : Fin 16} {a b : Char} {xs ys : List Char} :
    e.write (e.decode (.octet (i, j))) ++ xs = '%' :: a :: b :: ys ↔
      e.write (e.decode (.octet (i, j))) = ['%', a, b] ∧ xs = ys := by
  cases hp : e.plain (i, j) with
  | some d =>
    have hd : d ≠ '%' := by
      rintro rfl
      exact e.plain_ne_percent (i, j) hp
    simp [decode, hp, write, hd]
  | none => simp [decode, hp, write, and_assoc]

theorem canonical_render_literal {c : Char} (hc : c ≠ '%') (rest : List Char) :
    e.render (e.canonical (c :: rest)) = c :: e.render (e.canonical rest) := by
  simp only [canonical_eq, e.chunks_of_not_percent hc, render_map_token, List.flatMap_cons]
  rfl

theorem canonical_render_escape {a b : Char} {i j : Fin 16} (ha : e.value a = some i) (hb : e.value b = some j)
    (rest : List Char) : e.render (e.canonical ('%' :: a :: b :: rest)) =
      e.write (e.decode (.octet (i, j))) ++ e.render (e.canonical rest) := by
  simp only [canonical_eq, chunks, ha, hb, Option.isSome_some, and_self, if_true, render_map_token, List.flatMap_cons,
    token, read, Option.getD_some]

theorem canonical_render_percent {rest : List Char}
    (h : ∀ a b rest', rest = a :: b :: rest' → ¬ ((e.value a).isSome ∧ (e.value b).isSome)) :
    e.render (e.canonical ('%' :: rest)) = '%' :: e.render (e.canonical rest) := by
  simp only [canonical_eq, e.chunks_percent h, render_map_token, List.flatMap_cons]
  rfl

/-- What was written is read and written as it is, just when no literals in it
look like an escape that is not. -/
theorem canonical_render_iff {ts : List Token} (h : ∀ t ∈ ts, e.Reserved t) :
    e.render (e.canonical (e.render ts)) = e.render ts ↔ e.Stable ts := by
  induction ts with
  | nil => exact ⟨fun _ => trivial, fun _ => rfl⟩
  | cons t ts ih =>
    have ih := ih (fun t' ht => h t' (List.mem_cons_of_mem t ht))
    cases t with
    | octet o =>
      obtain ⟨i, j⟩ := o
      have hplain : e.plain (i, j) = none := h _ List.mem_cons_self
      have hwrite : e.render (.octet (i, j) :: ts) = '%' :: e.digit i :: e.digit j :: e.render ts := rfl
      have hread : e.write (e.decode (.octet (i, j))) = ['%', e.digit i, e.digit j] := by
        simp only [decode, hplain, write]
      rw [hwrite, e.canonical_render_escape (e.value_digit i) (e.value_digit j), hread, Stable, ← ih]
      simp [rewritten]
    | literal c =>
      have hwrite : e.render (.literal c :: ts) = c :: e.render ts := rfl
      rw [hwrite, Stable]
      by_cases hc : c = '%'
      · subst hc
        by_cases hdigits : ∃ a b rest, e.render ts = a :: b :: rest ∧ (e.value a).isSome ∧ (e.value b).isSome
        · -- both literals are consumed with the percent sign
          obtain ⟨a, b, rest, htext, ha, hb⟩ := hdigits
          obtain ⟨ts', rfl, rfl⟩ := e.literals_of_digits htext ha hb
          obtain ⟨i, hi⟩ := Option.isSome_iff_exists.1 ha
          obtain ⟨j, hj⟩ := Option.isSome_iff_exists.1 hb
          rw [htext] at ih ⊢
          rw [e.canonical_render_literal (e.ne_percent ha), e.canonical_render_literal (e.ne_percent hb), List.cons.injEq,
            List.cons.injEq] at ih
          rw [e.canonical_render_escape hi hj, ← ih]
          simp only [true_and, rewritten, hi, hj, decide_true, Bool.true_and, decide_eq_false_iff_not, ne_eq, not_not]
          exact e.write_octet_append_iff
        · have hno : ∀ a b rest, e.render ts = a :: b :: rest → ¬ ((e.value a).isSome ∧ (e.value b).isSome) :=
            fun a b rest htext hv => hdigits ⟨a, b, rest, htext, hv⟩
          have hnot := e.rewritten_of_no_digits (.literal '%') hno
          rw [e.canonical_render_percent hno, List.cons.injEq, ih]
          simp [hnot]
      · rw [e.canonical_render_literal hc, List.cons.injEq, ih]
        simp [e.rewritten_of_ne_percent hc]

/-- Reading and writing never makes a text longer. -/
theorem canonical_render_length (text : List Char) : (e.render (e.canonical text)).length ≤ text.length := by
  rw [canonical_eq, render_map_token]
  conv => rhs; rw [← e.chunks_raw text]
  induction e.chunks text with
  | nil => simp
  | cons c cs ih =>
    have hc : (e.write (e.token c)).length ≤ c.raw.length := by
      cases c with
      | literal c => exact Nat.le_refl _
      | escape a b =>
        simp only [token, read, decode]
        split <;> simp [write, Chunk.raw]
    simp only [List.flatMap_cons, List.length_append]
    omega

/-- Once the dot segments are gone, reading and writing and dropping dot
segments again changes something only if the first alone does: no dot segment
can come up, or the text would get shorter. -/
theorem removeDots_canonical_iff (f : DotForms Char) {sep : Char} {text : List Char}
    (h : ∀ s ∈ text.splitOn sep, f.Plain s) :
    f.removeDots sep (e.render (e.canonical text)) = text ↔ e.render (e.canonical text) = text := by
  constructor
  · intro heq
    have hle := e.canonical_render_length text
    rwa [f.removeDots_of_plain (f.plain_of_length (by rw [heq]; exact hle))] at heq
  · intro heq
    rw [heq, f.removeDots_of_plain h]

/-- A text of literals is stable if each escape in it is written as it stands. -/
theorem stable_literals_iff {text : List Char} :
    e.Stable (text.map .literal) ↔ ∀ a b i j, ['%', a, b] <:+: text → e.value a = some i → e.value b = some j →
      e.write (e.decode (.octet (i, j))) = ['%', a, b] := by
  induction text with
  | nil => exact ⟨fun _ a b i j hin => absurd (List.infix_nil.1 hin) nofun, fun _ => trivial⟩
  | cons c text ih =>
    rw [List.map_cons, Stable, ih]
    simp only [List.infix_cons_iff]
    constructor
    · rintro ⟨hfirst, hrest⟩ a b i j (hin | hin) ha hb
      · obtain ⟨rest, hrest⟩ := hin
        cases hrest
        simpa [rewritten, ha, hb] using hfirst
      · exact hrest a b i j hin ha hb
    · intro hall
      refine ⟨?_, fun a b i j hin => hall a b i j (.inr hin)⟩
      match text with
      | [] | [_] => rfl
      | a :: b :: rest =>
        simp only [List.map_cons, rewritten]
        split
        · rename_i i j hi hj
          by_cases hc : c = '%'
          · subst hc
            simp [hall a b i j (.inl ⟨rest, rfl⟩) hi hj]
          · simp [hc]
        · rfl

/-- A segment of tokens has the form its rendering has. -/
def tokenForms (f : DotForms Char) : DotForms Token where
  single ts := f.single (e.render ts)
  double ts := f.double (e.render ts)
  keeps ts := f.keeps (e.render ts)
  single_nil := f.single_nil
  double_nil := f.double_nil

section
variable (f : DotForms Char) {sep : Char} (hpercent : sep ≠ '%') (hsep : e.value sep = none)
include hpercent hsep

theorem removeDots_render (ts : List Token) :
    f.removeDots sep (e.render ts) = e.render ((e.tokenForms f).removeDots (.literal sep) ts) := by
  refine DotForms.removeDots_flatMap (e.tokenForms f) rfl (fun t ht => ?_) (fun _ => rfl) (fun _ => rfl)
    (fun _ => rfl) ts
  cases t with
  | literal c =>
    intro hm
    rw [write, List.mem_singleton] at hm
    exact ht (by rw [hm])
  | octet o =>
    simp only [write, List.mem_cons, List.not_mem_nil, or_false, not_or]
    exact ⟨hpercent, (e.digit_ne hsep o.1).symm, (e.digit_ne hsep o.2).symm⟩

/-- Reading and writing a text and dropping its dot segments: to do this again
changes nothing, just when what is kept of the tokens is stable. -/
theorem removeDots_again_iff (text : List Char) :
    f.removeDots sep (e.render (e.canonical (f.removeDots sep (e.render (e.canonical text))))) =
        f.removeDots sep (e.render (e.canonical text)) ↔
      e.Stable ((e.tokenForms f).removeDots (.literal sep) (e.canonical text)) := by
  have hreserved : ∀ t ∈ (e.tokenForms f).removeDots (.literal sep) (e.canonical text), e.Reserved t := by
    refine (e.tokenForms f).forall_removeDots (P := fun ts => ∀ t ∈ ts, e.Reserved t) (fun s rest => ?_) nofun
      (e.reserved_canonical text)
    simp only [List.mem_append, List.mem_cons]
    constructor
    · exact fun h => ⟨fun t ht => h t (.inl ht), fun t ht => h t (.inr (.inr ht))⟩
    · rintro ⟨hs, hr⟩ t (ht | rfl | ht)
      · exact hs t ht
      · trivial
      · exact hr t ht
  rw [← e.canonical_render_iff hreserved, ← e.removeDots_render f hpercent hsep]
  exact e.removeDots_canonical_iff f (f.plain_removeDots sep _)

end

end PercentEncoding

end EnvoyWebBotAuth.Lib
