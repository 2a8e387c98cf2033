import EnvoyWebBotAuth.Protocol.Url
import Mathlib.Data.Finset.Card
import Mathlib.Data.List.Sort
import Mathlib.Data.List.Destutter
/-!
# Destinations

Which URLs and addresses a fetch may go to (`ssrf.rs`).
-/
open EnvoyWebBotAuth.Lib EnvoyWebBotAuth.Protocol

namespace EnvoyWebBotAuth.Resolver

inductive IpAddr where
  | v4 (address : BitVec 32)
  | v6 (address : BitVec 128)
  deriving DecidableEq, Repr

/-- The order of `IpAddr`: IPv4 first, then by value. -/
def IpAddr.le : IpAddr → IpAddr → Bool
  | .v4 a, .v4 b => a ≤ b
  | .v4 _, .v6 _ => true
  | .v6 _, .v4 _ => false
  | .v6 a, .v6 b => a ≤ b

/-- A network of `w`-bit addresses. -/
structure Net (w : Nat) where
  address : BitVec w
  prefixLen : Nat

def Net.contains {w : Nat} (net : Net w) (address : BitVec w) : Bool :=
  address >>> (w - net.prefixLen) = net.address >>> (w - net.prefixLen)

/-- A network of four octets or eight segments of `b` bits. -/
def net (w b : Nat) (parts : List Nat) (prefixLen : Nat) : Net w :=
  ⟨BitVec.ofNat w (parts.foldl (fun n part => n * 2 ^ b + part) 0), prefixLen⟩

def v4 (parts : List Nat) (prefixLen : Nat) : Net 32 := net 32 8 parts prefixLen
def v6 (parts : List Nat) (prefixLen : Nat) : Net 128 := net 128 16 parts prefixLen

def ipv4NotGlobal : List (Net 32) :=
  [v4 [0, 0, 0, 0] 8, v4 [10, 0, 0, 0] 8, v4 [100, 64, 0, 0] 10, v4 [127, 0, 0, 0] 8,
   v4 [169, 254, 0, 0] 16, v4 [172, 16, 0, 0] 12, v4 [192, 0, 0, 0] 29, v4 [192, 0, 0, 8] 32,
   v4 [192, 0, 0, 11] 32, v4 [192, 0, 0, 12] 30, v4 [192, 0, 0, 16] 28, v4 [192, 0, 0, 32] 27,
   v4 [192, 0, 0, 64] 26, v4 [192, 0, 0, 128] 26, v4 [192, 0, 0, 192] 27, v4 [192, 0, 0, 224] 28,
   v4 [192, 0, 0, 240] 29, v4 [192, 0, 0, 248] 30, v4 [192, 0, 0, 252] 31, v4 [192, 0, 0, 254] 32,
   v4 [192, 0, 0, 255] 32, v4 [192, 0, 2, 0] 24, v4 [192, 88, 99, 0] 24, v4 [192, 168, 0, 0] 16,
   v4 [198, 18, 0, 0] 15, v4 [198, 51, 100, 0] 24, v4 [203, 0, 113, 0] 24, v4 [224, 0, 0, 0] 4,
   v4 [240, 0, 0, 0] 4]

def ipv6NotGlobal : List (Net 128) :=
  [v6 [0, 0, 0, 0, 0, 0, 0, 0] 128, v6 [0, 0, 0, 0, 0, 0, 0, 1] 128,
   -- deprecated IPv4 compatibility addresses
   v6 [0, 0, 0, 0, 0, 0, 0, 0] 96,
   v6 [0x64, 0xff9b, 1, 0, 0, 0, 0, 0] 48, v6 [0x100, 0, 0, 0, 0, 0, 0, 0] 64,
   v6 [0x100, 0, 0, 1, 0, 0, 0, 0] 64, v6 [0x2001, 0, 0, 0, 0, 0, 0, 0] 23,
   v6 [0x2001, 0xdb8, 0, 0, 0, 0, 0, 0] 32, v6 [0x2002, 0, 0, 0, 0, 0, 0, 0] 16,
   v6 [0x3fff, 0, 0, 0, 0, 0, 0, 0] 20, v6 [0x5f00, 0, 0, 0, 0, 0, 0, 0] 16,
   v6 [0xfc00, 0, 0, 0, 0, 0, 0, 0] 7, v6 [0xfe80, 0, 0, 0, 0, 0, 0, 0] 10,
   v6 [0xff00, 0, 0, 0, 0, 0, 0, 0] 8]

def ipv6GlobalExceptions : List (Net 128) :=
  [v6 [0x2001, 1, 0, 0, 0, 0, 0, 1] 128, v6 [0x2001, 1, 0, 0, 0, 0, 0, 2] 128,
   v6 [0x2001, 1, 0, 0, 0, 0, 0, 3] 128, v6 [0x2001, 3, 0, 0, 0, 0, 0, 0] 32,
   v6 [0x2001, 4, 0x112, 0, 0, 0, 0, 0] 48, v6 [0x2001, 0x20, 0, 0, 0, 0, 0, 0] 28,
   v6 [0x2001, 0x30, 0, 0, 0, 0, 0, 0] 28]

/-- `to_ipv4_mapped`: the address under `::ffff:0:0/96`. -/
def toIpv4Mapped (address : BitVec 128) : Option (BitVec 32) :=
  if address >>> 32 = 0xffff#128 then some (address.setWidth 32) else none

def globallyReachableV4 (address : BitVec 32) : Bool := !ipv4NotGlobal.any (·.contains address)

def globallyReachable : IpAddr → Bool
  | .v4 address => globallyReachableV4 address
  | .v6 address =>
    match toIpv4Mapped address with
    | some mapped => globallyReachableV4 mapped
    | none =>
      if ipv6GlobalExceptions.any (·.contains address) then true
      else !ipv6NotGlobal.any (·.contains address)

example : globallyReachable (.v4 0x08080808#32) = true ∧ globallyReachable (.v6 0xffff7f000001#128) = false := by
  decide +kernel

/-- `sort_unstable` and `dedup` -/
def sortedUnique (addresses : List IpAddr) : List IpAddr :=
  (addresses.insertionSort (fun a b => a.le b)).destutter (· ≠ ·)

theorem sortedUnique_ne_nil {addresses : List IpAddr} (h : addresses ≠ []) : sortedUnique addresses ≠ [] := by
  intro he
  have hs := (List.destutter_eq_nil _).1 he
  have hl := List.length_insertionSort (fun a b : IpAddr => a.le b) addresses
  rw [hs] at hl
  exact h (List.eq_nil_of_length_eq_zero hl.symm)

/-- An answer with an unsafe address is rejected as a whole, so that it cannot
steer which address is selected. -/
def validateAllAddresses (addresses : List IpAddr) : Except String { l : List IpAddr // l ≠ [] } :=
  if h : addresses = [] ∨ addresses.any (fun address => !globallyReachable address) then .error "unsafe_address"
  else .ok ⟨sortedUnique addresses, sortedUnique_ne_nil (fun he => h (.inl he))⟩

structure DestinationPolicy where
  allowedPorts : Finset UInt16
  nonempty : allowedPorts.Nonempty
  nonzero : 0 ∉ allowedPorts
  bounded : allowedPorts.card ≤ 64

def DestinationPolicy.new (allowedPorts : List UInt16) : Except String DestinationPolicy :=
  if h : allowedPorts = [] ∨ 0 ∈ allowedPorts then .error "allowed ports must contain at least one non-zero port"
  else if hb : 64 < allowedPorts.toFinset.card then .error "allowed ports must contain at most 64 unique ports"
  else .ok
    { allowedPorts := allowedPorts.toFinset
      nonempty := (List.toFinset_nonempty_iff allowedPorts).2 (fun he => h (.inl he))
      nonzero := fun hz => h (.inr (List.mem_toFinset.1 hz))
      bounded := Nat.le_of_not_lt hb }

/-- `validate_url` -/
def DestinationPolicy.validateUrl (c : UrlCrate) (policy : DestinationPolicy) (url : Url) : Except String Unit :=
  if url.scheme ≠ "https" ∨ url.host = none ∨ url.username ≠ "" ∨ url.password.isSome ∨
      (c.portOrKnownDefault url).getD 0 ∉ policy.allowedPorts then
    .error "unsafe_destination"
  else .ok ()

/-! ## What the checks admit -/

/-- A destination a fetch may go to. -/
structure SafeUrl (c : UrlCrate) (policy : DestinationPolicy) (url : Url) : Prop where
  scheme : url.scheme = "https"
  host : ∃ h, url.host = some h
  username : url.username = ""
  password : url.password = none
  port : ∃ p ∈ policy.allowedPorts, c.portOrKnownDefault url = some p

theorem validateUrl_ok {c : UrlCrate} {policy : DestinationPolicy} {url : Url} {u : Unit} :
    policy.validateUrl c url = .ok u ↔ SafeUrl c policy url := by
  unfold DestinationPolicy.validateUrl
  split
  · rename_i h
    refine ⟨nofun, fun hs => ?_⟩
    obtain ⟨hsch, ⟨host, hh⟩, hu, hp, ⟨port, hmem, hport⟩⟩ := hs
    rcases h with h | h | h | h | h
    · exact absurd hsch h
    · rw [hh] at h
      cases h
    · exact absurd hu h
    · rw [hp] at h
      cases h
    · rw [hport] at h
      exact absurd hmem h
  · rename_i h
    simp only [not_or, not_not, Option.isSome_iff_ne_none] at h
    obtain ⟨hsch, hh, hu, hp, hport⟩ := h
    refine ⟨fun _ => ⟨hsch, Option.ne_none_iff_exists'.1 hh, hu, hp, ?_⟩, fun _ => rfl⟩
    -- an unknown port counts as 0, which is never allowed
    cases hq : c.portOrKnownDefault url with
    | none =>
      rw [hq] at hport
      exact absurd hport policy.nonzero
    | some p =>
      rw [hq] at hport
      exact ⟨p, hport, rfl⟩

/-- The accepted answer has the addresses of the DNS answer, all of them safe. -/
theorem validateAllAddresses_ok {addresses : List IpAddr} {unique : { l : List IpAddr // l ≠ [] }}
    (h : validateAllAddresses addresses = .ok unique) :
    (∀ ip ∈ unique.val, ip ∈ addresses) ∧ ∀ ip ∈ addresses, globallyReachable ip = true := by
  unfold validateAllAddresses at h
  split at h
  · cases h
  · rename_i hn
    obtain rfl := Except.ok.inj h
    simp only [not_or, List.any_eq_true, Bool.not_eq_true', not_exists, not_and, Bool.not_eq_false] at hn
    refine ⟨fun ip hip => ?_, hn.2⟩
    exact (List.mem_insertionSort _).1 ((List.destutter_sublist _ _).subset hip)

end EnvoyWebBotAuth.Resolver
