import EnvoyWebBotAuth.Resolver.Ssrf
/-!
# Addresses inside addresses

An IPv6 address may carry an IPv4 address to which a translator or a tunnel
takes what is sent to it. Of the four standard embeddings an accepted answer
has none (`::/96`, `2002::/16`), one whose IPv4 address is checked as such
(`::ffff:0:0/96`), and one that is not looked into (`64:ff9b::/96`).
-/

namespace EnvoyWebBotAuth.Resolver

/-! ## Networks that meet -/

/-- One network contains the address of the other. -/
def Net.meets {w : Nat} (n m : Net w) : Bool := n.contains m.address || m.contains n.address

theorem Net.contains_of_le {w : Nat} {n m : Net w} {address : BitVec w} (hn : n.contains address = true)
    (hm : m.contains address = true) (hle : n.prefixLen ≤ m.prefixLen) : n.contains m.address = true := by
  simp only [Net.contains, decide_eq_true_eq] at hn hm ⊢
  obtain ⟨k, hk⟩ := Nat.exists_eq_add_of_le (Nat.sub_le_sub_left hle w)
  rw [hk, BitVec.shiftRight_add] at hn ⊢
  rw [← hn, hm]

/-- Networks with a common address are nested. -/
theorem Net.meets_of_contains {w : Nat} {n m : Net w} {address : BitVec w} (hn : n.contains address = true)
    (hm : m.contains address = true) : n.meets m = true := by
  rw [Net.meets, Bool.or_eq_true]
  rcases Nat.le_total n.prefixLen m.prefixLen with hle | hle
  · exact .inl (Net.contains_of_le hn hm hle)
  · exact .inr (Net.contains_of_le hm hn hle)

theorem Net.not_contains_of_meets {w : Nat} {n m : Net w} {address : BitVec w} (h : n.meets m = false)
    (hm : m.contains address = true) : n.contains address = false := by
  rw [Bool.eq_false_iff] at h ⊢
  exact fun hn => h (Net.meets_of_contains hn hm)

/-! ## Embeddings -/

inductive Embedding where
  | mapped
  | compatible
  | sixToFour
  | nat64

namespace Embedding

def network : Embedding → Net 128
  | mapped => v6 [0, 0, 0, 0, 0, 0xffff, 0, 0] 96
  | compatible => v6 [0, 0, 0, 0, 0, 0, 0, 0] 96
  | sixToFour => v6 [0x2002, 0, 0, 0, 0, 0, 0, 0] 16
  | nat64 => v6 [0x64, 0xff9b, 0, 0, 0, 0, 0, 0] 96

/-- The IPv4 address in an address of the network: its last 32 bits, and for
6to4 those after the prefix. -/
def carried (e : Embedding) (address : BitVec 128) : BitVec 32 :=
  match e with
  | sixToFour => (address >>> 80).setWidth 32
  | _ => address.setWidth 32

end Embedding

theorem toIpv4Mapped_eq (address : BitVec 128) :
    toIpv4Mapped address =
      if Embedding.mapped.network.contains address then some (Embedding.mapped.carried address) else none := by
  have hprefix : Embedding.mapped.network.address >>> 32 = 0xffff#128 := by decide
  simp only [toIpv4Mapped, Net.contains, decide_eq_true_eq]
  rw [show 128 - Embedding.mapped.network.prefixLen = 32 from rfl, hprefix]
  rfl

/-- The address is no denied IPv4 destination, and carries none. -/
def LeadsToNoDenied : IpAddr → Prop
  | .v4 address => ∀ net ∈ ipv4NotGlobal, net.contains address = false
  | .v6 address => ∀ e : Embedding, e.network.contains address = true →
      globallyReachable (.v4 (e.carried address)) = true

/-- An address under `64:ff9b::/96` whose last 32 bits lie in a denied range. -/
def Nat64Denied : IpAddr → Prop
  | .v4 _ => False
  | .v6 address => Embedding.nat64.network.contains address = true ∧
      ∃ net ∈ ipv4NotGlobal, net.contains (Embedding.nat64.carried address) = true

instance : DecidablePred Nat64Denied
  | .v4 _ => inferInstanceAs (Decidable False)
  | .v6 address => inferInstanceAs (Decidable (Embedding.nat64.network.contains address = true ∧
      ∃ net ∈ ipv4NotGlobal, net.contains (Embedding.nat64.carried address) = true))

theorem globallyReachableV4_iff (address : BitVec 32) :
    globallyReachableV4 address = true ↔ ∀ net ∈ ipv4NotGlobal, net.contains address = false := by
  simp [globallyReachableV4]

/-- A denied network that meets neither the mapped addresses nor an exception
has no reachable address. -/
theorem not_reachable_of_denied {net : Net 128} {address : BitVec 128} (hnet : net ∈ ipv6NotGlobal)
    (hmapped : Embedding.mapped.network.meets net = false)
    (hexceptions : ∀ e ∈ ipv6GlobalExceptions, e.meets net = false) (h : net.contains address = true) :
    globallyReachable (.v6 address) = false := by
  have hnone : toIpv4Mapped address = none := by
    rw [toIpv4Mapped_eq, Net.not_contains_of_meets hmapped h]
    rfl
  have hexception : ipv6GlobalExceptions.any (·.contains address) = false := by
    rw [List.any_eq_false]
    intro e he
    rw [Net.not_contains_of_meets (hexceptions e he) h]
    exact Bool.false_ne_true
  have hdenied : ipv6NotGlobal.any (·.contains address) = true := List.any_eq_true.2 ⟨net, hnet, h⟩
  simp [globallyReachable, hnone, hexception, hdenied]

theorem not_reachable_compatible {address : BitVec 128} (h : Embedding.compatible.network.contains address = true) :
    globallyReachable (.v6 address) = false :=
  not_reachable_of_denied (by simp [ipv6NotGlobal, Embedding.network]) (by decide) (by decide) h

theorem not_reachable_sixToFour {address : BitVec 128} (h : Embedding.sixToFour.network.contains address = true) :
    globallyReachable (.v6 address) = false :=
  not_reachable_of_denied (by simp [ipv6NotGlobal, Embedding.network]) (by decide) (by decide) h

/-- A mapped address is as reachable as the IPv4 address in it. -/
theorem reachable_mapped {address : BitVec 128} (h : Embedding.mapped.network.contains address = true) :
    globallyReachable (.v6 address) = globallyReachable (.v4 (Embedding.mapped.carried address)) := by
  simp only [globallyReachable, toIpv4Mapped_eq, if_pos h]

/-- A reachable address leads to a denied destination only by NAT64. -/
theorem leadsToNoDenied_iff {ip : IpAddr} (h : globallyReachable ip = true) :
    LeadsToNoDenied ip ↔ ¬ Nat64Denied ip := by
  cases ip with
  | v4 address => exact ⟨fun _ => id, fun _ => (globallyReachableV4_iff address).1 h⟩
  | v6 address =>
    constructor
    · rintro hall ⟨hnat64, net, hnet, hcontains⟩
      have hreach := (globallyReachableV4_iff _).1 (hall .nat64 hnat64) net hnet
      rw [hcontains] at hreach
      cases hreach
    · intro hnot e he
      cases e with
      | mapped => rwa [← reachable_mapped he]
      | compatible => rw [not_reachable_compatible he] at h; cases h
      | sixToFour => rw [not_reachable_sixToFour he] at h; cases h
      | nat64 =>
        refine (globallyReachableV4_iff _).2 fun net hnet => Bool.eq_false_iff.2 fun hc => ?_
        exact hnot ⟨he, net, hnet, hc⟩

/-! ## The list of an answer -/

theorem IpAddr.le_total (a b : IpAddr) : a.le b = true ∨ b.le a = true := by
  cases a <;> cases b <;> simp [IpAddr.le, BitVec.le_total]

theorem IpAddr.le_trans {a b c : IpAddr} (hab : a.le b = true) (hbc : b.le c = true) : a.le c = true := by
  cases a <;> cases b <;> cases c <;> simp_all [IpAddr.le]
  all_goals exact BitVec.le_trans hab hbc

theorem IpAddr.le_antisymm {a b : IpAddr} (hab : a.le b = true) (hba : b.le a = true) : a = b := by
  cases a <;> cases b <;> simp_all [IpAddr.le]
  all_goals exact BitVec.le_antisymm hab hba

instance : Std.Total (fun a b : IpAddr => a.le b = true) := ⟨IpAddr.le_total⟩
instance : IsTrans IpAddr (fun a b : IpAddr => a.le b = true) := ⟨fun _ _ _ => IpAddr.le_trans⟩
instance : Std.Antisymm (fun a b : IpAddr => a.le b = true) := ⟨fun _ _ => IpAddr.le_antisymm⟩

/-- In a sorted list the duplicates stand together, so `dedup` leaves none. -/
theorem sortedUnique_eq (addresses : List IpAddr) :
    sortedUnique addresses = (addresses.insertionSort (fun a b => a.le b)).dedup :=
  (List.pairwise_insertionSort _ addresses).destutter_eq_dedup

theorem sortedUnique_sorted (addresses : List IpAddr) :
    (sortedUnique addresses).Pairwise (fun a b => a.le b = true) ∧ (sortedUnique addresses).Nodup := by
  rw [sortedUnique_eq]
  exact ⟨(List.pairwise_insertionSort _ addresses).sublist (List.dedup_sublist _), List.nodup_dedup _⟩

theorem mem_sortedUnique {addresses : List IpAddr} {ip : IpAddr} : ip ∈ sortedUnique addresses ↔ ip ∈ addresses := by
  rw [sortedUnique_eq, List.mem_dedup, List.mem_insertionSort]

theorem validateAllAddresses_val {addresses : List IpAddr} {unique : { l : List IpAddr // l ≠ [] }}
    (h : validateAllAddresses addresses = .ok unique) : unique.val = sortedUnique addresses := by
  unfold validateAllAddresses at h
  split at h
  · cases h
  · exact (congrArg Subtype.val (Except.ok.inj h)).symm

/-! ## Accepted answers -/

/-- An accepted answer leads to no denied IPv4 destination exactly if it has no
NAT64 address of one. Its list is the answer, sorted and without duplicates. -/
theorem accepted_leads_exact {addresses : List IpAddr} {unique : { l : List IpAddr // l ≠ [] }}
    (h : validateAllAddresses addresses = .ok unique) :
    ((∀ ip ∈ addresses, LeadsToNoDenied ip) ↔ ∀ ip ∈ addresses, ¬ Nat64Denied ip) ∧
    unique.val.Pairwise (fun a b => a.le b = true) ∧ unique.val.Nodup ∧ ∀ ip, ip ∈ unique.val ↔ ip ∈ addresses := by
  have hreach := (validateAllAddresses_ok h).2
  rw [validateAllAddresses_val h]
  exact ⟨forall₂_congr fun ip hip => leadsToNoDenied_iff (hreach ip hip), (sortedUnique_sorted addresses).1,
    (sortedUnique_sorted addresses).2, fun _ => mem_sortedUnique⟩

/-- Two addresses of their own, and `8.8.8.8` also mapped and by NAT64. -/
def sampleAnswer : List IpAddr :=
  [.v6 0x26064700470000000000000000001111#128, .v6 0x64ff9b0000000000000000_08080808#128, .v4 0x08080808#32,
    .v6 0xffff08080808#128, .v4 0x08080808#32]

def sampleUnique : List IpAddr :=
  [.v4 0x08080808#32, .v6 0xffff08080808#128, .v6 0x64ff9b0000000000000000_08080808#128,
    .v6 0x26064700470000000000000000001111#128]

theorem accepted_leads_exact_sample :
    (∀ ip ∈ sampleAnswer, LeadsToNoDenied ip) ∧ ∀ ip, ip ∈ sampleUnique ↔ ip ∈ sampleAnswer :=
  have h : validateAllAddresses sampleAnswer = .ok ⟨sampleUnique, by decide⟩ := by decide +kernel
  ⟨(accepted_leads_exact h).1.2 (by decide +kernel), (accepted_leads_exact h).2.2.2⟩

/-- `64:ff9b::127.0.0.1` -/
def loopbackNat64 : IpAddr := .v6 0x64ff9b0000000000000000_7f000001#128

theorem nat64_loopback_accepted :
    (∃ unique, validateAllAddresses [loopbackNat64] = .ok unique) ∧ globallyReachable (.v4 0x7f000001#32) = false ∧
    ¬ LeadsToNoDenied loopbackNat64 :=
  ⟨⟨⟨[loopbackNat64], by decide⟩, by decide +kernel⟩, by decide +kernel,
    fun h => absurd (h .nat64 (by decide +kernel)) (by decide +kernel)⟩

end EnvoyWebBotAuth.Resolver
