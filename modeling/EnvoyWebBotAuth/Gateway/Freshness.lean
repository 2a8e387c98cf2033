import EnvoyWebBotAuth.Gateway.Candidate
/-!
# Freshness over the integers

`validate_freshness` mixes `i64` and `u64`, and checked, saturating and
converting operations. Each of them gives the integer it stands for, or is
refused (`ExactSteps`). So the check is the one over the unbounded integers,
except that it refuses a skew and a lifetime that no `i64` holds.
-/
open EnvoyWebBotAuth.Lib EnvoyWebBotAuth.Protocol

namespace EnvoyWebBotAuth.Gateway

/-- What fresh means, without any bound on the numbers. -/
structure Fresh (created expires now : Int) (maxLifetime clockSkew : Nat) : Prop where
  ordered : created ≤ expires
  lifetime : expires - created ≤ maxLifetime
  begun : created ≤ now + clockSkew
  running : now - clockSkew ≤ expires

/-- No step of the check wraps around. -/
structure ExactSteps (created expires now : Int64) (clockSkew : UInt64) : Prop where
  skew : ∀ s, i64TryFrom clockSkew = some s → s.toInt = clockSkew.toNat
  lifetime : ∀ d, checkedSub expires created = some d → d.toInt = expires.toInt - created.toInt
  seconds : ∀ d v, checkedSub expires created = some d → u64TryFrom d = some v → (v.toNat : Int) = d.toInt
  latest : ∀ s, i64TryFrom clockSkew = some s →
    (saturatingAdd now s).toInt = min (2 ^ 63 - 1) (now.toInt + clockSkew.toNat)
  earliest : ∀ s, i64TryFrom clockSkew = some s →
    (saturatingSub now s).toInt = max (-2 ^ 63) (now.toInt - clockSkew.toNat)

/-! ## The steps -/

theorem i64TryFrom_isSome {value : UInt64} : (i64TryFrom value).isSome ↔ value.toNat ≤ 2 ^ 63 - 1 := by
  unfold i64TryFrom
  split <;> simp <;> omega

theorem u64TryFrom_eq_some {value : Int64} {v : UInt64} (h : u64TryFrom value = some v) :
    (v.toNat : Int) = value.toInt := by
  unfold u64TryFrom at h
  split at h
  · rename_i hpos
    obtain rfl := Option.some.inj h
    have h0 : 0 ≤ value.toInt := Int64.le_iff_toInt_le.1 hpos
    have hlt := value.toInt_lt
    rw [UInt64.toNat_ofNat']
    omega
  · cases h

/-- A difference is refused only if it is none of `i64`. -/
theorem checkedSub_isSome {a b : Int64} :
    (checkedSub a b).isSome ↔ -2 ^ 63 ≤ a.toInt - b.toInt ∧ a.toInt - b.toInt ≤ 2 ^ 63 - 1 := by
  unfold checkedSub
  dsimp only
  split <;> simp <;> omega

theorem toInt_saturatingAdd {a b : Int64} (hb : 0 ≤ b.toInt) :
    (saturatingAdd a b).toInt = min (2 ^ 63 - 1) (a.toInt + b.toInt) := by
  have ha := a.le_toInt
  rw [saturatingAdd, toInt_of_range (by omega)]
  omega

theorem toInt_saturatingSub {a b : Int64} (hb : 0 ≤ b.toInt) :
    (saturatingSub a b).toInt = max (-2 ^ 63) (a.toInt - b.toInt) := by
  have ha := a.toInt_lt
  rw [saturatingSub, toInt_of_range (by omega)]
  omega

theorem exactSteps (created expires now : Int64) (clockSkew : UInt64) : ExactSteps created expires now clockSkew where
  skew _ := i64TryFrom_eq_some
  lifetime _ := checkedSub_eq_some
  seconds _ _ _ := u64TryFrom_eq_some
  latest s hs := by
    have hskew := i64TryFrom_eq_some hs
    rw [toInt_saturatingAdd (by omega), hskew]
  earliest s hs := by
    have hskew := i64TryFrom_eq_some hs
    rw [toInt_saturatingSub (by omega), hskew]

/-! ## The check -/

/-- Fresh timestamps pass, if the skew and the lifetime are each an `i64`. -/
theorem validateFreshness_of_fresh {created expires now : Int64} {maxLifetime clockSkew : UInt64}
    (h : Fresh created.toInt expires.toInt now.toInt maxLifetime.toNat clockSkew.toNat)
    (hskew : clockSkew.toNat ≤ 2 ^ 63 - 1) (hlifetime : expires.toInt - created.toInt ≤ 2 ^ 63 - 1) :
    validateFreshness (some created) (some expires) now maxLifetime clockSkew = .ok () := by
  obtain ⟨hordered, hmax, hbegun, hrunning⟩ := h
  obtain ⟨s, hs⟩ := Option.isSome_iff_exists.1 (i64TryFrom_isSome.2 hskew)
  obtain ⟨d, hd⟩ := Option.isSome_iff_exists.1
    (checkedSub_isSome.2 ⟨by omega, hlifetime⟩ : (checkedSub expires created).isSome)
  have hsval := i64TryFrom_eq_some hs
  have hdval := checkedSub_eq_some hd
  have hpos : 0 ≤ s.toInt := by omega
  have hnonneg : ¬ d < 0 := by
    rw [Int64.not_lt, Int64.le_iff_toInt_le, hdval]
    exact Int.sub_nonneg.2 hordered
  have hshort : ¬ (u64TryFrom d).all (maxLifetime < ·) = true := by
    rw [u64TryFrom, if_pos (Int64.not_lt.1 hnonneg), Option.all_some, decide_eq_true_eq, UInt64.not_lt,
      UInt64.le_iff_toNat_le, UInt64.toNat_ofNat']
    have hlt := d.toInt_lt
    omega
  have hlate : ¬ saturatingAdd now s < created := by
    rw [saturatingAdd_lt hpos]
    omega
  have hearly : ¬ expires < saturatingSub now s := by
    rw [lt_saturatingSub hpos]
    omega
  simp only [validateFreshness, okOr, hs, hd, ok_bind]
  rw [if_neg]
  rintro (h | h | h | h)
  · exact hnonneg h
  · exact hshort h
  · exact hlate h
  · exact hearly h

theorem validateFreshness_iff {created expires : Option Int64} {now : Int64} {maxLifetime clockSkew : UInt64} :
    validateFreshness created expires now maxLifetime clockSkew = .ok () ↔
      ∃ c e, created = some c ∧ expires = some e ∧
        Fresh c.toInt e.toInt now.toInt maxLifetime.toNat clockSkew.toNat ∧
        clockSkew.toNat ≤ 2 ^ 63 - 1 ∧ e.toInt - c.toInt ≤ 2 ^ 63 - 1 := by
  constructor
  · intro h
    obtain ⟨c, e, hc, he, hordered, hmax, hbegun, hrunning⟩ := validateFreshness_ok h
    subst hc he
    refine ⟨c, e, rfl, rfl, ⟨hordered, hmax, hbegun, hrunning⟩, ?_⟩
    -- the conversions went through
    simp only [validateFreshness, bind_ok, okOr_ok, Option.some.injEq] at h
    obtain ⟨_, rfl, _, rfl, s, hs, d, hd, -⟩ := h
    have hskew : (i64TryFrom clockSkew).isSome := Option.isSome_of_eq_some hs
    have hlifetime : (checkedSub e c).isSome := Option.isSome_of_eq_some hd
    exact ⟨i64TryFrom_isSome.1 hskew, (checkedSub_isSome.1 hlifetime).2⟩
  · rintro ⟨c, e, rfl, rfl, hfresh, hskew, hlifetime⟩
    exact validateFreshness_of_fresh hfresh hskew hlifetime

/-- There is one way to fail. -/
theorem validateFreshness_error {created expires : Option Int64} {now : Int64} {maxLifetime clockSkew : UInt64}
    (h : validateFreshness created expires now maxLifetime clockSkew ≠ .ok ()) :
    validateFreshness created expires now maxLifetime clockSkew = .error .invalidFreshness := by
  unfold validateFreshness at h ⊢
  cases created with
  | none => rfl
  | some c =>
    cases expires with
    | none => rfl
    | some e =>
      cases hs : i64TryFrom clockSkew with
      | none => rfl
      | some s =>
        simp only [okOr, hs, ok_bind] at h ⊢
        cases hd : checkedSub e c with
        | none => rfl
        | some d =>
          simp only [hd, ok_bind] at h ⊢
          split at h
          · rename_i hp
            rw [if_pos hp]
          · exact absurd rfl h

theorem freshness_exact (created expires : Option Int64) (now : Int64) (maxLifetime clockSkew : UInt64) :
    (validateFreshness created expires now maxLifetime clockSkew = .ok () ↔
      ∃ c e, created = some c ∧ expires = some e ∧
        Fresh c.toInt e.toInt now.toInt maxLifetime.toNat clockSkew.toNat ∧
        clockSkew.toNat ≤ 2 ^ 63 - 1 ∧ e.toInt - c.toInt ≤ 2 ^ 63 - 1) ∧
    (validateFreshness created expires now maxLifetime clockSkew = .ok () ∨
      validateFreshness created expires now maxLifetime clockSkew = .error .invalidFreshness) ∧
    (created = none ∨ expires = none →
      validateFreshness created expires now maxLifetime clockSkew = .error .invalidFreshness) ∧
    ∀ c e, created = some c → expires = some e → ExactSteps c e now clockSkew := by
  refine ⟨validateFreshness_iff, ?_, ?_, fun c e _ _ => exactSteps c e now clockSkew⟩
  · by_cases h : validateFreshness created expires now maxLifetime clockSkew = .ok ()
    · exact .inl h
    · exact .inr (validateFreshness_error h)
  · intro hmissing
    apply validateFreshness_error
    rw [ne_eq, validateFreshness_iff]
    rintro ⟨c, e, rfl, rfl, -⟩
    rcases hmissing with h | h <;> cases h

end EnvoyWebBotAuth.Gateway
