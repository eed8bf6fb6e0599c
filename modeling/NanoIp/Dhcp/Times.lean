import NanoIp.Dhcp.Offer
import NanoIp.Lib.Residue

/-!
# Renewal and rebinding times

On the acknowledgement the times of a lease are scaled to milliseconds in 32 bits: the times of
the offer, or parts of the lease time where one of them is zero. The client renews in time if and
only if the products fit, or leave remainders that are in order; what an offer does not give is
whatever an earlier one left behind.
-/
namespace NanoIp.Dhcp

/-- The part of a lease after which it is renewed, and the part after which any server is asked. -/
structure Percentages where
  t1 : BitVec 32
  t2 : BitVec 32
  pos : 0 < t1.toNat
  lt : t1.toNat < t2.toNat
  le : t2.toNat ≤ 100

/-- `NANO_IP_DHCP_T1_PERCENTAGE` and `NANO_IP_DHCP_T2_PERCENTAGE`. -/
def configured : Percentages := ⟨t1Percentage, t2Percentage, by decide, by decide, by decide⟩

/-- `Compute renewing and rebinding times` with these percentages. -/
def Client.timesAt (k : Percentages) (c : Client) : Client :=
  if c.leaseTime1 = 0#32 ∨ c.leaseTime2 = 0#32 then
    { c with leaseTime1 := c.leaseTime * k.t1 * 10#32, leaseTime2 := c.leaseTime * k.t2 * 10#32 }
  else { c with leaseTime1 := c.leaseTime1 * 1000#32, leaseTime2 := c.leaseTime2 * 1000#32 }

/-- What `NANO_IP_DHCP_CLIENT_ProcessAckMessage` does on an acknowledgement in `DCS_REQUESTING`,
once the address is given to the interface. -/
def boundAt (k : Percentages) (s : State) : State :=
  State.bound { s with
    calls := s.calls ++ [⟨s.client.leaseAddress, s.client.netmask, s.client.gateway, .success⟩]
    client := s.client.timesAt k }

theorem acknowledged_configured {s : State} (h : s.client.state = .requesting) :
    acknowledged s .success = boundAt configured s := by
  rw [acknowledged, if_pos h]
  exact if_pos rfl

/-- The client whose offer is acknowledged: what it was before, what the offer says of its lease,
and what becomes of the state `s` it is in. -/
def ackedAt (k : Percentages) (s : State) (c : Client) (x : Options) : Client :=
  (boundAt k { s with client := { c.taking x with state := .requesting } }).client

def Options.timed (x : Options) : Bool :=
  x.renewalTime.getD 0#32 ≠ 0#32 && x.rebindingTime.getD 0#32 ≠ 0#32

/-- The renewal time in ms: that of the offer, or the part of its lease time. -/
def renewalMs (k : Percentages) (c : Client) (x : Options) : Nat :=
  if x.timed then (x.renewalTime.getD 0#32).toNat * 1000
  else (x.leaseTime.getD c.leaseTime).toNat * (k.t1.toNat * 10)

/-- The offer with a shorter time until the renewal. -/
def Shorter (c : Client) (x x' : Options) : Prop :=
  if x.timed then ∃ t, t ≠ 0#32 ∧ t < x.renewalTime.getD 0#32 ∧
    x' = { x with renewalTime := some t }
  else ∃ t, t ≠ 0#32 ∧ t < x.leaseTime.getD c.leaseTime ∧ x' = { x with leaseTime := some t }

/-- The client renews the lease of an offer in time. -/
structure Renews (k : Percentages) (s : State) (c : Client) (x : Options) : Prop where
  running : (ackedAt k s c x).timer = some (s.clock + (ackedAt k s c x).currentTimeout.toNat)
  exact : renewalMs k c x < 2 ^ 32 → (ackedAt k s c x).currentTimeout.toNat = renewalMs k c x
  longer : 2 ^ 32 ≤ renewalMs k c x → ∀ x', Shorter c x x' →
    (ackedAt k s c x').currentTimeout ≤ (ackedAt k s c x).currentTimeout
  ordered : (ackedAt k s c x).leaseTime1 < (ackedAt k s c x).leaseTime2
  lasting : (ackedAt k s c x).leaseTime2.toNat ≤ (x.leaseTime.getD c.leaseTime).toNat * 1000

/-- The times in ms fit, or what is left of them is in order. -/
def Fit (k : Percentages) (c : Client) (x : Options) : Prop :=
  let lease := (x.leaseTime.getD c.leaseTime).toNat
  let first := (x.renewalTime.getD c.leaseTime1).toNat
  let second := (x.rebindingTime.getD c.leaseTime2).toNat
  if first = 0 ∨ second = 0 then
    lease * (k.t1.toNat * 10) < 2 ^ 32 ∧ lease * (k.t1.toNat * 10) <
      lease * (k.t2.toNat * 10) % 2 ^ 32
  else
    (0 < first * 1000 % 2 ^ 32 ∧ first * 1000 % 2 ^ 32 < second * 1000 % 2 ^ 32 ∧
      second * 1000 % 2 ^ 32 ≤ lease * 1000) ∧
    if x.timed then Lib.Record (2 ^ 32) 1000 first
    else lease * (k.t1.toNat * 10) < 2 ^ 32 → first * 1000 % 2 ^ 32 = lease * (k.t1.toNat * 10)

section Products

theorem mul_toNat_mod (a b c : BitVec 32) :
    (a * b * c).toNat = a.toNat * (b.toNat * c.toNat) % 2 ^ 32 := by
  rw [BitVec.toNat_mul, BitVec.toNat_mul, Nat.mod_mul_mod, Nat.mul_assoc]

variable {k : Percentages} {s : State} {c : Client} {x : Options}

theorem timerStart_running {period : BitVec 32} {now : Nat} :
    timerStart period now = some (now + period.toNat) ↔ period ≠ 0#32 := by
  rw [timerStart]
  by_cases h : period = 0#32
  · rw [if_pos h]
    exact ⟨fun hnone => (by cases hnone), fun hne => absurd h hne⟩
  · rw [if_neg h]
    exact ⟨fun _ => h, fun _ => rfl⟩

theorem ackedAt_timer :
    (ackedAt k s c x).timer = timerStart (ackedAt k s c x).currentTimeout s.clock := rfl

theorem ackedAt_leaseTime1 : (ackedAt k s c x).leaseTime1 = (ackedAt k s c x).currentTimeout := rfl

theorem ackedAt_parts
    (h : x.renewalTime.getD c.leaseTime1 = 0#32 ∨ x.rebindingTime.getD c.leaseTime2 = 0#32) :
    (ackedAt k s c x).currentTimeout.toNat =
        (x.leaseTime.getD c.leaseTime).toNat * (k.t1.toNat * 10) % 2 ^ 32 ∧
      (ackedAt k s c x).leaseTime2.toNat =
        (x.leaseTime.getD c.leaseTime).toNat * (k.t2.toNat * 10) % 2 ^ 32 := by
  rw [ackedAt, boundAt, Client.timesAt, if_pos (by exact h)]
  exact ⟨mul_toNat_mod _ _ _, mul_toNat_mod _ _ _⟩

theorem ackedAt_times
    (h : ¬(x.renewalTime.getD c.leaseTime1 = 0#32 ∨ x.rebindingTime.getD c.leaseTime2 = 0#32)) :
    (ackedAt k s c x).currentTimeout.toNat = (x.renewalTime.getD c.leaseTime1).toNat *
      1000 % 2 ^ 32 ∧
      (ackedAt k s c x).leaseTime2.toNat = (x.rebindingTime.getD c.leaseTime2).toNat * 1000 %
        2 ^ 32 := by
  rw [ackedAt, boundAt, Client.timesAt, if_neg (by exact h)]
  exact ⟨BitVec.toNat_mul .., BitVec.toNat_mul ..⟩

theorem timed_times (h : x.timed = true) (t₁ t₂ : BitVec 32) :
    x.renewalTime.getD t₁ = x.renewalTime.getD 0#32 ∧ x.rebindingTime.getD t₂ =
      x.rebindingTime.getD 0#32 ∧
      x.renewalTime.getD 0#32 ≠ 0#32 ∧ x.rebindingTime.getD 0#32 ≠ 0#32 := by
  simp only [Options.timed, Bool.and_eq_true, decide_eq_true_eq] at h
  obtain ⟨hne₁, hne₂⟩ := h
  refine ⟨?_, ?_, hne₁, hne₂⟩
  · cases hx : x.renewalTime with
    | none =>
      rw [hx] at hne₁
      exact absurd rfl hne₁
    | some t => rfl
  · cases hx : x.rebindingTime with
    | none =>
      rw [hx] at hne₂
      exact absurd rfl hne₂
    | some t => rfl

theorem toNat_eq_zero {v : BitVec 32} : v.toNat = 0 ↔ v = 0#32 := by
  rw [← BitVec.toNat_inj]
  rfl

theorem running_iff :
    (ackedAt k s c x).timer = some (s.clock + (ackedAt k s c x).currentTimeout.toNat) ↔
    0 < (ackedAt k s c x).currentTimeout.toNat := by
  rw [ackedAt_timer, timerStart_running, Nat.pos_iff_ne_zero, Ne, Ne, toNat_eq_zero]

theorem ordered_iff : (ackedAt k s c x).leaseTime1 < (ackedAt k s c x).leaseTime2 ↔
    (ackedAt k s c x).currentTimeout.toNat < (ackedAt k s c x).leaseTime2.toNat := by
  rw [ackedAt_leaseTime1, BitVec.lt_def]

end Products

section Cases

variable {k : Percentages} {s : State} {c : Client} {x : Options}

/-- Parts of the lease time. -/
theorem renews_parts (hlease : x.leaseTime.getD c.leaseTime ≠ 0#32)
    (h : x.renewalTime.getD c.leaseTime1 = 0#32 ∨ x.rebindingTime.getD c.leaseTime2 = 0#32) :
    Renews k s c x ↔ (x.leaseTime.getD c.leaseTime).toNat * (k.t1.toNat * 10) < 2 ^ 32 ∧
      (x.leaseTime.getD c.leaseTime).toNat * (k.t1.toNat * 10) <
        (x.leaseTime.getD c.leaseTime).toNat * (k.t2.toNat * 10) % 2 ^ 32 := by
  obtain ⟨hfirst, hsecond⟩ := ackedAt_parts (k := k) (s := s) h
  have htimed : x.timed = false := by
    by_contra htimed
    obtain ⟨h₁, h₂, hne₁, hne₂⟩ := timed_times ((Bool.not_eq_false _).mp htimed) c.leaseTime1
      c.leaseTime2
    rw [h₁, h₂] at h
    exact h.elim hne₁ hne₂
  have hms : renewalMs k c x = (x.leaseTime.getD c.leaseTime).toNat * (k.t1.toNat * 10) := by
    rw [renewalMs, htimed]
    rfl
  have hpos : 0 < (x.leaseTime.getD c.leaseTime).toNat := Nat.pos_iff_ne_zero.mpr fun h0 =>
    hlease (toNat_eq_zero.mp h0)
  have ht1 := k.pos
  have ht2 := k.lt
  have hle := k.le
  constructor
  · intro hr
    have hordered := ordered_iff.mp hr.ordered
    rw [hfirst, hsecond] at hordered
    have hfits : (x.leaseTime.getD c.leaseTime).toNat * (k.t1.toNat * 10) < 2 ^ 32 := by
      by_contra hge
      have hrecord : Lib.Record (2 ^ 32) (k.t1.toNat * 10)
          (x.leaseTime.getD c.leaseTime).toNat := by
        intro t htpos ht
        have htlt : t < 2 ^ 32 := Nat.lt_trans ht (BitVec.isLt _)
        have htoNat : (BitVec.ofNat 32 t).toNat = t := by
          rw [BitVec.toNat_ofNat, Nat.mod_eq_of_lt htlt]
        have hshorter : Shorter c x { x with leaseTime := some (BitVec.ofNat 32 t) } := by
          rw [Shorter, htimed]
          refine ⟨BitVec.ofNat 32 t, ?_, ?_, rfl⟩
          · rw [Ne, ← toNat_eq_zero, htoNat]
            exact Nat.pos_iff_ne_zero.mp htpos
          · rw [BitVec.lt_def, htoNat]
            exact ht
        have hle := hr.longer (by rw [hms]; exact Nat.le_of_not_lt hge) _ hshorter
        rw [BitVec.le_def, hfirst, (ackedAt_parts (by exact h)).1] at hle
        rw [← htoNat]
        exact hle
      have hnear := hrecord.near_top (by omega) (by omega) (Nat.le_of_not_lt hge)
      have hratio : k.t1.toNat * 10 * k.t2.toNat = k.t2.toNat * 10 * k.t1.toNat := by ring
      have hsmall : k.t1.toNat * 10 * k.t2.toNat ≤ 2 ^ 32 := by
        have hmul : k.t1.toNat * 10 * k.t2.toNat ≤ 1000 * 100 := Nat.mul_le_mul (by omega) hle
        omega
      exact Lib.not_ordered_near_top (Nat.two_pow_pos 32) hratio ht1 ht2 hsmall hnear hordered
    rw [Nat.mod_eq_of_lt hfits] at hordered
    exact ⟨hfits, hordered⟩
  · rintro ⟨hfits, hordered⟩
    rw [Nat.mod_eq_of_lt hfits] at hfirst
    have hmod : (x.leaseTime.getD c.leaseTime).toNat * (k.t2.toNat * 10) % 2 ^ 32 ≤
        (x.leaseTime.getD c.leaseTime).toNat * 1000 :=
      Nat.le_trans (Nat.mod_le _ _) (Nat.mul_le_mul_left _ (by omega))
    refine ⟨running_iff.mpr ?_, fun _ => hfirst.trans hms.symm, fun hge => ?_,
      ordered_iff.mpr ?_, ?_⟩
    · rw [hfirst]
      exact Nat.mul_pos hpos (by omega)
    · rw [hms] at hge
      omega
    · rw [hfirst, hsecond]
      exact hordered
    · rw [hsecond]
      exact hmod

theorem ackedAt_shorter (htimed : x.timed = true) {t : BitVec 32} (ht : t ≠ 0#32) :
    (ackedAt k s c { x with renewalTime := some t }).currentTimeout.toNat =
      t.toNat * 1000 % 2 ^ 32 := by
  obtain ⟨-, h₂, -, hne₂⟩ := timed_times htimed c.leaseTime1 c.leaseTime2
  refine (ackedAt_times (x := { x with renewalTime := some t }) (not_or.mpr ⟨ht, ?_⟩)).1
  rw [h₂]
  exact hne₂

/-- The times of the offer, or of an earlier one. -/
theorem renews_times
    (h : ¬(x.renewalTime.getD c.leaseTime1 = 0#32 ∨ x.rebindingTime.getD c.leaseTime2 = 0#32)) :
    Renews k s c x ↔ (0 < (x.renewalTime.getD c.leaseTime1).toNat * 1000 % 2 ^ 32 ∧
      (x.renewalTime.getD c.leaseTime1).toNat * 1000 % 2 ^ 32 <
        (x.rebindingTime.getD c.leaseTime2).toNat * 1000 % 2 ^ 32 ∧
      (x.rebindingTime.getD c.leaseTime2).toNat * 1000 % 2 ^ 32 ≤
        (x.leaseTime.getD c.leaseTime).toNat * 1000) ∧
      if x.timed then Lib.Record (2 ^ 32) 1000 (x.renewalTime.getD c.leaseTime1).toNat
      else (x.leaseTime.getD c.leaseTime).toNat * (k.t1.toNat * 10) < 2 ^ 32 →
        (x.renewalTime.getD c.leaseTime1).toNat * 1000 % 2 ^ 32 =
          (x.leaseTime.getD c.leaseTime).toNat * (k.t1.toNat * 10) := by
  obtain ⟨hfirst, hsecond⟩ := ackedAt_times (k := k) (s := s) h
  have hparts : (Renews k s c x → 0 < (x.renewalTime.getD c.leaseTime1).toNat * 1000 % 2 ^ 32 ∧
      (x.renewalTime.getD c.leaseTime1).toNat * 1000 % 2 ^ 32 <
        (x.rebindingTime.getD c.leaseTime2).toNat * 1000 % 2 ^ 32 ∧
      (x.rebindingTime.getD c.leaseTime2).toNat * 1000 % 2 ^ 32 ≤
        (x.leaseTime.getD c.leaseTime).toNat * 1000) := by
    intro hr
    rw [← hfirst, ← hsecond]
    exact ⟨running_iff.mp hr.running, ordered_iff.mp hr.ordered, hr.lasting⟩
  cases htimed : x.timed with
  | true =>
    obtain ⟨h₁, -, hne₁, -⟩ := timed_times htimed c.leaseTime1 c.leaseTime2
    have hms : renewalMs k c x = (x.renewalTime.getD c.leaseTime1).toNat * 1000 := by
      rw [renewalMs, htimed, h₁]
      rfl
    rw [if_pos rfl]
    constructor
    · intro hr
      refine ⟨hparts hr, ?_⟩
      by_cases hfits : (x.renewalTime.getD c.leaseTime1).toNat * 1000 < 2 ^ 32
      · exact Lib.record_of_fits hfits
      · intro t htpos ht
        have htlt : t < 2 ^ 32 := Nat.lt_trans ht (BitVec.isLt _)
        have htoNat : (BitVec.ofNat 32 t).toNat = t := by
          rw [BitVec.toNat_ofNat, Nat.mod_eq_of_lt htlt]
        have hne : BitVec.ofNat 32 t ≠ 0#32 := by
          rw [Ne, ← toNat_eq_zero, htoNat]
          exact Nat.pos_iff_ne_zero.mp htpos
        have hshorter : Shorter c x { x with renewalTime := some (BitVec.ofNat 32 t) } := by
          rw [Shorter, htimed]
          refine ⟨BitVec.ofNat 32 t, hne, ?_, rfl⟩
          rw [BitVec.lt_def, htoNat, ← h₁]
          exact ht
        have hle := hr.longer (by rw [hms]; exact Nat.le_of_not_lt hfits) _ hshorter
        rw [BitVec.le_def, hfirst, ackedAt_shorter htimed hne, htoNat] at hle
        exact hle
    · rintro ⟨⟨hpos, hordered, hlasting⟩, hrecord⟩
      refine ⟨running_iff.mpr (by rw [hfirst]; exact hpos), fun hfits => ?_,
        fun _ x' hshorter => ?_,
        ordered_iff.mpr (by rw [hfirst, hsecond]; exact hordered), by rw [hsecond]; exact hlasting⟩
      · rw [hms] at hfits ⊢
        rw [hfirst, Nat.mod_eq_of_lt hfits]
      · rw [Shorter, htimed] at hshorter
        obtain ⟨t, hne, ht, rfl⟩ := hshorter
        rw [BitVec.lt_def, ← h₁] at ht
        rw [BitVec.le_def, hfirst, ackedAt_shorter htimed hne]
        exact hrecord _ (Nat.pos_iff_ne_zero.mpr fun h0 => hne (toNat_eq_zero.mp h0)) ht
  | false =>
    have hms : renewalMs k c x = (x.leaseTime.getD c.leaseTime).toNat * (k.t1.toNat * 10) := by
      rw [renewalMs, htimed]
      rfl
    rw [if_neg Bool.false_ne_true]
    constructor
    · intro hr
      refine ⟨hparts hr, fun hfits => ?_⟩
      rw [← hfirst, hr.exact (by rw [hms]; exact hfits), hms]
    · rintro ⟨⟨hpos, hordered, hlasting⟩, hexact⟩
      refine ⟨running_iff.mpr (by rw [hfirst]; exact hpos), fun hfits => ?_,
        fun _ x' hshorter => ?_,
        ordered_iff.mpr (by rw [hfirst, hsecond]; exact hordered), by rw [hsecond]; exact hlasting⟩
      · rw [hms] at hfits ⊢
        rw [hfirst, hexact hfits]
      · -- the lease time is not looked at
        rw [Shorter, htimed] at hshorter
        obtain ⟨t, -, -, rfl⟩ := hshorter
        rw [BitVec.le_def, hfirst, (ackedAt_times (by exact h)).1]

end Cases

/-- The client renews a lease in time if and only if the times in ms fit, or what is left of them
happens to be in order. With the configured percentages and no times in any offer so far the lease
must be shorter than 4772186 seconds. -/
theorem renews_iff (k : Percentages) (s : State) {c : Client} {x : Options}
    (hlease : x.leaseTime.getD c.leaseTime ≠ 0#32) :
    (Renews k s c x ↔ Fit k c x) ∧
      (x.renewalTime.getD c.leaseTime1 = 0#32 →
        (Fit configured c x ↔ (x.leaseTime.getD c.leaseTime).toNat < 4772186)) := by
  have hzero : ∀ {v : BitVec 32}, v.toNat = 0 ↔ v = 0#32 := toNat_eq_zero
  refine ⟨?_, fun hnone => ?_⟩
  · rw [Fit]
    by_cases h : x.renewalTime.getD c.leaseTime1 = 0#32 ∨ x.rebindingTime.getD c.leaseTime2 = 0#32
    · rw [if_pos (h.imp hzero.mpr hzero.mpr)]
      exact renews_parts hlease h
    · rw [if_neg fun h' => h (h'.imp hzero.mp hzero.mp)]
      exact renews_times h
  · rw [Fit, if_pos (.inl (hzero.mpr hnone))]
    have hpos : 0 < (x.leaseTime.getD c.leaseTime).toNat := Nat.pos_iff_ne_zero.mpr fun h0 =>
      hlease (hzero.mp h0)
    generalize (x.leaseTime.getD c.leaseTime).toNat = lease at hpos
    change lease * 500 < 2 ^ 32 ∧ lease * 500 < lease * 900 % 2 ^ 32 ↔ lease < 4772186
    constructor
    · rintro ⟨hfits, hordered⟩
      by_contra hge
      -- the second product wraps once
      rw [Nat.mod_eq_sub_mod (by omega), Nat.mod_eq_of_lt (by omega)] at hordered
      omega
    · intro hlt
      rw [Nat.mod_eq_of_lt (by omega)]
      omega

def leaseOnly (leaseTime : BitVec 32) : Options := { noOptions with leaseTime := some leaseTime }

/-- A lease of an hour is renewed after half an hour. -/
theorem renews_iff_hour : Renews configured sampleStart sampleStart.client (leaseOnly 3600#32) := by
  obtain ⟨hiff, hzero⟩ :=
    renews_iff configured sampleStart (c := sampleStart.client) (x := leaseOnly 3600#32) (by decide)
  exact hiff.mpr ((hzero (by decide)).mpr (by decide))

/-- An offer for 2^30 seconds. -/
def longOffer : Packet :=
  reply (transactionIdAt 5#32) sampleMac 0x0A000014#32
    [0x35#8, 1#8, 2#8, 0x01#8, 4#8, 255#8, 255#8, 255#8, 0#8, 0x33#8, 4#8, 64#8, 0#8, 0#8, 0#8,
      0xFF#8, 0#8]

/-- The client is bound, and no timer runs: half of the lease in ms is a multiple of 2^32. -/
theorem long_lease_no_timer :
    ((Lib.runInputs (step 8) Lib.anyStep sampleStart
      [.udpEvent longOffer working .success 7, sampleAck]).map
        fun s => (s.client.state, s.client.leaseTime, s.client.timer)) =
          some (.bound, 0x40000000#32, none) ∧
      ¬ Renews configured sampleStart sampleStart.client (leaseOnly 0x40000000#32) := by
  refine ⟨by decide +kernel, fun h => ?_⟩
  have htimer : (ackedAt configured sampleStart sampleStart.client
      (leaseOnly 0x40000000#32)).timer = none := by decide
  cases htimer.symm.trans h.running

end NanoIp.Dhcp
