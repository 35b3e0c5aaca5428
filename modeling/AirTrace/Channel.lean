/-!
# Channels

The band from 2402 MHz to 2480 MHz holds forty channels two megahertz apart.  Counted by frequency
they are the RF channels 0 to 39.  The link layer numbers them differently: 37, 38 and 39 are the
primary advertising channels, which lie at RF 0, 12 and 39, and 0 to 36 are the others in order of
frequency.

`rf_ofRf` and `ofRf_rf` say that the two numberings are bijective on the forty channels.
-/

namespace AirTrace

/-- A channel in link-layer numbering. -/
abbrev Channel := UInt8

namespace Channel

/-- How many channels there are. -/
def count : UInt8 := 40

/-- The three channels on which advertising starts. -/
def isPrimary (c : Channel) : Bool := 37 ≤ c && c ≤ 39

/-- The RF channel of a link-layer channel. -/
def rf (c : Channel) : UInt8 :=
  if c = 37 then 0
  else if c = 38 then 12
  else if c = 39 then 39
  else if c ≤ 10 then c + 1
  else c + 2

/-- The link-layer channel of an RF channel. -/
def ofRf (r : UInt8) : Channel :=
  if r = 0 then 37
  else if r = 12 then 38
  else if r = 39 then 39
  else if r < 12 then r - 1
  else r - 2

/-- The centre frequency in megahertz. -/
def frequency (c : Channel) : Nat := 2402 + 2 * c.rf.toNat

/-- The channel centred on a frequency in megahertz, if one is. -/
def ofFrequency? (mhz : Nat) : Option Channel :=
  if 2402 ≤ mhz ∧ mhz ≤ 2480 ∧ mhz % 2 = 0 then some (ofRf (UInt8.ofNat ((mhz - 2402) / 2)))
  else none

private theorem forall_lt_count {P : UInt8 → Prop} (h : ∀ n : Fin 40, P (UInt8.ofNat n.val))
    (x : UInt8) (hx : x < 40) : P x := by
  have := h ⟨x.toNat, UInt8.lt_iff_toNat_lt.mp hx⟩
  rwa [UInt8.ofNat_toNat] at this

theorem rf_lt (c : Channel) (hc : c < 40) : rf c < 40 :=
  forall_lt_count (P := fun c => rf c < 40) (by decide) c hc

theorem ofRf_lt (r : UInt8) (hr : r < 40) : ofRf r < 40 :=
  forall_lt_count (P := fun r => ofRf r < 40) (by decide) r hr

theorem ofRf_rf (c : Channel) (hc : c < 40) : ofRf (rf c) = c :=
  forall_lt_count (P := fun c => ofRf (rf c) = c) (by decide) c hc

theorem rf_ofRf (r : UInt8) (hr : r < 40) : rf (ofRf r) = r :=
  forall_lt_count (P := fun r => rf (ofRf r) = r) (by decide) r hr

end Channel

end AirTrace
