import Mathlib
import SceneScript.Color
import SceneScript.Span
/-!
Shares and blends in single precision. At the start of a span that is not empty the share is zero
(`Span.share_zero`), and a blend by a share of zero is the value that it starts from, if that is finite
(`Color.blend_zero`). Rounding is only followed as far as that needs: it keeps what is not zero from
becoming zero.
-/

namespace SceneScript

open Float.Model Float.Model.UnpackedFloat

/-! ### Rounding -/

theorem mantissa_shiftRight (em : ExtendedMantissa) (k : Nat) :
    (em >>> k).mantissa = em.mantissa / 2 ^ k := by
  induction k with
  | zero => exact (Nat.div_one _).symm
  | succ k ih =>
    show (em >>> k).mantissa / 2 = _
    rw [ih, Nat.div_div_eq_div_mul, Nat.pow_succ]

theorem mantissa_ofMantissaAndAccuracy (m : Nat) (a : Accuracy) :
    (ExtendedMantissa.ofMantissaAndAccuracy m a).mantissa = m := by
  cases a with
  | exact => rfl
  | inexact o => cases o <;> rfl

theorem le_roundedMantissa (em : ExtendedMantissa) : em.mantissa ≤ em.roundedMantissa := by
  obtain ⟨m, round, sticky⟩ := em
  cases round <;> cases sticky <;>
    simp [ExtendedMantissa.roundedMantissa, ExtendedMantissa.accuracy, Accuracy.roundToNearestEven]

theorem targetExponent_single (t : Int) :
    Format.binary32.targetExponent t = max (t - 24) (-149) := rfl

theorem le_log2 {m : Nat} (full : 2 ^ 23 ≤ m) : 23 ≤ m.log2 :=
  (Nat.le_log2 (by omega)).mpr full

/-- A mantissa of at least 24 bits is cut down to 24. -/
theorem shift_single {m : Nat} {e : Int} (a : Accuracy) (full : 2 ^ 23 ≤ m) (low : -149 ≤ e) :
    2 ^ 23 ≤ (shiftToTargetExponent .binary32 m e a).1.mantissa ∧
      (shiftToTargetExponent .binary32 m e a).1.mantissa < 2 ^ 24 ∧
      e ≤ (shiftToTargetExponent .binary32 m e a).2 := by
  have bits := le_log2 full
  obtain ⟨k, log⟩ : ∃ k, m.log2 = 23 + k := ⟨m.log2 - 23, by omega⟩
  have amount : (Format.binary32.targetExponent (totalExponent m e) - e).toNat = k := by
    rw [targetExponent_single, totalExponent, log]
    omega
  have lower : 2 ^ (23 + k) ≤ m := log ▸ Nat.log2_self_le (by omega)
  have upper : m < 2 ^ (24 + k) := by
    have below := Nat.lt_log2_self (n := m)
    rwa [log, show 23 + k + 1 = 24 + k by omega] at below
  rw [Nat.pow_add] at lower upper
  unfold shiftToTargetExponent shiftToExponent
  simp only [amount, mantissa_shiftRight, mantissa_ofMantissaAndAccuracy]
  refine ⟨?_, ?_, by omega⟩
  · exact (Nat.le_div_iff_mul_le (Nat.two_pow_pos k)).mpr lower
  · exact (Nat.div_lt_iff_lt_mul (Nat.two_pow_pos k)).mpr upper

/-- Positive, of 24 bits, and no smaller than the exponent says. -/
def Solid (low : Int) (u : UnpackedFloat) : Prop :=
  u = .infinity .positive ∨
    ∃ m e h, u = .finite .positive m e h ∧ 2 ^ 23 ≤ m ∧ m < 2 ^ 24 ∧ low ≤ e

theorem Solid.mono {low low' : Int} {u : UnpackedFloat} (h : Solid low u) (le : low' ≤ low) :
    Solid low' u := by
  rcases h with infinite | ⟨m, e, pos, rfl, full, cut, above⟩
  · exact .inl infinite
  · exact .inr ⟨m, e, pos, rfl, full, cut, Int.le_trans le above⟩

theorem solid_roundWithAccuracy {m : Nat} {e : Int} (a : Accuracy) (full : 2 ^ 23 ≤ m)
    (low : -149 ≤ e) : Solid e (roundWithAccuracy .binary32 .positive m e a) := by
  obtain ⟨full₁, -, above₁⟩ := shift_single a full low
  have rounded := Nat.le_trans full₁ (le_roundedMantissa (shiftToTargetExponent .binary32 m e a).1)
  obtain ⟨full₂, cut, above₂⟩ := shift_single .exact rounded (Int.le_trans low above₁)
  unfold roundWithAccuracy
  dsimp only
  rw [dif_neg (by omega)]
  exact .inr ⟨_, _, _, rfl, full₂, cut, Int.le_trans above₁ above₂⟩

/-- A mantissa of fewer bits is first filled up. -/
theorem solid_round {m : Nat} {e : Int} (pos : 0 < m) (low : -149 ≤ min e (e + m.log2 - 23)) :
    Solid (min e (e + m.log2 - 23)) (UnpackedFloat.round .binary32 .positive m e) := by
  have target : Format.binary32.targetExponent (totalExponent m e) = e + m.log2 - 23 := by
    rw [targetExponent_single, totalExponent]
    omega
  have lower : 2 ^ m.log2 ≤ m := Nat.log2_self_le (by omega)
  unfold UnpackedFloat.round decreaseExponent
  dsimp only
  rw [target]
  generalize amount : (e - (e + (m.log2 : Int) - 23)).toNat = k
  have full : 2 ^ 23 ≤ m <<< k := by
    rw [Nat.shiftLeft_eq]
    calc 2 ^ 23 ≤ 2 ^ (m.log2 + k) := Nat.pow_le_pow_right (by decide) (by omega)
      _ = 2 ^ m.log2 * 2 ^ k := Nat.pow_add ..
      _ ≤ m * 2 ^ k := Nat.mul_le_mul_right _ lower
  refine (solid_roundWithAccuracy .exact full (by omega)).mono (by omega)

theorem solid_normalize {n : Nat} {e : Int} (pos : 0 < n) (low : -149 ≤ min e (e + n.log2 - 23)) :
    Solid (min e (e + n.log2 - 23)) (UnpackedFloat.normalize .binary32 n e .positive) := by
  have greater : compare (n : Int) 0 = .gt := Int.compare_eq_gt.mpr (by omega)
  rw [UnpackedFloat.normalize, greater]
  exact solid_round pos low

/-! ### Bits -/

theorem toNat_implicit (m : BitVec 23) : (1#1 ++ m).toNat = 2 ^ 23 + m.toNat := by
  rw [BitVec.toNat_append, ← Nat.shiftLeft_add_eq_or_of_lt m.isLt]
  simp [Nat.shiftLeft_eq]

theorem stored_zero (s : Sign) : (Float32.Model.pack (.zero s)).unpack = .zero s :=
  unpack_packedZero

theorem stored_infinity (s : Sign) : (Float32.Model.pack (.infinity s)).unpack = .infinity s := by
  cases s <;> rfl

/-- Of 24 bits the first goes without saying. -/
theorem stored_normal (s : Sign) {m : Nat} {e : Int} (pos : 0 < m) (full : 2 ^ 23 ≤ m)
    (cut : m < 2 ^ 24) (above : -149 ≤ e) : (Float32.Model.pack (.finite s m e pos)).unpack =
      if e ≤ 104 then .finite s m e pos else .infinity s := by
  have log : m.log2 + 1 = Format.binary32.mantissaBits := by
    have bits := le_log2 full
    have less := (Nat.log2_lt (by omega : m ≠ 0)).mpr cut
    show m.log2 + 1 = 24
    omega
  obtain ⟨b, biased⟩ : ∃ b : Nat, (e + Format.binary32.exponentBias +
      Format.binary32.mantissaBitsWithoutImplicit).toNat = b := ⟨_, rfl⟩
  have shift : e + 150 = b := by
    have same : (e + 127 + 23).toNat = b := biased
    omega
  show UnpackedFloat.unpack .binary32 (UnpackedFloat.pack .binary32 (.finite s m e pos)) = _
  unfold UnpackedFloat.pack
  dsimp only
  rw [biased, if_pos log]
  by_cases fits : e ≤ 104
  · have within : ¬ 256 ≤ b + 1 := by omega
    have exponent : (BitVec.ofNat 8 b).toNat = b := by
      rw [BitVec.toNat_ofNat, Nat.mod_eq_of_lt (by omega)]
    have some : BitVec.ofNat 8 b ≠ 0#8 := fun none => by
      rw [none] at exponent
      have exponent : 0 = b := exponent
      omega
    have less : BitVec.ofNat 8 b ≠ -1#8 := fun all => by
      rw [all] at exponent
      have exponent : 255 = b := exponent
      omega
    have mantissa : (1#1 ++ BitVec.ofNat 23 m).toNat = m := by
      rw [toNat_implicit, BitVec.toNat_ofNat]
      omega
    rw [if_neg within, if_pos fits]
    unfold UnpackedFloat.unpack
    simp only [unpackMantissa_packComponents, unpackExponent_packComponents,
      unpackSign_packComponents, Sign.ofBitVec_toBitVec]
    rw [if_neg less, if_neg some]
    congr 1
    rw [exponent]
    show (b : Int) - 150 = e
    omega
  · have within : 256 ≤ b + 1 := by omega
    rw [if_pos within, if_neg fits]
    exact stored_infinity s

/-- Fewer bits stand at the least exponent. -/
theorem stored_subnormal (s : Sign) {m : Nat} (pos : 0 < m) (few : m < 2 ^ 23) :
    (Float32.Model.pack (.finite s m (-149) pos)).unpack = .finite s m (-149) pos := by
  have log : ¬ m.log2 + 1 = Format.binary32.mantissaBits := by
    have less := (Nat.log2_lt (by omega : m ≠ 0)).mpr few
    show ¬ m.log2 + 1 = 24
    omega
  have mantissa : (BitVec.ofNat 23 m).toNat = m := by
    rw [BitVec.toNat_ofNat, Nat.mod_eq_of_lt few]
  have some : BitVec.ofNat 23 m ≠ 0#23 := fun none => by
    rw [none] at mantissa
    have mantissa : 0 = m := mantissa
    omega
  have within : ¬ 2 ^ Format.binary32.exponentBits ≤ (-149 + (Format.binary32.exponentBias : Int) +
      Format.binary32.mantissaBitsWithoutImplicit).toNat + 1 := by decide
  show UnpackedFloat.unpack .binary32 (UnpackedFloat.pack .binary32 (.finite s m (-149) pos)) = _
  unfold UnpackedFloat.pack
  dsimp only
  rw [if_neg within, if_neg log]
  unfold UnpackedFloat.unpack
  simp only [unpackMantissa_packComponents, unpackExponent_packComponents,
    unpackSign_packComponents, Sign.ofBitVec_toBitVec]
  rw [if_neg (by decide), if_pos trivial, dif_neg some]
  congr 1

/-- What is stored of a solid value is solid. -/
theorem Solid.stored {low : Int} {u : UnpackedFloat} (h : Solid low u) (least : -149 ≤ low) :
    Solid low (Float32.Model.pack u).unpack := by
  rcases h with rfl | ⟨m, e, pos, rfl, full, cut, above⟩
  · exact .inl (stored_infinity _)
  rw [stored_normal _ pos full cut (Int.le_trans least above)]
  split
  · exact .inr ⟨m, e, pos, rfl, full, cut, above⟩
  · exact .inl rfl

/-! ### Seconds -/

theorem solid_toFloat32 {n : UInt64} (pos : 0 < n.toNat) : Solid (-23) n.toFloat32.toModel.unpack := by
  have rounded := solid_normalize (e := 0) pos (by omega)
  exact (rounded.mono (by omega)).stored (by decide)

/-- A billion is the mantissa 15625000, six places up. -/
theorem solid_div {u : UnpackedFloat} (h : Solid (-23) u) (pos : 0 < 15625000) :
    Solid (-53) (UnpackedFloat.div .binary32 u (.finite .positive 15625000 6 pos)) := by
  rcases h with rfl | ⟨m, e, pos', rfl, full, cut, above⟩
  · exact .inl rfl
  have log : m.log2 = 23 := by
    have bits := le_log2 full
    have less := (Nat.log2_lt (by omega : m ≠ 0)).mpr cut
    omega
  have target : min (e - 6) (Format.binary32.targetExponent
      (totalExponent m e - totalExponent 15625000 6)) = e - 30 := by
    rw [targetExponent_single, totalExponent, totalExponent, log,
      show Nat.log2 15625000 = 23 by decide]
    omega
  have shift : (e - 6 - (e - 30)).toNat = 24 := by omega
  have many : 2 ^ 23 ≤ (m <<< 24) / 15625000 := by
    rw [Nat.shiftLeft_eq, Nat.le_div_iff_mul_le (by decide)]
    omega
  have rounded := solid_roundWithAccuracy (e := e - 30)
    (accuracyOfFraction ((m <<< 24) % 15625000) 15625000) many (by omega)
  unfold UnpackedFloat.div divCore
  dsimp only
  rw [target, shift]
  exact rounded.mono (by omega)

theorem Solid.add {low : Int} {u v : UnpackedFloat} (hu : Solid low u) (hv : Solid low v)
    (least : -149 ≤ low) : Solid low (UnpackedFloat.add .binary32 u v) := by
  rcases hu with rfl | ⟨m, e, pos, rfl, full, cut, above⟩
  · rcases hv with rfl | ⟨m', e', pos', rfl, -⟩ <;> exact .inl rfl
  rcases hv with rfl | ⟨m', e', pos', rfl, full', cut', above'⟩
  · exact .inl rfl
  have sum : 2 ^ 23 ≤ m <<< (e - min e e').toNat + m' <<< (e' - min e e').toNat := by
    have up : m ≤ m <<< (e - min e e').toNat := by
      rw [Nat.shiftLeft_eq]
      exact Nat.le_mul_of_pos_right m (Nat.two_pow_pos _)
    exact Nat.le_trans full (Nat.le_trans up (Nat.le_add_right _ _))
  have bits := le_log2 sum
  have whole := solid_normalize (e := min e e') (Nat.lt_of_lt_of_le (by decide) sum) (by omega)
  have same : UnpackedFloat.add .binary32 (.finite .positive m e pos) (.finite .positive m' e' pos') =
      UnpackedFloat.normalize .binary32 (m <<< (e - min e e').toNat + m' <<< (e' - min e e').toNat : Nat)
        (min e e') .positive := by
    rw [Int.natCast_add]
    rfl
  rw [same]
  exact whole.mono (by omega)

theorem solid_seconds {n : Nat} (pos : 0 < n) (fits : n < 2 ^ 64) :
    Solid (-23) n.toUInt64.toFloat32.toModel.unpack := by
  have same : n.toUInt64.toNat = n := Nat.mod_eq_of_lt fits
  exact solid_toFloat32 (by omega)

theorem solid_spare {n : Nat} (pos : 0 < n) (fits : n < 2 ^ 64) : Solid (-53)
    (n.toUInt64.toFloat32 / Span.perSecond.toUInt64.toFloat32).toModel.unpack :=
  (solid_div (solid_seconds pos fits) (by decide)).stored (by decide)

theorem Span.solid {s : Span} (some : s ≠ .zero) (fits : s.nanos < Span.limit) :
    Solid (-53) s.seconds.toModel.unpack := by
  have spare : s.spareNanos < perSecond := Nat.mod_lt _ (by decide)
  have whole : s.wholeSeconds < 2 ^ 64 := Nat.div_lt_of_lt_mul (by rwa [Nat.mul_comm])
  have nanos : s.nanos = perSecond * s.wholeSeconds + s.spareNanos := (Nat.div_add_mod ..).symm
  have small : s.spareNanos < 2 ^ 64 := Nat.lt_trans spare (by decide)
  suffices sum : Solid (-53) (UnpackedFloat.add .binary32
      s.wholeSeconds.toUInt64.toFloat32.toModel.unpack
      (s.spareNanos.toUInt64.toFloat32 / perSecond.toUInt64.toFloat32).toModel.unpack) from
    sum.stored (by decide)
  rcases Nat.eq_zero_or_pos s.wholeSeconds with none | pos
  · have pos : 0 < s.spareNanos := by
      refine Nat.pos_of_ne_zero fun none' => some (congrArg Span.mk ?_)
      rw [nanos, none, none']
      rfl
    rw [none]
    rcases solid_spare pos small with infinite | ⟨m, e, pos', finite, rest⟩
    · rw [infinite]
      exact .inl rfl
    · rw [finite]
      exact .inr ⟨m, e, pos', rfl, rest⟩
  · have left := (solid_seconds pos whole).mono (show -53 ≤ -23 by decide)
    rcases Nat.eq_zero_or_pos s.spareNanos with none | pos
    · rw [none]
      rcases left with infinite | ⟨m, e, pos', finite, rest⟩
      · rw [infinite]
        exact .inl rfl
      · rw [finite]
        exact .inr ⟨m, e, pos', rfl, rest⟩
    · exact left.add (solid_spare pos small) (by decide)

/-- At the start of a span the share is zero. -/
theorem Span.share_zero {s : Span} (some : s ≠ .zero) (fits : s.nanos < Span.limit) :
    (Span.zero.share s).toModel.unpack = .zero .positive := by
  have start : Span.zero.seconds.toModel.unpack = .zero .positive := rfl
  show (Float32.Model.pack (UnpackedFloat.div .binary32 Span.zero.seconds.toModel.unpack
    s.seconds.toModel.unpack)).unpack = _
  rw [start]
  rcases Span.solid some fits with infinite | ⟨m, e, pos, finite, -⟩
  · rw [infinite]
    exact stored_zero .positive
  · rw [finite]
    exact stored_zero .positive

/-! ### Blends -/

/-- What was stored before is stored as it is, with either sign. -/
theorem stored_finite {x : Float32.Model} {s : Sign} {m : Nat} {e : Int} {pos : 0 < m}
    (unpacked : x.unpack = .finite s m e pos) (t : Sign) :
    (Float32.Model.pack (.finite t m e pos)).unpack = .finite t m e pos := by
  unfold Float32.Model.unpack UnpackedFloat.unpack at unpacked
  dsimp only at unpacked
  split at unpacked
  · split at unpacked <;> cases unpacked
  rename_i fits
  split at unpacked
  · rename_i none
    split at unpacked
    · cases unpacked
    obtain ⟨-, rfl, rfl⟩ := UnpackedFloat.finite.inj unpacked
    rw [none]
    exact stored_subnormal t pos (BitVec.isLt _)
  · rename_i some
    obtain ⟨-, rfl, rfl⟩ := UnpackedFloat.finite.inj unpacked
    obtain ⟨b, bits⟩ : ∃ b : BitVec 8, @unpackExponent .binary32 x.toBits.toBitVec = b :=
      ⟨_, rfl⟩
    have mantissa := toNat_implicit (@unpackMantissa .binary32 x.toBits.toBitVec)
    have below := (@unpackMantissa .binary32 x.toBits.toBitVec).isLt
    have bias : ((Format.binary32.exponentBias : Int) +
      Format.binary32.mantissaBitsWithoutImplicit) = 150 := by decide
    have least : b.toNat ≠ 0 := fun none => some (bits.trans (BitVec.eq_of_toNat_eq none))
    have most : b.toNat ≠ 255 := fun all => fits (bits.trans (BitVec.eq_of_toNat_eq all))
    have byte := b.isLt
    have full : 2 ^ 23 ≤ (1#1 ++ @unpackMantissa .binary32 x.toBits.toBitVec).toNat := by
      omega
    rw [stored_normal t pos full (by omega) (by rw [bits, bias]; omega), if_pos]
    rw [bits, bias]
    omega

theorem Color.clampShare_zero {t : Float32} {s : Sign} (zero : t.toModel.unpack = .zero s) :
    Color.clampShare t = t := by
  have below : ¬ t < 0 := fun less => by
    have less : t.toModel.unpack.lt (0 : Float32).toModel.unpack = true := of_decide_eq_true less
    rw [zero] at less
    cases less
  have above : ¬ t > 1 := fun less => by
    have less : (1 : Float32).toModel.unpack.lt t.toModel.unpack = true := of_decide_eq_true less
    rw [zero] at less
    cases less
  rw [Color.clampShare, if_neg below, if_neg above]

/-- Zero on the right of a sum, or the value itself, does not change it. -/
theorem Color.blend_zero {x t : Float32} {s : Sign} (finite : x.isFinite = true)
    (zero : t.toModel.unpack = .zero s) : (Color.blend x 0 t == x) = true := by
  have nought : (0 : Float32).toModel.unpack = .zero .positive := rfl
  show UnpackedFloat.beq (Float32.Model.pack (UnpackedFloat.add .binary32 x.toModel.unpack
    (Float32.Model.pack (UnpackedFloat.mul .binary32
      (Float32.Model.pack (UnpackedFloat.sub .binary32 (0 : Float32).toModel.unpack
        x.toModel.unpack)).unpack t.toModel.unpack)).unpack)).unpack x.toModel.unpack = true
  have finite : x.toModel.unpack.isFinite = true := finite
  rw [nought, zero]
  cases unpacked : x.toModel.unpack with
  | infinity | notANumber =>
    rw [unpacked] at finite
    cases finite
  | zero s' =>
    cases s' <;> cases s <;> rfl
  | finite s' m e pos =>
    have less : UnpackedFloat.sub .binary32 (.zero .positive) (.finite s' m e pos) =
      .finite (-s') m e pos := rfl
    rw [less, stored_finite unpacked]
    have none : UnpackedFloat.mul .binary32 (.finite (-s') m e pos) (.zero s) = .zero (-s' * s) :=
      rfl
    rw [none, stored_zero]
    have same : UnpackedFloat.add .binary32 (.finite s' m e pos) (.zero (-s' * s)) =
      .finite s' m e pos := rfl
    rw [same, stored_finite unpacked]
    cases s' <;> simp [UnpackedFloat.beq, UnpackedFloat.compare, Ordering.then]

namespace Color

/-- Neither infinite nor no number at all, in any channel. -/
def isFinite (c : Color) : Bool := c.r.isFinite && c.g.isFinite && c.b.isFinite && c.a.isFinite

/-- A way to nothing that has not begun is still where it starts. -/
theorem lerp_start {c : Color} {span : Span} (finite : c.isFinite = true) (some : span ≠ .zero)
    (fits : span.nanos < Span.limit) :
    (c.lerp .transparent (Span.zero.share span) == c) = true := by
  have zero := Span.share_zero some fits
  simp only [isFinite, Bool.and_eq_true] at finite
  obtain ⟨⟨⟨r, g⟩, b⟩, a⟩ := finite
  have same {x : Float32} (finite : x.isFinite = true) :
      (blend x 0 (clampShare (Span.zero.share span)) == x) = true := by
    rw [clampShare_zero zero]
    exact blend_zero finite zero
  show (_ && (_ && (_ && _))) = true
  simp only [Bool.and_eq_true]
  exact ⟨same r, same g, same b, same a⟩

end Color

end SceneScript
