import Mathlib.Order.Bounds.Basic
import Cryptoki.Mechanism.Parameters
import Cryptoki.Proofs.Outcome

/-! Key material and the buffers for its IVs: which sizes are taken, and why others are refused. -/
namespace Cryptoki

/-- Bits rounded up to whole bytes. -/
def wholeBits (n : Nat) : Nat := (n + 7) / 8 * 8

theorem wholeBits_isLeast (n : Nat) : IsLeast {m | 8 ∣ m ∧ n ≤ m} (wholeBits n) := by
  unfold wholeBits
  refine ⟨⟨by omega, by omega⟩, ?_⟩
  rintro m ⟨hm, hle⟩
  omega

theorem Word.mod_eight_eq_zero_iff {w : Word} : w % 8 = 0 ↔ 8 ∣ w.toNat := by
  rw [Nat.dvd_iff_mod_eq_zero]
  constructor
  · intro h
    simpa using congrArg UInt64.toNat h
  · intro h
    apply UInt64.toNat_inj.mp
    simpa using h

/-- Within words, what is rounded up beyond the last one begins at zero again. -/
theorem Word.toNat_wholeBits {w : Word} (h : ¬ 8 ∣ w.toNat) :
    (w + (8 - w % 8)).toNat = wholeBits w.toNat % UInt64.size := by
  have hmod : (w % 8).toNat = w.toNat % 8 := UInt64.toNat_mod w 8
  have hle : w % 8 ≤ 8 := by
    rw [UInt64.le_iff_toNat_le, hmod]
    exact Nat.le_of_lt (Nat.mod_lt w.toNat (by decide))
  have hrest : (8 - w % 8).toNat = 8 - w.toNat % 8 := by
    rw [UInt64.toNat_sub_of_le _ _ hle, hmod]
    rfl
  have hwhole : w.toNat + (8 - w.toNat % 8) = wholeBits w.toNat := by
    unfold wholeBits
    omega
  rw [UInt64.toNat_add, hrest, hwhole]

theorem wholeBits_eq_size {n : Nat} (h : UInt64.size - 8 < n) (hn : n < UInt64.size) :
    wholeBits n = UInt64.size := by
  simp only [UInt64.size] at *
  unfold wholeBits
  omega

theorem wholeBits_lt_size {n : Nat} (h : n < UInt64.size - 8) : wholeBits n < UInt64.size := by
  simp only [UInt64.size] at *
  unfold wholeBits
  omega

namespace ReturnedKeys

variable {r : ReturnedKeys} {ivBits : Word} {e : Error}

/-- Why a size of IVs and the buffers for them are refused. -/
inductive Misfit (r : ReturnedKeys) (ivBits : Word) : Error → Prop where
  | partialByte (h : ¬ 8 ∣ ivBits.toNat) : Misfit r ivBits
    (.invalidParameterLength .ivSizeInBits (wholeBits ivBits.toNat % UInt64.size) ivBits.toNat)
  | client (h : 8 ∣ ivBits.toNat) (hc : r.clientIv.length ≠ ivBits.toNat / 8) : Misfit r ivBits
    (.invalidParameterLength .clientIvBuffer (ivBits.toNat / 8) r.clientIv.length)
  | server (h : 8 ∣ ivBits.toNat) (hc : r.clientIv.length = ivBits.toNat / 8)
    (hs : r.serverIv.length ≠ ivBits.toNat / 8) : Misfit r ivBits
    (.invalidParameterLength .serverIvBuffer (ivBits.toNat / 8) r.serverIv.length)

theorem fits_iff : r.Fits ivBits ↔ 8 ∣ ivBits.toNat ∧ r.clientIv.length = ivBits.toNat / 8 ∧
    r.serverIv.length = ivBits.toNat / 8 := by
  unfold Fits
  omega

theorem checkBuffers_of_fits (h : r.Fits ivBits) : r.checkBuffers ivBits = .ok ⟨h⟩ := by
  obtain ⟨hwhole, hclient, hserver⟩ := fits_iff.mp h
  rw [checkBuffers, dif_pos (Word.mod_eight_eq_zero_iff.mpr hwhole), dif_pos hclient,
    dif_pos hserver]

theorem checkBuffers_of_misfit (h : r.Misfit ivBits e) : r.checkBuffers ivBits = .error e := by
  cases h with
  | partialByte hpart =>
    rw [checkBuffers, dif_neg (mt Word.mod_eight_eq_zero_iff.mp hpart),
      Word.toNat_wholeBits hpart]
  | client hwhole hc =>
    rw [checkBuffers, dif_pos (Word.mod_eight_eq_zero_iff.mpr hwhole), dif_neg hc]
  | server hwhole hc hs =>
    rw [checkBuffers, dif_pos (Word.mod_eight_eq_zero_iff.mpr hwhole), dif_pos hc, dif_neg hs]

theorem fits_or_misfit (r : ReturnedKeys) (ivBits : Word) :
    r.Fits ivBits ∨ ∃ e, r.Misfit ivBits e := by
  by_cases hwhole : 8 ∣ ivBits.toNat
  · by_cases hc : r.clientIv.length = ivBits.toNat / 8
    · by_cases hs : r.serverIv.length = ivBits.toNat / 8
      · exact .inl (fits_iff.mpr ⟨hwhole, hc, hs⟩)
      · exact .inr ⟨_, .server hwhole hc hs⟩
    · exact .inr ⟨_, .client hwhole hc⟩
  · exact .inr ⟨_, .partialByte hwhole⟩

theorem checkBuffers_eq_error_iff : r.checkBuffers ivBits = .error e ↔ r.Misfit ivBits e := by
  constructor
  · intro h
    rcases r.fits_or_misfit ivBits with hfits | ⟨f, hmisfit⟩
    · rw [checkBuffers_of_fits hfits] at h
      cases h
    · rw [checkBuffers_of_misfit hmisfit] at h
      cases h
      exact hmisfit
  · exact checkBuffers_of_misfit

theorem exists_checkBuffers_iff : (∃ h, r.checkBuffers ivBits = .ok h) ↔ r.Fits ivBits := by
  constructor
  · rintro ⟨h, -⟩
    exact h.down
  · intro h
    exact ⟨⟨h⟩, checkBuffers_of_fits h⟩

end ReturnedKeys

namespace KeyMaterial

variable {macBits keyBits ivBits : Word} {isExport : Bool} {random : RandomData}
  {returned : ReturnedKeys} {e : Error}

/-- Of all that is given, only the size of the IVs and the buffers for them are looked at. -/
theorem failure?_make : Outcome.failure? (make macBits keyBits ivBits isExport random returned) =
    Outcome.failure? (returned.checkBuffers ivBits) :=
  Outcome.failure?_map _ _

theorem make_eq_error_iff :
    make macBits keyBits ivBits isExport random returned = .error e ↔
      returned.Misfit ivBits e := by
  rw [← ReturnedKeys.checkBuffers_eq_error_iff, ← Outcome.failure?_eq_some_iff, failure?_make,
    Outcome.failure?_eq_some_iff]

theorem exists_make_iff :
    (∃ p, make macBits keyBits ivBits isExport random returned = .ok p) ↔
      returned.Fits ivBits := by
  rw [← ReturnedKeys.exists_checkBuffers_iff, ← Outcome.failure?_eq_none_iff, failure?_make,
    Outcome.failure?_eq_none_iff]

/-- Key material is made exactly where the size of the IVs is a number of whole bytes and each buffer
holds as many. Else the size is told to be wrong, or the first buffer that is, with the length that
it has and the one it should have. For a size that is no number of whole bytes, that is the next one
above it, unless there is none among the words: then the rounding overflows, and the number that is
told is zero. Nothing else that is given counts, and it makes no difference for which of the two
handshakes the material is. -/
theorem make_verdict (macBits keyBits ivBits : Word) (isExport : Bool) (random : RandomData)
    (returned : ReturnedKeys) :
    ((∃ p, make macBits keyBits ivBits isExport random returned = .ok p) ↔
      8 ∣ ivBits.toNat ∧ returned.clientIv.length = ivBits.toNat / 8 ∧
        returned.serverIv.length = ivBits.toNat / 8) ∧
    (∀ e, make macBits keyBits ivBits isExport random returned = .error e ↔
      returned.Misfit ivBits e) ∧
    (¬ 8 ∣ ivBits.toNat → ∃ expected,
      make macBits keyBits ivBits isExport random returned =
        .error (.invalidParameterLength .ivSizeInBits expected ivBits.toNat) ∧
      (ivBits.toNat < UInt64.size - 8 → IsLeast {m | 8 ∣ m ∧ ivBits.toNat ≤ m} expected) ∧
      (UInt64.size - 8 < ivBits.toNat → expected = 0 ∧ wholeBits ivBits.toNat = UInt64.size)) ∧
    (∀ otherMac otherKey otherRandom prf,
      Outcome.failure? (ParameterBlock.makeTls12KeyMaterial otherMac otherKey ivBits otherRandom
        returned prf) =
      Outcome.failure? (make macBits keyBits ivBits isExport random returned)) := by
  refine ⟨exists_make_iff.trans ReturnedKeys.fits_iff, fun e => make_eq_error_iff, ?_, ?_⟩
  · intro hpart
    refine ⟨_, make_eq_error_iff.mpr (.partialByte hpart), ?_, ?_⟩
    · intro hlow
      rw [Nat.mod_eq_of_lt (wholeBits_lt_size hlow)]
      exact wholeBits_isLeast _
    · intro hhigh
      have hsize := wholeBits_eq_size hhigh ivBits.toNat_lt_size
      rw [hsize]
      exact ⟨rfl, rfl⟩
  · intro otherMac otherKey otherRandom prf
    rw [ParameterBlock.makeTls12KeyMaterial, Outcome.failure?_map, failure?_make, failure?_make]

/-- One byte of each side. -/
def nonces : RandomData := ⟨[1], [2], by decide, by decide⟩

theorem make_verdict_twelve :
    make 160 128 12 false nonces (.ofLength 2) =
        .error (.invalidParameterLength .ivSizeInBits 16 12) ∧
      ¬ 8 ∣ (12 : Word).toNat ∧ IsLeast {m | 8 ∣ m ∧ (12 : Word).toNat ≤ m} 16 := by
  have hpart : ¬ 8 ∣ (12 : Word).toNat := by decide
  obtain ⟨-, -, hround, -⟩ := make_verdict 160 128 12 false nonces (.ofLength 2)
  obtain ⟨expected, hmake, hleast, -⟩ := hround hpart
  have hleast' := hleast (by decide)
  obtain rfl : expected = 16 := hleast'.unique (wholeBits_isLeast 12)
  exact ⟨hmake, hpart, hleast'⟩

/-- For the largest word, a size of no bits at all is called for. -/
theorem make_overflows :
    make 160 128 0xFFFFFFFFFFFFFFFF false nonces (.ofLength 0) =
        .error (.invalidParameterLength .ivSizeInBits 0 0xFFFFFFFFFFFFFFFF) ∧
      ¬ IsLeast {m | 8 ∣ m ∧ 0xFFFFFFFFFFFFFFFF ≤ m} 0 ∧
      UInt64.size ≤ 0xFFFFFFFFFFFFFFFF + (8 - 0xFFFFFFFFFFFFFFFF % 8) := by
  refine ⟨make_eq_error_iff.mpr (.partialByte (by decide)), ?_, by decide⟩
  rintro ⟨⟨-, h⟩, -⟩
  omega

end KeyMaterial

end Cryptoki
