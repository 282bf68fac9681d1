import Cryptoki.Mechanism.Host
import Cryptoki.Proofs.Outcome

/-! Why a mechanism has no native form on a host: never because of the builders. -/
namespace Cryptoki

variable {f : ParameterFamily}

theorem arrayOf_length (bs : Bytes) : arrayOf bs.length bs = .ok bs := if_pos rfl

/-- The lengths that the builder refuses, no IV has. -/
theorem CbcEncryptData.build_eq (p : CbcEncryptData) :
    p.build = .ok (ParameterBlock.cbcEncryptData p).toNative := by
  have harray := arrayOf_length p.iv
  rcases p.iv_length with h | h <;> rw [h] at harray <;>
    simp [build, ParameterBlock.toNative, h, harray, pure, Except.pure, bind, Except.bind]

theorem ParameterBlock.build_eq (block : ParameterBlock) : block.build = .ok block.toNative := by
  cases block with
  | cbcEncryptData p => exact p.build_eq
  | _ => rfl

namespace NativeBuilder

theorem build_of_mem {builder : NativeBuilder} {block : ParameterBlock}
    (h : block.family ∈ builder.families) : builder.build block = .ok block.toNative :=
  (if_pos h).trans block.build_eq

/-- Where no builder of the host is needed, there is a portable layout. -/
theorem mem_portable_iff : f ∈ portable.families ↔ f.needsHost = false := by
  cases f <;> decide

/-- Under each family that needs one there is a builder that is for it. -/
theorem exists_registered (h : f.needsHost = true) :
    ∃ builder, registered.lookup f = some builder ∧ f ∈ builder.families := by
  cases f with
  | tls12MasterKeyDerive => exact ⟨tls12MasterKeyDerive, rfl, .head _⟩
  | tls12KeyMaterial => exact ⟨tls12KeyMaterial, rfl, .head _⟩
  | gcm => exact ⟨gcm, rfl, .head _⟩
  | ccm => exact ⟨ccm, rfl, .head _⟩
  | _ => cases h

theorem mem_registered_iff : f ∈ registered.map (·.1) ↔ f.needsHost = true := by
  cases f <;> decide

end NativeBuilder

/-- No builder is asked for a family that it is not for. -/
theorem HostLayouts.build_eq (host : HostLayouts) (block : ParameterBlock) :
    host.build block = if host.supports block.family then .ok block.toNative
      else .error (.unsupportedInHostRuntime block.family) := by
  cases hneeds : block.family.needsHost with
  | false =>
    have hportable := NativeBuilder.mem_portable_iff.mpr hneeds
    simp [build, supports, hneeds, NativeBuilder.build_of_mem hportable]
  | true =>
    obtain ⟨builder, hbuilder, hmem⟩ := NativeBuilder.exists_registered hneeds
    by_cases hprovided : block.family ∈ host.provided
    · simp [build, supports, builder?, hneeds, hprovided, hbuilder,
        NativeBuilder.build_of_mem hmem]
    · simp [build, supports, builder?, hneeds, hprovided]

namespace Mechanism

variable {m : Mechanism} {host : HostLayouts} {e : Error}

/-- The family of the block that a mechanism has. -/
def family? (m : Mechanism) : Option ParameterFamily := m.parameters.map ParameterBlock.family

theorem validate_eq_ok_iff {u : Unit} :
    m.validate = .ok u ↔ (expectedParameters m.id).admits m.family? = true := by
  rw [validate, ← family?]
  cases (expectedParameters m.id).admits m.family? <;> simp

theorem validate_eq_error_iff :
    m.validate = .error e ↔ (expectedParameters m.id).admits m.family? = false ∧
      .parameterMismatch m.id (expectedParameters m.id) m.family? = e := by
  rw [validate, ← family?]
  cases (expectedParameters m.id).admits m.family? <;> simp

/-- The block is not what the mechanism expects; or it is, and the host has no layout for it. -/
theorem toNative_eq_error_iff :
    m.toNative host = .error e ↔
      ((expectedParameters m.id).admits m.family? = false ∧
        .parameterMismatch m.id (expectedParameters m.id) m.family? = e) ∨
      (expectedParameters m.id).admits m.family? = true ∧
        ∃ family, m.family? = some family ∧ host.supports family = false ∧
          .unsupportedInHostRuntime family = e := by
  rw [toNative, Outcome.bind_eq_error_iff, validate_eq_error_iff]
  refine or_congr Iff.rfl ?_
  simp only [validate_eq_ok_iff, exists_and_left, exists_const]
  refine and_congr Iff.rfl ?_
  cases hp : m.parameters with
  | none => simp [family?, hp, pure, Except.pure]
  | some block =>
    cases hsupported : host.supports block.family with
    | true => simp [family?, hp, host.build_eq, hsupported, pure, Except.pure, bind, Except.bind]
    | false => simp [family?, hp, host.build_eq, hsupported, bind, Except.bind]

/-- The native form of a mechanism, where it has one. -/
def nativeForm (m : Mechanism) : NativeMechanism :=
  ⟨m.id, m.parameters.elim .none ParameterBlock.toNative⟩

/-- The block is what the mechanism expects, and the host has a layout for it. -/
theorem toNative_eq_ok_iff {native : NativeMechanism} :
    m.toNative host = .ok native ↔ (expectedParameters m.id).admits m.family? = true ∧
      (∀ family, m.family? = some family → host.supports family = true) ∧
      m.nativeForm = native := by
  rw [toNative, Outcome.bind_eq_ok_iff]
  simp only [validate_eq_ok_iff, exists_and_left, exists_const]
  refine and_congr_right fun _ => ?_
  cases hp : m.parameters with
  | none => simp [family?, nativeForm, hp, pure, Except.pure]
  | some block =>
    cases hsupported : host.supports block.family with
    | true =>
      simp [family?, nativeForm, hp, host.build_eq, hsupported, pure, Except.pure, bind,
        Except.bind]
    | false => simp [family?, hp, host.build_eq, hsupported, bind, Except.bind]

end Mechanism

end Cryptoki
