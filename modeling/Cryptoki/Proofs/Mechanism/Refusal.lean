import Mathlib.Algebra.Group.Nat.Defs
import Cryptoki.Proofs.Mechanism.NativeForm

/-! A mechanism has no native form for two reasons only: its parameters are not those that the table
expects, or the host has no layout for them. -/
namespace Cryptoki

variable {host : HostLayouts} {f : ParameterFamily}

namespace HostLayouts

/-- The layouts that a host can come to have. -/
inductive Obtainable : HostLayouts → Prop where
  | detect (list : String) : Obtainable (detect list).1
  | empty : Obtainable empty
  | without {host : HostLayouts} (h : Obtainable host) (f : ParameterFamily) :
    Obtainable (host.without f)

theorem mem_without_iff {g : ParameterFamily} :
    f ∈ (host.without g).provided ↔ f ∈ host.provided ∧ f ≠ g := by
  simp [without]

theorem mem_withoutAll_iff {fs : List ParameterFamily} :
    f ∈ (host.withoutAll fs).provided ↔ f ∈ host.provided ∧ f ∉ fs := by
  induction fs generalizing host with
  | nil => simp [withoutAll]
  | cons g fs ih =>
    have hrest : f ∈ (host.withoutAll (g :: fs)).provided ↔
        f ∈ (host.without g).provided ∧ f ∉ fs := ih
    rw [hrest, mem_without_iff, List.mem_cons, not_or, and_assoc]

/-- No layout is listed that every host has. -/
theorem Obtainable.needsHost (h : host.Obtainable) (hf : f ∈ host.provided) :
    f.needsHost = true := by
  induction h with
  | detect list => exact NativeBuilder.mem_registered_iff.mp (mem_withoutAll_iff.mp hf).1
  | empty => cases hf
  | without h g ih => exact ih (mem_without_iff.mp hf).1

/-- What needs no layout of the host cannot be withdrawn. -/
theorem Obtainable.without_eq (h : host.Obtainable) (hf : f.needsHost = false) :
    host.without f = host := by
  have hkept : host.provided.filter (· ≠ f) = host.provided := by
    refine List.filter_eq_self.mpr fun g hg => ?_
    have hneeds := h.needsHost hg
    have hne : g ≠ f := by
      rintro rfl
      rw [hneeds] at hf
      cases hf
    exact decide_eq_true hne
  exact congrArg HostLayouts.mk hkept

end HostLayouts

/-- What a builder fails with: it is asked for a family that it is not for, an IV has a length that
no cipher has, or a value does not fit its field. -/
inductive NativeBuilder.Fault : Error → Prop where
  | wrongFamily (builder : NativeBuilder) (f : ParameterFamily) : Fault (builder.wrongFamily f)
  | ivLength (expected actual : Nat) :
    Fault (.invalidParameterLength .cbcEncryptDataIv expected actual)
  | conversion (fault : ConversionFault) : Fault (.conversion fault)

section Numbers

def NativeParameters.ivBits? : NativeParameters → Option Nat
  | .gcm _ ivBits _ _ => some ivBits
  | _ => Option.none

/-- All lengths in a native form. -/
def NativeParameters.lengths (n : NativeParameters) : List Nat :=
  n.size :: (n.buffers.map Buffer.length ++ n.ivBits?.toList)

def ParameterBlock.ivs : ParameterBlock → List Bytes
  | .initializationVector iv => [iv]
  | .keyMaterial p | .tls12KeyMaterial p _ => [p.returned.clientIv, p.returned.serverIv]
  | .cbcEncryptData p => [p.iv]
  | .gcm p => [p.iv]
  | _ => []

/-- The block is in the memory of a machine, and the length of an IV in bits is a word. -/
structure ParameterBlock.InMemory (b : ParameterBlock) : Prop where
  buffers : ∀ bs ∈ b.buffers, bs.length < 2 ^ 63
  ivs : ∀ iv ∈ b.ivs, iv.length < 2 ^ 61

theorem NativeParameters.size_lt {n : NativeParameters}
    (h : ∀ b ∈ n.buffers, b.length < UInt64.size) : n.size < UInt64.size := by
  cases n with
  | bytes iv => exact h iv (.head _)
  | _ => simp [size, UInt64.size]

theorem length_lt_of_holds {buffers : List Buffer} {held : List Bytes}
    (h : List.Forall₂ Buffer.Holds buffers held) (hheld : ∀ bs ∈ held, bs.length < 2 ^ 63) :
    ∀ b ∈ buffers, b.length < UInt64.size := by
  induction h with
  | nil => simp
  | cons hb _ ih =>
    rw [List.forall_mem_cons] at hheld ⊢
    obtain ⟨hfirst, hrest⟩ := hheld
    refine ⟨?_, ih hrest⟩
    have hsize : UInt64.size = 2 ^ 64 := rfl
    rw [hb.length]
    omega

theorem ParameterBlock.ivBits?_toNative {b : ParameterBlock} {n : Nat}
    (h : b.toNative.ivBits? = some n) : ∃ iv ∈ b.ivs, n = 8 * iv.length := by
  cases b with
  | gcm p =>
    cases h
    exact ⟨p.iv, .head _, rfl⟩
  | cbcEncryptData p =>
    rcases p.toNative_cases with hp | hp <;> · rw [hp] at h; cases h
  | _ => cases h

/-- Each length is a word. -/
theorem ParameterBlock.InMemory.lengths_lt {b : ParameterBlock} (h : b.InMemory) :
    ∀ n ∈ b.toNative.lengths, n < UInt64.size := by
  have hbuffers := length_lt_of_holds b.toNative_holds h.buffers
  intro n hn
  rcases List.mem_cons.mp hn with rfl | hn
  · exact NativeParameters.size_lt hbuffers
  rcases List.mem_append.mp hn with hn | hn
  · obtain ⟨buffer, hbuffer, rfl⟩ := List.mem_map.mp hn
    exact hbuffers buffer hbuffer
  · obtain ⟨iv, hiv, rfl⟩ := ParameterBlock.ivBits?_toNative (Option.mem_toList.mp hn)
    have hshort := h.ivs iv hiv
    have hsize : UInt64.size = 2 ^ 64 := rfl
    omega

end Numbers

namespace Mechanism

variable {m : Mechanism}

/-- The table expects no parameters, or those of one family, and the mechanism has others. -/
def Contradicts (m : Mechanism) (expected : ParameterExpectation) : Prop :=
  (∃ name, mechanisms.lookup m.id = some (name, expected)) ∧
    (expected = .noParameters ∧ m.family? ≠ none ∨
      ∃ f, expected = .family f ∧ m.family? ≠ some f)

theorem contradicts_iff {expected : ParameterExpectation} :
    m.Contradicts expected ↔
      expectedParameters m.id = expected ∧ expected.admits m.family? = false := by
  have hadmits : expected.admits m.family? = false ↔
      expected = .noParameters ∧ m.family? ≠ none ∨
        ∃ f, expected = .family f ∧ m.family? ≠ some f := by
    cases expected <;> simp [ParameterExpectation.admits]
  rw [Contradicts, hadmits]
  constructor
  · rintro ⟨⟨name, hname⟩, hother⟩
    exact ⟨by rw [expectedParameters, hname], hother⟩
  · rintro ⟨hexpected, hother⟩
    refine ⟨?_, hother⟩
    cases hlookup : mechanisms.lookup m.id with
    | some entry =>
      rw [expectedParameters, hlookup] at hexpected
      exact ⟨entry.1, congrArg (fun e => some (entry.1, e)) hexpected⟩
    | none =>
      rw [expectedParameters, hlookup] at hexpected
      rcases hother with ⟨h, -⟩ | ⟨f, h, -⟩ <;> cases hexpected.trans h

theorem forall_not_contradicts_iff :
    (∀ expected, ¬ m.Contradicts expected) ↔
      (expectedParameters m.id).admits m.family? = true := by
  simp [contradicts_iff]

/-- Why a mechanism has no native form: it contradicts the table, or else the host has no layout for
its block. It has one where neither is so. No builder fails, and all lengths are words. -/
theorem toNative_refusals (hhost : host.Obtainable) (m : Mechanism) :
    (∀ e, m.toNative host = .error e ↔
      (∃ expected, m.Contradicts expected ∧ .parameterMismatch m.id expected m.family? = e) ∨
      (∀ expected, ¬ m.Contradicts expected) ∧
        ∃ f, m.family? = some f ∧ host.supports f = false ∧ .unsupportedInHostRuntime f = e) ∧
    ((∃ native, m.toNative host = .ok native) ↔
      (∀ expected, ¬ m.Contradicts expected) ∧
        ∀ f, m.family? = some f → host.supports f = true) ∧
    (∀ e, NativeBuilder.Fault e → m.toNative host ≠ .error e) ∧
    (∀ native, m.toNative host = .ok native →
      (∀ b, m.parameters = some b → b.InMemory) →
        ∀ n ∈ native.parameters.lengths, n < UInt64.size) ∧
    ∀ f : ParameterFamily, f.needsHost = false → host.without f = host := by
  have herror : ∀ e, m.toNative host = .error e ↔
      (∃ expected, m.Contradicts expected ∧ .parameterMismatch m.id expected m.family? = e) ∨
      (∀ expected, ¬ m.Contradicts expected) ∧
        ∃ f, m.family? = some f ∧ host.supports f = false ∧ .unsupportedInHostRuntime f = e := by
    intro e
    rw [toNative_eq_error_iff, forall_not_contradicts_iff]
    simp [contradicts_iff]
  refine ⟨herror, ?_, ?_, ?_, fun f hf => hhost.without_eq hf⟩
  · simp [toNative_eq_ok_iff, forall_not_contradicts_iff]
  · intro e hfault h
    rcases (herror e).mp h with ⟨_, -, rfl⟩ | ⟨-, _, -, -, rfl⟩ <;> cases hfault
  · intro native h hmemory n hn
    obtain ⟨-, -, rfl⟩ := toNative_eq_ok_iff.mp h
    obtain ⟨id, _ | b⟩ := m
    · obtain rfl : n = 0 := List.mem_singleton.mp hn
      decide
    · exact (hmemory b rfl).lengths_lt n hn

/-- A block that fits its mechanism, where the environment has withdrawn its layout. -/
theorem toNative_refusals_withdrawn : ∃ m : Mechanism, ∃ list : String,
    m.family? = some .gcm ∧
    m.toNative (HostLayouts.detect list).1 = .error (.unsupportedInHostRuntime .gcm) := by
  let m : Mechanism := ⟨0x1087, some (.gcm ⟨[1], [], 128, by decide, by decide, by decide⟩)⟩
  obtain ⟨herror, -⟩ := toNative_refusals (.detect "ccm, gcm ") m
  refine ⟨m, "ccm, gcm ", rfl, (herror _).mpr (.inr ⟨?_, .gcm, rfl, ?_, rfl⟩)⟩
  · exact forall_not_contradicts_iff.mpr rfl
  · decide

end Mechanism

end Cryptoki
