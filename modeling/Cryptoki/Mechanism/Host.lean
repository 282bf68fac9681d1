import Cryptoki.Mechanism.Builder
import Cryptoki.Text.Blank

/-! The layouts that a host provides, and marshalling a mechanism on a host. -/
namespace Cryptoki

/-- The families with a layout of the host, of those that need one. -/
structure HostLayouts where
  provided : List ParameterFamily
  deriving DecidableEq

namespace HostLayouts

def full : HostLayouts := ⟨NativeBuilder.registered.map (·.1)⟩

def empty : HostLayouts := ⟨[]⟩

def without (h : HostLayouts) (f : ParameterFamily) : HostLayouts :=
  ⟨h.provided.filter (· ≠ f)⟩

def withoutAll (h : HostLayouts) (fs : List ParameterFamily) : HostLayouts :=
  fs.foldl without h

def supports (h : HostLayouts) (f : ParameterFamily) : Bool :=
  !f.needsHost || h.provided.contains f

def supported (h : HostLayouts) : List ParameterFamily :=
  ParameterFamily.all.filter h.supports

/-- The builder that the host has for a family. -/
def builder? (h : HostLayouts) (f : ParameterFamily) : Option NativeBuilder :=
  if f ∈ h.provided then NativeBuilder.registered.lookup f else none

/-- The native form of a block, from the builder of the host if its family needs one. -/
def build (h : HostLayouts) (block : ParameterBlock) : Except Error NativeParameters :=
  if block.family.needsHost then
    match h.builder? block.family with
    | some builder => builder.build block
    | none => .error (.unsupportedInHostRuntime block.family)
  else NativeBuilder.portable.build block

def debug (h : HostLayouts) : String :=
  Layout.list ((h.supported.filter (·.needsHost)).map ParameterFamily.debug)

/-- The names in a list with commas between them; blanks around a name do not count. -/
def namesIn (list : String) : List String :=
  (((pieces ',' list.toList).map trim).filter (· ≠ [])).map String.ofList

/-- The full layouts without those that the list names, and the names in it that no family has. -/
def detect (list : String) : HostLayouts × List String :=
  let names := namesIn list
  (full.withoutAll (names.filterMap ParameterFamily.ofText?),
    names.filter fun n => ParameterFamily.ofText? n = none)

def unknownFamilyMessage (name : String) : String :=
  "COSMIAN_PKCS11_UNSUPPORTED_PARAMS: unknown parameter family " ++ name

theorem supports_without (h : HostLayouts) (f g : ParameterFamily) :
    (h.without f).supports g = (h.supports g && (!g.needsHost || g ≠ f)) := by
  cases hg : g.needsHost <;> simp [supports, without, hg, Bool.and_comm]

end HostLayouts

/-- The mechanism as a token gets it. The parameters have to be those that are expected, in a layout
that the host provides. -/
def Mechanism.toNative (m : Mechanism) (host : HostLayouts) : Except Error NativeMechanism := do
  m.validate
  match m.parameters with
  | none => return ⟨m.id, .none⟩
  | some block => return ⟨m.id, ← host.build block⟩

end Cryptoki
