import Cryptoki.Proofs.Object.Storage
import Cryptoki.Proofs.Session.FailFast

/-! Destroyed objects: refused where the token would need their handle, and nowhere else. A template
is taken for its attributes, wherever it stands in life. -/
namespace Cryptoki

theorem Object.liveHandle_of_destroyed {o : Object} {handle : Handle}
    (h : o.state = .destroyed handle) : o.liveHandle = .error (.staleObject handle) := by
  rw [liveHandle, h]

namespace Action

variable {ω α β : Type} {scene : Scene ω} {e : Error}

theorem refuses_bind_lift {x : Except Error α} (hx : x = .error e) (f : α → Action ω β) :
    (liftM x >>= f : Action ω β).Refuses scene e := by
  intro es outcome after hgoes
  rcases goes_bind_lift.mp hgoes with ⟨e', he, rfl, rfl, rfl⟩ | ⟨a, ha, -⟩
  · rw [hx] at he
    cases he
    exact ⟨rfl, rfl, rfl⟩
  · rw [hx] at ha
    cases ha

theorem Refuses.subject {f : ω → Action ω α} (h : (f scene.subject).Refuses scene e) :
    (subject >>= f).Refuses scene e := by
  intro es outcome after hgoes
  exact h _ _ _ ((goes_bind_silent rfl).mp hgoes)

end Action

namespace Call

open Cryptoki.Action

variable {call : Call} {o : Object} {handle : Handle}

/-- The lifecycle of an object that has to be on the token is looked at first of all. -/
theorem refuses_stale (s : Session) (ho : o ∈ call.held) (hstate : o.state = .destroyed handle) :
    call.action.Refuses ⟨s, call.subject⟩ (.staleObject handle) := by
  have hlive := Object.liveHandle_of_destroyed hstate
  cases call with
  | start kind mechanism key =>
    obtain rfl := List.mem_singleton.mp ho
    exact refuses_bind_lift hlive _
  | cipherAll direction mechanism key data =>
    obtain rfl := List.mem_singleton.mp ho
    exact (refuses_bind_lift hlive _).bind _
  | sign mechanism key data =>
    obtain rfl := List.mem_singleton.mp ho
    exact (refuses_bind_lift hlive _).bind _
  | verify mechanism key data signature =>
    obtain rfl := List.mem_singleton.mp ho
    exact (refuses_bind_lift hlive _).bind _
  | deriveKey mechanism base template =>
    obtain rfl := List.mem_singleton.mp ho
    exact refuses_bind_lift hlive _
  | destroyObject object =>
    obtain rfl := List.mem_singleton.mp ho
    exact .subject (refuses_bind_lift hlive _)
  | refreshObject object =>
    obtain rfl := List.mem_singleton.mp ho
    exact .subject ((refuses_bind_lift hlive _).bind _)
  | _ => cases ho

/-- Where an object has to be on the token, one that was destroyed is refused with its handle before
anything else is looked at: the token is not asked and nothing is changed. Where it is a template,
only its variant and its attributes count, so that it makes no difference that it was destroyed. -/
theorem stale_refused (token : Token σ) (s : Session) (t : σ) :
    (∀ call : Call, ∀ o ∈ call.held, ∀ handle, o.state = .destroyed handle →
      call.run token s t = ((.error (.staleObject handle), ⟨s, call.subject⟩), [], t)) ∧
    (∀ template l, (Call.createObject { template with state := l }).run token s t =
      (Call.createObject template).run token s t) ∧
    (∀ mechanism template l,
      (Call.generateKey mechanism { template with state := l }).run token s t =
      (Call.generateKey mechanism template).run token s t) ∧
    (∀ mechanism publicTemplate privateTemplate l m,
      (Call.generateKeyPair mechanism { publicTemplate with state := l }
        { privateTemplate with state := m }).run token s t =
      (Call.generateKeyPair mechanism publicTemplate privateTemplate).run token s t) ∧
    (∀ mechanism base template l,
      (Call.deriveKey mechanism base { template with state := l }).run token s t =
      (Call.deriveKey mechanism base template).run token s t) := by
  refine ⟨?_, fun _ _ => rfl, fun _ _ _ => rfl, fun _ _ _ _ _ => rfl, fun _ _ _ _ => rfl⟩
  intro call o ho handle hstate
  exact (refuses_stale s ho hstate).run token t

theorem stale_refused_key :
    (Call.sign ⟨0x250, none⟩ ⟨.secretKey .aes, .destroyed 9, []⟩ [1, 2]).run Script.token
        (.ofHandle 1 0 .standard .empty) [] =
      ((.error (.staleObject 9), ⟨.ofHandle 1 0 .standard .empty, ⟨0x250, none⟩⟩), [], []) :=
  (stale_refused Script.token (.ofHandle 1 0 .standard .empty) []).1 _ _
    (List.mem_singleton.mpr rfl) 9 rfl

/-- Data that was destroyed on the token. -/
def destroyedData : Object := { Object.ofVariant .data with state := .destroyed 9 }

/-- A token is asked to make an object of what is left of a destroyed one, and does. -/
theorem destroyed_template_accepted : ∃ entries es u,
    destroyedData.state = .destroyed 9 ∧
    (Call.createObject destroyedData).run cabinet (.ofHandle 1 0 .standard .empty) [] =
      ((.ok (destroyedData.storedUnder 1), ⟨.ofHandle 1 0 .standard .empty, ()⟩),
        ⟨.createObject 1 entries, .ok 1⟩ :: es, u) := by
  have hfresh : (Object.ofVariant .data).WellFormed := (Object.Obtainable.ofVariant _).wellFormed
  have hwf : destroyedData.WellFormed := ⟨hfresh.types, hfresh.identity, hfresh.wellFormed⟩
  have hfits : ∀ a ∈ destroyedData.attributes, ∀ b ∈ a.kept, b.Fits := by decide
  obtain ⟨entries, h⟩ := Attribute.exists_toTemplate hfits
  have hstores : cabinet.Stores (Session.ofHandle 1 0 .standard .empty).handle 1 entries [] :=
    cabinet_stores (hwf.nodup_types h) _ []
  obtain ⟨es, u, hrun, -⟩ := hwf.createObject_of_stores h hstores
  exact ⟨entries, es, u, rfl, hrun⟩

end Call

end Cryptoki
