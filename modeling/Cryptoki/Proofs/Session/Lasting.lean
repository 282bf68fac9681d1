import Cryptoki.Proofs.Session.Composition
import Cryptoki.Proofs.Session.Courses

/-! What holds along the courses of an action, however its parts are put together. -/
namespace Cryptoki

/-- A relation of a session, what is then exchanged and the session after it, that holds of a course
if it holds of its parts. -/
structure Lasting (R : Session → List Exchange → Session → Prop) : Prop where
  refl : ∀ s, R s [] s
  trans : ∀ {s t u es fs}, R s es t → R t fs u → R s (es ++ fs) u

namespace Action

variable {R : Session → List Exchange → Session → Prop} {ω α β : Type}

/-- Each course of the action stands in the relation. -/
def Within (R : Session → List Exchange → Session → Prop) (action : Action ω α) : Prop :=
  ∀ {scene after : Scene ω} {es : List Exchange} {outcome : Except Error α},
    action.Goes scene es outcome after → R scene.session es after.session

theorem within_silent (hr : Lasting R) {action : Action ω α}
    (h : ∀ scene, ∃ x left, action.run.run scene = pure (x, left) ∧ left.session = scene.session) :
    Within R action := by
  intro scene after es outcome hgoes
  obtain ⟨x, left, hrun, hleft⟩ := h scene
  obtain ⟨rfl, -, rfl⟩ := (goes_silent hrun).mp hgoes
  rw [hleft]
  exact hr.refl scene.session

theorem within_pure (hr : Lasting R) (a : α) : Within R (pure a : Action ω α) :=
  within_silent hr fun _ => ⟨_, _, rfl, rfl⟩

theorem within_lift (hr : Lasting R) (x : Except Error α) : Within R (liftM x : Action ω α) :=
  within_silent hr fun _ => ⟨_, _, rfl, rfl⟩

theorem within_session (hr : Lasting R) : Within R (session : Action ω Session) :=
  within_silent hr fun _ => ⟨_, _, rfl, rfl⟩

theorem within_subject (hr : Lasting R) : Within R (subject : Action ω ω) :=
  within_silent hr fun _ => ⟨_, _, rfl, rfl⟩

theorem within_setSubject (hr : Lasting R) (x : ω) : Within R (setSubject x) :=
  within_silent hr fun _ => ⟨_, _, rfl, rfl⟩

theorem within_bind (hr : Lasting R) {x : Action ω α} {f : α → Action ω β} (hx : Within R x)
    (hf : ∀ a, Within R (f a)) : Within R (x >>= f) := by
  intro scene after es outcome hgoes
  obtain ⟨e, he, -⟩ | ⟨a, mid, before, rest, rfl, ha, hrest⟩ := goes_bind.mp hgoes
  · exact hx he
  · exact hr.trans (hx ha) (hf a hrest)

/-- A call is made again only after a course of it, and on a session that it left. -/
theorem within_growing (hr : Lasting R) {call : Action Bytes Nat} (hcall : Within R call)
    (n : Nat) : Within R (growing call n) := by
  induction n with
  | zero => exact hcall
  | succ n ih =>
    intro scene after es outcome hgoes
    obtain ⟨hgoes, -⟩ | ⟨mid, before, rest, rfl, hfirst, hrest⟩ := growing_cases hgoes
    · exact hcall hgoes
    · have hlater := ih hrest
      exact hr.trans (hcall hfirst) hlater

theorem within_collect (hr : Lasting R) {part : String} {call : Action Bytes Nat}
    (hcall : Within R call) : Within R (collect part call) := by
  intro scene after es outcome hgoes
  rcases collect_cases hgoes with ⟨e, hgrowing, -⟩ | ⟨n, hgrowing, -⟩
  · exact within_growing hr hcall maxGrowth hgrowing
  · exact within_growing hr hcall maxGrowth hgrowing

theorem within_streamChunks (hr : Lasting R) {direction : Direction}
    (hupdate : ∀ input, Within R (cipherUpdate direction input 0))
    (hfinal : Within R (cipherFinal direction 0)) (output : OutputBuffer) (pieces : List Bytes) :
    Within R (streamChunks direction output pieces) := by
  induction pieces generalizing output with
  | nil => exact within_bind hr (within_collect hr hfinal) fun last => within_pure hr _
  | cons piece rest ih => exact within_bind hr (within_collect hr (hupdate piece)) fun _ => ih _

/-- A call with a mechanism leaves the session alone, whatever becomes of the mechanism. -/
theorem within_useMechanism (hr : Lasting R) {call : NativeMechanism → Talk (Mechanism.Reply α)}
    (h : ∀ {native s es reply}, (call native).Goes es reply → R s es s) :
    Within R (useMechanism call) := by
  intro scene after es outcome hgoes
  obtain ⟨m, huse, rfl⟩ := useMechanism_cases hgoes
  obtain ⟨e, -, rfl, -⟩ | ⟨native, reply, -, hcall, -⟩ := use_cases huse
  · exact hr.refl scene.session
  · exact h hcall

/-- The requests that belong to no kind of operation stand in the relation. -/
def Aside (R : Session → List Exchange → Session → Prop) : Prop :=
  ∀ s (r : Request) (x : r.Answer), r.kind? = none → R s [⟨r, x⟩] s

theorem within_ask (ha : Aside R) {r : Request} (h : r.kind? = none) :
    Within R (ask r : Action ω r.Answer) := by
  intro scene after es outcome hgoes
  obtain ⟨x, rfl, -, rfl⟩ := goes_ask.mp hgoes
  exact ha _ r x h

theorem passes_within (hr : Lasting R) (ha : Aside R) : Passes fun {_ _} => Within R where
  lift := within_lift hr
  bind := within_bind hr
  session _ hf := within_bind hr (within_session hr) hf
  subject := within_subject hr
  setSubject := within_setSubject hr
  ask := within_ask ha
  useMechanism hcall := within_useMechanism hr fun {native s es reply} hgoes => by
    obtain ⟨e, rfl, he⟩ := hcall native hgoes
    exact ha s e.request e.answer he

end Action

end Cryptoki
