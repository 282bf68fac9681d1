import Cryptoki.Proofs.Object.Readouts
import Cryptoki.Proofs.Session.Courses
import Cryptoki.Session.Objects

/-! The courses of what a session does with objects: reading them, destroying them, and those that
bring new ones. -/
namespace Cryptoki.Action

variable {ω α β : Type} {es : List Exchange}

/-- What an object becomes by the answer to a batched read. -/
def readOutcome (o : Object) (answer : Except Status (List Readout)) : Except Error Object :=
  accepted answer >>= o.refresh

/-- An object that is on the token is read in one exchange. -/
theorem goes_readAttributes {o : Object} {scene after : Scene ω} {outcome : Except Error Object} :
    (readAttributes o : Action ω Object).Goes scene es outcome after ↔
      (∃ e, o.liveHandle = .error e ∧ es = [] ∧ outcome = .error e ∧ after = scene) ∨
      ∃ handle, o.liveHandle = .ok handle ∧ ∃ answer,
        es = [⟨.readAttributes scene.session.handle handle (o.attributes.map Attribute.code),
          answer⟩] ∧
        outcome = readOutcome o answer ∧ after = scene := by
  rw [readAttributes, goes_bind_lift]
  refine or_congr_right (exists_congr fun handle => and_congr_right fun _ => ?_)
  refine (goes_bind_silent (x := session) rfl).trans ?_
  refine goes_bind_ask.trans (exists_congr fun x => ?_)
  have hsettle : ∀ rest, ((liftM (accepted x) >>= fun rs => liftM (o.refresh rs) :
      Action ω Object)).Goes scene rest outcome after ↔
        rest = [] ∧ outcome = readOutcome o x ∧ after = scene := by
    intro rest
    cases x with
    | ok rs => exact goes_silent rfl
    | error s => exact goes_silent rfl
  constructor
  · rintro ⟨rest, rfl, hrest⟩
    obtain ⟨rfl, hx, rfl⟩ := (hsettle rest).mp hrest
    exact ⟨rfl, hx, rfl⟩
  · rintro ⟨rfl, hx, rfl⟩
    exact ⟨[], rfl, (hsettle []).mpr ⟨rfl, hx, rfl⟩⟩

/-- What is read takes the place of the object, all of it or nothing. -/
theorem goes_refreshObject {scene after : Scene Object} {outcome : Except Error Unit} :
    refreshObject.Goes scene es outcome after ↔
      (∃ e, (readAttributes scene.subject).Goes scene es (.error e) scene ∧ outcome = .error e ∧
        after = scene) ∨
      ∃ p, (readAttributes scene.subject).Goes scene es (.ok p) scene ∧ outcome = .ok () ∧
        after = ⟨scene.session, p⟩ := by
  have hscene : ∀ {o : Object} {r mid}, (readAttributes o).Goes scene es r mid → mid = scene := by
    intro o r mid h
    rcases goes_readAttributes.mp h with ⟨e, -, -, -, hmid⟩ | ⟨handle, -, answer, -, -, hmid⟩
    · exact hmid
    · exact hmid
  refine (goes_bind_silent (x := subject) rfl).trans (goes_bind.trans ⟨?_, ?_⟩)
  · rintro (⟨e, he, rfl⟩ | ⟨p, mid, before, rest, rfl, hp, hset⟩)
    · obtain rfl := hscene he
      exact .inl ⟨e, he, rfl, rfl⟩
    · obtain ⟨rfl, rfl, rfl⟩ := (goes_silent rfl).mp hset
      rw [List.append_nil] at hscene ⊢
      obtain rfl := hscene hp
      exact .inr ⟨p, hp, rfl, rfl⟩
  · rintro (⟨e, he, rfl, rfl⟩ | ⟨p, hp, rfl, rfl⟩)
    · exact .inl ⟨e, he, rfl⟩
    · exact .inr ⟨p, scene, es, [], by simp, hp, (goes_silent rfl).mpr ⟨rfl, rfl, rfl⟩⟩

/-- An object is destroyed on the token first. It remembers that, and nothing else of it changes. -/
theorem destroyObject_cases {scene after : Scene Object} {outcome : Except Error Unit}
    (h : destroyObject.Goes scene es outcome after) :
    (∃ e, outcome = .error e ∧ after = scene) ∨
    ∃ handle, scene.subject.state = .bound handle ∧ outcome = .ok () ∧
      after = ⟨scene.session, { scene.subject with state := .destroyed handle }⟩ := by
  replace h := (goes_bind_silent (x := subject) rfl).mp h
  rcases goes_bind_lift.mp h with ⟨e, -, -, rfl, rfl⟩ | ⟨handle, hlive, hrest⟩
  · exact .inl ⟨e, rfl, rfl⟩
  replace hrest := (goes_bind_silent (x := session) rfl).mp hrest
  rcases goes_bind_ask.mp hrest with ⟨answer, rest, -, hanswer⟩
  rcases goes_bind_lift.mp hanswer with ⟨e, -, -, rfl, rfl⟩ | ⟨_, -, hmark⟩
  · exact .inl ⟨e, rfl, rfl⟩
  rcases goes_bind_lift.mp hmark with ⟨e, -, -, rfl, rfl⟩ | ⟨p, hp, hset⟩
  · exact .inl ⟨e, rfl, rfl⟩
  obtain ⟨-, rfl, rfl⟩ := (goes_silent rfl).mp hset
  have hbound : scene.subject.state = .bound handle := by
    unfold Object.liveHandle at hlive
    split at hlive
    · next hs =>
      cases hlive
      exact hs
    · cases hlive
    · cases hlive
  rw [Object.markDestroyed, hlive] at hp
  cases hp
  exact .inr ⟨handle, hbound, rfl, rfl⟩

/-- Whatever the token answers, an outcome that is a value satisfies the predicate. -/
def Gives (P : α → Prop) (action : Action ω α) : Prop :=
  ∀ (scene : Scene ω) (es : List Exchange) (a : α) (after : Scene ω),
    action.Goes scene es (.ok a) after → P a

variable {P : α → Prop} {Q : β → Prop}

theorem gives_pure {a : α} (h : P a) : Gives P (pure a : Action ω α) := by
  intro scene es b after hgoes
  obtain ⟨-, hb, -⟩ := goes_pure.mp hgoes
  cases hb
  exact h

theorem gives_bind {x : Action ω α} {f : α → Action ω β} (hx : Gives P x)
    (hf : ∀ a, P a → Gives Q (f a)) : Gives Q (x >>= f) := by
  intro scene es b after hgoes
  obtain ⟨e, -, he⟩ | ⟨a, mid, before, rest, -, ha, hrest⟩ := goes_bind.mp hgoes
  · cases he
  · exact hf a (hx _ _ a _ ha) mid rest b after hrest

/-- Of the first part of a sequence it is often enough that it ends. -/
theorem gives_last {x : Action ω α} {f : α → Action ω β} (hf : ∀ a, Gives Q (f a)) :
    Gives Q (x >>= f) :=
  gives_bind (P := fun _ => True) (fun _ _ _ _ _ => trivial) fun a _ => hf a

theorem gives_map {x : Action ω α} {f : α → β} (hx : Gives P x) (h : ∀ a, P a → Q (f a)) :
    Gives Q (f <$> x) := by
  rw [← bind_pure_comp]
  exact gives_bind hx fun a ha => gives_pure (h a ha)

/-- Objects from the token are those of their variant. -/
theorem gives_adopt (v : ObjectVariant) (handle : Handle) :
    Gives Object.WellFormed (adopt v handle : Action ω Object) := by
  intro scene es p after hgoes
  obtain ⟨e, -, -, he, -⟩ | ⟨h, -, answer, -, hp, -⟩ := goes_readAttributes.mp hgoes
  · cases he
  · obtain ⟨rs, -, hrefresh⟩ := Outcome.bind_eq_ok_iff.mp hp.symm
    exact ((Object.wellFormed_ofHandle v handle).refresh hrefresh).1

theorem gives_createObject (template : Object) :
    Gives Object.WellFormed (createObject template : Action ω Object) := by
  refine gives_last fun entries => gives_last fun here => gives_last fun answer => ?_
  exact gives_last fun handle => gives_adopt template.variant handle

theorem gives_generateKey (template : Object) : Gives Object.WellFormed (generateKey template) := by
  refine gives_last fun entries => gives_last fun here => gives_last fun handle => ?_
  exact gives_adopt template.variant handle

theorem gives_generateKeyPair (publicTemplate privateTemplate : Object) :
    Gives (fun pair => pair.publicKey.WellFormed ∧ pair.privateKey.WellFormed)
      (generateKeyPair publicTemplate privateTemplate) := by
  refine gives_last fun publicEntries => gives_last fun privateEntries => ?_
  refine gives_last fun here => gives_last fun handles => ?_
  refine gives_bind (gives_adopt _ _) fun publicKey hpublic => ?_
  exact gives_bind (gives_adopt _ _) fun privateKey hprivate => gives_pure ⟨hpublic, hprivate⟩

theorem gives_deriveKey (base template : Object) :
    Gives (fun derived => ∀ o, derived = some o → o.WellFormed) (deriveKey base template) := by
  refine gives_last fun handle => gives_last fun entries => gives_last fun here => ?_
  refine gives_last fun derived => ?_
  cases derived with
  | none => exact gives_pure (by simp)
  | some handle =>
    refine gives_map (gives_adopt _ handle) fun p hp o ho => ?_
    obtain rfl := Option.some.inj ho
    exact hp

theorem gives_readObject (handle : Handle) :
    Gives Object.WellFormed (readObject handle : Action ω Object) := by
  refine gives_last fun here => gives_last fun answer => gives_last fun readouts => ?_
  exact gives_last fun v => gives_adopt v handle

end Cryptoki.Action
