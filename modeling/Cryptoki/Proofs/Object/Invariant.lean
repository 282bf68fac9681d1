import Cryptoki.Proofs.Object.Entries
import Cryptoki.Proofs.Session.Objects
import Cryptoki.Session.Call
import Mathlib.Logic.Relation

/-! Objects over whole runs: all that can be done to them keeps them well-formed, and of their life
only the end can come. -/
namespace Cryptoki

/-- A place in life, and those that it can lead to. -/
def Lifecycle.Leads (s t : Lifecycle) : Prop := t = s ∨ ∃ h, s = .bound h ∧ t = .destroyed h

theorem Lifecycle.Leads.trans {s t u : Lifecycle} (hst : s.Leads t) (htu : t.Leads u) :
    s.Leads u := by
  rcases hst with rfl | ⟨h, rfl, rfl⟩
  · exact htu
  · rcases htu with rfl | ⟨k, hk, -⟩
    · exact .inr ⟨h, rfl, rfl⟩
    · cases hk

/-- What can be done to an object in place: by hand, or through a session. -/
inductive ObjectChange where
  | set (code : Word) (v : AttributeValue)
  | setNull (code : Word)
  | clear (code : Word)
  | refresh
  | destroy

namespace ObjectChange

/-- A change by hand of the object that an action works on. -/
def byHand (change : Object → Except Error Object) : Action Object Unit := do
  Action.setSubject (← change (← Action.subject))

def action : ObjectChange → Action Object Unit
  | .set code v => byHand (·.set code v)
  | .setNull code => byHand (·.setNull code)
  | .clear code => byHand (·.clear code)
  | .refresh => Action.refreshObject
  | .destroy => Action.destroyObject

/-- Values that are set hold elements that can be made. -/
def Proper : ObjectChange → Prop
  | .set _ v => ∀ entries, v = .attributes entries → ∀ a ∈ entries, a.Obtainable
  | _ => True

/-- What a change makes of an object, where it succeeds. -/
def Makes (o p : Object) : ObjectChange → Prop
  | .set code v => o.set code v = .ok p
  | .setNull code => o.setNull code = .ok p
  | .clear code => o.clear code = .ok p
  | .refresh => ∃ readouts, o.refresh readouts = .ok p
  | .destroy => ∃ h, o.state = .bound h ∧ p = { o with state := .destroyed h }

variable {scene after : Scene Object} {es : List Exchange} {outcome : Except Error Unit}
  {o p : Object}

theorem goes_byHand {change : Object → Except Error Object} :
    (byHand change).Goes scene es outcome after ↔
      (∃ e, change scene.subject = .error e ∧ es = [] ∧ outcome = .error e ∧ after = scene) ∨
      ∃ p, change scene.subject = .ok p ∧ es = [] ∧ outcome = .ok () ∧
        after = ⟨scene.session, p⟩ := by
  refine (Action.goes_bind_silent (x := Action.subject) rfl).trans Action.goes_bind_lift |>.trans ?_
  refine or_congr_right (exists_congr fun p => and_congr_right fun _ => ?_)
  exact Action.goes_silent rfl

/-- A change is made as a whole, or the object is left as it was. -/
theorem action_cases {change : ObjectChange} (h : change.action.Goes scene es outcome after) :
    (∃ e, outcome = .error e ∧ after = scene) ∨
      ∃ p, change.Makes scene.subject p ∧ outcome = .ok () ∧ after = ⟨scene.session, p⟩ := by
  have hhand : ∀ {f : Object → Except Error Object}, (byHand f).Goes scene es outcome after →
      (∃ e, outcome = .error e ∧ after = scene) ∨
        ∃ p, f scene.subject = .ok p ∧ outcome = .ok () ∧ after = ⟨scene.session, p⟩ := by
    intro f hf
    rcases goes_byHand.mp hf with ⟨e, -, -, ho, hafter⟩ | ⟨p, hp, -, ho, hafter⟩
    · exact .inl ⟨e, ho, hafter⟩
    · exact .inr ⟨p, hp, ho, hafter⟩
  cases change with
  | set code v => exact hhand h
  | setNull code => exact hhand h
  | clear code => exact hhand h
  | refresh =>
    rcases Action.goes_refreshObject.mp h with ⟨e, -, ho, hafter⟩ | ⟨p, hread, ho, hafter⟩
    · exact .inl ⟨e, ho, hafter⟩
    · refine .inr ⟨p, ?_, ho, hafter⟩
      rcases Action.goes_readAttributes.mp hread with
        ⟨e, -, -, hp, -⟩ | ⟨handle, -, answer, -, hp, -⟩
      · cases hp
      · obtain ⟨readouts, -, hrefresh⟩ := Outcome.bind_eq_ok_iff.mp hp.symm
        exact ⟨readouts, hrefresh⟩
  | destroy =>
    rcases Action.destroyObject_cases h with ⟨e, ho, hafter⟩ | ⟨handle, hbound, ho, hafter⟩
    · exact .inl ⟨e, ho, hafter⟩
    · exact .inr ⟨_, ⟨handle, hbound, rfl⟩, ho, hafter⟩

theorem keeps_of_modify {code : Word} {change : Attribute → Except Error Attribute}
    (ho : o.WellFormed)
    (hchange : ∀ {a b}, change a = .ok b → b.type = a.type ∧ b.WellFormed)
    (h : o.modify code change = .ok p) :
    p.WellFormed ∧ p.variant = o.variant ∧ o.state.Leads p.state := by
  obtain ⟨hp, hvariant, hstate⟩ := ho.modify hchange h
  exact ⟨hp, hvariant, .inl hstate⟩

theorem Makes.keeps {change : ObjectChange} (ho : o.WellFormed) (hproper : change.Proper)
    (h : change.Makes o p) : p.WellFormed ∧ p.variant = o.variant ∧ o.state.Leads p.state := by
  cases change with
  | set code v =>
    have helements : ∀ entries, v = .attributes entries → ∀ a ∈ entries, a.WellFormed :=
      fun entries hv a ha => (hproper entries hv a ha).wellFormed
    exact keeps_of_modify ho (Attribute.wellFormed_of_set helements) h
  | setNull code =>
    refine keeps_of_modify ho ?_ h
    rintro a b ⟨⟩
    exact ⟨rfl, AttributeKind.nullState_wellFormed _⟩
  | clear code =>
    refine keeps_of_modify ho ?_ h
    rintro a b ⟨⟩
    exact ⟨rfl, trivial⟩
  | refresh =>
    obtain ⟨readouts, hrefresh⟩ := h
    obtain ⟨hp, hvariant, hstate, -⟩ := ho.refresh hrefresh
    exact ⟨hp, hvariant, .inl hstate⟩
  | destroy =>
    obtain ⟨handle, hbound, rfl⟩ := h
    exact ⟨⟨ho.types, ho.identity, ho.wellFormed⟩, rfl, .inr ⟨handle, hbound, rfl⟩⟩

end ObjectChange

/-- The objects that a call brings. -/
def Call.objects : (call : Call) → call.Result → List Object
  | .createObject _, o => [o]
  | .generateKey _ _, o => [o]
  | .readObject _, o => [o]
  | .generateKeyPair _ _ _, pair => [pair.publicKey, pair.privateKey]
  | .deriveKey _ _ _, derived => derived.toList
  | _, _ => []

namespace Object

/-- One change of an object in place, in any session and whatever the token answers. -/
def Changes (o p : Object) : Prop :=
  ∃ (change : ObjectChange) (session after : Session) (es : List Exchange)
    (outcome : Except Error Unit),
    change.Proper ∧ change.action.Goes ⟨session, o⟩ es outcome ⟨after, p⟩

/-- The objects that can be made: templates, those that calls bring from a token, and what comes of
changing them. -/
inductive Obtainable : Object → Prop where
  | ofVariant (v : ObjectVariant) : Obtainable (.ofVariant v)
  | ofCodes {o : Object} {objectClass : Word} {subtype : Option Word}
    (h : Object.ofCodes objectClass subtype = .ok o) : Obtainable o
  | ofTemplate {v : ObjectVariant} {entries : List WireAttribute} {o : Object}
    (h : Object.ofTemplate v entries = .ok o) : Obtainable o
  | brought {call : Call} {session : Session} {es : List Exchange} {result : call.Result}
    {after : Scene call.Subject} {o : Object}
    (h : call.action.Goes ⟨session, call.subject⟩ es (.ok result) after)
    (ho : o ∈ call.objects result) : Obtainable o
  | changed {o p : Object} (ho : Obtainable o) (h : o.Changes p) : Obtainable p

theorem Changes.keeps {o p : Object} (ho : o.WellFormed) (h : o.Changes p) :
    p.WellFormed ∧ p.variant = o.variant ∧ o.state.Leads p.state := by
  obtain ⟨change, session, after, es, outcome, hproper, hgoes⟩ := h
  rcases ObjectChange.action_cases hgoes with ⟨e, -, hafter⟩ | ⟨q, hmakes, -, hafter⟩
  · cases hafter
    exact ⟨ho, rfl, .inl rfl⟩
  · cases hafter
    exact hmakes.keeps ho hproper

/-- What one change keeps, a run of changes keeps. -/
theorem keeps_of_changes {o p : Object} (ho : o.WellFormed)
    (h : Relation.ReflTransGen Changes o p) :
    p.WellFormed ∧ p.variant = o.variant ∧ o.state.Leads p.state := by
  induction h with
  | refl => exact ⟨ho, rfl, .inl rfl⟩
  | tail _ hlast ih =>
    obtain ⟨hq, hvariant, hstate⟩ := ih
    obtain ⟨hp, hsame, hleads⟩ := hlast.keeps hq
    exact ⟨hp, hsame.trans hvariant, hstate.trans hleads⟩

theorem wellFormed_of_call {call : Call} {session : Session} {es : List Exchange}
    {result : call.Result} {after : Scene call.Subject} {o : Object}
    (h : call.action.Goes ⟨session, call.subject⟩ es (.ok result) after)
    (ho : o ∈ call.objects result) : o.WellFormed := by
  cases call with
  | createObject template =>
    obtain rfl := List.mem_singleton.mp ho
    exact Action.gives_createObject template _ _ _ _ h
  | generateKey mechanism template =>
    obtain rfl := List.mem_singleton.mp ho
    exact Action.gives_generateKey template _ _ _ _ h
  | readObject handle =>
    obtain rfl := List.mem_singleton.mp ho
    exact Action.gives_readObject handle _ _ _ _ h
  | generateKeyPair mechanism publicTemplate privateTemplate =>
    have hpair := Action.gives_generateKeyPair publicTemplate privateTemplate _ _ _ _ h
    rcases List.mem_pair.mp ho with rfl | rfl
    · exact hpair.1
    · exact hpair.2
  | deriveKey mechanism base template =>
    exact Action.gives_deriveKey base template _ _ _ _ h o (Option.mem_toList.mp ho)
  | _ => cases ho

theorem Obtainable.wellFormed {o : Object} (h : o.Obtainable) : o.WellFormed := by
  induction h with
  | ofVariant v => exact wellFormed_ofVariant v
  | ofCodes h =>
    obtain ⟨v, -, rfl⟩ := Outcome.map_eq_ok_iff.mp h
    exact wellFormed_ofVariant v
  | ofTemplate h => exact (ofTemplate_wellFormed h).1
  | brought h ho => exact wellFormed_of_call h ho
  | changed ho h ih => exact (h.keeps ih).1

/-- Setting an attribute by hand makes an object. -/
theorem Obtainable.set {o p : Object} {code : Word} {v : AttributeValue} (ho : o.Obtainable)
    (helements : ∀ entries, v = .attributes entries → ∀ a ∈ entries, a.Obtainable)
    (h : o.set code v = .ok p) : p.Obtainable := by
  let here := Session.ofHandle 1 0 .standard .empty
  refine .changed ho ⟨.set code v, here, here, [], .ok (), helements, ?_⟩
  exact ObjectChange.goes_byHand.mpr (.inr ⟨p, h, rfl, rfl, rfl⟩)

/-- The attributes of objects can be the elements of what is set. -/
theorem Obtainable.of_mem {o : Object} {a : Attribute} (h : o.Obtainable)
    (ha : a ∈ o.attributes) : a.Obtainable :=
  Attribute.obtainable_of_wellFormed (h.wellFormed.wellFormed a ha)

/-- The attributes that tell the variant of an object hold its codes. -/
theorem WellFormed.holds_codes {o : Object} (h : o.WellFormed) :
    o.attribute? AttributeType.objectClass.code =
      some ⟨.objectClass, .value (.ulong o.variant.classCode)⟩ ∧
    ∀ t, o.variant.subtypeAttribute = some t → ∃ c, o.variant.subtypeCode = some c ∧
      o.attribute? t.code = some ⟨t, .value (.ulong c)⟩ := by
  have hfound : ∀ {t c}, o.variant.Fixes t c →
      o.attribute? t.code = some ⟨t, .value (.ulong c)⟩ := by
    intro t c hc
    have ht := ObjectVariant.mem_declared (ObjectVariant.isIdentity_iff.mpr ⟨c, hc⟩)
    rw [h.attribute?_code ht, h.admits.identity hc]
  refine ⟨hfound (.inl ⟨rfl, rfl⟩), fun t ht => ?_⟩
  obtain ⟨c, hc⟩ := ObjectVariant.subtypeCode_isSome ht
  exact ⟨c, hc, hfound (.inr ⟨ht, hc⟩)⟩

/-- What every object that can be made has, and keeps over whole runs. Its attributes are those that
its variant declares, each once; the ones that tell the variant hold its codes, and at every depth
each holds what its type says. Changes leave the variant as it is, and of the life of an object only
the end of a bound one can come. A change that fails changes nothing. -/
theorem obtainable_invariant {o : Object} (h : o.Obtainable) :
    (o.attributes.map (·.type) = o.variant.declared ∧ o.variant.declared.Nodup) ∧
    (o.attribute? AttributeType.objectClass.code =
        some ⟨.objectClass, .value (.ulong o.variant.classCode)⟩ ∧
      ∀ t, o.variant.subtypeAttribute = some t → ∃ c, o.variant.subtypeCode = some c ∧
        o.attribute? t.code = some ⟨t, .value (.ulong c)⟩) ∧
    (∀ a ∈ o.attributes, ∀ b ∈ a.kept, (∀ v, b.state = .value v → v.kind = b.kind) ∧
      (b.state = .null → b.kind = .bool ∨ b.kind = .ulong ∨ b.kind = .date)) ∧
    (∀ p, Relation.ReflTransGen Changes o p → p.variant = o.variant ∧ o.state.Leads p.state) ∧
    ∀ (change : ObjectChange) (session : Session) (es : List Exchange) (e : Error)
      (after : Scene Object), change.action.Goes ⟨session, o⟩ es (.error e) after →
      after = ⟨session, o⟩ := by
  have hwf := h.wellFormed
  refine ⟨⟨hwf.types, o.variant.nodup_declared⟩, hwf.holds_codes, ?_, ?_, ?_⟩
  · intro a ha b hb
    have hsound : b.WellFormed := (hwf.wellFormed a ha).of_mem_kept hb
    obtain ⟨t, s⟩ := b
    constructor
    · rintro v rfl
      exact hsound.1
    · rintro rfl
      exact AttributeKind.nullState_eq_null_iff.mp hsound
  · intro p hp
    exact (keeps_of_changes hwf hp).2
  · intro change session es e after hgoes
    rcases ObjectChange.action_cases hgoes with ⟨_, -, hafter⟩ | ⟨p, -, ho, -⟩
    · exact hafter
    · cases ho

theorem obtainable_invariant_labelled :
    ∃ o, (ofVariant .data).set AttributeType.label.code (.bytes [7]) = .ok o ∧
      o.attribute? AttributeType.objectClass.code =
        some ⟨.objectClass, .value (.ulong ObjectVariant.data.classCode)⟩ ∧
      ∀ p, Relation.ReflTransGen Changes o p → p.variant = .data ∧ p.state = .template := by
  obtain ⟨o, ho⟩ : ∃ o, (ofVariant .data).set AttributeType.label.code (.bytes [7]) = .ok o :=
    ⟨_, rfl⟩
  have hchanges : (ofVariant .data).Changes o := by
    let here := Session.ofHandle 1 0 .standard .empty
    refine ⟨.set AttributeType.label.code (.bytes [7]), here, here, [], .ok (), ?_, ?_⟩
    · simp [ObjectChange.Proper]
    · exact ObjectChange.goes_byHand.mpr (.inr ⟨o, ho, rfl, rfl, rfl⟩)
  obtain ⟨-, -, -, hruns, -⟩ := obtainable_invariant (.ofVariant .data)
  obtain ⟨-, hcodes, -⟩ := obtainable_invariant (.changed (.ofVariant .data) hchanges)
  have hvariant : o.variant = .data := (hruns o (.single hchanges)).1
  rw [hvariant] at hcodes
  refine ⟨o, ho, hcodes.1, fun p hp => ?_⟩
  obtain ⟨hsame, hleads⟩ := hruns p (.head hchanges hp)
  rcases hleads with hstate | ⟨h, hbound, -⟩
  · exact ⟨hsame, hstate⟩
  · cases hbound

end Object

end Cryptoki
