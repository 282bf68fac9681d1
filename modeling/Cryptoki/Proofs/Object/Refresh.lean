import Cryptoki.Proofs.Object.Invariant
import Cryptoki.Token.Script

/-! Reading an object again: after one exchange all of it is as the token says, or nothing is. -/
namespace Cryptoki.Object

variable {σ : Type} {o : Object} {handle : Handle}

/-- The request for all attributes that an object declares. -/
abbrev readRequest (session : Session) (handle : Handle) (v : ObjectVariant) : Request :=
  .readAttributes session.handle handle (v.declared.map AttributeType.code)

/-- The only course that reading an object can take with a token. -/
theorem WellFormed.run_refreshObject (ho : o.WellFormed) (hbound : o.state = .bound handle)
    {token : Token σ} {t u : σ} {session : Session} {answer : Except Status (List Readout)}
    (hanswer : token.answer (readRequest session handle o.variant) t = (answer, u)) :
    ∃ outcome left,
      (Call.refreshObject o).run token session t =
        ((outcome, ⟨session, left⟩), [⟨readRequest session handle o.variant, answer⟩], u) ∧
      ((∃ e, Action.readOutcome o answer = .error e ∧ outcome = .error e ∧ left = o) ∨
        Action.readOutcome o answer = .ok left ∧ outcome = .ok ()) := by
  have hlive : o.liveHandle = .ok handle := by
    rw [liveHandle, hbound]
  have hread : ∀ (r : Except Error Object), r = Action.readOutcome o answer →
      (Action.readAttributes o).Goes (⟨session, o⟩ : Scene Object)
        [⟨readRequest session handle o.variant, answer⟩] r ⟨session, o⟩ := by
    rintro r rfl
    refine Action.goes_readAttributes.mpr (.inr ⟨handle, hlive, answer, ?_, rfl, rfl⟩)
    rw [ho.codes]
  have hrun : ∀ {outcome : Except Error Unit} {left : Object},
      Action.refreshObject.Goes ⟨session, o⟩ [⟨readRequest session handle o.variant, answer⟩]
        outcome ⟨session, left⟩ →
      (Call.refreshObject o).run token session t =
        ((outcome, ⟨session, left⟩), [⟨readRequest session handle o.variant, answer⟩], u) := by
    intro outcome left hgoes
    exact Talk.run_eq_iff.mpr ⟨hgoes, Token.answers_single.mpr hanswer⟩
  cases h : Action.readOutcome o answer with
  | error e =>
    refine ⟨.error e, o, hrun ?_, .inl ⟨e, rfl, rfl, rfl⟩⟩
    exact Action.goes_refreshObject.mpr (.inl ⟨e, hread _ h.symm, rfl, rfl⟩)
  | ok p =>
    refine ⟨.ok (), p, hrun ?_, .inr ⟨rfl, rfl⟩⟩
    exact Action.goes_refreshObject.mpr (.inr ⟨p, hread _ h.symm, rfl, rfl⟩)

/-- Reading an object that is on a token is one exchange. Where it fails, the object is as it was.
It succeeds if the token gave an answer for each declared attribute, in order, and only then. The
variant, its codes and the handle stay; any other attribute is where its readout says, and nothing
is absent. What the object held before makes no difference: any other object of the variant is read
as the same. -/
theorem refreshObject_atomic (ho : o.Obtainable) (hbound : o.state = .bound handle)
    (token : Token σ) (t : σ) (session : Session) :
    ∃ answer u outcome left,
      token.answer (readRequest session handle o.variant) t = (answer, u) ∧
      (Call.refreshObject o).run token session t =
        ((outcome, ⟨session, left⟩), [⟨readRequest session handle o.variant, answer⟩], u) ∧
      (∀ e, outcome = .error e → left = o) ∧
      (outcome = .ok () ↔ ∃ rs, answer = .ok rs ∧
        List.Forall₂ (fun t r => r.Answers o.variant t) o.variant.declared rs) ∧
      ∀ rs, answer = .ok rs → outcome = .ok () →
        left.variant = o.variant ∧ left.state = o.state ∧
        left.attributes.map (·.type) = o.variant.declared ∧
        (∀ a ∈ left.attributes, a.state ≠ .absent) ∧
        (∀ t r, (t, r) ∈ o.variant.declared.zip rs →
          ∃ before after, o.attribute? t.code = some ⟨t, before⟩ ∧
            left.attribute? t.code = some ⟨t, after⟩ ∧ r.Leaves o.variant t before after) ∧
        ∀ q : Object, q.Obtainable → q.variant = o.variant →
          q.refresh rs = .ok { q with attributes := left.attributes } := by
  have hwf := ho.wellFormed
  obtain ⟨⟨answer, u⟩, hanswer⟩ :
      ∃ r, token.answer (readRequest session handle o.variant) t = r := ⟨_, rfl⟩
  obtain ⟨outcome, left, hrun, hsettled⟩ := hwf.run_refreshObject hbound hanswer
  refine ⟨answer, u, outcome, left, hanswer, hrun, ?_, ?_, ?_⟩
  · intro e he
    rcases hsettled with ⟨-, -, -, hleft⟩ | ⟨-, hok⟩
    · exact hleft
    · rw [hok] at he
      cases he
  · have hok : outcome = .ok () ↔ ∃ p, Action.readOutcome o answer = .ok p := by
      rcases hsettled with ⟨e, hread, rfl, -⟩ | ⟨hread, rfl⟩
      · simp [hread]
      · simp [hread]
    rw [hok]
    cases answer with
    | error s =>
      have hrefused : Action.readOutcome o (.error s) = .error (.deviceStatus s) := rfl
      simp [hrefused]
    | ok rs =>
      have htaken : Action.readOutcome o (.ok rs) = o.refresh rs := rfl
      simp [htaken, hwf.exists_refresh_iff]
  · intro rs hrs hok
    subst hrs
    rcases hsettled with ⟨e, -, he, -⟩ | ⟨hread, -⟩
    · rw [hok] at he
      cases he
    have hrefresh : o.refresh rs = .ok left := hread
    obtain ⟨hleft, hvariant, hstate, hpresent⟩ := hwf.refresh hrefresh
    refine ⟨hvariant, hstate, hvariant ▸ hleft.types, hpresent, ?_, ?_⟩
    · intro t r hr
      exact hwf.refresh_leaves hrefresh hr
    · intro q hq hsame
      exact hwf.refresh_agree hq.wellFormed hsame hrefresh

/-- A batch from a token of clocks that keep their time to themselves, and send it all the same. -/
def clockReadouts : List Readout :=
  [⟨AttributeType.objectClass.code, Status.attributeTypeInvalid, .length 0⟩,
    ⟨AttributeType.hwFeatureType.code, Status.attributeTypeInvalid, .length 0⟩,
    ⟨AttributeType.value.code, Status.attributeSensitive, .bytes [1, 2]⟩]

def clocks : Token Unit where
  answer request _ :=
    match request with
    | .createObject _ _ => (.ok 7, ())
    | .readAttributes _ _ _ => (.ok clockReadouts, ())
    | request => (request.refuse Status.functionNotSupported, ())

theorem refreshObject_atomic_clock : ∃ o left : Object, o.Obtainable ∧ o.state = .bound 7 ∧
    ((Call.refreshObject o).run clocks (.ofHandle 1 0 .standard .empty) ()).1 =
      (.ok (), ⟨.ofHandle 1 0 .standard .empty, left⟩) ∧
    left.attribute? AttributeType.value.code = some ⟨.value, .unavailable⟩ := by
  let v : ObjectVariant := .hardwareFeature .clock
  let here := Session.ofHandle 1 0 .standard .empty
  have hdeclared : v.declared = [.objectClass, .hwFeatureType, .value] := rfl
  have hanswers : List.Forall₂ (fun t r => r.Answers v t) v.declared clockReadouts := by
    rw [hdeclared]
    exact .cons ⟨rfl, .inl (.inl rfl)⟩ (.cons ⟨rfl, .inl (.inl rfl)⟩
      (.cons ⟨rfl, .inl (.inr (.inl rfl))⟩ .nil))
  have hfresh := wellFormed_ofHandle v 7
  obtain ⟨o, ho⟩ := hfresh.exists_refresh_iff.mpr hanswers
  obtain ⟨-, hvariant, hbound, -⟩ := hfresh.refresh ho
  obtain ⟨entries, hentries⟩ : ∃ entries, (ofVariant v).toTemplate = .ok entries := ⟨_, rfl⟩
  have hcreated : (Call.createObject (ofVariant v)).action.Goes ⟨here, ()⟩
      [⟨.createObject here.handle entries, .ok 7⟩, ⟨readRequest here 7 v, .ok clockReadouts⟩]
      (.ok o) ⟨here, ()⟩ := by
    refine Action.goes_bind_lift.mpr (.inr ⟨entries, hentries, ?_⟩)
    refine (Action.goes_bind_silent (x := Action.session) rfl).mpr ?_
    refine Action.goes_bind_ask.mpr ⟨.ok 7, _, rfl, Action.goes_bind_lift.mpr (.inr ⟨7, rfl, ?_⟩)⟩
    exact Action.goes_readAttributes.mpr (.inr ⟨7, rfl, .ok clockReadouts, rfl, ho.symm, rfl⟩)
  have hobtainable : o.Obtainable := .brought hcreated (List.mem_singleton.mpr rfl)
  obtain ⟨answer, u, outcome, left, hanswer, hread, -, hok, hleft⟩ :=
    refreshObject_atomic hobtainable hbound clocks () here
  cases hanswer
  rw [hvariant] at hok hleft
  have houtcome : outcome = .ok () := hok.mpr ⟨_, rfl, hanswers⟩
  obtain ⟨-, -, -, -, hleaves, -⟩ := hleft _ rfl houtcome
  obtain ⟨before, after, -, hafter, hvalue⟩ := hleaves .value _ (.tail _ (.tail _ (.head _)))
  refine ⟨o, left, hobtainable, hbound, ?_, ?_⟩
  · rw [hread, houtcome]
  · rw [hafter, hvalue.withheld rfl (.inr (.inl rfl))]

end Cryptoki.Object
