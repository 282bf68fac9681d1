import Cryptoki.Proofs.Object.Identity
import Cryptoki.Proofs.Object.Refresh
import Cryptoki.Proofs.Object.Template

/-! Storing objects: what comes back of an object from a token that keeps its template. -/
namespace Cryptoki

variable {σ : Type}

/-- The readout of a type as stored entries have it: the value of its entry, or that there is
none. -/
structure Readout.Retrieves (entries : List WireAttribute) (code : Word) (r : Readout) : Prop where
  type : r.type = code
  stored : ∀ v, ⟨code, v⟩ ∈ entries → r.status = Status.ok ∧ r.value.native? = some v
  missing : (∀ e ∈ entries, e.type ≠ code) → r.status = Status.attributeTypeInvalid

/-- The token answers all reads of a handle from the entries, now and as long as it is read. -/
def Token.Holds (token : Token σ) (session handle : Handle) (entries : List WireAttribute) (t : σ) :
    Prop :=
  ∃ kept : σ → Prop, kept t ∧ ∀ u, kept u → ∀ types, ∃ rs v,
    token.answer (.readAttributes session handle types) u = (.ok rs, v) ∧
      List.Forall₂ (Readout.Retrieves entries) types rs ∧ kept v

/-- The token takes the entries for a new object, and holds them under its handle. -/
def Token.Stores (token : Token σ) (session handle : Handle) (entries : List WireAttribute)
    (t : σ) : Prop :=
  ∃ u, token.answer (.createObject session entries) t = (.ok handle, u) ∧
    token.Holds session handle entries u

theorem Token.Holds.read {token : Token σ} {session handle : Handle} {entries : List WireAttribute}
    {t : σ} (h : token.Holds session handle entries t) (types : List Word) :
    ∃ rs u, token.answer (.readAttributes session handle types) t = (.ok rs, u) ∧
      List.Forall₂ (Readout.Retrieves entries) types rs ∧ token.Holds session handle entries u := by
  obtain ⟨kept, ht, hkept⟩ := h
  obtain ⟨rs, u, hanswer, hrs, hu⟩ := hkept t ht types
  exact ⟨rs, u, hanswer, hrs, kept, hu, hkept⟩

namespace Attribute

/-- What comes back of an attribute: all of it that is present, or that it is not available. -/
def stored (a : Attribute) : Attribute := if a.isPresent then a.pruned else a.markUnavailable

theorem toWire_stored (a : Attribute) : a.stored.toWire = a.toWire := by
  rw [stored]
  split
  · exact toWire_pruned a
  · next h =>
    have hwithheld : a.markUnavailable.isPresent = false := rfl
    rw [toWire_of_not_present hwithheld, toWire_of_not_present (by simpa using h)]

end Attribute

namespace Object

variable {o : Object} {entries : List WireAttribute} {t : AttributeType} {r : Readout}
  {rs : List Readout} {handle : Handle}

/-- The object that a token makes of a template and puts under a handle. -/
def storedUnder (o : Object) (handle : Handle) : Object :=
  ⟨o.variant, .bound handle, o.attributes.map Attribute.stored⟩

theorem toTemplate_storedUnder (o : Object) (handle : Handle) :
    (o.storedUnder handle).toTemplate = o.toTemplate :=
  Attribute.toTemplate_map Attribute.toWire_stored o.attributes

/-- The types in the template of an object are not repeated. -/
theorem WellFormed.nodup_types (ho : o.WellFormed) (h : o.toTemplate = .ok entries) :
    (entries.map (·.type)).Nodup := by
  have hcodes : (o.variant.declared.map AttributeType.code).Nodup :=
    o.variant.nodup_declared.map fun t u => AttributeType.code_injective
  rw [Attribute.types_toTemplate h]
  rw [← ho.codes] at hcodes
  exact hcodes.sublist (List.filter_sublist.map _)

/-- Of an attribute that is not present the template has no entry. -/
theorem WellFormed.type_ne_of_not_present (ho : o.WellFormed) (h : o.toTemplate = .ok entries)
    (ht : t ∈ o.variant.declared) (habsent : (Attribute.mk t (o.stateOf t)).isPresent = false) :
    ∀ e ∈ entries, e.type ≠ t.code := by
  intro e he hcode
  have htype := List.mem_map_of_mem (f := (·.type)) he
  rw [Attribute.types_toTemplate h] at htype
  obtain ⟨a, ha, hsame⟩ := List.mem_map.mp htype
  obtain ⟨ha, hpresent⟩ := List.mem_filter.mp ha
  have hfound := attribute?_of_mem ho.types ha
  rw [hsame, hcode, ho.attribute?_code ht] at hfound
  obtain rfl := Option.some.inj hfound
  rw [habsent] at hpresent
  cases hpresent

/-- From the template of an object an attribute is revealed if it is present, else withheld. -/
theorem WellFormed.of_retrieves (ho : o.WellFormed) (h : o.toTemplate = .ok entries)
    (ht : t ∈ o.variant.declared) (hr : r.Retrieves entries t.code) :
    (Attribute.mk t (o.stateOf t)).isPresent = true ∧ r.Reveals t (o.stateOf t).pruned ∨
    (Attribute.mk t (o.stateOf t)).isPresent = false ∧ r.Withholds := by
  have hmem : (⟨t, o.stateOf t⟩ : Attribute) ∈ o.attributes :=
    List.mem_of_find?_eq_some (ho.attribute?_code ht)
  obtain ⟨w, hw, hentry⟩ := Attribute.toWire_of_toTemplate h hmem
  obtain ⟨hsome, htype⟩ := Attribute.toWire_isSome hw
  cases w with
  | some w =>
    obtain ⟨code, x⟩ := w
    obtain rfl : code = t.code := htype _ rfl
    obtain ⟨hok, hvalue⟩ := hr.stored x (hentry _ rfl)
    exact .inl ⟨hsome.symm, hok, x, hvalue, Attribute.decode_toWire (ho.wellFormed _ hmem) hw⟩
  | none =>
    have hnone := ho.type_ne_of_not_present h ht hsome.symm
    exact .inr ⟨hsome.symm, .inl (hr.missing hnone)⟩

/-- A batch from the template of an object leaves each attribute as it comes back. -/
theorem WellFormed.settles_stored (ho : o.WellFormed) (h : o.toTemplate = .ok entries)
    (ht : t ∈ o.variant.declared) (hr : r.Retrieves entries t.code) :
    Settles o.variant (freshState o.variant) (t, r) (Attribute.stored ⟨t, o.stateOf t⟩) := by
  rcases ho.of_retrieves h ht hr with ⟨hpresent, hreveals⟩ | ⟨habsent, hwithholds⟩
  · have hfixed : ∀ c, o.variant.Fixes t c → (o.stateOf t).pruned = .value (.ulong c) := by
      intro c hc
      rw [pruned_of_isIdentity ho.admits (ObjectVariant.isIdentity_iff.mpr ⟨c, hc⟩),
        ho.admits.identity hc]
    refine ⟨⟨hr.type, .inr ⟨_, hreveals, hfixed⟩⟩, _, if_pos hpresent, ?_⟩
    cases hid : o.variant.isIdentity t with
    | true =>
      rw [pruned_of_isIdentity ho.admits hid, ho.admits.eq_freshState hid]
      exact Readout.leaves_of_identity hid
    | false => exact Readout.leaves_of_revealed hid hreveals
  · refine ⟨⟨hr.type, .inl hwithholds⟩, .unavailable, ?_, ?_⟩
    · rw [Attribute.stored, if_neg (by simp [habsent])]
      rfl
    · exact Readout.leaves_of_withheld (free_of_not_present ho.admits habsent) hwithholds

theorem WellFormed.refresh_of_retrieves (ho : o.WellFormed) (h : o.toTemplate = .ok entries)
    (hrs : List.Forall₂ (Readout.Retrieves entries)
      (o.variant.declared.map AttributeType.code) rs) :
    (ofHandle o.variant handle).refresh rs = .ok (o.storedUnder handle) := by
  rw [List.forall₂_map_left_iff] at hrs
  have hsettled : ∀ {ts : List AttributeType} {rs : List Readout},
      (∀ t ∈ ts, t ∈ o.variant.declared) →
      List.Forall₂ (fun t r => Readout.Retrieves entries t.code r) ts rs →
      List.Forall₂ (Settles o.variant (freshState o.variant)) (ts.zip rs)
        (ts.map fun t => Attribute.stored ⟨t, o.stateOf t⟩) := by
    intro ts rs hts hall
    induction hall with
    | nil => exact .nil
    | cons hr _ ih =>
      exact .cons (ho.settles_stored h (hts _ (by simp)) hr) (ih fun t ht => hts t (by simp [ht]))
  have hv := o.variant.admits_freshState
  refine (refresh_ofStates hv).mpr ⟨hrs.length_eq.symm, _, hsettled (fun _ ht => ht) hrs, ?_⟩
  rw [storedUnder, ho.attributes_eq, List.map_map]
  rfl

/-- In a batch from the entries the first readout of a type that was asked for is one of them. -/
theorem find?_of_retrieves {types : List Word} {code : Word}
    (hrs : List.Forall₂ (Readout.Retrieves entries) types rs) (hasked : code ∈ types) :
    ∃ r, rs.find? (·.type = code) = some r ∧ r.Retrieves entries code := by
  obtain ⟨x, hx, hretrieves⟩ := exists_of_forall₂ hrs hasked
  obtain ⟨r, hfound⟩ : ∃ r, rs.find? (·.type = code) = some r := by
    rw [← Option.isSome_iff_exists, List.find?_isSome]
    exact ⟨x, hx, by simp [hretrieves.type]⟩
  obtain ⟨other, -, hr⟩ := exists_of_forall₂ (List.Forall₂.flip (R := flip _) hrs)
    (List.mem_of_find?_eq_some hfound)
  have hcode : r.type = code := by simpa using List.find?_some hfound
  obtain rfl : other = code := hr.type.symm.trans hcode
  exact ⟨r, hfound, hr⟩

/-- The batch tells the codes of the variant. -/
theorem WellFormed.codeOf_of_retrieves (ho : o.WellFormed) (h : o.toTemplate = .ok entries)
    {types : List Word} (hrs : List.Forall₂ (Readout.Retrieves entries) types rs) {c : Word}
    (hc : o.variant.Fixes t c) (ht : t.code ∈ types) : codeOf rs t = .ok (some c) := by
  have hid := ObjectVariant.isIdentity_iff.mpr ⟨c, hc⟩
  obtain ⟨r, hfound, hr⟩ := find?_of_retrieves hrs ht
  rcases ho.of_retrieves h (ObjectVariant.mem_declared hid) hr with ⟨-, hreveals⟩ | ⟨habsent, -⟩
  · rw [pruned_of_isIdentity ho.admits hid, ho.admits.identity hc] at hreveals
    exact codeOf_eq_some_iff.mpr ⟨r, hfound, hreveals⟩
  · exact absurd (free_of_not_present ho.admits habsent) hc.not_free

theorem WellFormed.identify_of_retrieves (ho : o.WellFormed) (h : o.toTemplate = .ok entries)
    (hrs : List.Forall₂ (Readout.Retrieves entries) (identityTypes.map AttributeType.code) rs) :
    identify rs = .ok o.variant := by
  refine identify_eq_ok_iff.mpr fun t c hc => ho.codeOf_of_retrieves h hrs hc ?_
  exact List.mem_map_of_mem (mem_identityTypes (ObjectVariant.isIdentity_iff.mpr ⟨c, hc⟩))

section Calls

variable {token : Token σ} {session : Session} {s : σ}

theorem WellFormed.adopt_of_holds {ω : Type} (scene : Scene ω) (ho : o.WellFormed)
    (h : o.toTemplate = .ok entries)
    (hholds : token.Holds scene.session.handle handle entries s) :
    ∃ e u, (Action.adopt o.variant handle : Action ω Object).Goes scene [e]
        (.ok (o.storedUnder handle)) scene ∧
      token.Answers s [e] u ∧ token.Holds scene.session.handle handle entries u := by
  obtain ⟨rs, u, hanswer, hrs, hu⟩ := hholds.read (o.variant.declared.map AttributeType.code)
  refine ⟨⟨readRequest scene.session handle o.variant, .ok rs⟩, u, ?_,
    Token.answers_single.mpr hanswer, hu⟩
  have hrefresh : Action.readOutcome (ofHandle o.variant handle) (.ok rs) =
      .ok (o.storedUnder handle) := ho.refresh_of_retrieves h hrs
  refine Action.goes_readAttributes.mpr (.inr ⟨handle, rfl, .ok rs, ?_, hrefresh.symm, rfl⟩)
  rw [(wellFormed_ofHandle o.variant handle).codes]
  rfl

/-- Creating an object sends its template, before anything else. -/
theorem createObject_sends (h : o.toTemplate = .ok entries) (token : Token σ) (session : Session)
    (s : σ) :
    ∃ answer outcome after es u, (Call.createObject o).run token session s =
      ((outcome, after), ⟨.createObject session.handle entries, answer⟩ :: es, u) := by
  obtain ⟨⟨⟨outcome, after⟩, es, u⟩, hrun⟩ :
      ∃ r, (Call.createObject o).run token session s = r := ⟨_, rfl⟩
  obtain ⟨hgoes, -⟩ := Talk.run_eq_iff.mp hrun
  rcases Action.goes_bind_lift.mp hgoes with ⟨e, hfail, -⟩ | ⟨sent, hsent, hasks⟩
  · rw [h] at hfail
    cases hfail
  · obtain rfl := Except.ok.inj (h.symm.trans hsent)
    replace hasks := (Action.goes_bind_silent (x := Action.session) rfl).mp hasks
    obtain ⟨answer, rest, rfl, -⟩ := Action.goes_bind_ask.mp hasks
    exact ⟨answer, outcome, after, rest, u, hrun⟩

/-- An object is created as what the token stores of its template. -/
theorem WellFormed.createObject_of_stores (ho : o.WellFormed) (h : o.toTemplate = .ok entries)
    (hstores : token.Stores session.handle handle entries s) :
    ∃ es u, (Call.createObject o).run token session s =
        ((.ok (o.storedUnder handle), ⟨session, ()⟩),
          ⟨.createObject session.handle entries, .ok handle⟩ :: es, u) ∧
      token.Holds session.handle handle entries u := by
  obtain ⟨w, hcreate, hw⟩ := hstores
  obtain ⟨e, u, hadopt, hanswers, hu⟩ := ho.adopt_of_holds ⟨session, ()⟩ h hw
  refine ⟨[e], u, Talk.run_eq_iff.mpr ⟨?_, ?_⟩, hu⟩
  · refine Action.goes_bind_lift.mpr (.inr ⟨entries, h, ?_⟩)
    refine (Action.goes_bind_silent (x := Action.session) rfl).mpr ?_
    refine Action.goes_bind_ask.mpr ⟨.ok handle, [e], rfl, ?_⟩
    exact Action.goes_bind_lift.mpr (.inr ⟨handle, rfl, hadopt⟩)
  · exact Token.answers_cons.mpr ⟨w, hcreate, hanswers⟩

/-- The object under the handle is read as what was created. -/
theorem WellFormed.readObject_of_holds (ho : o.WellFormed) (h : o.toTemplate = .ok entries)
    (hholds : token.Holds session.handle handle entries s) :
    ∃ es u, (Call.readObject handle).run token session s =
        ((.ok (o.storedUnder handle), ⟨session, ()⟩), es, u) ∧
      token.Holds session.handle handle entries u := by
  obtain ⟨rs, w, hidentity, hrs, hw⟩ := hholds.read (identityTypes.map AttributeType.code)
  obtain ⟨e, u, hadopt, hanswers, hu⟩ := ho.adopt_of_holds ⟨session, ()⟩ h hw
  let first : Exchange :=
    ⟨.readAttributes session.handle handle (identityTypes.map AttributeType.code), .ok rs⟩
  refine ⟨[first, e], u, Talk.run_eq_iff.mpr ⟨?_, ?_⟩, hu⟩
  · refine (Action.goes_bind_silent (x := Action.session) rfl).mpr ?_
    refine Action.goes_bind_ask.mpr ⟨.ok rs, [e], rfl, ?_⟩
    refine Action.goes_bind_lift.mpr (.inr ⟨rs, rfl, ?_⟩)
    exact Action.goes_bind_lift.mpr (.inr ⟨o.variant, ho.identify_of_retrieves h hrs, hadopt⟩)
  · exact Token.answers_cons.mpr ⟨w, hidentity, hanswers⟩

/-- Objects are stored and read back. Where each date in an object fits, and a token stores the
template of it, creating the object sends that template. What comes back is of the same variant and
under the handle: all of the object that is present, the rest of it unavailable. Whenever the object
is read by its handle while the token holds it, the same comes back; and it has the same template,
which is what any token gets to create it again. -/
theorem createObject_roundTrip (ho : o.Obtainable)
    (hfits : ∀ a ∈ o.attributes, ∀ b ∈ a.kept, b.Fits)
    (hstores : ∀ entries, o.toTemplate = .ok entries →
      token.Stores session.handle handle entries s) :
    ∃ entries es u, o.toTemplate = .ok entries ∧
      (Call.createObject o).run token session s =
        ((.ok (o.storedUnder handle), ⟨session, ()⟩),
          ⟨.createObject session.handle entries, .ok handle⟩ :: es, u) ∧
      token.Holds session.handle handle entries u ∧
      (∀ (here : Session) (w : σ), token.Holds here.handle handle entries w →
        ∃ fs x, (Call.readObject handle).run token here w =
            ((.ok (o.storedUnder handle), ⟨here, ()⟩), fs, x) ∧
          token.Holds here.handle handle entries x) ∧
      (o.storedUnder handle).toTemplate = .ok entries ∧
      ∀ {τ : Type} (other : Token τ) (here : Session) (w : τ),
        ∃ answer outcome after fs x, (Call.createObject (o.storedUnder handle)).run other here w =
          ((outcome, after), ⟨.createObject here.handle entries, answer⟩ :: fs, x) := by
  have hwf := ho.wellFormed
  obtain ⟨entries, h⟩ := Attribute.exists_toTemplate hfits
  have hagain := (toTemplate_storedUnder o handle).trans h
  obtain ⟨es, u, hrun, hu⟩ := hwf.createObject_of_stores h (hstores entries h)
  refine ⟨entries, es, u, h, hrun, hu, ?_, hagain, ?_⟩
  · intro here w hw
    exact hwf.readObject_of_holds h hw
  · intro τ other here w
    exact createObject_sends hagain other here w

end Calls

end Object

def WireValue.raw : WireValue → RawValue
  | .bytes bs => .bytes bs
  | .nested es => .nested es

def Readout.ofEntries (entries : List WireAttribute) (code : Word) : Readout :=
  match entries.find? (·.type = code) with
  | some e => ⟨code, Status.ok, e.value.raw⟩
  | none => ⟨code, Status.attributeTypeInvalid, .length unavailableInformation⟩

/-- A token with a place for one object. -/
def cabinet : Token (List WireAttribute) where
  answer request held :=
    match request with
    | .createObject _ entries => (.ok 1, entries)
    | .readAttributes _ _ types => (.ok (types.map (Readout.ofEntries held)), held)
    | request => (request.refuse Status.functionNotSupported, held)

theorem Readout.retrieves_ofEntries {entries : List WireAttribute}
    (hnodup : (entries.map (·.type)).Nodup) (code : Word) :
    (Readout.ofEntries entries code).Retrieves entries code := by
  rw [Readout.ofEntries]
  cases hfound : entries.find? (·.type = code) with
  | some e =>
    have he := List.mem_of_find?_eq_some hfound
    have hcode : e.type = code := by simpa using List.find?_some hfound
    refine ⟨rfl, fun v hv => ?_, fun hnone => absurd hcode (hnone e he)⟩
    obtain rfl : e = ⟨code, v⟩ := List.inj_on_of_nodup_map hnodup he hv hcode
    cases v <;> exact ⟨rfl, rfl⟩
  | none =>
    have hnone : ∀ e ∈ entries, e.type ≠ code := by simpa using hfound
    exact ⟨rfl, fun v hv => absurd rfl (hnone _ hv), fun _ => rfl⟩

/-- The token stores any template in which no type is repeated. -/
theorem cabinet_stores {entries : List WireAttribute} (hnodup : (entries.map (·.type)).Nodup)
    (session : Handle) (held : List WireAttribute) : cabinet.Stores session 1 entries held := by
  refine ⟨entries, rfl, (· = entries), rfl, ?_⟩
  rintro u rfl types
  refine ⟨_, u, rfl, ?_, rfl⟩
  rw [List.forall₂_map_right_iff, List.forall₂_same]
  intro code _
  exact Readout.retrieves_ofEntries hnodup code

namespace Object

theorem createObject_roundTrip_wrapping : ∃ o es u fs x,
    (ofVariant (.secretKey .aes)).set AttributeType.wrapTemplate.code
      (.attributes [.absent .token, ⟨.label, .value (.bytes [7])⟩]) = .ok o ∧
    (Call.createObject o).run cabinet (.ofHandle 1 0 .standard .empty) [] =
      ((.ok (o.storedUnder 1), ⟨.ofHandle 1 0 .standard .empty, ()⟩), es, u) ∧
    (Call.readObject 1).run cabinet (.ofHandle 1 0 .standard .empty) u =
      ((.ok (o.storedUnder 1), ⟨.ofHandle 1 0 .standard .empty, ()⟩), fs, x) ∧
    (o.storedUnder 1).attribute? AttributeType.wrapTemplate.code =
      some ⟨.wrapTemplate, .value (.attributes [⟨.label, .value (.bytes [7])⟩])⟩ ∧
    (o.storedUnder 1).attribute? AttributeType.token.code = some ⟨.token, .unavailable⟩ := by
  obtain ⟨o, hset⟩ : ∃ o, (ofVariant (.secretKey .aes)).set AttributeType.wrapTemplate.code
      (.attributes [.absent .token, ⟨.label, .value (.bytes [7])⟩]) = .ok o := ⟨_, rfl⟩
  have ho : o.Obtainable := by
    refine .set (.ofVariant _) ?_ hset
    rintro entries ⟨⟩ a ha
    simp only [List.mem_cons, List.not_mem_nil, or_false] at ha
    rcases ha with rfl | rfl
    · exact .absent .token
    · exact .set (v := .bytes [7]) (.absent .label) (by simp) rfl
  have hfits : ∀ a ∈ o.attributes, ∀ b ∈ a.kept, b.Fits := by
    cases hset
    decide
  obtain ⟨sent, es, u, -, hrun, hholds, hread, -⟩ :=
    createObject_roundTrip ho hfits fun entries h =>
      cabinet_stores (ho.wellFormed.nodup_types h) _ []
  obtain ⟨fs, x, hagain, -⟩ := hread (.ofHandle 1 0 .standard .empty) u hholds
  refine ⟨o, _, u, fs, x, hset, hrun, hagain, ?_, ?_⟩
  · cases hset
    rfl
  · cases hset
    rfl

end Object

end Cryptoki
