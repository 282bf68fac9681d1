import Cryptoki.Proofs.Attribute.Canonical
import Cryptoki.Proofs.Object.Invariant

/-! Objects in native templates: which entries are written, and what is read back from them. -/
namespace Cryptoki

namespace Attribute

/-- What a native template keeps of an attribute: all of it that is present. -/
def templated (a : Attribute) : Attribute := if a.isPresent then a.pruned else a.clear

theorem toWire_templated (a : Attribute) : a.templated.toWire = a.toWire := by
  rw [templated]
  split
  · exact toWire_pruned a
  · next h =>
    have hcleared : a.clear.isPresent = false := rfl
    rw [toWire_of_not_present hcleared, toWire_of_not_present (by simpa using h)]

theorem templated_eq_self_iff {a : Attribute} :
    a.templated = a ↔ a.state ≠ .unavailable ∧ a.Complete := by
  cases hpresent : a.isPresent with
  | true =>
    have hstate : a.state ≠ .unavailable := by
      intro h
      rw [isPresent, h] at hpresent
      cases hpresent
    have hpruned : a.templated = a.pruned := by rw [templated, if_pos hpresent]
    rw [hpruned]
    exact ⟨fun h => ⟨hstate, complete_of_pruned h⟩, fun h => pruned_of_complete h.2⟩
  | false =>
    have hcleared : a.templated = a.clear := by rw [templated, if_neg (by simp [hpresent])]
    rw [hcleared]
    obtain ⟨t, s⟩ := a
    cases s with
    | absent => simp [clear, Complete, AttributeState.Complete]
    | unavailable => simp [clear]
    | null | value _ => cases hpresent

/-- An attribute has a native form, if it is present, where each date in it fits. -/
theorem exists_toWire {a : Attribute} (hfits : ∀ b ∈ a.kept, b.Fits) : ∃ w, a.toWire = .ok w := by
  apply Outcome.failure?_eq_none_iff.mp
  rw [failure?_toWire, List.findSome?_eq_none_iff]
  intro b hb
  exact dateFault?_of_fits (hfits b hb)

theorem exists_toTemplate {as : List Attribute} (hfits : ∀ a ∈ as, ∀ b ∈ a.kept, b.Fits) :
    ∃ ws, toTemplate as = .ok ws := by
  induction as with
  | nil => exact ⟨[], rfl⟩
  | cons a as ih =>
    obtain ⟨w, hw⟩ := exists_toWire (hfits a (by simp))
    obtain ⟨ws, hws⟩ := ih fun b hb => hfits b (by simp [hb])
    exact ⟨_, toTemplate_cons_iff.mpr ⟨w, ws, hw, hws, rfl⟩⟩

/-- The entries of a template are those of the attributes that are present, in order. -/
theorem types_toTemplate {as : List Attribute} {ws : List WireAttribute}
    (h : toTemplate as = .ok ws) : ws.map (·.type) = (as.filter (·.isPresent)).map code := by
  induction as generalizing ws with
  | nil =>
    obtain rfl := Except.ok.inj h
    rfl
  | cons a as ih =>
    obtain ⟨w, rest, hw, hrest, rfl⟩ := toTemplate_cons_iff.mp h
    obtain ⟨hsome, htype⟩ := toWire_isSome hw
    cases w with
    | none =>
      have habsent : a.isPresent = false := hsome.symm
      simpa [habsent] using ih hrest
    | some w =>
      have hpresent : a.isPresent = true := hsome.symm
      simp [hpresent, htype w rfl, ih hrest]

/-- Each attribute that is written has its entry in the template. -/
theorem toWire_of_toTemplate {as : List Attribute} {ws : List WireAttribute} {a : Attribute}
    (h : toTemplate as = .ok ws) (ha : a ∈ as) : ∃ w, a.toWire = .ok w ∧ ∀ x ∈ w, x ∈ ws := by
  induction as generalizing ws with
  | nil => cases ha
  | cons b as ih =>
    obtain ⟨w, rest, hw, hrest, rfl⟩ := toTemplate_cons_iff.mp h
    rcases List.mem_cons.mp ha with rfl | ha
    · exact ⟨w, hw, fun x hx => List.mem_append_left _ (Option.mem_toList.mpr hx)⟩
    · obtain ⟨u, hu, hentry⟩ := ih hrest ha
      exact ⟨u, hu, fun x hx => List.mem_append_right _ (hentry x hx)⟩

/-- What leaves the native forms leaves the template. -/
theorem toTemplate_map {f : Attribute → Attribute} (hf : ∀ a, (f a).toWire = a.toWire)
    (as : List Attribute) : toTemplate (as.map f) = toTemplate as := by
  induction as with
  | nil => rfl
  | cons a as ih => rw [List.map_cons, toTemplate, toTemplate, hf, ih]

theorem toTemplate_templated (as : List Attribute) :
    toTemplate (as.map templated) = toTemplate as := toTemplate_map toWire_templated as

end Attribute

namespace Object

variable {v : ObjectVariant} {l : Lifecycle} {f g : AttributeType → AttributeState} {o p : Object}

theorem pruned_of_isIdentity (hf : v.Admits f) {t : AttributeType} (h : v.isIdentity t = true) :
    (f t).pruned = f t := by
  obtain ⟨c, hc⟩ := ObjectVariant.isIdentity_iff.mp h
  rw [hf.identity hc]
  rfl

/-- The entries of some attributes of an object, written over another one of its variant. -/
theorem applyEntries_toTemplate (hf : v.Admits f) {ts : List AttributeType}
    {ws : List WireAttribute} (hts : ∀ t ∈ ts, t ∈ v.declared)
    (hg : ∀ t, v.isIdentity t = true → g t = f t)
    (h : Attribute.toTemplate (ts.map fun t => ⟨t, f t⟩) = .ok ws) :
    (ofStates v l g).applyEntries ws = .ok (ofStates v l fun t =>
      if t ∈ ts ∧ (Attribute.mk t (f t)).isPresent then (f t).pruned else g t) := by
  induction ts generalizing g ws with
  | nil =>
    obtain rfl := Except.ok.inj h
    simp [applyEntries]
  | cons t ts ih =>
    obtain ⟨w, rest, hw, hrest, rfl⟩ := toTemplate_cons_iff.mp h
    obtain ⟨hsome, htype⟩ := Attribute.toWire_isSome hw
    have hlater : ∀ u ∈ ts, u ∈ v.declared := fun u hu => hts u (by simp [hu])
    cases w with
    | none =>
      have habsent : (Attribute.mk t (f t)).isPresent = false := hsome.symm
      have hstates : ∀ u, (u ∈ t :: ts ∧ (Attribute.mk u (f u)).isPresent = true) ↔
          (u ∈ ts ∧ (Attribute.mk u (f u)).isPresent = true) := by
        intro u
        by_cases hu : u = t
        · subst hu
          simp [habsent]
        · simp [hu]
      simp only [hstates]
      exact ih hlater hg hrest
    | some w =>
      have hpresent : (Attribute.mk t (f t)).isPresent = true := hsome.symm
      obtain ⟨code, x⟩ := w
      obtain rfl : code = t.code := htype _ rfl
      have hwf : (Attribute.mk t (f t)).WellFormed := hf.wellFormed t
      have hread : x.decode t = .ok (f t).pruned :=
        WireAttribute.decode_code.mp (Attribute.decode_toWire hwf hw)
      have hfirst : (ofStates v l g).applyEntry ⟨t.code, x⟩ =
          .ok (ofStates v l (Function.update g t (f t).pruned)) := by
        refine applyEntry_ofStates.mpr ⟨t, _, hts t (by simp), rfl, hread, fun ht => ?_, rfl⟩
        rw [pruned_of_isIdentity hf ht, hg t ht]
      have hagree : ∀ u, v.isIdentity u = true →
          Function.update g t (f t).pruned u = f u := by
        intro u hu
        rw [Function.update_apply]
        split
        · next h =>
          subst h
          exact pruned_of_isIdentity hf hu
        · exact hg u hu
      have happly : (ofStates v l g).applyEntries (⟨t.code, x⟩ :: rest) =
          (ofStates v l (Function.update g t (f t).pruned)).applyEntries rest := by
        rw [applyEntries, hfirst]
        rfl
      refine (happly.trans (ih hlater hagree hrest)).trans ?_
      congr 2
      funext u
      by_cases hu : u = t
      · subst hu
        simp [hpresent]
      · simp [hu]

/-- What tells the variant is present in every object of it. -/
theorem isPresent_of_isIdentity (hf : v.Admits f) {t : AttributeType}
    (h : v.isIdentity t = true) : (Attribute.mk t (f t)).isPresent = true := by
  obtain ⟨c, hc⟩ := ObjectVariant.isIdentity_iff.mp h
  rw [hf.identity hc]
  rfl

theorem free_of_not_present (hf : v.Admits f) {t : AttributeType}
    (h : (Attribute.mk t (f t)).isPresent = false) : v.isIdentity t = false := by
  cases hid : v.isIdentity t with
  | false => rfl
  | true =>
    rw [isPresent_of_isIdentity hf hid] at h
    cases h

/-- The template that is read back from that of an object. -/
theorem WellFormed.ofTemplate_toTemplate (ho : o.WellFormed) {ws : List WireAttribute}
    (h : o.toTemplate = .ok ws) :
    ofTemplate o.variant ws =
      .ok ⟨o.variant, .template, o.attributes.map Attribute.templated⟩ := by
  have hattributes := ho.attributes_eq
  have hagree : ∀ t, o.variant.isIdentity t = true → freshState o.variant t = o.stateOf t :=
    fun t ht => (ho.admits.eq_freshState ht).symm
  have hwritten : Attribute.toTemplate (o.variant.declared.map fun t => ⟨t, o.stateOf t⟩) =
      .ok ws := by
    rw [← hattributes]
    exact h
  have hread := applyEntries_toTemplate (l := .template) ho.admits (fun _ ht => ht) hagree hwritten
  rw [ofTemplate, ofVariant_eq, hread, ofStates, hattributes, List.map_map]
  congr 2
  apply List.map_congr_left
  intro t ht
  cases hpresent : (Attribute.mk t (o.stateOf t)).isPresent with
  | true => simp [Attribute.templated, hpresent, ht, Attribute.pruned]
  | false =>
    have hfree := free_of_not_present ho.admits hpresent
    simp [Attribute.templated, hpresent, freshState_of_free hfree, Attribute.clear]

theorem sameContent_templated_iff {l : Lifecycle} :
    sameContent ⟨o.variant, l, o.attributes.map Attribute.templated⟩ o = true ↔
      ∀ a ∈ o.attributes, a.state ≠ .unavailable ∧ a.Complete := by
  simp only [sameContent, decide_true, Bool.true_and, decide_eq_true_eq]
  constructor
  · intro h a ha
    apply Attribute.templated_eq_self_iff.mp
    exact List.map_inj_left.mp (h.trans (List.map_id o.attributes).symm) a ha
  · intro h
    refine (List.map_congr_left fun a ha => ?_).trans (List.map_id o.attributes)
    exact Attribute.templated_eq_self_iff.mpr (h a ha)

/-- Objects survive native templates. Where each date in an object fits, its template has an entry
for each attribute that is present, in the order of the declarations, and for those that tell the
variant. What is read back from it is a template with all of the object that is present; it is the
object again if nothing was withheld and no element of an array is missing, and only then. Written
once more it is the same. -/
theorem toTemplate_roundTrip (h : o.Obtainable)
    (hfits : ∀ a ∈ o.attributes, ∀ b ∈ a.kept, b.Fits) :
    ∃ ws p, o.toTemplate = .ok ws ∧
      ws.map (·.type) = (o.attributes.filter (·.isPresent)).map Attribute.code ∧
      (ws.map (·.type)).Nodup ∧
      (ws.map (·.type)).Sublist (o.variant.declared.map AttributeType.code) ∧
      (∀ t, o.variant.isIdentity t = true → t.code ∈ ws.map (·.type)) ∧
      ofTemplate o.variant ws = .ok p ∧ p.variant = o.variant ∧ p.state = .template ∧
      p.attributes = o.attributes.map Attribute.templated ∧
      (p.sameContent o = true ↔ ∀ a ∈ o.attributes, a.state ≠ .unavailable ∧ a.Complete) ∧
      p.toTemplate = .ok ws := by
  have hwf := h.wellFormed
  obtain ⟨ws, hws⟩ := Attribute.exists_toTemplate hfits
  have htypes := Attribute.types_toTemplate hws
  have hsub : (ws.map (·.type)).Sublist (o.variant.declared.map AttributeType.code) := by
    rw [htypes, ← hwf.codes]
    exact List.filter_sublist.map _
  have hnodup : (o.variant.declared.map AttributeType.code).Nodup :=
    o.variant.nodup_declared.map fun t u => AttributeType.code_injective
  have hread := hwf.ofTemplate_toTemplate hws
  refine ⟨ws, _, hws, htypes, hnodup.sublist hsub, hsub, ?_, hread, rfl, rfl, rfl,
    sameContent_templated_iff, ?_⟩
  · intro t ht
    have hfound := hwf.attribute?_code (ObjectVariant.mem_declared ht)
    have hpresent := isPresent_of_isIdentity hwf.admits ht
    rw [htypes]
    refine List.mem_map.mpr ⟨_, List.mem_filter.mpr ⟨?_, hpresent⟩, rfl⟩
    exact List.mem_of_find?_eq_some hfound
  · exact (Attribute.toTemplate_templated o.attributes).trans hws

theorem toTemplate_roundTrip_wrapping : ∃ o ws p,
    (ofVariant (.secretKey .aes)).set AttributeType.wrapTemplate.code
      (.attributes [.absent .token]) = .ok o ∧
    o.toTemplate = .ok ws ∧
    ws.map (·.type) = [AttributeType.objectClass.code, AttributeType.keyType.code,
      AttributeType.wrapTemplate.code] ∧
    ofTemplate (.secretKey .aes) ws = .ok p ∧ p.sameContent o = false ∧ p.toTemplate = .ok ws := by
  let v : ObjectVariant := .secretKey .aes
  let template : AttributeState := .value (.attributes [.absent .token])
  let f := Function.update (freshState v) .wrapTemplate template
  let o := ofStates v .template f
  have hset : (ofVariant v).set AttributeType.wrapTemplate.code (.attributes [.absent .token]) =
      .ok o := by
    have hreplaced : (ofVariant v).replace ⟨.wrapTemplate, template⟩ = o :=
      replace_ofStates template
    rw [← hreplaced]
    rfl
  have ho : o.Obtainable := by
    let here := Session.ofHandle 1 0 .standard .empty
    refine .changed (.ofVariant v) ⟨.set AttributeType.wrapTemplate.code _, here, here, [], .ok (),
      ?_, ObjectChange.goes_byHand.mpr (.inr ⟨o, hset, rfl, rfl, rfl⟩)⟩
    rintro entries ⟨⟩ a ha
    obtain rfl := List.mem_singleton.mp ha
    exact .absent .token
  have hfits : ∀ a ∈ o.attributes, ∀ b ∈ a.kept, b.Fits := by
    have hdates : ∀ t, (f t).kept = [] ∧ ∀ d, f t ≠ .value (.date d) := by
      intro t
      rw [show f t = if t = .wrapTemplate then template else freshState v t from
        Function.update_apply ..]
      split
      · exact ⟨rfl, by simp [template]⟩
      · cases hid : v.isIdentity t with
        | true =>
          obtain ⟨c, hc⟩ := ObjectVariant.isIdentity_iff.mp hid
          rw [freshState_of_fixes hc]
          exact ⟨rfl, by simp⟩
        | false =>
          rw [freshState_of_free hid]
          exact ⟨rfl, by simp⟩
    intro a ha b hb d hd
    obtain ⟨t, -, rfl⟩ := List.mem_map.mp ha
    rw [Attribute.kept, (hdates t).1] at hb
    split at hb
    · obtain rfl := List.mem_singleton.mp hb
      exact absurd hd ((hdates t).2 d)
    · cases hb
  obtain ⟨ws, p, hws, htypes, -, -, -, hp, -, -, -, hsame, hagain⟩ := toTemplate_roundTrip ho hfits
  refine ⟨o, ws, p, hset, hws, htypes.trans rfl, hp, ?_, hagain⟩
  rw [← Bool.not_eq_true, hsame]
  intro hall
  have hmem : (⟨.wrapTemplate, template⟩ : Attribute) ∈ o.attributes :=
    mem_ofStates.mpr ⟨by decide, rfl⟩
  obtain ⟨-, hpresent, -⟩ := hall _ hmem
  cases hpresent

end Object

end Cryptoki
