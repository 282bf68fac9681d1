import Cryptoki.Proofs.Object.Template

/-! Native templates read from any entries, in any order: which are accepted, what the first fault
is, and what is written of them again. -/
namespace Cryptoki

variable {v : ObjectVariant} {l : Lifecycle} {f : AttributeType → AttributeState} {o p : Object}
  {t : AttributeType} {e : WireAttribute} {entries others : List WireAttribute} {fault : Error}

namespace ObjectVariant

/-- The entry is for a declared attribute and in a form that is read; and where it is for one that
tells the variant, it says the same. -/
def Accepts (v : ObjectVariant) (e : WireAttribute) : Prop :=
  ∃ t ∈ v.declared, t.code = e.type ∧ ∃ s, e.decode = .ok ⟨t, s⟩ ∧
    ∀ c, v.Fixes t c → s = .value (.ulong c)

/-- Why an entry is refused. -/
inductive Faults (v : ObjectVariant) (e : WireAttribute) : Error → Prop where
  | undeclared (h : ∀ t ∈ v.declared, t.code ≠ e.type) :
    Faults v e (.undeclaredAttribute e.type v)
  | unreadable {t : AttributeType} {fault : Error} (ht : t ∈ v.declared) (hcode : t.code = e.type)
    (h : e.decode = .error fault) : Faults v e fault
  | contradicts {t : AttributeType} {s : AttributeState} {c : Word} (ht : t ∈ v.declared)
    (hcode : t.code = e.type) (h : e.decode = .ok ⟨t, s⟩) (hc : v.Fixes t c)
    (hs : s ≠ .value (.ulong c)) : Faults v e (.immutableAttribute e.type)

end ObjectVariant

namespace WireAttribute

theorem decode_of_code (h : t.code = e.type) : e.decode = (e.value.decode t).map (⟨t, ·⟩) := by
  obtain ⟨code, x⟩ := e
  dsimp only at h
  rw [decode, ← h, AttributeType.ofCode?_code]

theorem decode_eq_ok_iff {s : AttributeState} (h : t.code = e.type) :
    e.decode = .ok ⟨t, s⟩ ↔ e.value.decode t = .ok s := by
  simp [decode_of_code h, Outcome.map_eq_ok_iff]

theorem decode_eq_error_iff (h : t.code = e.type) :
    e.decode = .error fault ↔ e.value.decode t = .error fault := by
  rw [decode_of_code h, ← Outcome.failure?_eq_some_iff, Outcome.failure?_map,
    Outcome.failure?_eq_some_iff]

end WireAttribute

/-- The entry that counts for an attribute is the last one. -/
def lastOf? (entries : List WireAttribute) (t : AttributeType) : Option WireAttribute :=
  entries.reverse.find? (·.type = t.code)

theorem lastOf?_cons : lastOf? (e :: entries) t =
    (lastOf? entries t).or (if e.type = t.code then some e else none) := by
  rw [lastOf?, List.reverse_cons, List.find?_append, lastOf?]
  simp [List.find?_singleton]

theorem lastOf?_spec (h : lastOf? entries t = some e) : e ∈ entries ∧ e.type = t.code :=
  ⟨List.mem_reverse.mp (List.mem_of_find?_eq_some h), by simpa using List.find?_some h⟩

/-- Where no type is repeated, the only entry of a type is the last one. -/
theorem lastOf?_eq_some_iff (hnodup : (entries.map (·.type)).Nodup) :
    lastOf? entries t = some e ↔ e ∈ entries ∧ e.type = t.code := by
  refine ⟨lastOf?_spec, fun ⟨he, hcode⟩ => ?_⟩
  cases h : lastOf? entries t with
  | none =>
    have hnone := List.find?_eq_none.mp h e (List.mem_reverse.mpr he)
    simp [hcode] at hnone
  | some x =>
    obtain ⟨hx, hxcode⟩ := lastOf?_spec h
    rw [List.inj_on_of_nodup_map hnodup hx he (hxcode.trans hcode.symm)]

theorem lastOf?_perm (hnodup : (entries.map (·.type)).Nodup) (h : entries.Perm others) :
    lastOf? entries t = lastOf? others t := by
  have hothers : (others.map (·.type)).Nodup := (h.map _).nodup_iff.mp hnodup
  refine Option.ext fun e => ?_
  rw [lastOf?_eq_some_iff hnodup, lastOf?_eq_some_iff hothers, h.mem_iff]

/-- Where an attribute stands after some entries, if they are read. -/
def stateAfter (entries : List WireAttribute) (f : AttributeType → AttributeState)
    (t : AttributeType) : AttributeState :=
  match lastOf? entries t with
  | some e => (e.value.decode t).toOption.getD .absent
  | none => f t

theorem stateAfter_nil : stateAfter [] f = f := rfl

/-- An entry counts until there is another one of its type. -/
theorem stateAfter_cons : stateAfter (e :: entries) f = stateAfter entries (stateAfter [e] f) := by
  funext t
  rw [stateAfter, stateAfter, lastOf?_cons]
  cases lastOf? entries t with
  | some x => rfl
  | none =>
    rw [Option.none_or]
    by_cases hcode : e.type = t.code <;> simp [stateAfter, lastOf?, hcode]

theorem stateAfter_single {s : AttributeState} (hcode : t.code = e.type)
    (hs : e.value.decode t = .ok s) : stateAfter [e] f = Function.update f t s := by
  funext u
  rw [stateAfter, lastOf?_cons]
  by_cases hu : u = t
  · subst hu
    simp [lastOf?, hcode, hs, Except.toOption]
  · have hne : e.type ≠ u.code := by
      intro h
      exact hu (AttributeType.code_injective (h.symm.trans hcode.symm))
    simp [lastOf?, hne, hu]

namespace Object

theorem get_eq_error_iff {code : Word} :
    (ofStates v l f).get code = .error fault ↔
      (∀ t ∈ v.declared, t.code ≠ code) ∧ .undeclaredAttribute code v = fault := by
  have hnone : (ofStates v l f).attribute? code = none ↔ ∀ t ∈ v.declared, t.code ≠ code := by
    simp only [Option.eq_none_iff_forall_ne_some, ne_eq, attribute?_ofStates]
    exact ⟨fun h t ht hcode => h _ ⟨t, ht, hcode, rfl⟩, fun h a ⟨t, ht, hcode, _⟩ => h t ht hcode⟩
  rw [← hnone, get]
  cases (ofStates v l f).attribute? code with
  | none => exact ⟨fun h => ⟨rfl, Except.error.inj h⟩, fun h => congrArg Except.error h.2⟩
  | some a => simp

/-- An entry agrees with an object of the variant where it agrees with the variant. -/
theorem agrees_iff (hf : v.Admits f) {s : AttributeState} :
    (v.isIdentity t = true → s = f t) ↔ ∀ c, v.Fixes t c → s = .value (.ulong c) := by
  constructor
  · intro h c hc
    rw [h (ObjectVariant.isIdentity_iff.mpr ⟨c, hc⟩), hf.identity hc]
  · intro h ht
    obtain ⟨c, hc⟩ := ObjectVariant.isIdentity_iff.mp ht
    rw [h c hc, hf.identity hc]

theorem applyEntry_of_undeclared (h : ∀ t ∈ v.declared, t.code ≠ e.type) :
    (ofStates v l f).applyEntry e = .error (.undeclaredAttribute e.type v) := by
  have hget : (ofStates v l f).get e.type = .error (.undeclaredAttribute e.type v) :=
    get_eq_error_iff.mpr ⟨h, rfl⟩
  rw [applyEntry, hget]
  rfl

/-- An entry for a declared attribute, step by step. -/
theorem applyEntry_of_declared (ht : t ∈ v.declared) (hcode : t.code = e.type) :
    (ofStates v l f).applyEntry e = (do
      let s ← e.value.decode t
      if v.isIdentity t then
        if s = f t then return ofStates v l f else throw (.immutableAttribute e.type)
      else return ofStates v l (Function.update f t s)) := by
  have hget : (ofStates v l f).get e.type = .ok ⟨t, f t⟩ := get_ofStates.mpr ⟨t, ht, hcode, rfl⟩
  have hv : (ofStates v l f).variant = v := rfl
  rw [applyEntry, hget]
  cases hs : e.value.decode t with
  | error fault => simp [Attribute.load, hs, Except.map, bind, Except.bind]
  | ok s =>
    simp [Attribute.load, hs, Except.map, bind, Except.bind, hv, replace_ofStates]

/-- An entry is read where it is accepted. -/
theorem applyEntry_eq_ok_iff (hf : v.Admits f) :
    (ofStates v l f).applyEntry e = .ok p ↔
      v.Accepts e ∧ p = ofStates v l (stateAfter [e] f) := by
  rw [applyEntry_ofStates]
  simp only [agrees_iff hf]
  constructor
  · rintro ⟨t, s, ht, hcode, hs, hagrees, rfl⟩
    rw [stateAfter_single hcode hs]
    exact ⟨⟨t, ht, hcode, s, (WireAttribute.decode_eq_ok_iff hcode).mpr hs, hagrees⟩, rfl⟩
  · rintro ⟨⟨t, ht, hcode, s, hs, hagrees⟩, rfl⟩
    have hread := (WireAttribute.decode_eq_ok_iff hcode).mp hs
    exact ⟨t, s, ht, hcode, hread, hagrees, by rw [stateAfter_single hcode hread]⟩

theorem admits_stateAfter (hf : v.Admits f) (h : v.Accepts e) : v.Admits (stateAfter [e] f) := by
  obtain ⟨t, -, hcode, s, hs, hagrees⟩ := h
  have hread := (WireAttribute.decode_eq_ok_iff hcode).mp hs
  rw [stateAfter_single hcode hread]
  exact hf.update (WireValue.decode_sound hread).wellFormed ((agrees_iff hf).mpr hagrees)

theorem applyEntry_of_faults (hf : v.Admits f) (h : v.Faults e fault) :
    (ofStates v l f).applyEntry e = .error fault := by
  cases h with
  | undeclared hnone => exact applyEntry_of_undeclared hnone
  | unreadable ht hcode h =>
    rw [applyEntry_of_declared ht hcode, (WireAttribute.decode_eq_error_iff hcode).mp h]
    rfl
  | contradicts ht hcode h hc hs =>
    have hid := ObjectVariant.isIdentity_iff.mpr ⟨_, hc⟩
    rw [applyEntry_of_declared ht hcode, (WireAttribute.decode_eq_ok_iff hcode).mp h,
      hf.identity hc]
    simp [hid, hs, bind, Except.bind, throw, throwThe, MonadExceptOf.throw]

theorem applyEntry_eq_error_iff (hf : v.Admits f) :
    (ofStates v l f).applyEntry e = .error fault ↔ v.Faults e fault := by
  refine ⟨fun h => ?_, applyEntry_of_faults hf⟩
  by_cases hdeclared : ∃ t ∈ v.declared, t.code = e.type
  · obtain ⟨t, ht, hcode⟩ := hdeclared
    rw [applyEntry_of_declared ht hcode, Outcome.bind_eq_error_iff] at h
    rcases h with h | ⟨s, hs, h⟩
    · exact .unreadable ht hcode ((WireAttribute.decode_eq_error_iff hcode).mpr h)
    have hread := (WireAttribute.decode_eq_ok_iff hcode).mpr hs
    -- An entry that is read is refused only for what it says of the variant.
    cases hid : v.isIdentity t with
    | false => simp [hid, pure, Except.pure] at h
    | true =>
      obtain ⟨c, hc⟩ := ObjectVariant.isIdentity_iff.mp hid
      simp only [hid, if_true, hf.identity hc] at h
      split at h
      · cases h
      · next hne =>
        cases h
        exact .contradicts ht hcode hread hc hne
  · have hnone : ∀ t ∈ v.declared, t.code ≠ e.type :=
      fun t ht hcode => hdeclared ⟨t, ht, hcode⟩
    rw [applyEntry_of_undeclared hnone] at h
    cases h
    exact .undeclared hnone

/-- Entries are read where each of them is accepted. -/
theorem applyEntries_eq_ok_iff (hf : v.Admits f) :
    (ofStates v l f).applyEntries entries = .ok p ↔
      (∀ e ∈ entries, v.Accepts e) ∧ p = ofStates v l (stateAfter entries f) := by
  induction entries generalizing f with
  | nil => simp [applyEntries, stateAfter_nil, eq_comm]
  | cons e entries ih =>
    simp only [applyEntries, Outcome.bind_eq_ok_iff, applyEntry_eq_ok_iff hf, List.forall_mem_cons]
    constructor
    · rintro ⟨_, ⟨he, rfl⟩, hrest⟩
      obtain ⟨hentries, rfl⟩ := (ih (admits_stateAfter hf he)).mp hrest
      exact ⟨⟨he, hentries⟩, congrArg (ofStates v l) stateAfter_cons.symm⟩
    · rintro ⟨⟨he, hentries⟩, rfl⟩
      refine ⟨_, ⟨he, rfl⟩, (ih (admits_stateAfter hf he)).mpr ⟨hentries, ?_⟩⟩
      exact congrArg (ofStates v l) stateAfter_cons

/-- The first entry that is refused is why all of them are. -/
theorem applyEntries_eq_error_iff (hf : v.Admits f) :
    (ofStates v l f).applyEntries entries = .error fault ↔ ∃ before e after,
      entries = before ++ e :: after ∧ (∀ x ∈ before, v.Accepts x) ∧ v.Faults e fault := by
  induction entries generalizing f with
  | nil => simp [applyEntries]
  | cons e entries ih =>
    simp only [applyEntries, Outcome.bind_eq_error_iff, applyEntry_eq_error_iff hf,
      applyEntry_eq_ok_iff hf]
    constructor
    · rintro (hfault | ⟨_, ⟨he, rfl⟩, hrest⟩)
      · exact ⟨[], e, entries, rfl, by simp, hfault⟩
      · obtain ⟨before, x, after, rfl, hbefore, hx⟩ := (ih (admits_stateAfter hf he)).mp hrest
        exact ⟨e :: before, x, after, rfl, by simpa using ⟨he, hbefore⟩, hx⟩
    · rintro ⟨_ | ⟨first, before⟩, x, after, hsplit, hbefore, hx⟩
      · obtain ⟨rfl, -⟩ := List.cons.inj hsplit
        exact .inl hx
      · obtain ⟨rfl, rfl⟩ := List.cons.inj hsplit
        obtain ⟨he, hlater⟩ := List.forall_mem_cons.mp hbefore
        have hrest := (ih (admits_stateAfter hf he)).mpr ⟨before, x, after, rfl, hlater, hx⟩
        exact .inr ⟨_, ⟨he, rfl⟩, hrest⟩

/-- What the entries say of an attribute is what the last one for it does. -/
theorem stateAfter_of_last (h : ∀ e ∈ entries, v.Accepts e) (hlast : lastOf? entries t = some e) :
    e.decode = .ok ⟨t, stateAfter entries f t⟩ ∧
      ∀ c, v.Fixes t c → stateAfter entries f t = .value (.ulong c) := by
  obtain ⟨he, htype⟩ := lastOf?_spec hlast
  obtain ⟨u, -, hcode, s, hs, hagrees⟩ := h e he
  obtain rfl := AttributeType.code_injective (hcode.trans htype)
  have hstate : stateAfter entries f u = s := by
    simp [stateAfter, hlast, (WireAttribute.decode_eq_ok_iff hcode).mp hs, Except.toOption]
  rw [hstate]
  exact ⟨hs, hagrees⟩

theorem stateAfter_of_fixes (hf : v.Admits f) (h : ∀ e ∈ entries, v.Accepts e) {c : Word}
    (hc : v.Fixes t c) : stateAfter entries f t = .value (.ulong c) := by
  cases hlast : lastOf? entries t with
  | some e => exact (stateAfter_of_last h hlast).2 c hc
  | none => simpa [stateAfter, hlast] using hf.identity hc

end Object

/-- What is written for an attribute of the variant after some entries: its code where it tells the
variant, and else the last entry again, in its canonical form. -/
def ObjectVariant.rewritten (v : ObjectVariant) (entries : List WireAttribute)
    (t : AttributeType) : Option WireAttribute :=
  if t = .objectClass then some ⟨t.code, .bytes v.classCode.toBytes⟩
  else if v.subtypeAttribute = some t then
    v.subtypeCode.map fun c => ⟨t.code, .bytes c.toBytes⟩
  else (lastOf? entries t).map WireAttribute.canon

theorem ObjectVariant.rewritten_of_fixes {c : Word} (h : v.Fixes t c) :
    v.rewritten entries t = some ⟨t.code, .bytes c.toBytes⟩ := by
  obtain ⟨rfl, rfl⟩ | ⟨ht, hc⟩ := h
  · rfl
  · have hne : t ≠ .objectClass := by
      rcases subtypeAttribute_cases ht with rfl | rfl | rfl <;> decide
    simp [rewritten, hne, ht, hc]

theorem ObjectVariant.rewritten_of_free (h : v.isIdentity t = false) :
    v.rewritten entries t = (lastOf? entries t).map WireAttribute.canon := by
  simp only [isIdentity, Bool.or_eq_false_iff, decide_eq_false_iff_not] at h
  rw [rewritten, if_neg h.1, if_neg h.2]

namespace Object

theorem toWire_stateAfter (h : ∀ e ∈ entries, v.Accepts e) :
    (Attribute.mk t (stateAfter entries (freshState v) t)).toWire = .ok (v.rewritten entries t) := by
  cases hid : v.isIdentity t with
  | true =>
    obtain ⟨c, hc⟩ := ObjectVariant.isIdentity_iff.mp hid
    rw [stateAfter_of_fixes v.admits_freshState h hc, ObjectVariant.rewritten_of_fixes hc]
    rfl
  | false =>
    rw [ObjectVariant.rewritten_of_free hid]
    cases hlast : lastOf? entries t with
    | some e => exact WireAttribute.toWire_of_decode (stateAfter_of_last h hlast).1
    | none =>
      have habsent : stateAfter entries (freshState v) t = .absent := by
        simp [stateAfter, hlast, freshState_of_free hid]
      rw [habsent]
      rfl

theorem toTemplate_of_each {ts : List AttributeType} {written : AttributeType → Option WireAttribute}
    (h : ∀ t ∈ ts, (Attribute.mk t (f t)).toWire = .ok (written t)) :
    Attribute.toTemplate (ts.map fun t => ⟨t, f t⟩) = .ok (ts.filterMap written) := by
  induction ts with
  | nil => rfl
  | cons t ts ih =>
    obtain ⟨ht, hts⟩ := List.forall_mem_cons.mp h
    refine toTemplate_cons_iff.mpr ⟨_, _, ht, ih hts, ?_⟩
    cases hw : written t <;> simp [hw]

theorem ofTemplate_eq_ok_iff :
    ofTemplate v entries = .ok o ↔ (∀ e ∈ entries, v.Accepts e) ∧
      o = ofStates v .template (stateAfter entries (freshState v)) := by
  rw [ofTemplate, ofVariant_eq, applyEntries_eq_ok_iff v.admits_freshState]

/-- Native templates are read exactly. They are read if each entry is accepted: it is for a declared
attribute and in a form that is read, and says the same as the variant where it is for an attribute
that tells it. Else the first entry that is not tells why. What is read is a template with the codes
of the variant, whether they were repeated or not; any other attribute is what its last entry says,
and absent if it has none. So where no type is repeated, the order makes no difference to what is
read. Written again, the entries are those that tell the variant and the last ones of each type, in
canonical form and in the order of the declarations. -/
theorem ofTemplate_exact (v : ObjectVariant) (entries : List WireAttribute) :
    ((∃ o, ofTemplate v entries = .ok o) ↔ ∀ e ∈ entries, v.Accepts e) ∧
    (∀ fault, ofTemplate v entries = .error fault ↔ ∃ before e after,
      entries = before ++ e :: after ∧ (∀ x ∈ before, v.Accepts x) ∧ v.Faults e fault) ∧
    (∀ o, ofTemplate v entries = .ok o →
      o.variant = v ∧ o.state = .template ∧ o.attributes.map (·.type) = v.declared ∧
      (∀ a ∈ o.attributes,
        (∀ c, v.Fixes a.type c → a.state = .value (.ulong c)) ∧
        (∀ e, lastOf? entries a.type = some e → e.decode = .ok a) ∧
        (v.isIdentity a.type = false → lastOf? entries a.type = none → a.state = .absent)) ∧
      o.toTemplate = .ok (v.declared.filterMap (v.rewritten entries))) ∧
    ((entries.map (·.type)).Nodup → ∀ others, entries.Perm others →
      ∀ o, ofTemplate v entries = .ok o ↔ ofTemplate v others = .ok o) := by
  refine ⟨by simp [ofTemplate_eq_ok_iff], fun fault => ?_, fun o ho => ?_, ?_⟩
  · rw [ofTemplate, ofVariant_eq, applyEntries_eq_error_iff v.admits_freshState]
  · obtain ⟨haccepts, rfl⟩ := ofTemplate_eq_ok_iff.mp ho
    refine ⟨rfl, rfl, types_ofStates _ _ _, fun a ha => ?_, ?_⟩
    · obtain ⟨t, -, rfl⟩ := List.mem_map.mp ha
      refine ⟨fun c hc => ?_, fun e he => (stateAfter_of_last haccepts he).1, fun hfree hnone => ?_⟩
      · exact stateAfter_of_fixes v.admits_freshState haccepts hc
      · simpa [stateAfter, hnone] using freshState_of_free hfree
    · exact toTemplate_of_each fun t _ => toWire_stateAfter haccepts
  · intro hnodup others hperm o
    have hstates : stateAfter entries (freshState v) = stateAfter others (freshState v) := by
      funext t
      rw [stateAfter, stateAfter, lastOf?_perm hnodup hperm]
    simp only [ofTemplate_eq_ok_iff, hstates, hperm.mem_iff]

/-- Of two faults, the first one is told. -/
example :
    ofTemplate .data [⟨0x120, .bytes []⟩, ⟨0, .bytes []⟩] =
      .error (.undeclaredAttribute 0x120 .data) ∧
    ofTemplate .data [⟨0, .bytes []⟩, ⟨0x120, .bytes []⟩] = .error (.immutableAttribute 0) := by
  constructor <;> cbv

/-- The type of an AES key, and a truth that is written as five. -/
def aesEntries : List WireAttribute :=
  [⟨AttributeType.keyType.code, .bytes [0x1f, 0, 0, 0, 0, 0, 0, 0]⟩,
    ⟨AttributeType.token.code, .bytes [5]⟩]

theorem ofTemplate_exact_aes : ∃ o,
    ofTemplate (.secretKey .aes) aesEntries = .ok o ∧
    ofTemplate (.secretKey .aes) aesEntries.reverse = .ok o ∧
    o.toTemplate = .ok [⟨AttributeType.objectClass.code, .bytes [4, 0, 0, 0, 0, 0, 0, 0]⟩,
      ⟨AttributeType.token.code, .bytes [1]⟩,
      ⟨AttributeType.keyType.code, .bytes [0x1f, 0, 0, 0, 0, 0, 0, 0]⟩] := by
  obtain ⟨hok, -, hresult, hperm⟩ := ofTemplate_exact (.secretKey .aes) aesEntries
  have haccepts : ∀ e ∈ aesEntries, ObjectVariant.Accepts (.secretKey .aes) e := by
    refine List.forall_mem_cons.mpr ⟨?_, List.forall_mem_singleton.mpr ?_⟩
    · refine ⟨.keyType, by decide, rfl, .value (.ulong 0x1f), by cbv, ?_⟩
      rintro c (⟨⟨⟩, -⟩ | ⟨-, hc⟩)
      cases hc
      rfl
    · refine ⟨.token, by decide, rfl, .value (.bool true), rfl, ?_⟩
      rintro c (⟨⟨⟩, -⟩ | ⟨⟨⟩, -⟩)
  obtain ⟨o, ho⟩ := hok.mpr haccepts
  refine ⟨o, ho, ?_, ?_⟩
  · exact (hperm (by decide) _ (List.reverse_perm _).symm o).mp ho
  · obtain ⟨-, -, -, -, hwritten⟩ := hresult o ho
    rw [hwritten]
    decide +kernel

end Object

end Cryptoki
