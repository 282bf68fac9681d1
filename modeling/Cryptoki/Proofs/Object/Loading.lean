import Cryptoki.Proofs.Object.Storage

/-! The two ways of loading an object, by its handle alone or as one of a known variant, agree on a
token that says the same of an attribute whatever else it is asked for. -/
namespace Cryptoki

variable {σ : Type}

/-- What a token says of each attribute of an object. -/
abbrev AttributeTable := Word → Status × RawValue

/-- The readout of a type that a table gives. -/
def Readout.ofTable (table : AttributeTable) (code : Word) : Readout :=
  ⟨code, (table code).1, (table code).2⟩

/-- The token answers all reads of a handle from the table, now and as long as it is read. -/
def Token.Tabulates (token : Token σ) (session handle : Handle) (table : AttributeTable) (t : σ) :
    Prop :=
  ∃ kept : σ → Prop, kept t ∧ ∀ u, kept u → ∀ types, ∃ v,
    token.answer (.readAttributes session handle types) u =
      (.ok (types.map (Readout.ofTable table)), v) ∧ kept v

/-- What tells the variant is given in the clear: as bytes, of which there are some. -/
def AttributeTable.Tells (table : AttributeTable) (v : ObjectVariant) : Prop :=
  ∀ t, v.isIdentity t = true →
    (table t.code).1 = Status.ok ∧ ∃ bs, (table t.code).2 = .bytes bs ∧ bs ≠ []

/-- Of what is given in the clear nothing is withheld. -/
theorem AttributeTable.Tells.not_withholds {table : AttributeTable} {v : ObjectVariant}
    {t : AttributeType} (h : table.Tells v) (ht : v.isIdentity t = true) :
    ¬ (Readout.ofTable table t.code).Withholds := by
  obtain ⟨hok, bs, hbs, -⟩ := h t ht
  rintro (hw | hw | ⟨-, hw⟩)
  · exact absurd (hok.symm.trans hw) (by decide)
  · exact absurd (hok.symm.trans hw) (by decide)
  · exact RawValue.noConfusion (hbs.symm.trans hw)

theorem Token.Tabulates.read {token : Token σ} {session handle : Handle} {table : AttributeTable}
    {t : σ} (h : token.Tabulates session handle table t) (types : List Word) :
    ∃ u, token.answer (.readAttributes session handle types) t =
        (.ok (types.map (Readout.ofTable table)), u) ∧ token.Tabulates session handle table u := by
  obtain ⟨kept, ht, hkept⟩ := h
  obtain ⟨u, hanswer, hu⟩ := hkept t ht types
  exact ⟨u, hanswer, kept, hu, hkept⟩

namespace Object

variable {table : AttributeTable} {v : ObjectVariant} {t : AttributeType} {o : Object}
  {handle : Handle}

/-- In a batch from the table each type that was asked for is found as the table has it. -/
theorem find?_ofTable {types : List Word} {code : Word} (h : code ∈ types) :
    (types.map (Readout.ofTable table)).find? (·.type = code) =
      some (Readout.ofTable table code) := by
  obtain ⟨r, hr⟩ : ∃ r, (types.map (Readout.ofTable table)).find? (·.type = code) = some r := by
    rw [← Option.isSome_iff_exists, List.find?_isSome]
    exact ⟨_, List.mem_map_of_mem h, by simp [Readout.ofTable]⟩
  obtain ⟨other, -, rfl⟩ := List.mem_map.mp (List.mem_of_find?_eq_some hr)
  have hcode : (Readout.ofTable table other).type = code := by simpa using List.find?_some hr
  obtain rfl : other = code := hcode
  exact hr

/-- The readouts of some types that a table gives, in order. -/
def batch (table : AttributeTable) (types : List AttributeType) : List Readout :=
  (types.map AttributeType.code).map (Readout.ofTable table)

/-- What a table makes of an object that is known to be of a variant. -/
def tabled (table : AttributeTable) (v : ObjectVariant) (handle : Handle) : Except Error Object :=
  (ofHandle v handle).refresh (batch table v.declared)

theorem identify_batch :
    identify (batch table identityTypes) = .ok v ↔
      ∀ t c, v.Fixes t c → (Readout.ofTable table t.code).Reveals t (.value (.ulong c)) := by
  rw [identify_eq_ok_iff]
  refine forall_congr' fun t => forall_congr' fun c => forall_congr' fun hc => ?_
  have hasked : t.code ∈ identityTypes.map AttributeType.code :=
    List.mem_map_of_mem (mem_identityTypes (ObjectVariant.isIdentity_iff.mpr ⟨c, hc⟩))
  rw [codeOf_eq_some_iff, batch, find?_ofTable hasked]
  simp

/-- A code that is revealed is given in the clear. -/
theorem bytes_of_reveals {c : Word}
    (h : (Readout.ofTable table t.code).Reveals t (.value (.ulong c))) :
    (table t.code).1 = Status.ok ∧ ∃ bs, (table t.code).2 = .bytes bs ∧ bs ≠ [] := by
  obtain ⟨hok, x, hx, hdecode⟩ := h
  refine ⟨hok, ?_⟩
  rw [WireAttribute.decode_code] at hdecode
  have hx : (table t.code).2.native? = some x := hx
  cases hvalue : (table t.code).2 with
  | length n => simp [hvalue, RawValue.native?] at hx
  | nested es =>
    obtain rfl : .nested es = x := by simpa [hvalue, RawValue.native?] using hx
    exact absurd hdecode decode_nested_ne
  | bytes bs =>
    obtain rfl : .bytes bs = x := by simpa [hvalue, RawValue.native?] using hx
    refine ⟨bs, rfl, ?_⟩
    rintro rfl
    rw [WireValue.decode, decodeBytes_nil] at hdecode
    have hnull := Except.ok.inj hdecode
    cases hkind : t.kind <;> simp [hkind, AttributeKind.nullState] at hnull

/-- From an object that a variant is read as, its variant is told if that is given in the clear. -/
theorem identify_iff_tells (h : tabled table v handle = .ok o) :
    identify (batch table identityTypes) = .ok v ↔ table.Tells v := by
  have hanswers := ((wellFormed_ofHandle v handle).exists_refresh_iff).mp ⟨o, h⟩
  have hvariant : (ofHandle v handle).variant = v := rfl
  rw [hvariant, batch, List.map_map, List.forall₂_map_right_iff, List.forall₂_same] at hanswers
  rw [identify_batch]
  constructor
  · intro hreveals t ht
    obtain ⟨c, hc⟩ := ObjectVariant.isIdentity_iff.mp ht
    exact bytes_of_reveals (hreveals t c hc)
  · intro htells t c hc
    have ht := ObjectVariant.isIdentity_iff.mpr ⟨c, hc⟩
    rcases (hanswers t (ObjectVariant.mem_declared ht)).2 with hw | ⟨s, hs, hcode⟩
    · exact absurd hw (htells.not_withholds ht)
    · rwa [hcode c hc] at hs

section Calls

variable {ω π : Type} {token : Token σ} {here there : Session} {s t : σ}

/-- Reading an object of a known variant gives what the table makes of it. -/
theorem adopt_of_tabulates (h : token.Tabulates here.handle handle table s) (x : ω) :
    ∃ es u, ((Action.adopt v handle : Action ω Object).perform here x).run token s =
        ((tabled table v handle, ⟨here, x⟩), es, u) := by
  obtain ⟨u, hanswer, -⟩ := h.read (v.declared.map AttributeType.code)
  refine ⟨[⟨readRequest here handle v, .ok (batch table v.declared)⟩], u,
    Talk.run_eq_iff.mpr ⟨?_, Token.answers_single.mpr hanswer⟩⟩
  refine Action.goes_readAttributes.mpr (.inr ⟨handle, rfl, .ok (batch table v.declared), ?_, rfl,
    rfl⟩)
  rw [(wellFormed_ofHandle v handle).codes]
  rfl

/-- Loading an object by its handle tells its variant, and then reads it as one of that variant. -/
theorem readObject_of_tabulates (h : token.Tabulates here.handle handle table s) (x : ω) :
    ∃ es u, ((Action.readObject handle : Action ω Object).perform here x).run token s =
        ((identify (batch table identityTypes) >>= (tabled table · handle), ⟨here, x⟩), es, u) := by
  obtain ⟨w, hidentity, hw⟩ := h.read (identityTypes.map AttributeType.code)
  let first : Exchange :=
    ⟨.readAttributes here.handle handle (identityTypes.map AttributeType.code),
      .ok (batch table identityTypes)⟩
  have hfirst : ∀ {es outcome after}, (liftM (identify (batch table identityTypes)) >>=
        (Action.adopt · handle) : Action ω Object).Goes ⟨here, x⟩ es outcome after →
      (Action.readObject handle).Goes ⟨here, x⟩ (first :: es) outcome after := by
    intro es outcome after hrest
    refine (Action.goes_bind_silent (x := Action.session) rfl).mpr ?_
    refine Action.goes_bind_ask.mpr ⟨.ok (batch table identityTypes), es, rfl, ?_⟩
    exact Action.goes_bind_lift.mpr (.inr ⟨_, rfl, hrest⟩)
  cases hv : identify (batch table identityTypes) with
  | error e =>
    refine ⟨[first], w, Talk.run_eq_iff.mpr ⟨hfirst ?_, Token.answers_single.mpr hidentity⟩⟩
    exact Action.goes_bind_lift.mpr (.inl ⟨e, hv, rfl, rfl, rfl⟩)
  | ok v =>
    obtain ⟨es, u, hrun⟩ := adopt_of_tabulates (v := v) hw x
    obtain ⟨hadopt, hanswers⟩ := Talk.run_eq_iff.mp hrun
    refine ⟨first :: es, u, Talk.run_eq_iff.mpr ⟨hfirst ?_, ?_⟩⟩
    · exact Action.goes_bind_lift.mpr (.inr ⟨v, hv, hadopt⟩)
    · exact Token.answers_cons.mpr ⟨w, hidentity, hanswers⟩

theorem of_tabled (h : tabled table v handle = .ok o) :
    o.variant = v ∧ o.state = .bound handle := by
  obtain ⟨-, hvariant, hstate, -⟩ := (wellFormed_ofHandle v handle).refresh h
  exact ⟨hvariant, hstate⟩

/-- The two ways of loading an object agree. What is loaded by its handle alone is read as the same
object where its variant is known, and its table gives what tells the variant in the clear. Where
the table does so, what is read as one of a variant is loaded by its handle as the same object. It
makes no difference in which session or when this is done, as long as the table stays. -/
theorem readObject_agrees (hs : token.Tabulates here.handle handle table s)
    (ht : token.Tabulates there.handle handle table t) (x : ω) (y : π) :
    (∀ o after es u,
      ((Action.readObject handle : Action ω Object).perform here x).run token s =
        ((.ok o, after), es, u) →
      o.state = .bound handle ∧ table.Tells o.variant ∧ ∃ fs w,
        ((Action.adopt o.variant handle : Action π Object).perform there y).run token t =
          ((.ok o, ⟨there, y⟩), fs, w)) ∧
    ∀ v o after es u,
      ((Action.adopt v handle : Action π Object).perform there y).run token t =
        ((.ok o, after), es, u) →
      table.Tells v →
      o.variant = v ∧ o.state = .bound handle ∧ ∃ fs w,
        ((Action.readObject handle : Action ω Object).perform here x).run token s =
          ((.ok o, ⟨here, x⟩), fs, w) := by
  obtain ⟨es, u, hload⟩ := readObject_of_tabulates hs x
  constructor
  · intro o after _ _ hrun
    rw [hload] at hrun
    have hok : identify (batch table identityTypes) >>= (tabled table · handle) = .ok o :=
      congrArg (·.1.1) hrun
    obtain ⟨v, hv, ho⟩ := Outcome.bind_eq_ok_iff.mp hok
    obtain ⟨rfl, hbound⟩ := of_tabled ho
    refine ⟨hbound, (identify_iff_tells ho).mp hv, ?_⟩
    obtain ⟨fs, w, hread⟩ := adopt_of_tabulates (v := o.variant) ht y
    exact ⟨fs, w, by rw [hread, ho]⟩
  · intro v o after _ _ hrun htells
    obtain ⟨fs, w, hread⟩ := adopt_of_tabulates (v := v) ht y
    rw [hread] at hrun
    have ho : tabled table v handle = .ok o := congrArg (·.1.1) hrun
    obtain ⟨hvariant, hbound⟩ := of_tabled ho
    have hv := (identify_iff_tells ho).mpr htells
    refine ⟨hvariant, hbound, es, u, ?_⟩
    rw [hload, Outcome.bind_eq_ok_iff.mpr ⟨v, hv, ho⟩]

end Calls

end Object

/-- A token that answers all reads from a table. -/
def Token.ofTable (table : AttributeTable) : Token Unit where
  answer request _ :=
    match request with
    | .readAttributes _ _ types => (.ok (types.map (Readout.ofTable table)), ())
    | request => (request.refuse Status.functionNotSupported, ())

theorem Token.tabulates_ofTable (session handle : Handle) (table : AttributeTable) :
    (Token.ofTable table).Tabulates session handle table () :=
  ⟨fun _ => True, trivial, fun _ _ _ => ⟨(), rfl, trivial⟩⟩

/-- The table of a clock that keeps its time to itself, and sends it all the same. -/
def clockTable : AttributeTable := fun code =>
  if code = AttributeType.objectClass.code then (Status.ok, .bytes [5, 0, 0, 0, 0, 0, 0, 0])
  else if code = AttributeType.hwFeatureType.code then (Status.ok, .bytes [2, 0, 0, 0, 0, 0, 0, 0])
  else (Status.attributeSensitive, .bytes [1, 2])

namespace Object

theorem readObject_agrees_clock : ∃ o es fs,
    ((Action.readObject 7 : Action Unit Object).perform (.ofHandle 1 0 .standard .empty) ()).run
      (.ofTable clockTable) () = ((.ok o, ⟨.ofHandle 1 0 .standard .empty, ()⟩), es, ()) ∧
    ((Action.adopt (.hardwareFeature .clock) 7 : Action Unit Object).perform
        (.ofHandle 2 0 .standard .empty) ()).run (.ofTable clockTable) () =
      ((.ok o, ⟨.ofHandle 2 0 .standard .empty, ()⟩), fs, ()) ∧
    o.variant = .hardwareFeature .clock ∧
    o.attribute? AttributeType.value.code = some ⟨.value, .unavailable⟩ := by
  let v : ObjectVariant := .hardwareFeature .clock
  let here := Session.ofHandle 1 0 .standard .empty
  let there := Session.ofHandle 2 0 .standard .empty
  have hhere := Token.tabulates_ofTable here.handle 7 clockTable
  have hthere := Token.tabulates_ofTable there.handle 7 clockTable
  obtain ⟨hloaded, hread⟩ := readObject_agrees hhere hthere () ()
  have htells : clockTable.Tells v := by
    intro t ht
    simp only [ObjectVariant.isIdentity, Bool.or_eq_true, decide_eq_true_eq] at ht
    rcases ht with rfl | ht
    · exact ⟨rfl, _, rfl, by simp⟩
    · obtain rfl : .hwFeatureType = t := Option.some.inj ht
      exact ⟨rfl, _, rfl, by simp⟩
  have hclass : (Readout.ofTable clockTable AttributeType.objectClass.code).Reveals .objectClass
      (.value (.ulong 5)) := ⟨rfl, _, rfl, rfl⟩
  have hfeature : (Readout.ofTable clockTable AttributeType.hwFeatureType.code).Reveals
      .hwFeatureType (.value (.ulong 2)) := ⟨rfl, _, rfl, rfl⟩
  have hdeclared : v.declared = [.objectClass, .hwFeatureType, .value] := rfl
  have hanswers : List.Forall₂ (fun t r => r.Answers v t) v.declared
      (batch clockTable v.declared) := by
    rw [hdeclared]
    refine .cons ⟨rfl, .inr ⟨_, hclass, ?_⟩⟩ (.cons ⟨rfl, .inr ⟨_, hfeature, ?_⟩⟩
      (.cons ⟨rfl, .inl (.inr (.inl rfl))⟩ .nil))
    · rintro c (⟨-, rfl⟩ | ⟨h, -⟩)
      · rfl
      · cases h
    · rintro c (⟨h, -⟩ | ⟨-, h⟩)
      · cases h
      · cases h
        rfl
  have hfresh := wellFormed_ofHandle v 7
  obtain ⟨o, ho⟩ : ∃ o, tabled clockTable v 7 = .ok o := hfresh.exists_refresh_iff.mpr hanswers
  obtain ⟨_, _, hadopt⟩ := adopt_of_tabulates (v := v) hthere ()
  rw [ho] at hadopt
  obtain ⟨hvariant, -, es, ⟨⟩, hes⟩ := hread v o _ _ _ hadopt htells
  obtain ⟨-, -, fs, ⟨⟩, hfs⟩ := hloaded o _ _ _ hes
  rw [hvariant] at hfs
  refine ⟨o, es, fs, hes, hfs, hvariant, ?_⟩
  obtain ⟨before, after, -, hafter, hvalue⟩ :=
    hfresh.refresh_leaves ho (.tail _ (.tail _ (.head _)) : (.value, _) ∈ v.declared.zip _)
  rw [hafter, hvalue.withheld rfl (.inr (.inl rfl))]

end Object

end Cryptoki
