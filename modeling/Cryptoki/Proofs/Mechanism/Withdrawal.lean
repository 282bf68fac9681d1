import Mathlib.Logic.Relation
import Cryptoki.Proofs.Mechanism.Refusal
import Cryptoki.Proofs.Text.Trimming

/-! Layouts that the environment withdraws: which families a list names, whatever else stands in it,
and what a host without their layouts does with mechanisms. -/
namespace Cryptoki

variable {f : ParameterFamily} {fs fs' : List ParameterFamily} {list other : String}
  {e left right : List Char} {es es' : List (List Char)}

namespace ParameterFamily

/-- The element is the name of the family, with blanks around it or without. -/
def NamedBy (f : ParameterFamily) (element : List Char) : Prop :=
  ∃ left right, element = left ++ (f.text.toList ++ right) ∧ ∀ c ∈ left ++ right, isBlank c = true

/-- One of the elements between the commas names the family. -/
def ListedIn (f : ParameterFamily) (list : String) : Prop :=
  ∃ e ∈ list.toList.splitOn ',', f.NamedBy e

theorem isTrimmed_text (f : ParameterFamily) : IsTrimmed f.text.toList := by
  cases f <;> decide

theorem namedBy_iff : f.NamedBy e ↔ trim e = f.text.toList := by
  rw [trim_eq_iff]
  exact (and_iff_right f.isTrimmed_text).symm

/-- No family has an empty name. -/
theorem not_namedBy_nil (f : ParameterFamily) : ¬ f.NamedBy [] := by
  rw [namedBy_iff]
  cases f <;> decide

theorem ofText?_eq_some_iff {s : String} : ofText? s = some f ↔ s = f.text := by
  constructor
  · intro h
    have hfound : f.text = s := by simpa using List.find?_some h
    exact hfound.symm
  · rintro rfl
    exact ofText?_text f

end ParameterFamily

namespace HostLayouts

/-- The families whose names are read from a list. -/
def listed (list : String) : List ParameterFamily :=
  (namesIn list).filterMap ParameterFamily.ofText?

theorem mem_listed_iff : f ∈ listed list ↔ f.ListedIn list := by
  simp only [listed, List.mem_filterMap, ParameterFamily.ofText?_eq_some_iff, exists_eq_right]
  simp only [namesIn, pieces_eq_splitOn, List.mem_map, List.mem_filter, decide_eq_true_eq]
  constructor
  · rintro ⟨-, ⟨⟨e, he, rfl⟩, -⟩, hname⟩
    refine ⟨e, he, ParameterFamily.namedBy_iff.mpr ?_⟩
    rw [← hname, String.toList_ofList]
  · rintro ⟨e, he, hnamed⟩
    have htrim := ParameterFamily.namedBy_iff.mp hnamed
    refine ⟨_, ⟨⟨e, he, htrim⟩, ?_⟩, String.ofList_toList⟩
    intro hnil
    exact f.not_namedBy_nil (ParameterFamily.namedBy_iff.mpr hnil.symm)

theorem detect_layouts (list : String) : (detect list).1 = full.withoutAll (listed list) := rfl

theorem withoutAll_eq (host : HostLayouts) (fs : List ParameterFamily) :
    host.withoutAll fs = ⟨host.provided.filter (· ∉ fs)⟩ := by
  induction fs generalizing host with
  | nil => simp [withoutAll]
  | cons f fs ih =>
    have hrest : host.withoutAll (f :: fs) = (host.without f).withoutAll fs := rfl
    rw [hrest, ih, without, List.filter_filter]
    simp [Bool.and_comm]

/-- Of the families that are withdrawn, only those that the host has make a difference; their order
makes none, nor how often they are named. -/
theorem withoutAll_congr {host : HostLayouts} (h : ∀ f ∈ host.provided, f ∈ fs ↔ f ∈ fs') :
    host.withoutAll fs = host.withoutAll fs' := by
  rw [withoutAll_eq, withoutAll_eq]
  refine congrArg HostLayouts.mk (List.filter_congr fun f hf => ?_)
  exact decide_eq_decide.mpr (not_congr (h f hf))

theorem supports_detect :
    (detect list).1.supports f = true ↔ f.needsHost = false ∨ ¬ f.ListedIn list := by
  have hprovided : f ∈ (detect list).1.provided ↔ f.needsHost = true ∧ ¬ f.ListedIn list := by
    rw [← mem_listed_iff, ← NativeBuilder.mem_registered_iff]
    exact mem_withoutAll_iff
  cases hneeds : f.needsHost <;> simp [supports, hneeds, hprovided]

/-- What a list says of families that need no layout of the host has no effect. -/
theorem detect_congr (h : ∀ f : ParameterFamily, f.needsHost = true →
    (f.ListedIn list ↔ f.ListedIn other)) : (detect list).1 = (detect other).1 := by
  rw [detect_layouts, detect_layouts]
  refine withoutAll_congr fun f hf => ?_
  rw [mem_listed_iff, mem_listed_iff]
  exact h f (NativeBuilder.mem_registered_iff.mp hf)

end HostLayouts

/-- The text with these elements. -/
def commaList (es : List (List Char)) : String := String.ofList ([','].intercalate es)

/-- A change to the elements of a list with which they name no family more and none less. -/
inductive Retold : List (List Char) → List (List Char) → Prop where
  | reordered {es es' : List (List Char)} (h : es.Perm es') : Retold es es'
  | repeated {es : List (List Char)} {e : List Char} (h : e ∈ es) : Retold es (e :: es)
  | spaced {es : List (List Char)} {e left right : List Char}
    (h : ∀ c ∈ left ++ right, isBlank c = true) : Retold (e :: es) ((left ++ (e ++ right)) :: es)
  | unknown {es : List (List Char)} {e : List Char} (hcomma : ',' ∉ e)
    (h : ∀ f : ParameterFamily, ¬ f.NamedBy e) : Retold es (e :: es)

namespace ParameterFamily

theorem listedIn_commaList (h : ∀ e ∈ es, ',' ∉ e) :
    f.ListedIn (commaList es) ↔ ∃ e ∈ es, f.NamedBy e := by
  rw [ListedIn, commaList, String.toList_ofList]
  by_cases hnil : es = []
  · subst hnil
    simp [not_namedBy_nil]
  · rw [List.splitOn_intercalate ',' h hnil]

theorem namedBy_spaced (h : ∀ c ∈ left ++ right, isBlank c = true) :
    f.NamedBy (left ++ (e ++ right)) ↔ f.NamedBy e := by
  rw [namedBy_iff, namedBy_iff, trim_append h]

end ParameterFamily

namespace Retold

theorem comma_not_mem_iff (h : Retold es es') :
    (∀ e ∈ es, ',' ∉ e) ↔ ∀ e ∈ es', ',' ∉ e := by
  cases h with
  | reordered h => simp only [h.mem_iff]
  | repeated h =>
    rw [List.forall_mem_cons]
    exact ⟨fun hes => ⟨hes _ h, hes⟩, And.right⟩
  | @spaced es e left right h =>
    have hcomma : ',' ∉ left ++ right := fun hmem => absurd (h ',' hmem) (by decide)
    simp only [List.mem_append, not_or] at hcomma
    simp [hcomma]
  | unknown hcomma h =>
    rw [List.forall_mem_cons]
    exact (and_iff_right hcomma).symm

theorem named_iff (h : Retold es es') (f : ParameterFamily) :
    (∃ e ∈ es, f.NamedBy e) ↔ ∃ e ∈ es', f.NamedBy e := by
  cases h with
  | reordered h => simp only [h.mem_iff]
  | repeated h =>
    simp only [List.mem_cons, exists_eq_or_imp]
    exact ⟨.inr, fun hes => hes.elim (fun he => ⟨_, h, he⟩) id⟩
  | spaced h =>
    simp only [List.mem_cons, exists_eq_or_imp, ParameterFamily.namedBy_spaced h]
  | unknown hcomma h =>
    simp only [List.mem_cons, exists_eq_or_imp]
    exact (or_iff_right (h f)).symm

/-- What one change keeps, any number of changes to and fro keeps. -/
theorem eqvGen_iff (h : Relation.EqvGen Retold es es') :
    ((∀ e ∈ es, ',' ∉ e) ↔ ∀ e ∈ es', ',' ∉ e) ∧
      ∀ f : ParameterFamily, (∃ e ∈ es, f.NamedBy e) ↔ ∃ e ∈ es', f.NamedBy e := by
  induction h with
  | rel _ _ h => exact ⟨h.comma_not_mem_iff, h.named_iff⟩
  | refl _ => exact ⟨Iff.rfl, fun _ => Iff.rfl⟩
  | symm _ _ _ ih => exact ⟨ih.1.symm, fun f => (ih.2 f).symm⟩
  | trans _ _ _ _ _ ih ih' => exact ⟨ih.1.trans ih'.1, fun f => (ih.2 f).trans (ih'.2 f)⟩

end Retold

namespace HostLayouts

/-- A list that is retold names the same families. -/
theorem listedIn_retold (h : Relation.EqvGen Retold (list.toList.splitOn ',') es) :
    f.ListedIn (commaList es) ↔ f.ListedIn list := by
  obtain ⟨hcomma, hnamed⟩ := Retold.eqvGen_iff h
  have hcut : ∀ e ∈ list.toList.splitOn ',', ',' ∉ e := by
    rw [← pieces_eq_splitOn]
    exact separator_not_mem ',' list.toList
  rw [ParameterFamily.listedIn_commaList (hcomma.mp hcut)]
  exact (hnamed f).symm

/-- Layouts are withdrawn exactly. With the layouts that are detected, a family is supported if it
needs none of the host, or if no element of the list is its name with blanks around it or without.
Two lists that name the same families of the others are the same to a host, and so is a list whose
elements are reordered, repeated, spaced otherwise, or put beside unknown or empty ones. The layouts
are all those there are without those of the families that are named, in any order. A mechanism
whose parameters are those that are expected is refused where its family is one of the named ones
and needs the host, and it has its native form everywhere else. -/
theorem detect_exact (list : String) :
    (∀ f, (detect list).1.supports f = true ↔ f.needsHost = false ∨ ¬ f.ListedIn list) ∧
    (∀ other, (∀ f : ParameterFamily, f.needsHost = true →
      (f.ListedIn list ↔ f.ListedIn other)) → (detect list).1 = (detect other).1) ∧
    (∀ es, Relation.EqvGen Retold (list.toList.splitOn ',') es →
      (detect (commaList es)).1 = (detect list).1) ∧
    (∀ fs : List ParameterFamily, (∀ f, f ∈ fs ↔ f.ListedIn list) →
      (detect list).1 = full.withoutAll fs) ∧
    ∀ m : Mechanism, (∀ expected, ¬ m.Contradicts expected) →
      (∀ f, m.toNative (detect list).1 = .error (.unsupportedInHostRuntime f) ↔
        m.family? = some f ∧ f.needsHost = true ∧ f.ListedIn list) ∧
      ((∃ native, m.toNative (detect list).1 = .ok native) ↔
        ∀ f, m.family? = some f → f.needsHost = true → ¬ f.ListedIn list) := by
  refine ⟨fun _ => supports_detect, fun _ => detect_congr, fun es h => ?_, fun fs h => ?_,
    fun m hm => ?_⟩
  · exact detect_congr fun _ _ => listedIn_retold h
  · refine withoutAll_congr fun f _ => ?_
    exact mem_listed_iff.trans (h f).symm
  · have hadmits := Mechanism.forall_not_contradicts_iff.mp hm
    have hwithdrawn : ∀ f, (detect list).1.supports f = false ↔
        f.needsHost = true ∧ f.ListedIn list := by
      intro f
      rw [← Bool.not_eq_true, supports_detect, not_or, Bool.not_eq_false, not_not]
    constructor
    · intro f
      rw [Mechanism.toNative_eq_error_iff]
      simp [hadmits, hwithdrawn]
    · simp only [Mechanism.toNative_eq_ok_iff, hadmits, true_and, exists_and_left, exists_eq',
        and_true]
      refine forall_congr' fun f => forall_congr' fun _ => ?_
      rw [← Bool.not_eq_false, hwithdrawn, not_and]

/-- A name with a blank before it beside a name of no family says what the bare name says twice. -/
theorem detect_exact_retold :
    (detect " gcm,pss").1.supports .gcm = false ∧
    (detect "gcm,gcm").1 = (detect " gcm,pss").1 ∧
    (detect " gcm,pss").1 = full.withoutAll [.gcm] ∧
    ∃ m : Mechanism, m.family? = some .gcm ∧
      m.toNative (detect " gcm,pss").1 = .error (.unsupportedInHostRuntime .gcm) := by
  obtain ⟨hsupports, -, hretold, hwithout, hmechanism⟩ := detect_exact " gcm,pss"
  have hlisted : ∀ f, f ∈ [ParameterFamily.gcm] ↔ f.ListedIn " gcm,pss" := by
    intro f
    rw [← mem_listed_iff]
    cases f <;> decide
  have hgcm : ParameterFamily.gcm.ListedIn " gcm,pss" := (hlisted .gcm).mp (.head _)
  have hsame : Relation.EqvGen Retold (" gcm,pss".toList.splitOn ',')
      ["gcm".toList, "gcm".toList] := by
    have hcut : " gcm,pss".toList.splitOn ',' = [" gcm".toList, "pss".toList] := by decide
    have hspaced : Retold ["gcm".toList] [[' '] ++ ("gcm".toList ++ [])] :=
      .spaced (List.all_eq_true.mp (by decide))
    have hunknown : Retold [" gcm".toList] ["pss".toList, " gcm".toList] := by
      refine .unknown (by decide) fun f => ?_
      rw [ParameterFamily.namedBy_iff]
      cases f <;> decide
    have hreordered : Retold ["pss".toList, " gcm".toList] [" gcm".toList, "pss".toList] :=
      .reordered (.swap _ _ _)
    have hrepeated : Retold ["gcm".toList] ["gcm".toList, "gcm".toList] := .repeated (.head _)
    rw [hcut]
    refine .trans _ _ _ (.symm _ _ (.rel _ _ hreordered)) ?_
    refine .trans _ _ _ (.symm _ _ (.rel _ _ hunknown)) ?_
    exact .trans _ _ _ (.symm _ _ (.rel _ _ hspaced)) (.rel _ _ hrepeated)
  have htwice : commaList ["gcm".toList, "gcm".toList] = "gcm,gcm" := by decide
  have hsecond := hretold _ hsame
  rw [htwice] at hsecond
  let m : Mechanism := ⟨0x1087, some (.gcm ⟨[1], [], 128, by decide, by decide, by decide⟩)⟩
  obtain ⟨hrefused, -⟩ := hmechanism m (Mechanism.forall_not_contradicts_iff.mpr rfl)
  refine ⟨?_, hsecond, hwithout _ hlisted, m, rfl, (hrefused .gcm).mpr ⟨rfl, rfl, hgcm⟩⟩
  rw [← Bool.not_eq_true, hsupports]
  rintro (hneeds | hfree)
  · cases hneeds
  · exact hfree hgcm

end HostLayouts

end Cryptoki
