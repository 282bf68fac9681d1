import Cryptoki.Attribute.Codec

/-! Attributes in attributes: which of them a native form keeps, and what all attributes have in
common that can be made. -/
namespace Cryptoki

mutual

/-- The values without the elements that are in no template, at every depth. -/
def AttributeValue.pruned : AttributeValue → AttributeValue
  | .attributes entries => .attributes (Attribute.prunedList entries)
  | v => v

def AttributeState.pruned : AttributeState → AttributeState
  | .value v => .value v.pruned
  | s => s

def Attribute.pruned : Attribute → Attribute
  | ⟨t, s⟩ => ⟨t, s.pruned⟩

def Attribute.prunedList : List Attribute → List Attribute
  | [] => []
  | a :: as => if a.isPresent then a.pruned :: Attribute.prunedList as else Attribute.prunedList as

end

mutual

/-- The elements that are kept, each before its own. -/
def AttributeValue.kept : AttributeValue → List Attribute
  | .attributes entries => Attribute.keptList entries
  | _ => []

def AttributeState.kept : AttributeState → List Attribute
  | .value v => v.kept
  | _ => []

/-- An attribute that is present, and the elements kept of it. -/
def Attribute.kept : Attribute → List Attribute
  | ⟨t, s⟩ => if (Attribute.mk t s).isPresent then ⟨t, s⟩ :: s.kept else []

def Attribute.keptList : List Attribute → List Attribute
  | [] => []
  | a :: as => a.kept ++ Attribute.keptList as

end

mutual

/-- All elements are present, at every depth. -/
def AttributeValue.Complete : AttributeValue → Prop
  | .attributes entries => Attribute.CompleteList entries
  | _ => True

def AttributeState.Complete : AttributeState → Prop
  | .value v => v.Complete
  | _ => True

def Attribute.Complete : Attribute → Prop
  | ⟨_, s⟩ => s.Complete

def Attribute.CompleteList : List Attribute → Prop
  | [] => True
  | a :: as => a.isPresent = true ∧ a.Complete ∧ Attribute.CompleteList as

end

mutual

/-- All elements hold what their types say. -/
def AttributeValue.WellFormed : AttributeValue → Prop
  | .attributes entries => Attribute.WellFormedList entries
  | _ => True

/-- A value is of the kind, and null stands only where the kind has no empty value. -/
def AttributeState.WellFormed (kind : AttributeKind) : AttributeState → Prop
  | .absent | .unavailable => True
  | .null => kind.nullState = .null
  | .value v => v.kind = kind ∧ v.WellFormed

def Attribute.WellFormed : Attribute → Prop
  | ⟨t, s⟩ => s.WellFormed t.kind

def Attribute.WellFormedList : List Attribute → Prop
  | [] => True
  | a :: as => a.WellFormed ∧ Attribute.WellFormedList as

end

/-- A property that an attribute has if the elements of its value have it. -/
def Attribute.Inherits (P : Attribute → Prop) : Prop :=
  ∀ t s, (∀ entries, s = .value (.attributes entries) → ∀ a ∈ entries, P a) → P ⟨t, s⟩

mutual

theorem AttributeValue.forall_elements {P : Attribute → Prop} (h : Attribute.Inherits P) :
    ∀ v : AttributeValue, ∀ entries, v = .attributes entries → ∀ a ∈ entries, P a
  | .attributes entries => fun _ he =>
    AttributeValue.attributes.inj he ▸ Attribute.forall_list h entries
  | .bool _ | .ulong _ | .bytes _ | .date _ | .mechanisms _ => by simp

theorem AttributeState.forall_elements {P : Attribute → Prop} (h : Attribute.Inherits P) :
    ∀ s : AttributeState, ∀ entries, s = .value (.attributes entries) → ∀ a ∈ entries, P a
  | .value v => fun entries he => v.forall_elements h entries (AttributeState.value.inj he)
  | .absent | .unavailable | .null => by simp

theorem Attribute.forall_of_inherits {P : Attribute → Prop} (h : Attribute.Inherits P) :
    ∀ a : Attribute, P a
  | ⟨t, s⟩ => h t s (s.forall_elements h)

theorem Attribute.forall_list {P : Attribute → Prop} (h : Attribute.Inherits P) :
    ∀ as : List Attribute, ∀ a ∈ as, P a
  | [] => by simp
  | a :: as => List.forall_mem_cons.mpr ⟨a.forall_of_inherits h, Attribute.forall_list h as⟩

end

/-- Induction on how deep attributes are nested. -/
theorem Attribute.nested_induction {P : Attribute → Prop}
    (node : ∀ t s, (∀ entries, s = .value (.attributes entries) → ∀ a ∈ entries, P a) → P ⟨t, s⟩)
    (a : Attribute) : P a := a.forall_of_inherits node

/-! The companions on lists, as statements about all elements. -/

theorem Attribute.wellFormedList_iff {as : List Attribute} :
    WellFormedList as ↔ ∀ a ∈ as, a.WellFormed := by
  induction as with
  | nil => simp [WellFormedList]
  | cons a as ih => simp [WellFormedList, ih]

theorem Attribute.completeList_iff {as : List Attribute} :
    CompleteList as ↔ ∀ a ∈ as, a.isPresent = true ∧ a.Complete := by
  induction as with
  | nil => simp [CompleteList]
  | cons a as ih => simp [CompleteList, ih, and_assoc]

theorem Attribute.mem_keptList {as : List Attribute} {b : Attribute} :
    b ∈ keptList as ↔ ∃ a ∈ as, b ∈ a.kept := by
  induction as with
  | nil => simp [keptList]
  | cons a as ih => simp [keptList, ih]

/-- Well-formed attributes are so at every depth. -/
theorem Attribute.WellFormed.of_mem_kept {a b : Attribute} (h : a.WellFormed) (hb : b ∈ a.kept) :
    b.WellFormed := by
  induction a using Attribute.nested_induction with
  | node t s ih =>
    rw [kept] at hb
    split at hb
    case isFalse => cases hb
    rcases List.mem_cons.mp hb with rfl | hb
    · exact h
    cases s with
    | absent | unavailable | null => cases hb
    | value v =>
      cases v with
      | attributes entries =>
        obtain ⟨a, ha, hab⟩ := mem_keptList.mp hb
        exact ih entries rfl a ha (wellFormedList_iff.mp h.2 a ha) hab
      | _ => cases hb

theorem Attribute.prunedList_eq (as : List Attribute) :
    prunedList as = (as.filter (·.isPresent)).map pruned := by
  induction as with
  | nil => simp [prunedList]
  | cons a as ih =>
    by_cases h : a.isPresent <;> simp [prunedList, h, ih]

/-- Nothing is removed where all is present. -/
theorem Attribute.pruned_of_complete {a : Attribute} (h : a.Complete) : a.pruned = a := by
  induction a using Attribute.nested_induction with
  | node t s ih =>
    cases s with
    | value v =>
      cases v with
      | attributes entries =>
        have hall := completeList_iff.mp h
        have hkept : entries.filter (·.isPresent) = entries := by
          apply List.filter_eq_self.mpr
          intro a ha
          exact (hall a ha).1
        have hsame : entries.map pruned = entries.map id := by
          apply List.map_congr_left
          intro a ha
          exact ih entries rfl a ha (hall a ha).2
        rw [pruned, AttributeState.pruned, AttributeValue.pruned, prunedList_eq, hkept, hsame,
          List.map_id]
      | _ => simp [pruned, AttributeState.pruned, AttributeValue.pruned]
    | _ => simp [pruned, AttributeState.pruned]

/-- Where nothing is removed, all is present: what is removed makes an array shorter. -/
theorem Attribute.complete_of_pruned {a : Attribute} (h : a.pruned = a) : a.Complete := by
  induction a using Attribute.nested_induction with
  | node t s ih =>
    cases s with
    | value v =>
      cases v with
      | attributes entries =>
        have hsame : (entries.filter (·.isPresent)).map pruned = entries := by
          simpa [pruned, AttributeState.pruned, AttributeValue.pruned, prunedList_eq] using h
        have hkept : entries.filter (·.isPresent) = entries := by
          have hlength := congrArg List.length hsame
          rw [List.length_map] at hlength
          exact List.filter_sublist.eq_of_length hlength
        rw [hkept] at hsame
        apply completeList_iff.mpr
        intro a ha
        refine ⟨List.filter_eq_self.mp hkept a ha, ih entries rfl a ha ?_⟩
        exact List.map_inj_left.mp (hsame.trans (List.map_id entries).symm) a ha
      | _ => trivial
    | _ => trivial

/-- The attributes that can be made: absent ones of each type, and what comes of setting, clearing
and loading them, with values whose elements can be made. -/
inductive Attribute.Obtainable : Attribute → Prop where
  | absent (t : AttributeType) : Obtainable (.absent t)
  | set {a b : Attribute} {v : AttributeValue} (ha : Obtainable a)
    (helements : ∀ entries, v = .attributes entries → ∀ e ∈ entries, Obtainable e)
    (h : a.set v = .ok b) : Obtainable b
  | setNull {a : Attribute} (ha : Obtainable a) : Obtainable a.setNull
  | clear {a : Attribute} (ha : Obtainable a) : Obtainable a.clear
  | markUnavailable {a : Attribute} (ha : Obtainable a) : Obtainable a.markUnavailable
  | load {a b : Attribute} {v : WireValue} (ha : Obtainable a) (h : a.load v = .ok b) :
    Obtainable b

/-- The kinds that have no empty value of their own. -/
theorem AttributeKind.nullState_eq_null_iff {kind : AttributeKind} :
    kind.nullState = .null ↔ kind = .bool ∨ kind = .ulong ∨ kind = .date := by
  cases kind <;> simp [nullState]

theorem AttributeKind.nullState_wellFormed (kind : AttributeKind) :
    kind.nullState.WellFormed kind := by
  cases kind <;> simp [nullState, AttributeState.WellFormed, AttributeValue.WellFormed,
    AttributeValue.kind, Attribute.WellFormedList]

theorem AttributeKind.nullState_complete (kind : AttributeKind) : kind.nullState.Complete := by
  cases kind <;> simp [nullState, AttributeState.Complete, AttributeValue.Complete,
    Attribute.CompleteList]

end Cryptoki
