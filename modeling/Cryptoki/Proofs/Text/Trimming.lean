import Mathlib.Data.List.DropRight
import Mathlib.Data.List.TakeWhile
import Cryptoki.Text.Blank

/-! Trimming takes the blanks off the ends of a text and nothing else, and a text is cut into its
pieces at the separators. -/
namespace Cryptoki

variable {cs t left right : List Char} {separator : Char}

/-- No blank stands at the end. -/
def IsTrimmedRight (cs : List Char) : Prop := ∀ c ∈ cs.getLast?, isBlank c = false

/-- No blank stands at either end. -/
structure IsTrimmed (cs : List Char) : Prop where
  first : ∀ c ∈ cs.head?, isBlank c = false
  last : IsTrimmedRight cs

theorem isTrimmedRight_iff : IsTrimmedRight cs ↔ (cs.getLast?.all (!isBlank ·)) = true := by
  simp [IsTrimmedRight, Option.all_eq_true]

theorem isTrimmed_iff : IsTrimmed cs ↔
    (cs.head?.all (!isBlank ·)) = true ∧ (cs.getLast?.all (!isBlank ·)) = true := by
  rw [← isTrimmedRight_iff]
  simp only [Option.all_eq_true, Bool.not_eq_true']
  exact ⟨fun h => ⟨h.first, h.last⟩, fun h => ⟨h.1, h.2⟩⟩

-- Only the one character at the end is looked at, not every character that there is.
instance (cs : List Char) : Decidable (IsTrimmedRight cs) :=
  decidable_of_iff _ isTrimmedRight_iff.symm

instance (cs : List Char) : Decidable (IsTrimmed cs) := decidable_of_iff _ isTrimmed_iff.symm

theorem trimRight_append (t : List Char) (h : ∀ c ∈ right, isBlank c = true) :
    trimRight (t ++ right) = trimRight t := by
  have hblank : ∀ c ∈ right.reverse, isBlank c = true := by simpa using h
  rw [trimRight, List.reverse_append, List.dropWhile_append_of_pos hblank, trimRight]

theorem trimRight_eq_self (h : IsTrimmedRight cs) : trimRight cs = cs := by
  refine List.rdropWhile_eq_self_iff.mpr fun hne hlast => ?_
  rw [h _ (List.getLast_mem_getLast? hne)] at hlast
  cases hlast

theorem isTrimmedRight_trimRight (cs : List Char) : IsTrimmedRight (trimRight cs) := by
  intro c hc
  obtain ⟨hne, rfl⟩ := List.mem_getLast?_eq_getLast hc
  exact Bool.eq_false_iff.mpr (List.rdropWhile_last_not isBlank cs hne)

theorem exists_trimRight (cs : List Char) :
    ∃ right, cs = trimRight cs ++ right ∧ ∀ c ∈ right, isBlank c = true :=
  ⟨cs.rtakeWhile isBlank, List.rdropWhile_append_rtakeWhile.symm, fun _ => List.mem_rtakeWhile_imp⟩

theorem isTrimmed_trim (cs : List Char) : IsTrimmed (trim cs) where
  first := by
    intro c hc
    obtain ⟨right, hright, -⟩ := exists_trimRight (cs.dropWhile isBlank)
    have hfirst : c ∈ (cs.dropWhile isBlank).head? := by
      rw [hright]
      exact List.mem_head?_append_of_mem_head? hc
    have hnot := List.head?_dropWhile_not isBlank cs
    rw [Option.mem_def.mp hfirst] at hnot
    simpa using hnot
  last := isTrimmedRight_trimRight _

/-- What is trimmed to a text is that text with blanks around it, or without any. -/
theorem trim_eq_iff : trim cs = t ↔
    IsTrimmed t ∧ ∃ left right, cs = left ++ (t ++ right) ∧
      ∀ c ∈ left ++ right, isBlank c = true := by
  constructor
  · rintro rfl
    obtain ⟨right, hright, hblank⟩ := exists_trimRight (cs.dropWhile isBlank)
    refine ⟨isTrimmed_trim cs, cs.takeWhile isBlank, right, ?_, ?_⟩
    · calc
        cs = cs.takeWhile isBlank ++ cs.dropWhile isBlank := List.takeWhile_append_dropWhile.symm
        _ = cs.takeWhile isBlank ++ (trim cs ++ right) := congrArg _ hright
    · intro c hc
      rcases List.mem_append.mp hc with hc | hc
      · exact List.mem_takeWhile_imp hc
      · exact hblank c hc
  · rintro ⟨ht, left, right, rfl, hblank⟩
    obtain ⟨hleft, hright⟩ := List.forall_mem_append.mp hblank
    rw [trim, List.dropWhile_append_of_pos hleft]
    cases t with
    | nil =>
      have hnone : right.dropWhile isBlank = [] := List.dropWhile_eq_nil_iff.mpr hright
      rw [List.nil_append, hnone]
      rfl
    | cons c t =>
      have hfirst := ht.first c rfl
      rw [List.cons_append, List.dropWhile_cons_of_neg (by simp [hfirst]), ← List.cons_append,
        trimRight_append _ hright, trimRight_eq_self ht.last]

/-- Blanks around a text are not what it is trimmed to. -/
theorem trim_append (h : ∀ c ∈ left ++ right, isBlank c = true) :
    trim (left ++ (cs ++ right)) = trim cs := by
  obtain ⟨htrimmed, l, r, hcs, hblank⟩ := trim_eq_iff.mp (rfl : trim cs = trim cs)
  obtain ⟨hleft, hright⟩ := List.forall_mem_append.mp h
  obtain ⟨hl, hr⟩ := List.forall_mem_append.mp hblank
  refine trim_eq_iff.mpr ⟨htrimmed, left ++ l, r ++ right, ?_, ?_⟩
  · conv_lhs => rw [hcs]
    simp only [List.append_assoc]
  · simp only [List.forall_mem_append]
    exact ⟨⟨hleft, hl⟩, hr, hright⟩

theorem pieces_eq_splitOn (separator : Char) (cs : List Char) :
    pieces separator cs = cs.splitOn separator := by
  rw [List.splitOn_eq_splitOnP]
  induction cs with
  | nil => rfl
  | cons c cs ih =>
    rw [pieces, List.splitOnP_cons_eq_if_modifyHead, ih]
    simp only [beq_iff_eq]
    split
    · rfl
    · obtain ⟨p, ps, hcut⟩ := List.exists_cons_of_ne_nil (List.splitOnP_ne_nil (· == separator) cs)
      rw [hcut]
      rfl

theorem separator_not_mem (separator : Char) (cs : List Char) :
    ∀ p ∈ pieces separator cs, separator ∉ p := by
  induction cs with
  | nil => simp [pieces]
  | cons c cs ih =>
    rw [pieces]
    split
    · exact List.forall_mem_cons.mpr ⟨List.not_mem_nil, ih⟩
    · next hc =>
      have hne : separator ≠ c := fun h => hc h.symm
      split
      · simp [hne]
      · next p ps hcut =>
        rw [hcut, List.forall_mem_cons] at ih
        obtain ⟨hp, hps⟩ := ih
        exact List.forall_mem_cons.mpr ⟨by simp [hne, hp], hps⟩

end Cryptoki
