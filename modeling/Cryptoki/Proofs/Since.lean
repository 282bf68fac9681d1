/-! What holds of a history since the last time that something happened. -/
namespace Cryptoki

variable {α : Type} {P Q : α → Prop} {l : List α} {a : α}

/-- Something of the one property happened, and all after it has the other. -/
def Since (P Q : α → Prop) (l : List α) : Prop :=
  ∃ before x after, l = before ++ x :: after ∧ P x ∧ ∀ y ∈ after, Q y

theorem not_since_nil : ¬ Since P Q [] := by
  rintro ⟨before, x, after, h, -⟩
  simp at h

/-- The last event either is the one that counts, or leaves the one before it. -/
theorem since_concat : Since P Q (l ++ [a]) ↔ P a ∨ Since P Q l ∧ Q a := by
  constructor
  · rintro ⟨before, x, after, h, hx, hkept⟩
    rcases List.eq_nil_or_concat after with rfl | ⟨front, last, rfl⟩
    · obtain ⟨-, he⟩ := List.append_inj' h rfl
      obtain rfl : a = x := by simpa using he
      exact .inl hx
    · rw [List.concat_eq_append, ← List.cons_append, ← List.append_assoc] at h
      obtain ⟨rfl, he⟩ := List.append_inj' h rfl
      obtain rfl : a = last := by simpa using he
      refine .inr ⟨⟨before, x, front, rfl, hx, ?_⟩, hkept a (by simp)⟩
      intro y hy
      exact hkept y (by simp [hy])
  · rintro (ha | ⟨⟨before, x, after, rfl, hx, hkept⟩, ha⟩)
    · exact ⟨l, a, [], rfl, ha, by simp⟩
    · refine ⟨before, x, after ++ [a], by simp, hx, ?_⟩
      intro y hy
      rcases List.mem_append.mp hy with hy | hy
      · exact hkept y hy
      · rw [List.mem_singleton.mp hy]
        exact ha

end Cryptoki
