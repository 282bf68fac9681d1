import Cryptoki.Token.Talk

/-! The courses that a talk can take, whatever the token answers. -/
namespace Cryptoki

/-- One course of a talk: what is exchanged, and the result. -/
inductive Talk.Goes : Talk α → List Exchange → α → Prop where
  | done (a : α) : Goes (.done a) [] a
  | ask {r : Request} {next : r.Answer → Talk α} {es : List Exchange} {a : α} (x : r.Answer)
    (h : Goes (next x) es a) : Goes (.ask r next) (⟨r, x⟩ :: es) a

/-- Whether the answers of an exchange are those of the token, on its way from state to state. -/
def Token.Answers (token : Token σ) : σ → List Exchange → σ → Prop
  | s, [], t => t = s
  | s, e :: es, t =>
    (token.answer e.request s).1 = e.answer ∧ Answers token (token.answer e.request s).2 es t

theorem Token.answers_single {token : Token σ} {s t : σ} {r : Request} {x : r.Answer} :
    token.Answers s [⟨r, x⟩] t ↔ token.answer r s = (x, t) := by
  simp only [Answers, Prod.ext_iff, eq_comm (a := t)]

theorem Token.answers_cons {token : Token σ} {s t : σ} {r : Request} {x : r.Answer}
    {es : List Exchange} :
    token.Answers s (⟨r, x⟩ :: es) t ↔ ∃ u, token.answer r s = (x, u) ∧ token.Answers u es t := by
  constructor
  · rintro ⟨hx, hrest⟩
    exact ⟨_, Prod.ext hx rfl, hrest⟩
  · rintro ⟨u, hanswer, hrest⟩
    rw [Answers, hanswer]
    exact ⟨rfl, hrest⟩

theorem Token.answers_append {token : Token σ} {s t : σ} {es fs : List Exchange} :
    token.Answers s (es ++ fs) t ↔ ∃ u, token.Answers s es u ∧ token.Answers u fs t := by
  induction es generalizing s with
  | nil => simp [Answers]
  | cons e es ih => simp [Answers, ih, and_assoc]

namespace Talk

theorem goes_pure {a b : α} {es : List Exchange} :
    (pure a : Talk α).Goes es b ↔ es = [] ∧ b = a := by
  constructor
  · intro h
    cases h
    exact ⟨rfl, rfl⟩
  · rintro ⟨rfl, rfl⟩
    exact .done b

theorem goes_ask {r : Request} {next : r.Answer → Talk α} {es : List Exchange} {a : α} :
    (Talk.ask r next).Goes es a ↔ ∃ x fs, es = ⟨r, x⟩ :: fs ∧ (next x).Goes fs a := by
  constructor
  · intro h
    cases h with
    | ask x h => exact ⟨x, _, rfl, h⟩
  · rintro ⟨x, fs, rfl, h⟩
    exact .ask x h

theorem goes_request {r : Request} {es : List Exchange} {x : r.Answer} :
    (Talk.request r).Goes es x ↔ es = [⟨r, x⟩] := by
  constructor
  · intro h
    obtain ⟨y, fs, rfl, hy⟩ := goes_ask.mp h
    cases hy
    rfl
  · rintro rfl
    exact .ask x (.done x)

theorem goes_bind {t : Talk α} {f : α → Talk β} {es : List Exchange} {b : β} :
    (t >>= f).Goes es b ↔ ∃ a before after, es = before ++ after ∧ t.Goes before a ∧
      (f a).Goes after b := by
  change (t.bind f).Goes es b ↔ _
  induction t generalizing es with
  | done a =>
    constructor
    · intro h
      exact ⟨a, [], es, rfl, .done a, h⟩
    · rintro ⟨a', before, after, rfl, h, hf⟩
      cases h
      exact hf
  | ask r next ih =>
    constructor
    · intro h
      obtain ⟨x, fs, rfl, hx⟩ := goes_ask.mp h
      obtain ⟨a, before, after, rfl, ht, hf⟩ := (ih x).mp hx
      exact ⟨a, ⟨r, x⟩ :: before, after, rfl, .ask x ht, hf⟩
    · rintro ⟨a, before, after, rfl, ht, hf⟩
      obtain ⟨x, fs, rfl, hx⟩ := goes_ask.mp ht
      exact .ask x ((ih x).mpr ⟨a, fs, after, rfl, hx, hf⟩)

theorem goes_map {t : Talk α} {f : α → β} {es : List Exchange} {b : β} :
    (f <$> t).Goes es b ↔ ∃ a, t.Goes es a ∧ b = f a := by
  rw [← bind_pure_comp, goes_bind]
  constructor
  · rintro ⟨a, before, after, rfl, ht, hp⟩
    obtain ⟨rfl, rfl⟩ := goes_pure.mp hp
    exact ⟨a, by simpa using ht, rfl⟩
  · rintro ⟨a, ht, rfl⟩
    exact ⟨a, es, [], by simp, ht, goes_pure.mpr ⟨rfl, rfl⟩⟩

/-- A talk with a token takes the one course on which the answers are those of the token. -/
theorem run_eq_iff {token : Token σ} {t : Talk α} {s u : σ} {es : List Exchange} {a : α} :
    t.run token s = (a, es, u) ↔ t.Goes es a ∧ token.Answers s es u := by
  induction t generalizing s es with
  | done b =>
    simp only [run, Prod.mk.injEq]
    constructor
    · rintro ⟨rfl, rfl, rfl⟩
      exact ⟨.done b, rfl⟩
    · rintro ⟨h, ha⟩
      cases h
      exact ⟨rfl, rfl, ha.symm⟩
  | ask r next ih =>
    constructor
    · intro h
      simp only [run, Prod.mk.injEq] at h
      obtain ⟨rfl, rfl, rfl⟩ := h
      obtain ⟨hg, ha⟩ := (ih (token.answer r s).1 (s := (token.answer r s).2)).mp rfl
      exact ⟨.ask _ hg, rfl, ha⟩
    · rintro ⟨h, ha⟩
      obtain ⟨x, fs, rfl, hx⟩ := goes_ask.mp h
      obtain ⟨he, ha⟩ := ha
      dsimp only at he
      subst he
      simp [run, (ih _).mpr ⟨hx, ha⟩]

end Talk

end Cryptoki
