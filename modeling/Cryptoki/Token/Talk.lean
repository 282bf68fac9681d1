import Cryptoki.Token.Request

/-! Talks with a token: requests, each of which may depend on the answers before it. -/
namespace Cryptoki

inductive Talk (α : Type) where
  | done (a : α)
  | ask (request : Request) (next : request.Answer → Talk α)

/-- A token answers as its state tells it to, and may change the state. -/
structure Token (σ : Type) where
  answer : (request : Request) → σ → request.Answer × σ

structure Exchange where
  request : Request
  answer : request.Answer

namespace Talk

def bind : Talk α → (α → Talk β) → Talk β
  | .done a, f => f a
  | .ask r next, f => .ask r fun x => (next x).bind f

instance : Monad Talk where
  pure := .done
  bind := Talk.bind

theorem bind_done (t : Talk α) : t.bind .done = t := by
  induction t with
  | done a => rfl
  | ask r next ih => simp [Talk.bind, ih]

theorem bind_bind (t : Talk α) (f : α → Talk β) (g : β → Talk γ) :
    (t.bind f).bind g = t.bind fun a => (f a).bind g := by
  induction t with
  | done a => rfl
  | ask r next ih => simp [Talk.bind, ih]

instance : LawfulMonad Talk :=
  LawfulMonad.mk' Talk (fun t => bind_done t) (fun _ _ => rfl) (fun t f g => bind_bind t f g)

/-- The talk of a single request. -/
def request (r : Request) : Talk r.Answer := .ask r .done

/-- The talk with a token: its result, what was exchanged, and the state of the token afterwards. -/
def run (token : Token σ) : Talk α → σ → α × List Exchange × σ
  | .done a, s => (a, [], s)
  | .ask r next, s =>
    let (x, s) := token.answer r s
    let (a, exchanges, s) := (next x).run token s
    (a, ⟨r, x⟩ :: exchanges, s)

theorem run_bind (token : Token σ) (t : Talk α) (f : α → Talk β) (s : σ) :
    (t.bind f).run token s =
      let (a, before, s) := t.run token s
      let (b, after, s) := (f a).run token s
      (b, before ++ after, s) := by
  induction t generalizing s with
  | done a => simp [Talk.bind, run]
  | ask r next ih => simp [Talk.bind, run, ih]

end Talk

end Cryptoki
