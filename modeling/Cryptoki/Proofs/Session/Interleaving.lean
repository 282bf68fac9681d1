import Cryptoki.Proofs.Session.Locality
import Cryptoki.Token.Script

/-! Calls of different kinds in one session, in any order: those of a kind go as if there were no
others, with a token that keeps the kinds apart as well. -/
namespace Cryptoki

namespace Token

variable {σ : Type} {token : Token σ} {t u : σ}

/-- The token after some requests. -/
def after (token : Token σ) (t : σ) : List Request → σ
  | [] => t
  | r :: rs => token.after (token.answer r t).2 rs

theorem after_append (token : Token σ) (t : σ) (rs rs' : List Request) :
    token.after t (rs ++ rs') = token.after (token.after t rs) rs' := by
  induction rs generalizing t with
  | nil => rfl
  | cons r rs ih => exact ih _

theorem Answers.after {es : List Exchange} (h : token.Answers t es u) :
    u = token.after t (es.map (·.request)) := by
  induction es generalizing t with
  | nil => exact h
  | cons e es ih => exact ih h.2

/-- The token answers each request by the earlier ones of the same kind. Requests of no kind of
operation count as one kind more. -/
def Separates (token : Token σ) (t : σ) : Prop :=
  ∀ (r : Request) (rs rs' : List Request),
    rs.filter (·.kind? = r.kind?) = rs'.filter (·.kind? = r.kind?) →
    (token.answer r (token.after t rs)).1 = (token.answer r (token.after t rs')).1

/-- What was asked of other kinds makes no difference to the answers. -/
theorem Separates.answers (h : token.Separates t) {owner : Option OperationKind}
    {es : List Exchange} (hkind : ∀ e ∈ es, e.request.kind? = owner) {rs rs' : List Request}
    (hsame : rs.filter (·.kind? = owner) = rs'.filter (·.kind? = owner))
    (hanswers : token.Answers (token.after t rs) es u) :
    token.Answers (token.after t rs') es (token.after t (rs' ++ es.map (·.request))) := by
  induction es generalizing rs rs' with
  | nil => simp [Answers]
  | cons e es ih =>
    obtain ⟨he, hrest⟩ := hanswers
    obtain ⟨hk, hkinds⟩ := List.forall_mem_cons.mp hkind
    have hnext : ∀ rs, (token.answer e.request (token.after t rs)).2 =
        token.after t (rs ++ [e.request]) := by
      intro rs
      rw [after_append]
      rfl
    rw [hnext] at hrest
    have hgrown : (rs ++ [e.request]).filter (·.kind? = owner) =
        (rs' ++ [e.request]).filter (·.kind? = owner) := by
      rw [List.filter_append, List.filter_append, hsame]
    have hlater := ih hkinds hgrown hrest
    rw [List.append_assoc] at hlater
    rw [← hk] at hsame
    refine ⟨(h e.request rs' rs hsame.symm).trans he, ?_⟩
    rw [hnext]
    exact hlater

end Token

/-- What a call gave back, and what it left of what it was lent. -/
structure Returned where
  call : Call
  outcome : Except Error call.Result
  left : call.Subject

/-- A step of a script: a call that may depend on what the earlier calls of its kind gave back, as
on a mechanism or a buffer that they left. -/
structure Step where
  kind : Option OperationKind
  call : List Returned → Call
  kind_call : ∀ past, (call past).kind? = kind

def Step.of (call : Call) : Step := ⟨call.kind?, fun _ => call, fun _ => rfl⟩

/-- How far a script has come: what the calls gave back, the session and the token. -/
structure Progress (σ : Type) where
  past : List Returned
  session : Session
  token : σ

namespace Progress

variable {σ : Type}

/-- What the calls of an owner gave back. -/
def results (p : Progress σ) (owner : Option OperationKind) : List Returned :=
  p.past.filter (·.call.kind? = owner)

def make (token : Token σ) (call : Call) (p : Progress σ) : Progress σ :=
  let ((outcome, scene), _, t) := call.run token p.session p.token
  ⟨p.past ++ [⟨call, outcome, scene.subject⟩], scene.session, t⟩

/-- One step after the other. -/
def enact (token : Token σ) : List Step → Progress σ → Progress σ
  | [], p => p
  | step :: steps, p => enact token steps (p.make token (step.call (p.results step.kind)))

/-- To the owner, the one looks like the other: its calls gave back the same, the sessions share its
operation, and the tokens were asked the same of its kind since they were in one state. -/
structure Alike (token : Token σ) (t : σ) (owner : Option OperationKind) (p q : Progress σ) :
    Prop where
  results : p.results owner = q.results owner
  session : p.session.Shares owner q.session
  requests : ∃ rs rs', p.token = token.after t rs ∧ q.token = token.after t rs' ∧
    rs.filter (·.kind? = owner) = rs'.filter (·.kind? = owner)

variable {token : Token σ} {t : σ} {owner : Option OperationKind} {p q : Progress σ} {call : Call}

theorem results_make_of_ne (hkind : call.kind? ≠ owner) :
    (p.make token call).results owner = p.results owner := by
  simp [results, make, hkind]

theorem results_make {outcome : Except Error call.Result} {scene : Scene call.Subject}
    {es : List Exchange} {u : σ}
    (hrun : call.run token p.session p.token = ((outcome, scene), es, u))
    (hkind : call.kind? = owner) :
    (p.make token call).results owner = p.results owner ++ [⟨call, outcome, scene.subject⟩] := by
  simp [results, make, hrun, hkind]

/-- A call of another kind makes no difference to the owner. -/
theorem Alike.make_other (h : Alike token t owner p q) (hkind : call.kind? ≠ owner) :
    Alike token t owner (p.make token call) q := by
  obtain ⟨⟨⟨outcome, scene⟩, es, u⟩, hrun⟩ :
      ∃ r, call.run token p.session p.token = r := ⟨_, rfl⟩
  obtain ⟨hgoes, hanswers⟩ := Talk.run_eq_iff.mp hrun
  have hkeeps := call.keeps hgoes
  obtain ⟨rs, rs', hp, hq, hsame⟩ := h.requests
  have hnone : (es.map (·.request)).filter (·.kind? = owner) = [] := by
    rw [List.filter_eq_nil_iff]
    intro r hr
    obtain ⟨e, he, rfl⟩ := List.mem_map.mp hr
    simpa [hkeeps.kind e he] using hkind
  refine ⟨(results_make_of_ne hkind).trans h.results, ?_, rs ++ es.map (·.request), rs', ?_, hq, ?_⟩
  · rw [make, hrun]
    exact h.session.of_keeps hkeeps hkind
  · rw [make, hrun, Token.after_append, ← hp]
    exact hanswers.after
  · rw [List.filter_append, hnone, List.append_nil, hsame]

/-- A call of the owner goes the same way in both. -/
theorem Alike.make_own (hseparates : token.Separates t) (h : Alike token t owner p q)
    (hkind : call.kind? = owner) :
    Alike token t owner (p.make token call) (q.make token call) := by
  obtain ⟨⟨⟨outcome, scene⟩, es, u⟩, hrun⟩ :
      ∃ r, call.run token p.session p.token = r := ⟨_, rfl⟩
  obtain ⟨hgoes, hanswers⟩ := Talk.run_eq_iff.mp hrun
  obtain ⟨rs, rs', hp, hq, hsame⟩ := h.requests
  have hkinds : ∀ e ∈ es, e.request.kind? = owner := hkind ▸ (call.keeps hgoes).kind
  have hgoes' : call.action.Goes ⟨q.session, call.subject⟩ es outcome
      (scene.amid owner q.session.operations) := by
    have hmirrored := call.minds.goes hgoes q.session.operations
    rw [hkind] at hmirrored
    have hscene : Scene.amid owner q.session.operations ⟨p.session, call.subject⟩ =
        ⟨q.session, call.subject⟩ := congrArg (Scene.mk · call.subject) h.session
    rwa [hscene] at hmirrored
  rw [hp] at hanswers
  have hanswers' := hseparates.answers hkinds hsame hanswers
  rw [← hq] at hanswers'
  have hrun' : call.run token q.session q.token =
      ((outcome, scene.amid owner q.session.operations), es,
        token.after t (rs' ++ es.map (·.request))) := Talk.run_eq_iff.mpr ⟨hgoes', hanswers'⟩
  refine ⟨?_, ?_, rs ++ es.map (·.request), rs' ++ es.map (·.request), ?_, ?_, ?_⟩
  · rw [results_make hrun hkind, results_make hrun' hkind, h.results]
    rfl
  · rw [make, hrun, make, hrun']
    exact Session.shares_amid _ _
  · rw [make, hrun, Token.after_append]
    exact hanswers.after
  · rw [make, hrun']
  · rw [List.filter_append, List.filter_append, hsame]

/-- A script looks to the owner like its own part of it. -/
theorem Alike.enact (hseparates : token.Separates t) (steps : List Step)
    (h : Alike token t owner p q) :
    Alike token t owner (enact token steps p)
      (enact token (steps.filter (·.kind = owner)) q) := by
  induction steps generalizing p q with
  | nil => exact h
  | cons step steps ih =>
    have hcall := step.kind_call (p.results step.kind)
    by_cases hkind : step.kind = owner
    · have hown := h.make_own hseparates (hcall.trans hkind)
      rw [List.filter_cons_of_pos (by simpa using hkind), Progress.enact, Progress.enact]
      have hresults : q.results step.kind = p.results step.kind := by rw [hkind, h.results]
      rw [hresults]
      exact ih hown
    · have hother : step.kind ≠ owner := hkind
      rw [List.filter_cons_of_neg (by simpa using hkind), Progress.enact]
      rw [← hcall] at hother
      exact ih (h.make_other hother)

/-- A script of one kind gives back nothing else. -/
theorem past_enact {steps : List Step} (hsteps : ∀ step ∈ steps, step.kind = owner)
    (hp : p.results owner = p.past) :
    (enact token steps p).results owner = (enact token steps p).past := by
  induction steps generalizing p with
  | nil => exact hp
  | cons step steps ih =>
    obtain ⟨hkind, hrest⟩ := List.forall_mem_cons.mp hsteps
    have hcall := (step.kind_call (p.results step.kind)).trans hkind
    obtain ⟨⟨⟨outcome, scene⟩, es, u⟩, hrun⟩ : ∃ r,
      (step.call (p.results step.kind)).run token p.session p.token = r := ⟨_, rfl⟩
    refine ih hrest ?_
    rw [results_make hrun hcall, hp, make, hrun]

end Progress

open Progress in
/-- With a token that keeps the kinds of operation apart, calls of different kinds do not interfere:
what those of a kind give back, and where they leave their operation, is as if their part of the
script were all of it. So it is the same in every order that keeps the order within each kind. -/
theorem kinds_do_not_interfere (token : Token σ) (t : σ) (h : token.Separates t) (s : Session)
    (steps : List Step) :
    (∀ owner, (enact token steps ⟨[], s, t⟩).results owner =
      (enact token (steps.filter (·.kind = owner)) ⟨[], s, t⟩).past) ∧
    (∀ k, (enact token steps ⟨[], s, t⟩).session.operation k =
      (enact token (steps.filter (·.kind = some k)) ⟨[], s, t⟩).session.operation k) ∧
    ∀ reordered : List Step,
      (∀ owner, reordered.filter (·.kind = owner) = steps.filter (·.kind = owner)) →
      (∀ owner, (enact token reordered ⟨[], s, t⟩).results owner =
        (enact token steps ⟨[], s, t⟩).results owner) ∧
      ∀ k, (enact token reordered ⟨[], s, t⟩).session.operation k =
        (enact token steps ⟨[], s, t⟩).session.operation k := by
  have hstart : ∀ owner, Alike token t owner ⟨[], s, t⟩ ⟨[], s, t⟩ := fun owner =>
    ⟨rfl, .refl owner s, [], [], rfl, rfl, rfl⟩
  have hresults : ∀ (steps : List Step) owner, (enact token steps ⟨[], s, t⟩).results owner =
      (enact token (steps.filter (·.kind = owner)) ⟨[], s, t⟩).past := by
    intro steps owner
    have hpast : (enact token (steps.filter (·.kind = owner)) ⟨[], s, t⟩).results owner =
        (enact token (steps.filter (·.kind = owner)) ⟨[], s, t⟩).past :=
      past_enact (by simp) rfl
    exact ((hstart owner).enact h steps).results.trans hpast
  have hoperation : ∀ (steps : List Step) k, (enact token steps ⟨[], s, t⟩).session.operation k =
      (enact token (steps.filter (·.kind = some k)) ⟨[], s, t⟩).session.operation k :=
    fun steps k => ((hstart (some k)).enact h steps).session.operation.symm
  refine ⟨hresults steps, hoperation steps, fun reordered hsame => ⟨?_, ?_⟩⟩
  · intro owner
    rw [hresults, hresults, hsame]
  · intro k
    rw [hoperation, hoperation steps, hsame]

/-- A token that answers each request by what it was asked of the kind before. -/
def Token.remembering (answers : List Request → (r : Request) → r.Answer) : Token (List Request) where
  answer r asked := (answers (asked.filter (·.kind? = r.kind?)) r, asked ++ [r])

theorem Token.remembering_separates (answers : List Request → (r : Request) → r.Answer) :
    (remembering answers).Separates [] := by
  have hafter : ∀ rs asked, (remembering answers).after asked rs = asked ++ rs := by
    intro rs
    induction rs with
    | nil => simp [after]
    | cons r rs ih =>
      intro asked
      have hrest := ih (asked ++ [r])
      rw [List.append_assoc] at hrest
      exact hrest
  intro r rs rs' hsame
  rw [hafter, hafter, List.nil_append, List.nil_append]
  exact congrArg (fun asked => answers asked r) hsame

/-- What an operation took in, given back at its end. -/
def echoed (asked : List Request) : (r : Request) → r.Answer
  | .start _ _ _ _ => ⟨.ok (), .none⟩
  | .absorb _ _ _ => .ok ()
  | .signFinal _ | .digestFinal _ => .ok (asked.flatMap fun
    | .absorb _ _ data => data
    | _ => [])
  | r => r.refuse Status.functionNotSupported

def signing : List Step :=
  [.of (.start .sign ⟨0x250, none⟩ ⟨.secretKey .aes, .bound 3, []⟩), .of (.absorb .sign [1]),
    ⟨some .sign, fun past => .absorb .sign [UInt8.ofNat past.length], fun _ => rfl⟩, .of .signFinal]

def digesting : List Step :=
  [.of (.startDigest ⟨0x250, none⟩), .of (.absorb .digest [7]), .of .digestFinal]

/-- A signature and a digest side by side, with a look at the session between them. -/
def sideBySide : List Step :=
  [.of (.startDigest ⟨0x250, none⟩),
    .of (.start .sign ⟨0x250, none⟩ ⟨.secretKey .aes, .bound 3, []⟩), .of (.absorb .sign [1]),
    .of .sessionInfo, .of (.absorb .digest [7]),
    ⟨some .sign, fun past => .absorb .sign [UInt8.ofNat past.length], fun _ => rfl⟩,
    .of .digestFinal, .of .signFinal]

open Progress in
theorem kinds_do_not_interfere_side_by_side :
    (Token.remembering echoed).Separates [] ∧
    (enact (.remembering echoed) sideBySide
        ⟨[], .ofHandle 1 0 .standard .empty, []⟩).results (some .sign) =
      (enact (.remembering echoed) signing ⟨[], .ofHandle 1 0 .standard .empty, []⟩).past ∧
    (enact (.remembering echoed) signing ⟨[], .ofHandle 1 0 .standard .empty, []⟩).past.getLast? =
      some ⟨.signFinal, .ok [1, 2], ()⟩ ∧
    (enact (.remembering echoed) (digesting ++ .of .sessionInfo :: signing)
        ⟨[], .ofHandle 1 0 .standard .empty, []⟩).results (some .digest) =
      (enact (.remembering echoed) sideBySide
        ⟨[], .ofHandle 1 0 .standard .empty, []⟩).results (some .digest) := by
  have hseparates := Token.remembering_separates echoed
  obtain ⟨hresults, -, hreordered⟩ :=
    kinds_do_not_interfere (.remembering echoed) [] hseparates (.ofHandle 1 0 .standard .empty)
      sideBySide
  have hsame : ∀ owner, (digesting ++ .of .sessionInfo :: signing).filter (·.kind = owner) =
      sideBySide.filter (·.kind = owner) := by
    rintro (_ | k)
    · rfl
    · cases k <;> rfl
  have hdigest := (hreordered _ hsame).1 (some .digest)
  exact ⟨hseparates, hresults (some .sign), rfl, hdigest⟩

end Cryptoki
