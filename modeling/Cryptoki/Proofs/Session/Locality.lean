import Cryptoki.Proofs.Session.Protocol

/-! What a call sees of the operations of its session, and what it touches: that of its own kind. -/
namespace Cryptoki

/-- The operations of a session among others: that of the owner is kept, where there is one. -/
def Operations.amid (os others : Operations) : Option OperationKind → Operations
  | none => others
  | some k => others.set (os.get k) k

def Session.amid (owner : Option OperationKind) (others : Operations) (s : Session) : Session :=
  { s with operations := s.operations.amid others owner }

def Scene.amid (owner : Option OperationKind) (others : Operations) (scene : Scene ω) : Scene ω :=
  ⟨scene.session.amid owner others, scene.subject⟩

namespace Session

variable {owner : Option OperationKind} {others : Operations} {k : OperationKind}

@[simp]
theorem handle_amid (s : Session) : (s.amid owner others).handle = s.handle := rfl

@[simp]
theorem operation_amid (s : Session) : (s.amid (some k) others).operation k = s.operation k :=
  Operations.get_set others _ k

theorem withOperation_amid (s : Session) (o : Operation) :
    (s.amid (some k) others).withOperation k o = (s.withOperation k o).amid (some k) others := by
  simp [amid, withOperation, Operations.amid]

end Session

namespace Action

variable {ω α β : Type} {owner : Option OperationKind} {k : OperationKind}

/-- The action sees and touches no operation but that of the owner: among any others, it does the
same. -/
def Minds (owner : Option OperationKind) (action : Action ω α) : Prop :=
  ∀ others scene, action.run.run (scene.amid owner others) =
    (fun r => (r.1, r.2.amid owner others)) <$> action.run.run scene

theorem Minds.goes {action : Action ω α} (h : Minds owner action) {scene after : Scene ω}
    {es : List Exchange} {outcome : Except Error α} (hgoes : action.Goes scene es outcome after)
    (others : Operations) :
    action.Goes (scene.amid owner others) es outcome (after.amid owner others) := by
  rw [Goes, h others scene, Talk.goes_map]
  exact ⟨_, hgoes, rfl⟩

theorem minds_bind {x : Action ω α} {f : α → Action ω β} (hx : Minds owner x)
    (hf : ∀ a, Minds owner (f a)) : Minds owner (x >>= f) := by
  intro others scene
  rw [run_bind, run_bind, hx others scene, bind_map_left, map_bind]
  refine bind_congr fun r => ?_
  obtain ⟨e | a, mid⟩ := r
  · rfl
  · exact hf a others mid

theorem minds_lift (x : Except Error α) : Minds owner (liftM x : Action ω α) := by
  intro others scene
  rfl

theorem minds_session {f : Session → Action ω β}
    (hview : ∀ s others, f (s.amid owner others) = f s) (hf : ∀ s, Minds owner (f s)) :
    Minds owner (session >>= f) := by
  intro others scene
  have hrun : ∀ scene, (session >>= f).run.run scene = (f scene.session).run.run scene := by
    intro scene
    rfl
  rw [hrun, hrun, Scene.amid, hview]
  exact hf scene.session others scene

theorem minds_get {f : Scene ω → Action ω β}
    (hview : ∀ scene others, f (scene.amid owner others) = f scene)
    (hf : ∀ scene, Minds owner (f scene)) : Minds owner (get >>= f) := by
  intro others scene
  have hrun : ∀ scene, (get >>= f).run.run scene = (f scene).run.run scene := by
    intro scene
    rfl
  rw [hrun, hrun, hview]
  exact hf scene others scene

theorem minds_subject : Minds owner (subject : Action ω ω) := by
  intro others scene
  rfl

theorem minds_setSubject (x : ω) : Minds owner (setSubject x) := by
  intro others scene
  rfl

theorem minds_ask (r : Request) : Minds owner (ask r : Action ω r.Answer) := by
  intro others scene
  rfl

theorem minds_throw (e : Error) : Minds owner (throw e : Action ω α) := by
  intro others scene
  rfl

theorem minds_useMechanism (call : NativeMechanism → Talk (Mechanism.Reply α)) :
    Minds owner (useMechanism call) := by
  intro others scene
  rw [run_useMechanism, run_useMechanism, Functor.map_map]
  rfl

theorem passes_minds (owner : Option OperationKind) : Passes fun {_ _} => Minds owner where
  lift := minds_lift
  bind := minds_bind
  session hview := minds_session fun s _ => hview s _
  subject := minds_subject
  setSubject := minds_setSubject
  ask _ := minds_ask _
  useMechanism _ := minds_useMechanism _

theorem minds_tryCatch {x : Action ω α} {f : Error → Action ω α} (hx : Minds owner x)
    (hf : ∀ e, Minds owner (f e)) : Minds owner (tryCatch x f) := by
  intro others scene
  rw [run_tryCatch, run_tryCatch, hx others scene, bind_map_left, map_bind]
  refine bind_congr fun r => ?_
  obtain ⟨e | a, mid⟩ := r
  · exact hf e others mid
  · rfl

theorem minds_setOperation (o : Operation) : Minds (some k) (setOperation k o : Action ω Unit) := by
  intro others scene
  have hrun : ∀ scene : Scene ω, (setOperation k o).run.run scene =
      pure (.ok (), ⟨scene.session.withOperation k o, scene.subject⟩) := by
    intro scene
    rfl
  rw [hrun, hrun, Scene.amid, Session.withOperation_amid]
  rfl

theorem minds_abandon : Minds (some k) (abandon k : Action ω Unit) :=
  minds_session (fun s others => by rw [Session.operation_amid]) fun s =>
    minds_setOperation (s.operation k).abandon

theorem minds_advance {last : Bool} {call : StateT (Scene ω) Talk (Except Status α)}
    (hcall : ∀ others scene, call.run (scene.amid (some k) others) =
      (fun r => (r.1, r.2.amid (some k) others)) <$> call.run scene) :
    Minds (some k) (advance k last call) := by
  intro others scene
  rw [run_advance, run_advance, hcall others scene]
  by_cases hactive : (scene.session.operation k).isActive
  · simp [Scene.amid, hactive, Session.withOperation_amid]
  · simp [Scene.amid, hactive]

theorem minds_talk {last : Bool} (t : Talk (Except Status α)) :
    Minds (some k) (advance k last (liftM t) : Action ω α) :=
  minds_advance fun _ _ => by simp

theorem minds_start (key : Option Handle) : Minds (some k) (start k key) := by
  intro others scene
  rw [run_start, run_start]
  by_cases hactive : (scene.session.operation k).isActive
  · simp [Scene.amid, hactive]
  · simp only [Scene.amid, Session.operation_amid, hactive, Bool.false_eq_true, if_false,
      Functor.map_map]
    refine congrArg (· <$> _) (funext fun r => ?_)
    obtain ⟨_ | _, m⟩ := r
    · rfl
    · simp only [Session.withOperation_amid]

theorem minds_startWith (key : Object) : Minds (some k) (startWith k key) :=
  minds_bind (minds_lift _) fun handle => minds_start (some handle)

theorem minds_on {π : Type} (x : π) {action : Action π α} (h : Minds owner action) :
    Minds owner (on x action : Action ω (α × π)) := by
  intro others scene
  have haction := h others ⟨scene.session, x⟩
  rw [run_on, run_on, Functor.map_map]
  simp only [Scene.amid, perform] at haction ⊢
  rw [haction, Functor.map_map]

theorem minds_abandoning {action : Action ω α} (h : Minds (some k) action) :
    Minds (some k) (abandoning k action) := by
  intro others scene
  rw [run_abandoning, run_abandoning, h others scene, Functor.map_map, Functor.map_map]
  simp only [Scene.amid, Session.operation_amid, Session.withOperation_amid]

section Cipher

variable {direction : Direction} {last : Bool} {offset : Nat}

theorem minds_writeFrom (call : Handle → Bytes → Talk Delivery) :
    Minds (some direction.kind) (writeFrom direction last offset call) := by
  refine minds_get (fun _ _ => rfl) fun ⟨here, buffer⟩ => ?_
  by_cases hoffset : offset ≤ buffer.length
  · have hdeliver : Minds (some direction.kind)
        (advance direction.kind last (deliver offset (call here.handle))) :=
      minds_advance fun _ _ => by simp [run_deliver, Scene.amid]
    dsimp only
    rw [if_pos hoffset]
    refine minds_bind hdeliver fun written => ?_
    by_cases hwritten : written ≤ buffer.length - offset
    · rw [if_pos hwritten]
      exact minds_lift (.ok _)
    · rw [if_neg hwritten]
      exact minds_bind minds_abandon fun _ => minds_throw _
  · dsimp only
    rw [if_neg hoffset]
    exact minds_throw _

theorem minds_cipherUpdate (input : Bytes) :
    Minds (some direction.kind) (cipherUpdate direction input offset) :=
  minds_writeFrom _

theorem minds_cipherFinal : Minds (some direction.kind) (cipherFinal direction offset) :=
  minds_writeFrom _

theorem minds_growing {call : Action Bytes Nat} (hcall : Minds owner call) (n : Nat) :
    Minds owner (growing call n) := by
  induction n with
  | zero => exact hcall
  | succ n ih =>
    refine minds_tryCatch hcall fun e => ?_
    by_cases he : e = .deviceStatus Status.bufferTooSmall
    · rw [if_pos he]
      exact minds_bind minds_subject fun buffer => minds_bind (minds_setSubject _) fun _ => ih
    · rw [if_neg he]
      exact minds_throw e

theorem minds_collect {part : String} {call : Action Bytes Nat} (hcall : Minds owner call) :
    Minds owner (collect part call) := by
  refine minds_bind (minds_growing hcall maxGrowth) fun written => ?_
  refine minds_bind minds_subject fun buffer => ?_
  by_cases hwritten : written ≤ buffer.length
  · rw [if_pos hwritten]
    exact minds_lift (.ok _)
  · rw [if_neg hwritten]
    exact minds_throw _

theorem minds_streamChunks (output : OutputBuffer) (pieces : List Bytes) :
    Minds (some direction.kind) (streamChunks direction output pieces) := by
  induction pieces generalizing output with
  | nil => exact minds_bind (minds_collect minds_cipherFinal) fun last => minds_lift (.ok _)
  | cons piece rest ih => exact minds_bind (minds_collect (minds_cipherUpdate piece)) fun _ => ih _

theorem minds_cipherAll (key : Object) (data : Bytes) :
    Minds (some direction.kind) (cipherAll direction key data) := by
  refine minds_bind (minds_startWith key) fun _ => ?_
  refine minds_session (fun s others => rfl) fun here => ?_
  refine minds_bind (minds_on _ (minds_abandoning (minds_streamChunks _ _))) fun output => ?_
  exact minds_lift (.ok _)

end Cipher

theorem minds_absorb (absorber : Absorber) (data : Bytes) :
    Minds (some absorber.kind) (absorb absorber data : Action ω Unit) :=
  minds_session (fun _ _ => rfl) fun _ => minds_talk _

theorem minds_signFinal : Minds (some .sign) (signFinal : Action ω Bytes) :=
  minds_session (fun _ _ => rfl) fun _ => minds_talk _

theorem minds_verifyFinal (signature : Bytes) :
    Minds (some .verify) (verifyFinal signature : Action ω Bool) :=
  minds_session (fun _ _ => rfl) fun here =>
    minds_talk (verdict <$> Talk.request (.verifyFinal here.handle signature))

theorem minds_digestFinal : Minds (some .digest) (digestFinal : Action ω Bytes) :=
  minds_session (fun _ _ => rfl) fun _ => minds_talk _

end Action

open Cryptoki.Action in
/-- Each call minds only the operation of its kind; if it has none, no operation at all. -/
theorem Call.minds (call : Call) : Minds call.kind? call.action := by
  cases call with
  | start kind _ key => exact minds_startWith key
  | startDigest _ => exact minds_start none
  | cipherUpdate direction input _ offset => exact minds_cipherUpdate input
  | cipherFinal direction _ offset => exact minds_cipherFinal
  | cipherAll direction _ key data => exact minds_cipherAll key data
  | absorb absorber data => exact minds_absorb absorber data
  | signFinal => exact minds_signFinal
  | verifyFinal signature => exact minds_verifyFinal signature
  | digestFinal => exact minds_digestFinal
  | sign _ key data =>
    exact minds_bind (minds_startWith key) fun _ =>
      minds_bind (minds_absorb .sign data) fun _ => minds_signFinal
  | verify _ key data signature =>
    exact minds_bind (minds_startWith key) fun _ =>
      minds_bind (minds_absorb .verify data) fun _ => minds_verifyFinal signature
  | digest _ data =>
    exact minds_bind (minds_start none) fun _ =>
      minds_bind (minds_absorb .digest data) fun _ => minds_digestFinal
  | reset kind => exact minds_setOperation _
  | _ => exact (passes_minds none).call rfl

/-- A course whose requests are all of the owner, and that leaves all of the session but the
operation of the owner. -/
structure Keeps (owner : Option OperationKind) (s : Session) (es : List Exchange) (t : Session) :
    Prop where
  kind : ∀ e ∈ es, e.request.kind? = owner
  frame : t = { s with operations := t.operations.amid s.operations owner }

theorem keeps_lasting (owner : Option OperationKind) : Lasting (Keeps owner) where
  refl s := by
    refine ⟨by simp, ?_⟩
    cases owner <;> simp [Operations.amid]
  trans := by
    rintro s t u es fs ⟨hes, hst⟩ ⟨hfs, htu⟩
    constructor
    · intro e he
      rcases List.mem_append.mp he with he | he
      · exact hes e he
      · exact hfs e he
    · rw [htu, hst]
      cases owner <;> simp [Operations.amid]

theorem Follows.keeps {k : OperationKind} {s t : Session} {es : List Exchange}
    (h : Follows k s es t) : Keeps (some k) s es t :=
  ⟨h.drives.kind, h.frame⟩

theorem Bypasses.keeps {s t : Session} {es : List Exchange} (h : Bypasses s es t) :
    Keeps none s es t := by
  obtain ⟨rfl, hkind⟩ := h
  exact ⟨hkind, rfl⟩

theorem keeps_withOperation (k : OperationKind) (s : Session) (o : Operation) :
    Keeps (some k) s [] (s.withOperation k o) where
  kind := by simp
  frame := by simp [Session.withOperation, Operations.amid]

/-- A whole text keeps to its kind as well, though it does not follow the protocol. -/
theorem Action.keeps_cipherAll (direction : Direction) (key : Object) (data : Bytes) :
    Within (Keeps (some direction.kind)) (cipherAll direction key data) := by
  have hl := keeps_lasting (some direction.kind)
  intro scene after es outcome hgoes
  rcases cipherAll_cases hgoes with
    ⟨e, hstart⟩ | ⟨mid, before, rest, left, rfl, hstart, hrest, hend⟩
  · exact (follows_startWith direction.kind key hstart).keeps
  · rw [hend, ← List.append_nil (before ++ rest)]
    have hstarted := (follows_startWith direction.kind key hstart).keeps
    exact hl.trans (hl.trans hstarted hrest.keeps) (keeps_withOperation _ _ _)

/-- Each call keeps to its kind. -/
theorem Call.keeps (call : Call) : Action.Within (Keeps call.kind?) call.action := by
  cases hkind : call.kind? with
  | none => exact fun hgoes => (Call.bypasses hkind hgoes).keeps
  | some k =>
    by_cases hreset : ∃ j, call = .reset j
    · obtain ⟨j, rfl⟩ := hreset
      cases hkind
      intro hgoes
      obtain ⟨rfl, -, rfl⟩ := Action.goes_setOperation.mp hgoes
      exact keeps_withOperation _ _ _
    cases hwhole : call.isWhole with
    | false =>
      have hnone : ∀ j, call ≠ .reset j := by simpa using hreset
      exact fun hgoes => (Call.follows hkind hwhole hnone hgoes).keeps
    | true =>
      cases call with
      | cipherAll direction mechanism key data =>
        cases hkind
        exact Action.keeps_cipherAll direction key data
      | _ => cases hwhole

/-- The two sessions share the operation of the owner, and all that is no operation. -/
def Session.Shares (owner : Option OperationKind) (s t : Session) : Prop :=
  s.amid owner t.operations = t

namespace Session

variable {owner : Option OperationKind} {s t u : Session} {es : List Exchange}

theorem Shares.refl (owner : Option OperationKind) (s : Session) : s.Shares owner s := by
  cases owner <;> simp [Shares, amid, Operations.amid]

theorem Shares.operation {k : OperationKind} (h : s.Shares (some k) t) :
    t.operation k = s.operation k := by
  rw [← h, operation_amid]

theorem shares_amid (s : Session) (others : Operations) : s.Shares owner (s.amid owner others) := by
  cases owner <;> simp [Shares, amid, Operations.amid]

/-- A course that keeps to another kind leaves what is shared. -/
theorem Shares.of_keeps {other : Option OperationKind} (h : s.Shares owner t)
    (hkeeps : Keeps other s es u) (hne : other ≠ owner) : u.Shares owner t := by
  have hsame : u.amid owner t.operations = s.amid owner t.operations := by
    rw [hkeeps.frame]
    cases owner with
    | none => rfl
    | some k =>
      have hk : (u.operations.amid s.operations other).get k = s.operations.get k := by
        cases other with
        | none => rfl
        | some j =>
          have hjk : k ≠ j := by
            rintro rfl
            exact hne rfl
          exact Operations.get_set_of_ne _ _ hjk
      exact congrArg (fun o => { s with operations := t.operations.set o k }) hk
  exact hsame.trans h

end Session

end Cryptoki
