import LevelPlay.Proofs.Engine.Simulation

/-! Engines at work for a host. Between two steps the host keeps its state, so that what it was asked in one step
may show in its answers in the next. Two engines that begin alike still reply alike to everything that they are
asked, whatever their hosts keep, as long as the hosts answer alike. -/

namespace LevelPlay

/-- What an engine is asked: to start a script, or to step. -/
inductive Request where
  | start (arguments : List Float)
  | step (now : Float)

/-- The call of the engine, with its host in this state. -/
def Request.call {σ : Type} (host : Host σ) (state : σ) : Request → Engine.Call
  | start arguments => .start arguments
  | step now => .step host state now

/-- An engine, and the state of the host that it works for. -/
structure Session (σ : Type) where
  engine : Engine
  host : σ

namespace Session

variable {σ τ : Type}

/-- The session after a request. Only a step is the host's concern. -/
def ask (host : Host σ) (session : Session σ) (request : Request) : Session σ where
  engine := (session.engine.answer (request.call host session.host)).1
  host :=
    match request with
    | .start _ => session.host
    | .step now => (session.engine.step host session.host now).host

/-- The calls that are made of the engine for some requests, each with the host in the state that it has come to. -/
def calls (host : Host σ) (session : Session σ) : List Request → List Engine.Call
  | [] => []
  | request :: rest => request.call host session.host :: (session.ask host request).calls host rest

/-- The session after some requests, and the answers of the engine to its calls in order. -/
def askAll (host : Host σ) (session : Session σ) (requests : List Request) : Session σ × List Engine.Answer :=
  let last := session.engine.answers (session.calls host requests)
  (⟨last.1, (requests.foldl (ask host) session).host⟩, last.2)

theorem askAll_cons (host : Host σ) (session : Session σ) (request : Request) (rest : List Request) :
    session.askAll host (request :: rest) =
      (((session.ask host request).askAll host rest).1,
        (session.engine.answer (request.call host session.host)).2 ::
          ((session.ask host request).askAll host rest).2) := rfl

/-- Sessions with the same engine, whose hosts are in related states. -/
structure Alike (R : σ → τ → Prop) (session : Session σ) (other : Session τ) : Prop where
  engine : other.engine = session.engine
  host : R session.host other.host

section Hosts

variable {R : σ → τ → Prop} {host : Host σ} {host' : Host τ} (hmatch : Host.MatchesCalls R host host')

include hmatch

theorem Alike.ask {session : Session σ} {other : Session τ} (h : Alike R session other) (request : Request) :
    Alike R (session.ask host request) (other.ask host' request) ∧
      (other.engine.answer (request.call host' other.host)).2 =
        (session.engine.answer (request.call host session.host)).2 := by
  cases request with
  | start arguments =>
      unfold Session.ask Request.call
      rw [h.engine]
      exact ⟨⟨rfl, h.host⟩, rfl⟩
  | step now =>
      have hstep := Frame.alike_step hmatch h.host session.engine now
      have hcallers := Engine.callers_eq hmatch h.host session.engine now
      unfold Session.ask Request.call
      rw [h.engine]
      constructor
      · exact ⟨hstep.engine, hstep.host⟩
      · show Engine.Answer.step _ _ = Engine.Answer.step _ _
        rw [hstep.report, hcallers]

theorem Alike.askAll {session : Session σ} {other : Session τ} (h : Alike R session other)
    (requests : List Request) :
    Alike R (session.askAll host requests).1 (other.askAll host' requests).1 ∧
      (other.askAll host' requests).2 = (session.askAll host requests).2 := by
  induction requests generalizing session other with
  | nil => exact ⟨h, rfl⟩
  | cons request rest ih =>
      obtain ⟨hnext, hanswer⟩ := h.ask hmatch request
      obtain ⟨hlast, hanswers⟩ := ih hnext
      rw [askAll_cons, askAll_cons]
      refine ⟨hlast, ?_⟩
      rw [hanswer, hanswers]

end Hosts

/-! ### Hosts that accept every call -/

/-- A recorder that refuses nothing and marks its calls with this frame. -/
def Accepts (frame : Nat) (recorder : Recorder) : Prop :=
  recorder.rejected = [] ∧ recorder.frame = frame

theorem matchesCalls_ignore (frame : Nat) :
    Host.MatchesCalls (fun _ recorder => Accepts frame recorder) Host.ignore Recorder.host := by
  intro _ recorder id instruction hne haccepts
  cases instruction with
  | nil => exact absurd rfl hne
  | cons opcode operands =>
      constructor
      · simp [Recorder.host, Recorder.handle, Host.ignore, haccepts.1]
      · exact haccepts

/-- An engine depends on its host only through the answers that it gets. Two hosts may keep whatever they like: if
in related states they answer the calls of an engine alike and pass to related states, then sessions with them
that begin with the same engine reply alike to any requests, and end with the same engine. So steps for a
recorder that refuses nothing differ from steps without a host in the calls that are kept, and in nothing else. -/
theorem replies_depend_on_answers :
    (∀ {σ τ : Type} (R : σ → τ → Prop) (host : Host σ) (host' : Host τ), Host.MatchesCalls R host host' →
      ∀ (engine : Engine) (s : σ) (t : τ), R s t → ∀ requests : List Request,
        (askAll host' ⟨engine, t⟩ requests).2 = (askAll host ⟨engine, s⟩ requests).2 ∧
          (askAll host' ⟨engine, t⟩ requests).1.engine = (askAll host ⟨engine, s⟩ requests).1.engine ∧
          R (askAll host ⟨engine, s⟩ requests).1.host (askAll host' ⟨engine, t⟩ requests).1.host) ∧
      ∀ (engine : Engine) (recorder : Recorder), recorder.rejected = [] → ∀ requests : List Request,
        (askAll Recorder.host ⟨engine, recorder⟩ requests).2 = (askAll Host.ignore ⟨engine, ()⟩ requests).2 ∧
          (askAll Recorder.host ⟨engine, recorder⟩ requests).1.engine =
            (askAll Host.ignore ⟨engine, ()⟩ requests).1.engine ∧
          ∃ calls, (askAll Recorder.host ⟨engine, recorder⟩ requests).1.host = { recorder with calls } := by
  constructor
  · intro σ τ R host host' hmatch engine s t hstates requests
    have hbegin : Alike R ⟨engine, s⟩ ⟨engine, t⟩ := ⟨rfl, hstates⟩
    obtain ⟨halike, hanswers⟩ := hbegin.askAll hmatch requests
    exact ⟨hanswers, halike.engine, halike.host⟩
  · intro engine recorder hrejected requests
    have hbegin : Alike (fun (_ : Unit) other => Accepts recorder.frame other) ⟨engine, ()⟩ ⟨engine, recorder⟩ :=
      ⟨rfl, hrejected, rfl⟩
    obtain ⟨halike, hanswers⟩ := hbegin.askAll (matchesCalls_ignore recorder.frame) requests
    obtain ⟨hrejected', hframe⟩ := halike.host
    refine ⟨hanswers, halike.engine, (askAll Recorder.host ⟨engine, recorder⟩ requests).1.host.calls, ?_⟩
    rw [← hframe, ← hrejected'.trans hrejected.symm]

/-- A script with a call that a recorder may refuse. -/
def fuse : Engine :=
  .ofScripts (IdMap.empty.insert 1 ⟨1, [["Ring"], ["Explode"], ["Ring"]]⟩)

/-- The script is started, stepped, and started again. -/
def lighting : List Request :=
  [.start [1.0], .step 0.0, .start [1.0], .step 1.0]

/-- A recorder that has already kept a call. -/
def worn : Recorder := ⟨#[⟨3, 2, "Ring", []⟩], 7, ["Explode"]⟩

/-- Recorders that refuse the same opcode get the same replies, whatever else they have kept. -/
theorem replies_lighting :
    Host.MatchesCalls (fun s t : Recorder => t.rejected = s.rejected) Recorder.host Recorder.host ∧
      (askAll Recorder.host ⟨fuse, worn⟩ lighting).2 =
        (askAll Recorder.host ⟨fuse, .rejecting ["Explode"]⟩ lighting).2 ∧
      (askAll Recorder.host ⟨fuse, .rejecting []⟩ lighting).2 = (askAll Host.ignore ⟨fuse, ()⟩ lighting).2 := by
  have hmatch : Host.MatchesCalls (fun s t : Recorder => t.rejected = s.rejected) Recorder.host Recorder.host := by
    intro s t id instruction hne hrejected
    cases instruction with
    | nil => exact absurd rfl hne
    | cons opcode operands =>
        constructor
        · simp [Recorder.host, Recorder.handle, hrejected]
        · exact hrejected
  refine ⟨hmatch, ?_, ?_⟩
  · exact (replies_depend_on_answers.1 _ _ _ hmatch fuse (.rejecting ["Explode"]) worn rfl lighting).1
  · exact (replies_depend_on_answers.2 fuse (.rejecting []) rfl lighting).1

end Session

end LevelPlay
