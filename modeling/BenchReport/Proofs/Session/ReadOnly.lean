import BenchReport.Proofs.Session.Collecting
import BenchReport.Session.Stamp
set_option autoImplicit false

namespace BenchReport

namespace Call

variable {σ α β γ : Type} {view : σ → γ}

/-- A call leaves what is seen of the state as it is, whatever becomes of the call. -/
def Keeps (view : σ → γ) (c : Call σ α) : Prop := ∀ s, view (c.run.run s).2 = view s

theorem keeps_pure (a : α) : (pure a : Call σ α).Keeps view := fun _ => rfl

theorem keeps_throw (e : Error) : (throw e : Call σ α).Keeps view := fun _ => rfl

theorem keeps_get : (get : Call σ σ).Keeps view := fun _ => rfl

theorem keeps_lift (x : Except Error α) : (liftM x : Call σ α).Keeps view := by
  cases x with
  | error e => exact fun _ => rfl
  | ok a => exact fun _ => rfl

theorem Keeps.bind {x : Call σ α} {f : α → Call σ β} (first : x.Keeps view)
    (next : ∀ a, (f a).Keeps view) : (x >>= f).Keeps view := by
  intro s
  have kept := first s
  rw [ExceptT.run_bind, StateT.run_bind]
  rcases ran : x.run.run s with ⟨result, t⟩
  rw [ran] at kept
  cases result with
  | error e => exact kept
  | ok a => exact (next a t).trans kept

theorem Keeps.beside {c : Call σ α} (keeps : c.Keeps view) :
    c.beside.Keeps fun s : σ × Nat => view s.1 :=
  fun s => keeps s.1

end Call

namespace Source

variable {σ γ : Type} {view : σ → γ} {s : Source σ}

/-- No call to the source touches what is seen of its state. -/
structure Keeps (view : σ → γ) (s : Source σ) : Prop where
  connect : s.connect.Keeps view
  stages : s.stages.Keeps view
  actions (name : String) : (s.actions name).Keeps view
  results (name : String) : (s.results name).Keeps view
  facts (name : String) : (s.facts name).Keeps view
  close : s.close.Keeps view

theorem Keeps.block (keeps : s.Keeps view) (name : String) : (s.block name).Keeps view :=
  (keeps.facts name).bind fun _ => (keeps.actions name).bind fun _ =>
    (keeps.results name).bind fun _ => Call.keeps_lift _

theorem Keeps.blocks (keeps : s.Keeps view) (names : List String) :
    (s.blocks names).Keeps view := by
  induction names with
  | nil => exact Call.keeps_pure _
  | cons name rest ih => exact (keeps.block name).bind fun _ => ih.bind fun _ => Call.keeps_pure _

theorem Keeps.report (keeps : s.Keeps view) : s.report.Keeps view :=
  keeps.stages.bind fun names => (keeps.blocks names).bind fun _ => Call.keeps_lift _

theorem Keeps.collect (keeps : s.Keeps view) : s.collect.Keeps view := by
  intro a
  have opened := keeps.connect a
  rcases connected : s.connect.run.run a with ⟨answer, b⟩
  rw [connected] at opened
  cases answer with
  | error e =>
      rw [collect_unconnected connected]
      exact opened
  | ok _ =>
      have reported := keeps.report b
      rcases outcome : s.report.run.run b with ⟨result, c⟩
      rw [outcome] at reported
      rw [collect_connected connected outcome rfl]
      exact (keeps.close c).trans (reported.trans opened)

/-- Stamping results touches the count of stamps only. -/
theorem Keeps.stamped (keeps : s.Keeps view) (stamps : Stamps) :
    (s.stamped stamps).Keeps fun t : σ × Nat => view t.1 where
  connect := keeps.connect.beside
  stages := keeps.stages.beside
  actions name := (keeps.actions name).beside
  results name := (keeps.results name).beside.bind fun _ => Call.keeps_get.bind fun _ =>
    Call.Keeps.bind (fun _ => rfl) fun _ => Call.keeps_pure _
  facts name := (keeps.facts name).beside
  close := keeps.close.beside

end Source

namespace Archive

variable {γ : Type} {view : Archive → γ}

theorem keeps_connect (blind : ∀ (a : Archive) session, view { a with session } = view a) :
    connect.Keeps view := by
  intro a
  cases loaded : a.load with
  | error e => rw [connect_failed loaded]
  | ok session =>
      rw [connect_of loaded]
      exact blind a (some session)

theorem keeps_connected : connected.Keeps view :=
  Call.keeps_get.bind fun a => by
    cases a.session with
    | none => exact Call.keeps_throw _
    | some session => exact Call.keeps_pure _

theorem keeps_stage (name : String) : (stage name).Keeps view :=
  keeps_connected.bind fun session => by
    cases session.find? name with
    | none => exact Call.keeps_throw _
    | some entry => exact Call.keeps_pure _

/-- No call to an archive touches anything but the session that it holds. -/
theorem keeps_but_session (blind : ∀ (a : Archive) session, view { a with session } = view a) :
    source.Keeps view where
  connect := keeps_connect blind
  stages := keeps_connected.bind fun _ => Call.keeps_pure _
  actions name := (keeps_stage name).bind fun _ => Call.keeps_lift _
  results name := (keeps_stage name).bind fun _ => Call.keeps_pure _
  facts name := (keeps_stage name).bind fun _ => Call.keeps_pure _
  close := fun a => blind a none

/-- No call to an archive touches the files. -/
theorem keeps_source : source.Keeps files := keeps_but_session fun _ _ => rfl

end Archive

end BenchReport
