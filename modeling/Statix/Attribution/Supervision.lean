import Mathlib.Logic.Function.Basic
import Mathlib.Logic.Relation

/-!
# The main loop and the tasks it watches

Model of the two supervision arms of the agent's `select!` loop (`statix/src/main.rs`): the K8s
watcher, whose arm is gated by `in_k8s`, and the ring-drops monitor (`statix/src/loader.rs`). An arm
is taken when its `JoinHandle` is ready; its body awaits the handle once more for the result, logs it
and puts a new task in the place of the old one.

* A `JoinHandle` yields the result of its task once. Polled after that, it panics.
* A task can end in any moment, by a return or by a panic; which ends are possible is a parameter of
  the step relation. The watcher also returns when no Kubernetes API is configured or the client
  cannot be built.
* The other arms of the loop touch no handle. They are left out, up to the signals that stop it.

Results:

* `armPoll_panics`: the body of an arm polls a handle that has yielded its result.
* `unsupervised_run`: so no end is ever logged and no task is respawned.
* **`awaited_once_iff`**: no handle is polled after completion in any run exactly if no task the loop
  waits for can end.
-/

namespace Statix.Attribution

/-- The supervised tasks. -/
inductive Supervised where
  | k8sWatcher
  | ringMonitor
  deriving DecidableEq

/-- What `await` on a handle gives: `Ok(())` or the `JoinError` of a panic. -/
inductive TaskEnd where
  | returned
  | panicked
  deriving DecidableEq

/-- A `JoinHandle`, by what its next poll finds. -/
inductive JoinHandle where
  | running
  /-- A task that waits on `std::future::pending`. -/
  | parked
  | finished (how : TaskEnd)
  /-- The result was given to an earlier poll. -/
  | yielded
  deriving DecidableEq

/-- Outcome of a poll. -/
inductive Polled where
  | pending
  | ready (how : TaskEnd)
  /-- `JoinHandle polled after completion`. -/
  | panic
  deriving DecidableEq

/-- `JoinHandle::poll`. -/
def JoinHandle.poll : JoinHandle → Polled × JoinHandle
  | .running => (.pending, .running)
  | .parked => (.pending, .parked)
  | .finished how => (.ready how, .yielded)
  | .yielded => (.panic, .yielded)

/-- Where the main task is. -/
inductive MainPhase where
  /-- In `select!`. -/
  | selecting
  /-- At the `await` in the body of a supervision arm. -/
  | arm (t : Supervised)
  | stopped
  /-- The main task panicked in a poll of this handle. -/
  | panicked (t : Supervised)
  deriving DecidableEq

/-- The main task: its handles, the ends it logged and the tasks it started again. -/
structure Supervisor where
  inK8s : Bool
  handle : Supervised → JoinHandle
  phase : MainPhase
  logged : List (Supervised × TaskEnd)
  respawned : List Supervised

/-- At the first `select!`, both tasks spawned. -/
def Supervisor.start (inK8s : Bool) : Supervisor := ⟨inK8s, fun _ => .running, .selecting, [], []⟩

/-- The condition of an arm: `if in_k8s` for the watcher. -/
def awaits (inK8s : Bool) : Supervised → Bool
  | .k8sWatcher => inK8s
  | .ringMonitor => true

/-- What the body of an arm puts in the place of the handle: `spawn_k8s_watcher`, or a task that
never ends. -/
def spawned : Supervised → JoinHandle
  | .k8sWatcher => .running
  | .ringMonitor => .parked

/-- The poll of an arm's future by `select!`. -/
def Supervisor.selectPoll (x : Supervisor) (t : Supervised) : Supervisor :=
  let (polled, handle) := (x.handle t).poll
  let x := { x with handle := Function.update x.handle t handle }
  match polled with
  | .pending => x
  | .ready _ => { x with phase := .arm t }
  | .panic => { x with phase := .panicked t }

/-- The poll of the `await` in the body of an arm, and the rest of the body. -/
def Supervisor.armPoll (x : Supervisor) (t : Supervised) : Supervisor :=
  let (polled, handle) := (x.handle t).poll
  let x := { x with handle := Function.update x.handle t handle }
  match polled with
  | .pending => x
  | .ready how => { x with
      phase := .selecting
      handle := Function.update x.handle t (spawned t)
      logged := x.logged ++ [(t, how)]
      respawned := x.respawned ++ [t] }
  | .panic => { x with phase := .panicked t }

/-- One step of the main task or of a task it watches. `ends` says which tasks can end, and how. -/
inductive SupervisionStep (ends : Supervised → TaskEnd → Prop) : Supervisor → Supervisor → Prop
  | taskEnds {x : Supervisor} {t : Supervised} {how : TaskEnd} (h : x.handle t = .running)
      (may : ends t how) :
      SupervisionStep ends x { x with handle := Function.update x.handle t (.finished how) }
  | selectPoll {x : Supervisor} {t : Supervised} (h : x.phase = .selecting)
      (enabled : awaits x.inK8s t = true) : SupervisionStep ends x (x.selectPoll t)
  | armPoll {x : Supervisor} {t : Supervised} (h : x.phase = .arm t) :
      SupervisionStep ends x (x.armPoll t)
  | signal {x : Supervisor} (h : x.phase = .selecting) :
      SupervisionStep ends x { x with phase := .stopped }

variable {ends : Supervised → TaskEnd → Prop} {inK8s : Bool} {x x' : Supervisor} {t : Supervised}

/-! ## The body of an arm -/

/-- What one poll does, by what it finds. -/
theorem selectPoll_cases (x : Supervisor) (t : Supervised) :
    (x.handle t = .running ∨ x.handle t = .parked) ∧ x.selectPoll t = x ∨
    (∃ how, x.handle t = .finished how) ∧ x.selectPoll t =
      { x with handle := Function.update x.handle t .yielded, phase := .arm t } ∨
    x.handle t = .yielded ∧ x.selectPoll t = { x with phase := .panicked t } := by
  unfold Supervisor.selectPoll
  have hself : Function.update x.handle t (x.handle t) = x.handle := Function.update_eq_self t _
  cases h : x.handle t with
  | running =>
    rw [h] at hself
    simp [JoinHandle.poll, hself]
  | parked =>
    rw [h] at hself
    simp [JoinHandle.poll, hself]
  | finished how => simp [JoinHandle.poll]
  | yielded =>
    rw [h] at hself
    simp [JoinHandle.poll, hself]

/-- **The body polls a handle that has yielded its result.** -/
theorem armPoll_panics (h : x.handle t = .yielded) :
    x.armPoll t = { x with phase := .panicked t } := by
  have hself : Function.update x.handle t .yielded = x.handle := by
    rw [← h]
    exact Function.update_eq_self t _
  unfold Supervisor.armPoll
  simp [h, JoinHandle.poll, hself]

/-- **What every run keeps**: an arm that was taken has used up its handle, and nothing was logged or
started again. -/
structure Unsupervised (x : Supervisor) : Prop where
  arm : ∀ t, x.phase = .arm t → x.handle t = .yielded
  logged : x.logged = []
  respawned : x.respawned = []

theorem unsupervised_step (h : Unsupervised x) (hstep : SupervisionStep ends x x') :
    Unsupervised x' := by
  cases hstep with
  | @taskEnds t how hrun may =>
    refine ⟨fun t' ht' => ?_, h.logged, h.respawned⟩
    have hy := h.arm t' ht'
    have hne : t' ≠ t := by
      rintro rfl
      rw [hy] at hrun
      cases hrun
    exact (Function.update_of_ne hne _ _).trans hy
  | @selectPoll t hs enabled =>
    rcases selectPoll_cases x t with ⟨-, e⟩ | ⟨-, e⟩ | ⟨-, e⟩
    · rw [e]
      exact h
    · rw [e]
      refine ⟨fun t' ht' => ?_, h.logged, h.respawned⟩
      cases ht'
      exact Function.update_self t _ _
    · rw [e]
      exact ⟨fun t' ht' => (by cases ht'), h.logged, h.respawned⟩
  | @armPoll t ha =>
    rw [armPoll_panics (h.arm t ha)]
    exact ⟨fun t' ht' => (by cases ht'), h.logged, h.respawned⟩
  | signal hs => exact ⟨fun t' ht' => (by cases ht'), h.logged, h.respawned⟩

/-- **No end is logged and no task is respawned**, in any run. -/
theorem unsupervised_run
    (run : Relation.ReflTransGen (SupervisionStep ends) (.start inK8s) x) : Unsupervised x := by
  induction run with
  | refl => exact ⟨fun t ht => (by cases ht), rfl, rfl⟩
  | tail _ hstep ih => exact unsupervised_step ih hstep

/-! ## Runs in which no awaited task ends -/

/-- **What a run keeps when no awaited task ends.** -/
structure Quiet (inK8s : Bool) (x : Supervisor) : Prop where
  gate : x.inK8s = inK8s
  alive : ∀ t, awaits inK8s t = true → x.handle t = .running
  phase : x.phase = .selecting ∨ x.phase = .stopped

theorem quiet_step (never : ∀ t how, awaits inK8s t = true → ¬ends t how) (h : Quiet inK8s x)
    (hstep : SupervisionStep ends x x') : Quiet inK8s x' := by
  cases hstep with
  | @taskEnds t how hrun may =>
    refine ⟨h.gate, fun t' ht' => ?_, h.phase⟩
    have hne : t' ≠ t := by
      rintro rfl
      exact never t' how ht' may
    exact (Function.update_of_ne hne _ _).trans (h.alive t' ht')
  | @selectPoll t hs enabled =>
    rw [h.gate] at enabled
    have hrun := h.alive t enabled
    rcases selectPoll_cases x t with ⟨-, e⟩ | ⟨⟨how, hf⟩, -⟩ | ⟨hy, -⟩
    · rw [e]
      exact h
    · rw [hrun] at hf
      cases hf
    · rw [hrun] at hy
      cases hy
  | @armPoll t ha =>
    rcases h.phase with hp | hp
    · rw [ha] at hp
      cases hp
    · rw [ha] at hp
      cases hp
  | signal hs => exact ⟨h.gate, h.alive, Or.inr rfl⟩

theorem quiet_run (never : ∀ t how, awaits inK8s t = true → ¬ends t how)
    (run : Relation.ReflTransGen (SupervisionStep ends) (.start inK8s) x) : Quiet inK8s x := by
  induction run with
  | refl => exact ⟨rfl, fun _ _ => rfl, Or.inl rfl⟩
  | tail _ hstep ih => exact quiet_step never ih hstep

/-! ## When a task ends -/

/-- The end of an awaited task, its arm and the body of the arm. -/
theorem end_panics {how : TaskEnd} (may : ends t how) (enabled : awaits inK8s t = true) :
    ∃ x, Relation.ReflTransGen (SupervisionStep ends) (.start inK8s) x ∧
      x.phase = .panicked t := by
  let x₁ : Supervisor := { Supervisor.start inK8s with
    handle := Function.update (fun _ => .running) t (.finished how) }
  let x₂ : Supervisor := { x₁ with handle := Function.update x₁.handle t .yielded, phase := .arm t }
  have hends : SupervisionStep ends (.start inK8s) x₁ := .taskEnds rfl may
  have hfinished : x₁.handle t = .finished how := by simp [x₁]
  have harm : SupervisionStep ends x₁ x₂ := by
    have hpoll : x₁.selectPoll t = x₂ := by
      rcases selectPoll_cases x₁ t with ⟨hr, -⟩ | ⟨-, e⟩ | ⟨hy, -⟩
      · rw [hfinished] at hr
        rcases hr with hr | hr <;> cases hr
      · exact e
      · rw [hfinished] at hy
        cases hy
    rw [← hpoll]
    exact .selectPoll rfl enabled
  have hbody : SupervisionStep ends x₂ { x₂ with phase := .panicked t } := by
    have hyielded : x₂.handle t = .yielded := by simp [x₂]
    rw [← armPoll_panics hyielded]
    exact .armPoll rfl
  exact ⟨_, ((Relation.ReflTransGen.single hends).tail harm).tail hbody, rfl⟩

/-- **When a handle is polled after completion.** For every set of ends the tasks can come to, in any
order: no run polls a handle that has yielded its result exactly if no awaited task can end. And in no
run at all is an end logged or a task started again. -/
theorem awaited_once_iff (inK8s : Bool) (ends : Supervised → TaskEnd → Prop) :
    ((∀ x, Relation.ReflTransGen (SupervisionStep ends) (.start inK8s) x →
        ∀ t, x.phase ≠ .panicked t) ↔
      ∀ t how, awaits inK8s t = true → ¬ends t how) ∧
    ∀ x, Relation.ReflTransGen (SupervisionStep ends) (.start inK8s) x →
      x.logged = [] ∧ x.respawned = [] := by
  refine ⟨⟨fun h t how enabled may => ?_, fun never x run t hp => ?_⟩, fun x run => ?_⟩
  · obtain ⟨x, run, hp⟩ := end_panics may enabled
    exact h x run t hp
  · rcases (quiet_run never run).phase with hs | hs
    · rw [hp] at hs
      cases hs
    · rw [hp] at hs
      cases hs
  · have hu := unsupervised_run run
    exact ⟨hu.logged, hu.respawned⟩

/-- **A watcher that returns ends the agent.** The client of a configured Kubernetes API cannot be
built: the watcher returns, and the main task panics where it should log and respawn. -/
theorem returned_watcher_panics :
    ∃ x, Relation.ReflTransGen
        (SupervisionStep fun t how => t = .k8sWatcher ∧ how = .returned) (.start true) x ∧
      x.phase = .panicked .k8sWatcher ∧ x.logged = [] ∧ x.respawned = [] := by
  have hend : ∃ x, Relation.ReflTransGen
      (SupervisionStep fun t how => t = .k8sWatcher ∧ how = .returned) (.start true) x ∧
        x.phase = .panicked .k8sWatcher := end_panics ⟨rfl, rfl⟩ rfl
  obtain ⟨x, run, hp⟩ := hend
  have hu := unsupervised_run run
  exact ⟨x, run, hp, hu.logged, hu.respawned⟩

end Statix.Attribution
