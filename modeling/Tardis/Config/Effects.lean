import Tardis.Config.Processor

/-! What `init` does to the process-wide state, over any sequence of calls and
whatever each returns: every call spawns at most one polling task, and no call
changes a variable other than `RUST_BACKTRACE`. The effect of each primitive is
stated once and composed through `bind`, so a step that fails keeps what the steps
before it did. -/

namespace Tardis.Config

open Tardis.Json

/-- A variable `do_init` never sets. -/
def otherVar (var : String × String) : Bool := var.1 != "RUST_BACKTRACE"

/-- How the process-wide state may change: at most `spawns` more tasks, and the
variables other than `RUST_BACKTRACE` as they were, in their order. -/
structure Keeps (spawns : Nat) (before after : Process) : Prop where
  tasks : after.tasks ≤ before.tasks + spawns
  vars : after.vars.filter otherVar = before.vars.filter otherVar

theorem Keeps.refl (process : Process) : Keeps 0 process process := ⟨Nat.le_refl _, rfl⟩

theorem Keeps.trans {m n : Nat} {p q r : Process} (first : Keeps m p q) (second : Keeps n q r) :
    Keeps (m + n) p r :=
  ⟨by have := first.tasks; have := second.tasks; omega, second.vars.trans first.vars⟩

theorem Keeps.mono {m n : Nat} {p q : Process} (keeps : Keeps m p q) (le : m ≤ n) : Keeps n p q :=
  ⟨by have := keeps.tasks; omega, keeps.vars⟩

/-- Setting `RUST_BACKTRACE` leaves every other variable where it was. -/
theorem filter_insertField_backtrace (vars : List (String × String)) (value : String) :
    (insertField vars "RUST_BACKTRACE" value).filter otherVar = vars.filter otherVar := by
  induction vars with
  | nil => rfl
  | cons var rest ih =>
    by_cases same : var.1 = "RUST_BACKTRACE"
    · simp [insertField, same, otherVar]
    · simp [insertField, same, otherVar, ih]

/-- The effect of a step from any state, whatever it returns. -/
def Touches (spawns : Nat) (step : Init α) : Prop :=
  ∀ process, Keeps spawns process (step.run.run process).2

namespace Touches

theorem pure (value : α) : Touches 0 (Pure.pure value : Init α) := Keeps.refl

theorem throw (failure : Failure) : Touches 0 (MonadExcept.throw failure : Init α) := Keeps.refl

theorem get : Touches 0 (MonadState.get : Init Process) := Keeps.refl

theorem modify {f : Process → Process} (keeps : ∀ process, Keeps n process (f process)) :
    Touches n (modify f : Init PUnit) := keeps

theorem mono {step : Init α} (touches : Touches m step) (le : m ≤ n) : Touches n step :=
  fun process => (touches process).mono le

/-- A failing first step ends the run with its effect; otherwise the effects add up. -/
theorem bind_add {x : Init α} {f : α → Init β} (first : Touches m x) (rest : ∀ a, Touches n (f a)) :
    Touches (m + n) (x >>= f) := by
  intro process
  have keeps := first process
  simp only [ExceptT.run_bind, StateT.run_bind]
  revert keeps
  rcases x.run.run process with ⟨_ | a, after⟩ <;> intro keeps
  · exact keeps.mono (Nat.le_add_right m n)
  · exact keeps.trans (rest a after)

theorem bind {x : Init α} {f : α → Init β} (first : Touches 0 x) (rest : ∀ a, Touches n (f a)) :
    Touches n (x >>= f) := by
  simpa only [Nat.zero_add] using bind_add first rest

theorem bind_spawn {x : Init α} {f : α → Init β} (first : Touches n x) (rest : ∀ a, Touches 0 (f a)) :
    Touches n (x >>= f) :=
  bind_add first rest

theorem ite {c : Prop} [Decidable c] {x y : Init α} (yes : Touches n x) (no : Touches n y) :
    Touches n (if c then x else y) := by
  split <;> assumption

end Touches

theorem liftTardis_touches (result : Except TardisError α) : Touches 0 (liftTardis result) := by
  cases result <;> first | exact Touches.pure _ | exact Touches.throw _

theorem liftConfig_touches (result : Except ConfigError α) : Touches 0 (liftConfig result) := by
  cases result <;> first | exact Touches.pure _ | exact Touches.throw _

theorem liftOutcome_touches (result : Outcome α) : Touches 0 (liftOutcome result) := by
  cases result <;> first | exact Touches.pure _ | exact Touches.throw _

theorem setVar_backtrace_keeps (process : Process) (value : String) :
    Keeps 0 process (process.setVar "RUST_BACKTRACE" value) :=
  ⟨Nat.le_refl _, filter_insertField_backtrace process.vars value⟩

/-! ## One call -/

/-- Only a pass with a center spawns, once, after the URLs are fetched. -/
theorem remoteSources_touches (caps : Capabilities) (profile : String) (center : ConfCenterConfig × String) :
    Touches 1 (remoteSources caps profile (some center)) := by
  unfold remoteSources
  refine Touches.bind (liftTardis_touches _) fun _ => Touches.ite (Touches.mono (Touches.throw _) (Nat.zero_le 1)) ?_
  exact Touches.bind (liftTardis_touches _) fun _ =>
    Touches.bind_spawn (Touches.modify fun process => ⟨Nat.le_refl _, rfl⟩) fun _ => Touches.pure _

/-- Reading a built tree sets `RUST_BACKTRACE` and nothing else. -/
theorem readConfig_touches (caps : Capabilities) (cache : ConfigValue) : Touches 0 (readConfig caps cache) := by
  unfold readConfig
  exact Touches.bind (liftConfig_touches _) fun _ => Touches.bind (liftConfig_touches _) fun _ =>
    Touches.bind (Touches.modify fun process => setVar_backtrace_keeps process _) fun _ =>
      Touches.ite (Touches.pure _) (liftOutcome_touches _)

/-- After its remote part, a pass touches nothing but `RUST_BACKTRACE`. -/
theorem doInit_touches_of {confCenter : Option (ConfCenterConfig × String)}
    (remote : Touches n (remoteSources caps profile confCenter)) :
    Touches n (doInit caps relativePath profile confCenter) := by
  unfold doInit
  exact Touches.bind_spawn remote fun _ => Touches.bind Touches.get fun _ =>
    Touches.bind (liftConfig_touches _) fun cache => readConfig_touches caps cache

theorem doInit_local_touches (caps : Capabilities) (relativePath : Option String) (profile : String) :
    Touches 0 (doInit caps relativePath profile none) :=
  doInit_touches_of (Touches.pure _)

theorem remotePass_touches (caps : Capabilities) (relativePath : Option String) (profile : String)
    (config : TardisConfig) : Touches 1 (remotePass caps relativePath profile config) := by
  unfold remotePass
  split
  · exact Touches.ite (Touches.mono (Touches.throw _) (Nat.zero_le 1))
      (doInit_touches_of (remoteSources_touches caps profile _))
  · exact Touches.mono (Touches.pure _) (Nat.zero_le 1)

theorem initLocale_touches (caps : Capabilities) (relativePath : Option String) :
    Touches 0 (initLocale caps relativePath) := by
  cases relativePath
  · exact Touches.pure _
  · exact liftTardis_touches _

/-- One call of `init`, whatever it returns: at most one task more, and no variable
but `RUST_BACKTRACE` changed. -/
theorem init_touches (caps : Capabilities) (relativePath : Option String) (profile : String) :
    Touches 1 (init caps relativePath profile) := by
  unfold init
  exact Touches.bind (doInit_local_touches caps relativePath profile) fun config =>
    Touches.bind_spawn (remotePass_touches caps relativePath profile config) fun _ =>
      Touches.bind (initLocale_touches caps relativePath) fun _ => Touches.pure _

/-! ## Sequences of calls -/

/-- One call of `init`: the outside world it sees, and its arguments. -/
structure Call where
  caps : Capabilities
  relativePath : Option String
  profile : String

/-- The process-wide state after a sequence of `init` calls, each returning whatever
it returns. -/
def runCalls : List Call → Process → Process
  | [], process => process
  | call :: rest, process => runCalls rest ((init call.caps call.relativePath call.profile).run.run process).2

theorem runCalls_keeps (calls : List Call) (process : Process) :
    Keeps calls.length process (runCalls calls process) := by
  induction calls generalizing process with
  | nil => exact Keeps.refl process
  | cons call rest ih =>
    have step := init_touches call.caps call.relativePath call.profile process
    simpa only [List.length_cons, Nat.add_comm] using step.trans (ih _)

/-! ## Calls do not interfere

A pass reads the process-wide state once, through the environment source, which
never sees `RUST_BACKTRACE`; the tasks it reads not at all. So what a call returns
does not depend on the calls before it. -/

/-- Two states no pass can tell apart: the same variables but `RUST_BACKTRACE`, in
the same order. -/
def Alike (p q : Process) : Prop := p.vars.filter otherVar = q.vars.filter otherVar

/-- A step returns the same from states no pass can tell apart, and leaves such states. -/
def Agrees (step : Init α) : Prop :=
  ∀ p q, Alike p q → (step.run.run p).1 = (step.run.run q).1 ∧ Alike (step.run.run p).2 (step.run.run q).2

namespace Agrees

theorem pure (value : α) : Agrees (Pure.pure value : Init α) := fun _ _ alike => ⟨rfl, alike⟩

theorem throw (failure : Failure) : Agrees (MonadExcept.throw failure : Init α) := fun _ _ alike => ⟨rfl, alike⟩

theorem modify {f : Process → Process} (keeps : ∀ p q, Alike p q → Alike (f p) (f q)) :
    Agrees (modify f : Init PUnit) := fun p q alike => ⟨rfl, keeps p q alike⟩

theorem bind {x : Init α} {f : α → Init β} (first : Agrees x) (rest : ∀ a, Agrees (f a)) : Agrees (x >>= f) := by
  intro p q alike
  have agrees := first p q alike
  simp only [ExceptT.run_bind, StateT.run_bind]
  revert agrees
  rcases x.run.run p with ⟨_ | a, p'⟩ <;> rcases x.run.run q with ⟨_ | b, q'⟩ <;>
    rintro ⟨⟨⟩, alike'⟩
  · exact ⟨rfl, alike'⟩
  · exact rest a p' q' alike'

/-- Reading the state is harmless when what follows reads nothing a pass can tell apart. -/
theorem get_bind {f : Process → Init β} (same : ∀ p q, Alike p q → f p = f q) (each : ∀ p, Agrees (f p)) :
    Agrees (MonadState.get >>= f) := fun p q alike => by
  show ((f p).run.run p).1 = ((f q).run.run q).1 ∧ Alike ((f p).run.run p).2 ((f q).run.run q).2
  rw [same p q alike]
  exact each q p q alike

theorem ite {c : Prop} [Decidable c] {x y : Init α} (yes : Agrees x) (no : Agrees y) : Agrees (if c then x else y) := by
  split <;> assumption

end Agrees

theorem liftTardis_agrees (result : Except TardisError α) : Agrees (liftTardis result) := by
  cases result <;> first | exact Agrees.pure _ | exact Agrees.throw _

theorem liftConfig_agrees (result : Except ConfigError α) : Agrees (liftConfig result) := by
  cases result <;> first | exact Agrees.pure _ | exact Agrees.throw _

theorem liftOutcome_agrees (result : Outcome α) : Agrees (liftOutcome result) := by
  cases result <;> first | exact Agrees.pure _ | exact Agrees.throw _

/-- The environment source ignores `RUST_BACKTRACE`. -/
theorem collectEnvironment_filter (vars : List (String × String)) :
    collectEnvironment (vars.filter otherVar) = collectEnvironment vars := by
  unfold collectEnvironment
  generalize ([] : ConfigMap) = props
  induction vars generalizing props with
  | nil => rfl
  | cons var rest ih =>
    by_cases same : var.1 = "RUST_BACKTRACE"
    · have ignored : environmentKey "RUST_BACKTRACE" = none := by decide
      simp [otherVar, same, ih, ignored]
    · simp [otherVar, same, ih]

theorem remoteSources_agrees (caps : Capabilities) (profile : String) (confCenter : Option (ConfCenterConfig × String)) :
    Agrees (remoteSources caps profile confCenter) := by
  cases confCenter with
  | none => exact Agrees.pure _
  | some center =>
    exact Agrees.bind (liftTardis_agrees _) fun _ => Agrees.ite (Agrees.throw _) <|
      Agrees.bind (liftTardis_agrees _) fun _ =>
        Agrees.bind (Agrees.modify fun _ _ alike => alike) fun _ => Agrees.pure _

theorem readConfig_agrees (caps : Capabilities) (cache : ConfigValue) : Agrees (readConfig caps cache) :=
  Agrees.bind (liftConfig_agrees _) fun _ => Agrees.bind (liftConfig_agrees _) fun _ =>
    Agrees.bind (Agrees.modify fun p q alike => (filter_insertField_backtrace p.vars _).trans
      (alike.trans (filter_insertField_backtrace q.vars _).symm)) fun _ =>
      Agrees.ite (Agrees.pure _) (liftOutcome_agrees _)

theorem passSources_alike {p q : Process} (alike : Alike p q) (caps : Capabilities) (relativePath : Option String)
    (profile : String) (remote : List (String × FileFormat)) :
    passSources caps relativePath profile remote p.vars = passSources caps relativePath profile remote q.vars := by
  rw [passSources, passSources, ← collectEnvironment_filter p.vars,
    show p.vars.filter otherVar = q.vars.filter otherVar from alike, collectEnvironment_filter]

theorem doInit_agrees (caps : Capabilities) (relativePath : Option String) (profile : String)
    (confCenter : Option (ConfCenterConfig × String)) : Agrees (doInit caps relativePath profile confCenter) :=
  Agrees.bind (remoteSources_agrees caps profile confCenter) fun _ =>
    Agrees.get_bind (fun _ _ alike => by simp only [passSources_alike alike]) fun _ =>
      Agrees.bind (liftConfig_agrees _) (readConfig_agrees caps)

theorem remotePass_agrees (caps : Capabilities) (relativePath : Option String) (profile : String)
    (config : TardisConfig) : Agrees (remotePass caps relativePath profile config) := by
  unfold remotePass
  split
  · exact Agrees.ite (Agrees.throw _) (doInit_agrees caps relativePath profile _)
  · exact Agrees.pure _

theorem initLocale_agrees (caps : Capabilities) (relativePath : Option String) :
    Agrees (initLocale caps relativePath) := by
  cases relativePath
  · exact Agrees.pure _
  · exact liftTardis_agrees _

theorem init_agrees (caps : Capabilities) (relativePath : Option String) (profile : String) :
    Agrees (init caps relativePath profile) := by
  unfold init
  exact Agrees.bind (doInit_agrees caps relativePath profile none) fun config =>
    Agrees.bind (remotePass_agrees caps relativePath profile config) fun _ =>
      Agrees.bind (initLocale_agrees caps relativePath) fun _ => Agrees.pure _

/-- A sequence of calls leaves a state no pass can tell from the one it started in. -/
theorem runCalls_alike (calls : List Call) (process : Process) : Alike (runCalls calls process) process := by
  induction calls generalizing process with
  | nil => rfl
  | cons call rest ih => exact (ih _).trans (init_touches call.caps call.relativePath call.profile process).vars

/-- Whatever the calls before it did and returned, a call of `init` returns what it
would have returned first. -/
theorem init_after_calls (calls : List Call) (call : Call) (process : Process) :
    ((init call.caps call.relativePath call.profile).run.run (runCalls calls process)).1 =
      ((init call.caps call.relativePath call.profile).run.run process).1 :=
  (init_agrees call.caps call.relativePath call.profile _ _ (runCalls_alike calls process)).1

/-- `conf-default` enables a Nacos center for the application `app`; the center
lists `urls`, and each remote document is `answer`. -/
def centerWorld (urls : List String) (answer : Except ConfigError Response) : Capabilities where
  readFile _ := .ok [("fw", .table [("app", .table [("id", .string "app")]),
    ("conf_center", .table [("url", .string "http://nacos:8848/nacos")])])]
  fetchConfUrls _ _ _ := .ok urls
  get _ := answer
  parse _ _ _ := .ok []
  decryptEcb _ _ := .ok ""
  localeInit _ := .ok ()

/-- Two calls that succeed leave two polling tasks, and a call whose remote document
cannot be fetched returns `Err` with its task spawned and `RUST_BACKTRACE` set. -/
theorem init_spawns_per_call_and_on_failure :
    let start : Process := ⟨[], 0⟩
    let listed := centerWorld [] (.ok ⟨404, .ok ""⟩)
    let first := (init listed (some "config") "").run.run start
    let second := (init listed (some "config") "").run.run first.2
    let refused := centerWorld ["http://nacos:8848/nacos/v1/cs/configs?dataId=app-default"]
      (.error (.foreign "connection refused"))
    let failed := (init refused (some "config") "").run.run start
    first.1.toBool ∧ second.1.toBool ∧ second.2.tasks = 2 ∧
      failed.1.toBool = false ∧ failed.2.tasks = 1 ∧ failed.2.vars = [("RUST_BACKTRACE", "0")] := by
  decide

end Tardis.Config
