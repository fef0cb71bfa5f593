import Tardis.Config.Effects
import Tardis.Config.Typing

/-! What the sources of a pass do to its result: the builder stops at the first source
that fails, so a local file that cannot be read ends `init` before anything else
happens; and a document the configuration center has not published is an empty
source, so a center whose documents are all missing resolves what the local pass
resolves, with its polling task spawned; a document that fails to collect ends
`init` with its error, the task spawned all the same. -/

namespace Tardis.Config

open Tardis.Json

/-! ## The builder's fold -/

/-- Building from `first ++ rest` builds `rest` on what `first` built. -/
theorem buildFrom_append (cache : ConfigValue) (first rest : List (Except ConfigError ConfigMap)) :
    buildFrom cache (first ++ rest) = buildFrom cache first >>= fun built => buildFrom built rest := by
  induction first generalizing cache with
  | nil => rfl
  | cons source first ih =>
    cases source with
    | error error => rfl
    | ok props => exact ih (collectTo props cache)

/-- Sources that collect nothing leave the tree as it is. -/
theorem buildFrom_empty (cache : ConfigValue) {sources : List (Except ConfigError ConfigMap)}
    (empty : ∀ source ∈ sources, source = .ok []) : buildFrom cache sources = .ok cache := by
  induction sources with
  | nil => rfl
  | cons source sources ih =>
    rw [empty source (List.mem_cons_self _ _)]
    exact ih fun other member => empty other (List.mem_cons_of_mem _ member)

/-- The builder stops at the first source that fails, with its error. -/
theorem buildFrom_first_error (cache : ConfigValue) {sources : List (Except ConfigError ConfigMap)}
    (collected : ∀ source ∈ sources, ∃ props, source = .ok props) (error : ConfigError)
    (rest : List (Except ConfigError ConfigMap)) : buildFrom cache (sources ++ .error error :: rest) = .error error := by
  induction sources generalizing cache with
  | nil => rfl
  | cons source sources ih =>
    obtain ⟨props, rfl⟩ := collected source (List.mem_cons_self _ _)
    exact ih (collectTo props cache) fun other member => collected other (List.mem_cons_of_mem _ member)

/-- The tree of a pass is the tree of its local files with the remote documents and
then the environment set on it. -/
theorem build_passSources (caps : Capabilities) (relativePath : Option String) (profile : String)
    (remote : List (String × FileFormat)) (vars : List (String × String)) :
    build (passSources caps relativePath profile remote vars) =
      build ((localFiles relativePath profile).map caps.readFile) >>= fun built =>
        buildFrom built (remote.map fun source => HttpSource.collect caps source.1 source.2) >>= fun built =>
          buildFrom built [.ok (collectEnvironment vars)] := by
  rw [build, passSources, buildFrom_append, buildFrom_append, build, bind_assoc]

/-- A step that returns goes on with what follows it. -/
theorem run_bind_ok {x : Init α} {f : α → Init β} {process after : Process} {a : α}
    (ran : x.run.run process = (.ok a, after)) : (x >>= f).run.run process = (f a).run.run after := by
  simp only [ExceptT.run_bind, StateT.run_bind, ran]
  rfl

/-- A step that fails ends what follows it with its failure. -/
theorem run_bind_error {x : Init α} {f : α → Init β} {process after : Process} {failure : Failure}
    (failed : x.run.run process = (.error failure, after)) : (x >>= f).run.run process = (.error failure, after) := by
  simp only [ExceptT.run_bind, StateT.run_bind, failed]
  rfl

/-- Past its remote part, a pass builds its tree and reads it. -/
theorem doInit_after_remote {caps : Capabilities} {relativePath : Option String} {profile : String}
    {confCenter : Option (ConfCenterConfig × String)} {process after : Process} {remote : List (String × FileFormat)}
    (fetched : (remoteSources caps profile confCenter).run.run process = (.ok remote, after)) :
    (doInit caps relativePath profile confCenter).run.run process =
      (liftConfig (build (passSources caps relativePath profile remote after.vars)) >>= readConfig caps).run.run after := by
  rw [doInit, run_bind_ok fetched]
  rfl

/-! ## A local file that cannot be read -/

/-- A local file that fails to collect ends `init` with its error, before any
remote call: no task is spawned and no variable set. -/
theorem init_local_failure (caps : Capabilities) (relativePath : Option String) (profile : String)
    {error : ConfigError} (failed : build ((localFiles relativePath profile).map caps.readFile) = .error error)
    (process : Process) :
    (init caps relativePath profile).run.run process = (.error (.err error.toTardisError), process) := by
  have stopped : build (passSources caps relativePath profile [] process.vars) = .error error := by
    rw [build_passSources, failed]
    rfl
  have first : (doInit caps relativePath profile none).run.run process = (.error (.err error.toTardisError), process) := by
    rw [@doInit_after_remote caps relativePath profile none process process [] rfl, stopped]
    rfl
  rw [init, run_bind_error first]

/-- `conf-default` is missing. -/
def missingWorld : Capabilities where
  readFile file := .error (.foreign ("configuration file " ++ quoted file ++ " not found"))
  fetchConfUrls _ _ _ := .ok []
  get _ := .ok ⟨404, .ok ""⟩
  parse _ _ _ := .ok []
  decryptEcb _ _ := .ok ""
  localeInit _ := .ok ()

/-- Without `conf-default`, `init` returns the wrapped error of the file source. -/
theorem init_local_failure_missing_default :
    let start : Process := ⟨[("TARDIS_FW.APP.ID", "app")], 0⟩
    build ((localFiles (some "config") "test").map missingWorld.readFile) =
        .error (.foreign "configuration file \"config/conf-default\" not found") ∧
      (init missingWorld (some "config") "test").run.run start =
        (.error (.err (.wrap "[Tardis.Config] configuration file \"config/conf-default\" not found"
          "-1-tardis-config-error")), start) :=
  ⟨rfl, @init_local_failure missingWorld (some "config") "test"
    (.foreign "configuration file \"config/conf-default\" not found") rfl _⟩

/-! ## A configuration center with nothing published -/

/-- With a known format and kind, and the URLs listed, the remote part of a pass
spawns its task and adds one document per URL. -/
theorem remoteSources_run (caps : Capabilities) (profile : String) {center : ConfCenterConfig} {appId : String}
    {format : FileFormat} {urls : List String} (formatted : centerFormat center = .ok format)
    (nacos : lowercase center.kind = "nacos") (listed : caps.fetchConfUrls center appId profile = .ok urls)
    (process : Process) :
    (remoteSources caps profile (some (center, appId))).run.run process =
      (.ok (urls.map fun url => (url, format)), { process with tasks := process.tasks + 1 }) := by
  simp only [remoteSources, liftTardis, formatted, listed, nacos, ne_eq, not_true_eq_false, if_false]
  rfl

/-- Reading a built tree neither reads nor changes the tasks. -/
theorem readConfig_spawned (caps : Capabilities) (cache : ConfigValue) (process : Process) (n : Nat) :
    (readConfig caps cache).run.run { process with tasks := process.tasks + n } =
      Prod.map id (fun after => { after with tasks := after.tasks + n }) ((readConfig caps cache).run.run process) := by
  cases read : readWorkspace cache with
  | error failure => simp only [readConfig, read, liftConfig]; rfl
  | ok workspace =>
    cases typed : readFrameworkAt cache with
    | error failure => simp only [readConfig, read, typed, liftConfig]; rfl
    | ok fw =>
      by_cases salt : fw.adv.salt.isEmpty
      · simp only [readConfig, read, typed, salt, liftConfig, pure_bind, if_true]; rfl
      · simp only [readConfig, read, typed, salt, liftConfig, pure_bind, Bool.false_eq_true, if_false]
        cases decryptConfig caps workspace fw <;> rfl

/-- Documents that collect nothing leave the tree of the pass as the local files and
the environment build it. -/
theorem passSources_unpublished (caps : Capabilities) (relativePath : Option String) (profile : String)
    {remote : List (String × FileFormat)} (unpublished : ∀ source ∈ remote, HttpSource.collect caps source.1 source.2 = .ok [])
    (vars : List (String × String)) :
    build (passSources caps relativePath profile remote vars) = build (passSources caps relativePath profile [] vars) := by
  have empty : ∀ cache, buildFrom cache (remote.map fun source => HttpSource.collect caps source.1 source.2) = .ok cache :=
    fun cache => buildFrom_empty cache fun source member => by
      obtain ⟨source, held, rfl⟩ := List.mem_map.mp member
      exact unpublished source held
  simp only [build_passSources, empty]
  rfl

/-- A pass with a center whose listed documents are all unpublished (404) returns
what the local pass returns, and leaves what it leaves with one polling task more. -/
theorem doInit_unpublished_center (caps : Capabilities) (relativePath : Option String) (profile : String)
    {center : ConfCenterConfig} {appId : String} {format : FileFormat} {urls : List String}
    (formatted : centerFormat center = .ok format) (nacos : lowercase center.kind = "nacos")
    (listed : caps.fetchConfUrls center appId profile = .ok urls)
    (unpublished : ∀ url ∈ urls, ∃ text, caps.get url = .ok ⟨404, text⟩) (process : Process) :
    (doInit caps relativePath profile (some (center, appId))).run.run process =
      Prod.map id (fun after => { after with tasks := after.tasks + 1 })
        ((doInit caps relativePath profile none).run.run process) := by
  have missing : ∀ source ∈ urls.map (fun url => (url, format)), HttpSource.collect caps source.1 source.2 = .ok [] := by
    intro source member
    obtain ⟨url, listed, rfl⟩ := List.mem_map.mp member
    obtain ⟨text, answer⟩ := unpublished url listed
    exact HttpSource.collect_notFound format text answer
  rw [doInit_after_remote (remoteSources_run caps profile formatted nacos listed process),
    @doInit_after_remote caps relativePath profile none process process [] rfl]
  simp only [passSources_unpublished caps relativePath profile missing]
  cases build (passSources caps relativePath profile [] process.vars) with
  | error failure => rfl
  | ok cache => exact readConfig_spawned caps cache process 1

/-- When the local pass enables a center for a named application and the center
has published none of the documents it lists, `init` returns what it returns with
no center: the local pass's configuration, once the locale is initialised. -/
theorem init_unpublished_center (caps : Capabilities) (relativePath : Option String) (profile : String)
    {process after : Process} {config : TardisConfig}
    (first : (doInit caps relativePath profile none).run.run process = (.ok config, after))
    {center : ConfCenterConfig} (enabled : config.fw.confCenter = some center) (named : config.fw.app.id.isEmpty = false)
    {format : FileFormat} {urls : List String} (formatted : centerFormat center = .ok format)
    (nacos : lowercase center.kind = "nacos") (listed : caps.fetchConfUrls center config.fw.app.id profile = .ok urls)
    (unpublished : ∀ url ∈ urls, ∃ text, caps.get url = .ok ⟨404, text⟩) :
    ((init caps relativePath profile).run.run process).1 =
      ((do let config ← doInit caps relativePath profile none; initLocale caps relativePath; pure config :
        Init TardisConfig).run.run process).1 := by
  have alike : Alike after process := by
    have kept := (doInit_local_touches caps relativePath profile process).vars
    rwa [first] at kept
  obtain ⟨resolved, again⟩ := doInit_agrees caps relativePath profile none after process alike
  rw [first] at resolved again
  rcases pass : (doInit caps relativePath profile none).run.run after with ⟨result, later⟩
  rw [pass] at resolved again
  cases resolved
  have second : (remotePass caps relativePath profile config).run.run after =
      (.ok config, { later with tasks := later.tasks + 1 }) := by
    simp only [remotePass, enabled, named, Bool.false_eq_true, if_false,
      doInit_unpublished_center caps relativePath profile formatted nacos listed unpublished after, pass]
    rfl
  rw [init, run_bind_ok first, run_bind_ok second, run_bind_ok first]
  exact ((Agrees.bind (initLocale_agrees caps relativePath) fun _ => Agrees.pure config)
    { later with tasks := later.tasks + 1 } after again).1

/-- `conf-default` enables a Nacos center for the application `app`; the center
lists one document, not published. -/
theorem init_unpublished_center_nacos :
    let url := "http://nacos:8848/nacos/v1/cs/configs?dataId=app-default"
    let world := centerWorld [url] (.ok ⟨404, .ok ""⟩)
    let center : ConfCenterConfig := { url := "http://nacos:8848/nacos" }
    let config : TardisConfig := ⟨[], { app := { id := "app" }, confCenter := some center }⟩
    ((doInit world (some "config") "" none).run.run ⟨[], 0⟩ = (.ok config, ⟨[("RUST_BACKTRACE", "0")], 0⟩) ∧
      config.fw.confCenter = some center ∧ config.fw.app.id.isEmpty = false ∧ centerFormat center = .ok .toml ∧
      lowercase center.kind = "nacos" ∧ world.fetchConfUrls center config.fw.app.id "" = .ok [url] ∧
      ∀ listed ∈ [url], ∃ text, world.get listed = .ok ⟨404, text⟩) ∧
    ((init world (some "config") "").run.run ⟨[], 0⟩).1 =
      ((do let config ← doInit world (some "config") "" none; initLocale world (some "config"); pure config :
        Init TardisConfig).run.run ⟨[], 0⟩).1 :=
  ⟨⟨rfl, rfl, rfl, rfl, rfl, rfl, fun _ _ => ⟨_, rfl⟩⟩,
    @init_unpublished_center (centerWorld ["http://nacos:8848/nacos/v1/cs/configs?dataId=app-default"]
      (.ok ⟨404, .ok ""⟩)) (some "config") "" ⟨[], 0⟩ ⟨[("RUST_BACKTRACE", "0")], 0⟩
      ⟨[], { app := { id := "app" }, confCenter := some { url := "http://nacos:8848/nacos" } }⟩ rfl
      { url := "http://nacos:8848/nacos" } rfl rfl .toml ["http://nacos:8848/nacos/v1/cs/configs?dataId=app-default"]
      rfl rfl rfl (fun _ _ => ⟨_, rfl⟩)⟩

/-! ## A document the center cannot serve -/

/-- A document answered with a status other than 200 and 404 is the error that names
its URL and the status. -/
theorem HttpSource.collect_status {caps : Capabilities} {url : String} (format : FileFormat) {status : Nat}
    {text : Except ConfigError String} (answer : caps.get url = .ok ⟨status, text⟩) (notFound : status ≠ 404)
    (notOk : status ≠ 200) :
    HttpSource.collect caps url format =
      .error (.message (quoted ("[Tardis.Config] Fetch remote file: " ++ url ++ " error " ++ toString status))) := by
  simp only [HttpSource.collect, answer, if_neg notFound, if_neg notOk]

/-- When the local pass enables a center for a named application and the first
listed document that fails to collect fails with `e`, after the earlier ones
collected, `init` ends with `e` converted by `From<ConfigError>`: the polling task
of the second pass is spawned, and the variables are those the local pass set. -/
theorem init_center_failure (caps : Capabilities) (relativePath : Option String) (profile : String)
    {process after : Process} {config : TardisConfig}
    (first : (doInit caps relativePath profile none).run.run process = (.ok config, after))
    {center : ConfCenterConfig} (enabled : config.fw.confCenter = some center) (named : config.fw.app.id.isEmpty = false)
    {format : FileFormat} {urls : List String} (formatted : centerFormat center = .ok format)
    (nacos : lowercase center.kind = "nacos") (listed : caps.fetchConfUrls center config.fw.app.id profile = .ok urls)
    {cache : ConfigValue} (built : build ((localFiles relativePath profile).map caps.readFile) = .ok cache)
    {served : List String} {url : String} {rest : List String} (order : urls = served ++ url :: rest)
    (collected : ∀ earlier ∈ served, ∃ props, HttpSource.collect caps earlier format = .ok props)
    {error : ConfigError} (failed : HttpSource.collect caps url format = .error error) :
    (init caps relativePath profile).run.run process =
      (.error (.err error.toTardisError), { after with tasks := after.tasks + 1 }) := by
  have sources : ∀ source ∈ served.map fun earlier => HttpSource.collect caps earlier format, ∃ props, source = .ok props := by
    intro source member
    obtain ⟨earlier, held, rfl⟩ := List.mem_map.mp member
    exact collected earlier held
  have stopped : ∀ vars, build (passSources caps relativePath profile (urls.map fun url => (url, format)) vars) =
      .error error := fun vars => by
    rw [build_passSources, built, order]
    show buildFrom cache _ >>= _ = _
    simp only [List.map_append, List.map_cons, List.map_map, Function.comp_def, failed]
    rw [buildFrom_first_error cache sources]
    rfl
  have second : (remotePass caps relativePath profile config).run.run after =
      (.error (.err error.toTardisError), { after with tasks := after.tasks + 1 }) := by
    simp only [remotePass, enabled, named, Bool.false_eq_true, if_false]
    rw [doInit_after_remote (remoteSources_run caps profile formatted nacos listed after), stopped]
    rfl
  rw [init, run_bind_ok first, run_bind_error second]

/-- The center answers its one document with a server error. -/
theorem init_center_failure_status :
    let url := "http://nacos:8848/nacos/v1/cs/configs?dataId=app-default"
    let world := centerWorld [url] (.ok ⟨500, .ok ""⟩)
    let center : ConfCenterConfig := { url := "http://nacos:8848/nacos" }
    let config : TardisConfig := ⟨[], { app := { id := "app" }, confCenter := some center }⟩
    let error : ConfigError :=
      .message "\"[Tardis.Config] Fetch remote file: http://nacos:8848/nacos/v1/cs/configs?dataId=app-default error 500\""
    ((doInit world (some "config") "" none).run.run ⟨[], 0⟩ = (.ok config, ⟨[("RUST_BACKTRACE", "0")], 0⟩) ∧
      config.fw.confCenter = some center ∧ config.fw.app.id.isEmpty = false ∧ centerFormat center = .ok .toml ∧
      lowercase center.kind = "nacos" ∧ world.fetchConfUrls center config.fw.app.id "" = .ok [url] ∧
      build ((localFiles (some "config") "").map world.readFile) = .ok (.table [("fw", .table [("app", .table
        [("id", .string "app")]), ("conf_center", .table [("url", .string "http://nacos:8848/nacos")])])]) ∧
      HttpSource.collect world url .toml = .error error) ∧
    (init world (some "config") "").run.run ⟨[], 0⟩ =
      (.error (.err (.wrap
        "[Tardis.Config] \"[Tardis.Config] Fetch remote file: http://nacos:8848/nacos/v1/cs/configs?dataId=app-default error 500\""
        "-1-tardis-config-custom-error")), ⟨[("RUST_BACKTRACE", "0")], 1⟩) :=
  ⟨⟨rfl, rfl, rfl, rfl, rfl, rfl, rfl, rfl⟩,
    @init_center_failure (centerWorld ["http://nacos:8848/nacos/v1/cs/configs?dataId=app-default"] (.ok ⟨500, .ok ""⟩))
      (some "config") "" ⟨[], 0⟩ ⟨[("RUST_BACKTRACE", "0")], 0⟩
      ⟨[], { app := { id := "app" }, confCenter := some { url := "http://nacos:8848/nacos" } }⟩ rfl
      { url := "http://nacos:8848/nacos" } rfl rfl .toml ["http://nacos:8848/nacos/v1/cs/configs?dataId=app-default"]
      rfl rfl rfl _ rfl [] "http://nacos:8848/nacos/v1/cs/configs?dataId=app-default" [] rfl (fun _ member => by cases member)
      _ rfl⟩

/-! ## A configuration center without an application -/

end Tardis.Config
