import Tardis.Config.Processor

/-! The maps a pass builds from hold one entry per key, as `config::Map` does, and
the builder keeps it: every table of a built tree holds each key once. The workspace
`do_init` reads from such a tree is a JSON object of the same kind, holding the
module `m` of `csm` under `m`, and `cs` under the empty name unless `csm` has a
module of that name. The workspace of every configuration `init` returns is of that
kind too, the decrypted one included, since what `from_str` accepts is. -/

namespace Tardis.Config

open Tardis.Json

mutual
/-- Every table of the value holds each key once. -/
def ConfigValue.WF : ConfigValue → Prop
  | .array items => valuesWF items
  | .table entries => (entries.map Prod.fst).Nodup ∧ entriesWF entries
  | _ => True

def valuesWF : List ConfigValue → Prop
  | [] => True
  | value :: rest => value.WF ∧ valuesWF rest

def entriesWF : ConfigMap → Prop
  | [] => True
  | (_, value) :: rest => value.WF ∧ entriesWF rest
end

theorem entriesWF_iff : ∀ {entries : ConfigMap}, entriesWF entries ↔ ∀ entry ∈ entries, entry.2.WF
  | [] => by simp [entriesWF]
  | (_, _) :: _ => by simp [entriesWF, entriesWF_iff]

theorem ConfigValue.WF_table {entries : ConfigMap} :
    (ConfigValue.table entries).WF ↔ (entries.map Prod.fst).Nodup ∧ ∀ entry ∈ entries, entry.2.WF := by
  rw [ConfigValue.WF, entriesWF_iff]

theorem ConfigValue.WF.entries {root : ConfigValue} (wf : root.WF) : (ConfigValue.table root.entries).WF := by
  cases root <;> first | exact wf | exact ⟨List.nodup_nil, trivial⟩

theorem lookup_WF {entries : ConfigMap} (wf : (ConfigValue.table entries).WF) (key : String) {default : ConfigValue}
    (defaultWF : default.WF) : ((entries.lookup key).getD default).WF := by
  induction entries with
  | nil => exact defaultWF
  | cons entry entries ih =>
    obtain ⟨k, value⟩ := entry
    have rest : (ConfigValue.table entries).WF := ⟨(List.nodup_cons.mp wf.1).2, wf.2.2⟩
    by_cases same : key = k
    · simpa only [List.lookup_cons, same, beq_self_eq_true, Option.getD_some] using wf.2.1
    · simpa only [List.lookup_cons, beq_false_of_ne same] using ih rest

theorem insertField_WF {entries : ConfigMap} (wf : (ConfigValue.table entries).WF) (key : String)
    {value : ConfigValue} (valueWF : value.WF) : (ConfigValue.table (insertField entries key value)).WF := by
  rw [ConfigValue.WF_table] at wf ⊢
  exact ⟨nodup_keys_insertField wf.1 key value, forall_insertField wf.2 valueWF key⟩

/-! ## The builder keeps every table a map -/

theorem setIdent_leaf_WF {value : ConfigValue} (notTable : ∀ entries, value ≠ .table entries) (wf : value.WF)
    (id : String) {root : ConfigValue} (rootWF : root.WF) : (setIdent id value root).WF := by
  cases value <;> first | exact absurd rfl (notTable _) | exact insertField_WF rootWF.entries id wf

mutual
theorem setIdent_WF : ∀ (value : ConfigValue) (id : String) (root : ConfigValue), value.WF → root.WF →
    (setIdent id value root).WF
  | .table incoming, id, _, wf, rootWF =>
    insertField_WF rootWF.entries id
      (mergeEntries_WF incoming _ wf.2 (lookup_WF rootWF.entries id ⟨List.nodup_nil, trivial⟩))
  | .nil, id, _, wf, rootWF => setIdent_leaf_WF (fun _ => ConfigValue.noConfusion) wf id rootWF
  | .boolean _, id, _, wf, rootWF => setIdent_leaf_WF (fun _ => ConfigValue.noConfusion) wf id rootWF
  | .integer _, id, _, wf, rootWF => setIdent_leaf_WF (fun _ => ConfigValue.noConfusion) wf id rootWF
  | .float _, id, _, wf, rootWF => setIdent_leaf_WF (fun _ => ConfigValue.noConfusion) wf id rootWF
  | .string _, id, _, wf, rootWF => setIdent_leaf_WF (fun _ => ConfigValue.noConfusion) wf id rootWF
  | .array _, id, _, wf, rootWF => setIdent_leaf_WF (fun _ => ConfigValue.noConfusion) wf id rootWF

theorem mergeEntries_WF : ∀ (incoming : ConfigMap) (target : ConfigValue), entriesWF incoming → target.WF →
    (mergeEntries incoming target).WF
  | [], _, _, wf => wf
  | (key, value) :: rest, target, incomingWF, wf =>
    mergeEntries_WF rest _ incomingWF.2 (setIdent_WF value key target incomingWF.1 wf)
end

theorem modifyForcibly_WF (e : Expression) {update : ConfigValue → ConfigValue}
    (keeps : ∀ value, value.WF → (update value).WF) {root after : ConfigValue} (wf : root.WF)
    (modified : e.modifyForcibly update root = some after) : after.WF := by
  induction e generalizing update with
  | identifier id =>
    cases root with
    | table entries =>
      cases modified
      exact insertField_WF wf id (keeps _ (lookup_WF wf id (show ConfigValue.nil.WF from trivial)))
    | _ => cases modified
  | child parent key ih =>
    exact ih (fun value valueWF => insertField_WF valueWF.entries key
      (keeps _ (lookup_WF valueWF.entries key (show ConfigValue.nil.WF from trivial)))) modified

theorem set_WF (e : Expression) {value root : ConfigValue} (wf : value.WF) (rootWF : root.WF) : (e.set value root).WF := by
  cases e with
  | identifier id => exact setIdent_WF value id root wf rootWF
  | child parent key =>
    cases modified : parent.modifyForcibly (setIdent key value) root with
    | none => simpa only [Expression.set, modified, Option.getD_none] using rootWF
    | some after =>
      simpa only [Expression.set, modified, Option.getD_some] using
        modifyForcibly_WF parent (fun root => setIdent_WF value key root wf) rootWF modified

theorem collectTo_WF {props : ConfigMap} (wf : ∀ entry ∈ props, entry.2.WF) {cache : ConfigValue} (cacheWF : cache.WF) :
    (collectTo props cache).WF := by
  induction props generalizing cache with
  | nil => exact cacheWF
  | cons entry props ih =>
    exact ih (fun other member => wf other (List.mem_cons_of_mem _ member))
      (set_WF _ (wf entry (List.mem_cons_self _ _)) cacheWF)

theorem buildFrom_WF {sources : List (Except ConfigError ConfigMap)}
    (maps : ∀ props, .ok props ∈ sources → ∀ entry ∈ props, entry.2.WF) {start cache : ConfigValue} (wf : start.WF)
    (built : buildFrom start sources = .ok cache) : cache.WF := by
  induction sources generalizing start with
  | nil => cases built; exact wf
  | cons source sources ih =>
    cases source with
    | error error => cases built
    | ok props =>
      exact ih (fun other member => maps other (List.mem_cons_of_mem _ member))
        (collectTo_WF (maps props (List.mem_cons_self _ _)) wf) built

/-- A build from maps is a tree of maps. -/
theorem build_WF {sources : List (Except ConfigError ConfigMap)}
    (maps : ∀ props, .ok props ∈ sources → ∀ entry ∈ props, entry.2.WF) {cache : ConfigValue}
    (built : build sources = .ok cache) : cache.WF :=
  buildFrom_WF maps (show (ConfigValue.table []).WF from ⟨List.nodup_nil, trivial⟩) built

/-! ## The workspace -/

theorem keys_entriesToJson : ∀ entries : ConfigMap, (entriesToJson entries).map Prod.fst = entries.map Prod.fst
  | [] => rfl
  | (key, _) :: rest => congrArg (key :: ·) (keys_entriesToJson rest)

theorem lookup_entriesToJson (entries : ConfigMap) (key : String) :
    (entriesToJson entries).lookup key = (entries.lookup key).map ConfigValue.toJson := by
  induction entries with
  | nil => rfl
  | cons entry entries ih =>
    obtain ⟨k, value⟩ := entry
    by_cases same : key = k
    · simp [entriesToJson, List.lookup_cons, same]
    · simp [entriesToJson, List.lookup_cons, beq_false_of_ne same, ih]

mutual
theorem ConfigValue.toJson_WF : ∀ value : ConfigValue, value.WF → value.toJson.WF
  | .nil, _ => trivial
  | .boolean _, _ => trivial
  | .integer _, _ => trivial
  | .float _, _ => trivial
  | .string _, _ => trivial
  | .array items, wf => itemsToJson_WF items wf
  | .table entries, wf => ⟨(keys_entriesToJson entries).symm ▸ wf.1, entriesToJson_WF entries wf.2⟩

theorem itemsToJson_WF : ∀ items : List ConfigValue, valuesWF items → itemsWF (itemsToJson items)
  | [], _ => trivial
  | value :: rest, wf => ⟨value.toJson_WF wf.1, itemsToJson_WF rest wf.2⟩

theorem entriesToJson_WF : ∀ entries : ConfigMap, entriesWF entries → fieldsWF (entriesToJson entries)
  | [], _ => trivial
  | (_, value) :: rest, wf => ⟨value.toJson_WF wf.1, entriesToJson_WF rest wf.2⟩
end

theorem getKey_toOption (key : String) (cache : ConfigValue) : (getKey key cache).toOption = lookupPath [key] cache := by
  cases cache with
  | table entries => cases found : entries.lookup key <;> simp [getKey, Expression.get, lookupPath, found] <;> rfl
  | _ => rfl

theorem optional_toOption {result : Except ConfigError α} {found : Option α} (read : optional result = .ok found) :
    found = result.toOption := by
  cases result with
  | ok value => cases read; rfl
  | error error => cases error <;> first | (cases read; rfl) | cases read

/-- The modules of `csm` when it is a table, and none without a `csm`. -/
theorem csm_modules {cache : ConfigValue} {csm : Option (List (String × Value))}
    (read : optional (getKey "csm" cache >>= fun value =>
      match value with
      | .table entries => .ok (entriesToJson entries)
      | other => .error (typeError ["csm"] other "a map")) = .ok csm) :
    csm.getD [] = entriesToJson (((lookupPath ["csm"] cache).map ConfigValue.entries).getD []) := by
  rw [← getKey_toOption]
  cases found : getKey "csm" cache with
  | error error =>
    rw [found] at read
    cases error with
    | notFound => cases read; rfl
    | _ => cases read
  | ok value =>
    rw [found] at read
    cases value with
    | table entries => cases read; rfl
    | _ => cases read

/-- A workspace read: the modules of `csm` inserted, in order, into the map holding
`cs` under the empty name. -/
theorem readWorkspace_eq {cache : ConfigValue} {workspace : List (String × Value)}
    (read : readWorkspace cache = .ok workspace) :
    workspace = (entriesToJson (((lookupPath ["csm"] cache).map ConfigValue.entries).getD [])).foldl
      (fun workspace module => insertField workspace module.1 module.2)
      (((lookupPath ["cs"] cache).map fun cs => [("", cs.toJson)]).getD []) := by
  obtain ⟨cs, readCs, rest⟩ := bind_eq_ok read
  obtain ⟨csm, readCsm, done⟩ := bind_eq_ok rest
  rw [← csm_modules readCsm, ← getKey_toOption, ← optional_toOption readCs]
  cases done
  cases cs <;> cases csm <;> rfl

theorem lookupPath_WF : ∀ (path : List String) {cache value : ConfigValue}, cache.WF →
    lookupPath path cache = some value → value.WF
  | [], _, _, wf, found => by cases found; exact wf
  | key :: rest, .table entries, _, wf, found => by
    cases inner : entries.lookup key with
    | none => simp only [lookupPath, inner, Option.bind_none] at found; cases found
    | some child =>
      simp only [lookupPath, inner, Option.bind_some] at found
      have childWF := lookup_WF wf key (show ConfigValue.nil.WF from trivial)
      rw [inner, Option.getD_some] at childWF
      exact lookupPath_WF rest childWF found
  | _ :: _, .nil, _, _, found | _ :: _, .boolean _, _, _, found | _ :: _, .integer _, _, _, found
  | _ :: _, .float _, _, _, found | _ :: _, .string _, _, _, found | _ :: _, .array _, _, _, found => by cases found

/-- The entries of what a tree of maps holds at a path: a map. -/
theorem lookupPath_entries_WF {cache : ConfigValue} (wf : cache.WF) (path : List String) :
    (ConfigValue.table (((lookupPath path cache).map ConfigValue.entries).getD [])).WF := by
  cases found : lookupPath path cache with
  | none => exact ⟨List.nodup_nil, trivial⟩
  | some value => exact (lookupPath_WF path wf found).entries

/-- The workspace read from a tree of maps is a JSON object with one entry per key. -/
theorem readWorkspace_WF {cache : ConfigValue} (wf : cache.WF) {workspace : List (String × Value)}
    (read : readWorkspace cache = .ok workspace) : (Value.object workspace).WF := by
  rw [readWorkspace_eq read]
  have modules := (ConfigValue.WF_table.mp (lookupPath_entries_WF wf ["csm"])).2
  refine foldl_insertField_WF (fieldsWF_iff.mp (entriesToJson_WF _ (entriesWF_iff.mpr modules))) ?_
  cases cs : lookupPath ["cs"] cache with
  | none => exact ⟨List.nodup_nil, trivial⟩
  | some value => exact ⟨List.nodup_singleton _, value.toJson_WF (lookupPath_WF ["cs"] wf cs), trivial⟩

theorem lookupPath_pair (first second : String) (cache : ConfigValue) :
    lookupPath [first, second] cache = (((lookupPath [first] cache).map ConfigValue.entries).getD []).lookup second := by
  cases cache with
  | table entries =>
    cases found : entries.lookup first with
    | none => simp [lookupPath, found]
    | some value =>
      rw [lookupPath, found, Option.some_bind, lookupPath_entries]
      simp [lookupPath, found]
  | _ => rfl

/-- The workspace read from a tree of maps: the module `m` of `csm` under `m`, and
`cs` under the empty name where `csm` has no module of that name. -/
theorem readWorkspace_lookup {cache : ConfigValue} (wf : cache.WF) {workspace : List (String × Value)}
    (read : readWorkspace cache = .ok workspace) (m : String) :
    workspace.lookup m = ((lookupPath ["csm", m] cache).map ConfigValue.toJson).or
      (if m = "" then (lookupPath ["cs"] cache).map ConfigValue.toJson else none) := by
  have unique : ((entriesToJson (((lookupPath ["csm"] cache).map ConfigValue.entries).getD [])).map Prod.fst).Nodup := by
    rw [keys_entriesToJson]
    exact (lookupPath_entries_WF wf ["csm"]).1
  rw [readWorkspace_eq read, lookup_foldl_insertField unique, lookup_entriesToJson, lookupPath_pair]
  congr 1
  by_cases empty : m = ""
  · cases lookupPath ["cs"] cache <;> simp [List.lookup_cons, empty]
  · cases lookupPath ["cs"] cache <;> simp [List.lookup_cons, empty, beq_false_of_ne empty]

/-! ## The sources of a pass -/

/-- What a remote document collects: nothing, or what its text parses into. -/
theorem HttpSource.collect_ok {caps : Capabilities} {url : String} {format : FileFormat} {props : ConfigMap}
    (collected : HttpSource.collect caps url format = .ok props) :
    props = [] ∨ ∃ text, caps.parse format url text = .ok props := by
  cases answer : caps.get url with
  | error error => simp only [HttpSource.collect, answer] at collected; cases collected
  | ok response =>
    simp only [HttpSource.collect, answer] at collected
    split at collected
    · cases collected
      exact .inl rfl
    · split at collected
      · obtain ⟨text, _, parsed⟩ := bind_eq_ok collected
        exact .inr ⟨text, parsed⟩
      · cases collected

/-- The environment's map holds strings. -/
theorem collectEnvironment_WF (vars : List (String × String)) : ∀ entry ∈ collectEnvironment vars, entry.2.WF := by
  suffices from_any : ∀ props : ConfigMap, (∀ entry ∈ props, entry.2.WF) →
      ∀ entry ∈ vars.foldl (fun props var =>
        match environmentKey var.1 with
        | some key => insertField props key (.string var.2)
        | none => props) props, entry.2.WF from
    from_any [] fun _ member => by cases member
  induction vars with
  | nil => exact fun _ wf => wf
  | cons var vars ih =>
    intro props wf
    cases key : environmentKey var.1 with
    | none => simpa only [List.foldl_cons, key] using ih props wf
    | some key' =>
      simpa only [List.foldl_cons, key] using ih _ (forall_insertField wf (show (ConfigValue.string var.2).WF from trivial) key')

/-! ## Reading a run of `Init` backwards -/

theorem run_bind_eq_ok {x : Init α} {f : α → Init β} {process after : Process} {b : β}
    (ran : (x >>= f).run.run process = (.ok b, after)) :
    ∃ a mid, x.run.run process = (.ok a, mid) ∧ (f a).run.run mid = (.ok b, after) := by
  simp only [ExceptT.run_bind, StateT.run_bind] at ran
  rcases first : x.run.run process with ⟨_ | a, mid⟩
  · simp only [first] at ran
    cases ran
  · exact ⟨a, mid, rfl, by simpa [first] using ran⟩

theorem liftConfig_run_eq_ok {result : Except ConfigError α} {process after : Process} {a : α}
    (ran : (liftConfig result).run.run process = (.ok a, after)) : result = .ok a ∧ after = process := by
  cases result with
  | error e => cases ran
  | ok value =>
    cases ran
    exact ⟨rfl, rfl⟩

theorem liftOutcome_run_eq_ok {result : Outcome α} {process after : Process} {a : α}
    (ran : (liftOutcome result).run.run process = (.ok a, after)) : result = .ok a := by
  cases result with
  | error e => cases ran
  | ok value => cases ran; rfl

theorem strToObj_eq_ok {read : List Char → Except String α} {text : String} {a : α}
    (parsed : strToObj read text = .ok a) : read text.data = .ok a := by
  unfold strToObj at parsed
  split at parsed
  · cases parsed
    assumption
  · cases parsed

/-- The workspace `do_init` returns from a tree of maps is a map: read from the tree
or, with a salt, read back from the decrypted text. -/
theorem readConfig_workspace_WF (caps : Capabilities) {cache : ConfigValue} (wf : cache.WF) {process after : Process}
    {config : TardisConfig} (read : (readConfig caps cache).run.run process = (.ok config, after)) :
    (Value.object config.cs).WF := by
  obtain ⟨workspace, _, workspaceRead, read⟩ := run_bind_eq_ok read
  obtain ⟨fw, _, -, read⟩ := run_bind_eq_ok read
  obtain ⟨_, _, -, read⟩ := run_bind_eq_ok read
  split at read
  · cases read
    exact readWorkspace_WF wf (liftConfig_run_eq_ok workspaceRead).1
  · obtain ⟨_, -, decrypted⟩ := bind_eq_ok (liftOutcome_run_eq_ok read)
    obtain ⟨_, -, decrypted⟩ := bind_eq_ok decrypted
    obtain ⟨_, parsed, decrypted⟩ := bind_eq_ok decrypted
    obtain ⟨_, -, decrypted⟩ := bind_eq_ok decrypted
    cases decrypted
    exact fromStrMap_WF (strToObj_eq_ok parsed)

section
variable {caps : Capabilities}
  (files : ∀ file props, caps.readFile file = .ok props → ∀ entry ∈ props, entry.2.WF)
  (documents : ∀ format url text props, caps.parse format url text = .ok props → ∀ entry ∈ props, entry.2.WF)
include files documents

/-- When files and documents parse into maps, every source of a pass is a map. -/
theorem passSources_maps (relativePath : Option String) (profile : String) (remote : List (String × FileFormat))
    (vars : List (String × String)) :
    ∀ props, .ok props ∈ passSources caps relativePath profile remote vars → ∀ entry ∈ props, entry.2.WF := by
  intro props member
  simp only [passSources, List.mem_append, List.mem_map, List.mem_singleton] at member
  rcases member with (⟨file, _, read⟩ | ⟨source, _, collected⟩) | environment
  · exact files file props read
  · rcases HttpSource.collect_ok collected with rfl | ⟨text, parsed⟩
    · exact fun _ member => by cases member
    · exact documents _ _ text props parsed
  · cases environment
    exact collectEnvironment_WF vars

/-- Every configuration a pass returns holds a well-formed workspace. -/
theorem doInit_workspace_WF (relativePath : Option String) (profile : String)
    (confCenter : Option (ConfCenterConfig × String)) {process after : Process} {config : TardisConfig}
    (resolved : (doInit caps relativePath profile confCenter).run.run process = (.ok config, after)) :
    (Value.object config.cs).WF := by
  obtain ⟨remote, fetched, -, resolved⟩ := run_bind_eq_ok resolved
  obtain ⟨_, _, got, resolved⟩ := run_bind_eq_ok resolved
  cases got
  obtain ⟨cache, _, built, resolved⟩ := run_bind_eq_ok resolved
  exact readConfig_workspace_WF caps (build_WF (passSources_maps files documents relativePath profile remote fetched.vars)
    (liftConfig_run_eq_ok built).1) resolved

end

/-- `conf-default` holds a default module, a module named as the default one, and
one more; the pass has no remote document. -/
def workspaceWorld : Capabilities where
  readFile _ := .ok [("cs", .table [("db", .string "a")]),
    ("csm", .table [("", .table [("db", .string "b")]), ("iam", .table [("db", .string "c")])])]
  fetchConfUrls _ _ _ := .ok []
  get _ := .ok ⟨404, .ok ""⟩
  parse _ _ _ := .ok []
  decryptEcb _ _ := .ok ""
  localeInit _ := .ok ()

theorem workspaceWorld_maps :
    (∀ file props, workspaceWorld.readFile file = .ok props → ∀ entry ∈ props, entry.2.WF) ∧
      ∀ format url text props, workspaceWorld.parse format url text = .ok props → ∀ entry ∈ props, entry.2.WF := by
  refine ⟨fun _ _ read => ?_, fun _ _ _ _ parsed => ?_⟩
  · cases read
    simp [ConfigValue.WF, entriesWF]
  · cases parsed
    exact fun _ member => by cases member

/-- `conf-default` holds the default module with an encrypted value, and a salt. -/
def saltedWorld : Capabilities where
  readFile _ := .ok [("cs", .table [("db", .string "ENC(AB)")]),
    ("fw", .table [("adv", .table [("salt", .string "0123456789abcdef")])])]
  fetchConfUrls _ _ _ := .ok []
  get _ := .ok ⟨404, .ok ""⟩
  parse _ _ _ := .ok []
  decryptEcb _ _ := .ok "a"
  localeInit _ := .ok ()

end Tardis.Config
