import Tardis.Config.Value

/-! What a built configuration holds at a path. Setting a value is a run of
writes, one for each leaf and each empty table of the value; what a path holds at
the end is decided by the last write that touches the path. -/

namespace Tardis.Config

open Tardis.Json (insertField lookup_insertField)

/-- The value at a path of identifiers, through tables. -/
def lookupPath : List String → ConfigValue → Option ConfigValue
  | [], value => some value
  | key :: rest, .table entries => (entries.lookup key).bind (lookupPath rest)
  | _ :: _, _ => none

/-- The value at a path when it is no table: a leaf of the configuration. -/
def leafAt (path : List String) (cache : ConfigValue) : Option ConfigValue :=
  match lookupPath path cache with
  | some (.table _) => none
  | found => found

/-- One write of a source: a value that is no table at a path, or an empty table. -/
inductive Write where
  | leaf (path : List String) (value : ConfigValue)
  | empty (path : List String)

def Write.path : Write → List String
  | .leaf path _ => path
  | .empty path => path

/-- The write below the path `parent`. -/
def Write.within (parent : List String) : Write → Write
  | .leaf path value => .leaf (parent ++ path) value
  | .empty path => .empty (parent ++ path)

mutual
/-- The writes of setting `value` at `path`, in the order the deep merge makes them. -/
def writes (path : List String) : ConfigValue → List Write
  | .table [] => [.empty path]
  | .table (entry :: entries) => entriesWrites path (entry :: entries)
  | value => [.leaf path value]

def entriesWrites (path : List String) : List (String × ConfigValue) → List Write
  | [] => []
  | (key, value) :: rest => writes (path ++ [key]) value ++ entriesWrites path rest
end

/-- Whether a write changes what is at `k`: a leaf at `k`, above it or below it,
or an empty table below it. -/
def Write.Touches (k : List String) : Write → Prop
  | .leaf path _ => path <+: k ∨ k <+: path
  | .empty path => k <+: path ∧ k ≠ path

instance (k : List String) (w : Write) : Decidable (w.Touches k) := by
  cases w <;> unfold Write.Touches <;> infer_instance

/-- What a write that touches `k` leaves there. -/
def Write.result (k : List String) : Write → Option ConfigValue
  | .leaf path value => if k = path then some value else none
  | .empty _ => none

/-- The leaves after a write, from the leaves before it. -/
def Write.apply (w : Write) (before : List String → Option ConfigValue) (k : List String) : Option ConfigValue :=
  if w.Touches k then w.result k else before k

/-- The leaves after a run of writes. -/
def applyWrites (before : List String → Option ConfigValue) (ws : List Write) : List String → Option ConfigValue :=
  ws.foldl (fun view w => w.apply view) before

/-- The last of the writes that touches `k`. -/
def lastTouch (k : List String) : List Write → Option Write
  | [] => none
  | w :: ws =>
    match lastTouch k ws with
    | some last => some last
    | none => if w.Touches k then some w else none

@[simp] theorem applyWrites_nil (before : List String → Option ConfigValue) : applyWrites before [] = before := rfl

theorem applyWrites_append (before : List String → Option ConfigValue) (ws vs : List Write) :
    applyWrites before (ws ++ vs) = applyWrites (applyWrites before ws) vs :=
  List.foldl_append _ _ _ _

/-- The last write touching a path in a run and a run after it: the later run's,
where it has one. -/
theorem lastTouch_append (k : List String) (ws vs : List Write) :
    lastTouch k (ws ++ vs) = (lastTouch k vs).or (lastTouch k ws) := by
  induction ws with
  | nil => rw [List.nil_append, lastTouch, Option.or_none]
  | cons w ws ih =>
    rw [List.cons_append, lastTouch, ih, lastTouch]
    cases lastTouch k vs <;> cases lastTouch k ws <;> rfl

/-- After a run of writes, a path holds what the last write touching it left, and
what it held before when none touches it. -/
theorem applyWrites_eq (ws : List Write) (before : List String → Option ConfigValue) (k : List String) :
    applyWrites before ws k = match lastTouch k ws with
      | some last => last.result k
      | none => before k := by
  induction ws generalizing before with
  | nil => rfl
  | cons w ws ih =>
    show applyWrites (w.apply before) ws k = _
    rw [ih, lastTouch]
    cases lastTouch k ws with
    | some last => rfl
    | none => by_cases touches : w.Touches k <;> simp [Write.apply, touches]

/-- What a run leaves at a path depends on what was there before, and on nothing else. -/
theorem applyWrites_congr (ws : List Write) {before other : List String → Option ConfigValue} {k : List String}
    (same : before k = other k) : applyWrites before ws k = applyWrites other ws k := by
  rw [applyWrites_eq, applyWrites_eq, same]

/-! ## Writes below a key -/

theorem lastTouch_within_self (key : String) (ws : List Write) (r : List String) :
    lastTouch (key :: r) (ws.map (Write.within [key])) = (lastTouch r ws).map (Write.within [key]) := by
  induction ws with
  | nil => rfl
  | cons w ws ih =>
    have touches : (w.within [key]).Touches (key :: r) ↔ w.Touches r := by
      cases w <;> simp [Write.within, Write.Touches, List.prefix_cons_inj]
    simp only [List.map_cons, lastTouch, ih]
    cases lastTouch r ws <;> by_cases inside : w.Touches r <;> simp [touches, inside]

theorem result_within_self (key : String) (w : Write) (r : List String) :
    (w.within [key]).result (key :: r) = w.result r := by
  cases w <;> simp [Write.within, Write.result]

theorem applyWrites_within_self (key : String) (ws : List Write) (before : List String → Option ConfigValue)
    (r : List String) :
    applyWrites before (ws.map (Write.within [key])) (key :: r) = applyWrites (fun r => before (key :: r)) ws r := by
  rw [applyWrites_eq, applyWrites_eq, lastTouch_within_self]
  cases lastTouch r ws <;> simp [result_within_self]

theorem applyWrites_within_ne {key j : String} (other : j ≠ key) (ws : List Write)
    (before : List String → Option ConfigValue) (r : List String) :
    applyWrites before (ws.map (Write.within [key])) (j :: r) = before (j :: r) := by
  have untouched : lastTouch (j :: r) (ws.map (Write.within [key])) = none := by
    induction ws with
    | nil => rfl
    | cons w ws ih =>
      cases w <;> simp [lastTouch, ih, Write.within, Write.Touches, List.cons_prefix_cons, other, Ne.symm other]
  rw [applyWrites_eq, untouched]

/-- A run of writes below a key leaves no leaf at the root. -/
theorem applyWrites_within_root (key : String) {ws : List Write} (nonempty : ws ≠ [])
    (before : List String → Option ConfigValue) : applyWrites before (ws.map (Write.within [key])) [] = none := by
  have last : ∃ w : Write, lastTouch [] (ws.map (Write.within [key])) = some (w.within [key]) := by
    induction ws with
    | nil => exact absurd rfl nonempty
    | cons w ws ih =>
      cases ws with
      | nil => exact ⟨w, by cases w <;> simp [lastTouch, Write.within, Write.Touches]⟩
      | cons v vs =>
        obtain ⟨last, found⟩ := ih (List.cons_ne_nil v vs)
        exact ⟨last, by rw [List.map_cons, lastTouch, found]⟩
  obtain ⟨w, found⟩ := last
  rw [applyWrites_eq, found]
  cases w <;> simp [Write.within, Write.result]

mutual
theorem writes_append (parent : List String) : ∀ (path : List String) (value : ConfigValue),
    writes (parent ++ path) value = (writes path value).map (Write.within parent)
  | _, .table [] => rfl
  | path, .table (entry :: entries) => entriesWrites_append parent path (entry :: entries)
  | _, .nil | _, .boolean _ | _, .integer _ | _, .float _ | _, .string _ | _, .array _ => rfl

theorem entriesWrites_append (parent : List String) : ∀ (path : List String) (entries : List (String × ConfigValue)),
    entriesWrites (parent ++ path) entries = (entriesWrites path entries).map (Write.within parent)
  | _, [] => rfl
  | path, (key, value) :: rest => by
    simp only [entriesWrites, List.map_append, List.append_assoc, writes_append parent (path ++ [key]) value,
      entriesWrites_append parent path rest]
end

mutual
theorem writes_ne_nil (path : List String) : ∀ value : ConfigValue, writes path value ≠ []
  | .table [] => List.cons_ne_nil _ _
  | .table (entry :: entries) => entriesWrites_ne_nil path entry entries
  | .nil | .boolean _ | .integer _ | .float _ | .string _ | .array _ => List.cons_ne_nil _ _

theorem entriesWrites_ne_nil (path : List String) :
    ∀ (entry : String × ConfigValue) (entries : List (String × ConfigValue)), entriesWrites path (entry :: entries) ≠ []
  | (key, value), _ => by
    simp only [entriesWrites, ne_eq, List.append_eq_nil, not_and]
    exact fun none => absurd none (writes_ne_nil _ value)
end


/-! ## Setting a value is the run of its writes -/

theorem lookupPath_entries (root : ConfigValue) (j : String) (r : List String) :
    lookupPath (j :: r) root = lookupPath (j :: r) (.table root.entries) := by
  cases root <;> rfl

theorem leafAt_entries (root : ConfigValue) (j : String) (r : List String) :
    leafAt (j :: r) root = leafAt (j :: r) (.table root.entries) := by
  simp only [leafAt, lookupPath_entries root j r]

@[simp] theorem leafAt_root (entries : ConfigMap) : leafAt [] (.table entries) = none := rfl

theorem leafAt_insertField_self (entries : ConfigMap) (key : String) (value : ConfigValue) (r : List String) :
    leafAt (key :: r) (.table (insertField entries key value)) = leafAt r value := by
  simp [leafAt, lookupPath, lookup_insertField]

theorem leafAt_insertField_ne {key j : String} (other : j ≠ key) (entries : ConfigMap) (value : ConfigValue)
    (r : List String) :
    leafAt (j :: r) (.table (insertField entries key value)) = leafAt (j :: r) (.table entries) := by
  simp [leafAt, lookupPath, lookup_insertField, other]

/-- The deep merge at `id` starts from the leaves the root holds below `id`. -/
theorem leafAt_target (root : ConfigValue) (id : String) (r : List String) :
    leafAt r ((root.entries.lookup id).getD (.table [])) = leafAt (id :: r) root := by
  rw [leafAt_entries]
  cases found : root.entries.lookup id with
  | none => cases r <;> simp [leafAt, lookupPath, found]
  | some value => simp [leafAt, lookupPath, found]

theorem leafAt_setIdent_leaf {value : ConfigValue} (notTable : ∀ entries, value ≠ .table entries) (id : String)
    (root : ConfigValue) (k : List String) :
    leafAt k (.table (insertField root.entries id value)) = applyWrites (leafAt · root) [.leaf [id] value] k := by
  show _ = Write.apply (.leaf [id] value) (leafAt · root) k
  cases k with
  | nil => simp [Write.apply, Write.Touches, Write.result]
  | cons j r =>
    by_cases same : j = id
    · subst same
      rw [leafAt_insertField_self]
      cases r with
      | nil => cases value <;> first | exact absurd rfl (notTable _) | simp [leafAt, lookupPath, Write.apply,
          Write.Touches, Write.result]
      | cons x r => cases value <;> first | exact absurd rfl (notTable _) | simp [leafAt, lookupPath, Write.apply,
          Write.Touches, Write.result]
    · rw [leafAt_insertField_ne same, ← leafAt_entries]
      simp [Write.apply, Write.Touches, List.cons_prefix_cons, same, Ne.symm same]

mutual
/-- Setting a value at an identifier of a root is the run of the value's writes there. -/
theorem leafAt_setIdent : ∀ (value : ConfigValue) (id : String) (root : ConfigValue) (k : List String),
    leafAt k (setIdent id value root) = applyWrites (leafAt · root) (writes [id] value) k
  | .table [], id, root, k => by
    show leafAt k (.table (insertField root.entries id ((root.entries.lookup id).getD (.table [])))) =
      Write.apply (.empty [id]) (leafAt · root) k
    cases k with
    | nil => simp [Write.apply, Write.Touches, Write.result]
    | cons j r =>
      by_cases same : j = id
      · subst same
        rw [leafAt_insertField_self, leafAt_target]
        simp [Write.apply, Write.Touches, List.prefix_nil]
      · rw [leafAt_insertField_ne same, ← leafAt_entries]
        simp [Write.apply, Write.Touches, List.cons_prefix_cons, same]
  | .table ((key, value) :: rest), id, root, k => by
    have merged := leafAt_mergeEntries ((key, value) :: rest) ((root.entries.lookup id).getD (.table []))
    have shape : writes [id] (.table ((key, value) :: rest)) =
        (entriesWrites [] ((key, value) :: rest)).map (Write.within [id]) := by
      rw [← entriesWrites_append, List.append_nil]
      rfl
    show leafAt k (.table (insertField root.entries id (mergeEntries ((key, value) :: rest)
      ((root.entries.lookup id).getD (.table []))))) = _
    rw [shape]
    cases k with
    | nil => rw [leafAt_root, applyWrites_within_root id (entriesWrites_ne_nil [] (key, value) rest)]
    | cons j r =>
      by_cases same : j = id
      · subst same
        rw [leafAt_insertField_self, merged, applyWrites_within_self,
          show (leafAt · ((root.entries.lookup j).getD (.table []))) = fun r => leafAt (j :: r) root from
            funext (leafAt_target root j)]
      · rw [leafAt_insertField_ne same, ← leafAt_entries, applyWrites_within_ne same]
  | .nil, id, root, k => leafAt_setIdent_leaf (fun _ => ConfigValue.noConfusion) id root k
  | .boolean _, id, root, k => leafAt_setIdent_leaf (fun _ => ConfigValue.noConfusion) id root k
  | .integer _, id, root, k => leafAt_setIdent_leaf (fun _ => ConfigValue.noConfusion) id root k
  | .float _, id, root, k => leafAt_setIdent_leaf (fun _ => ConfigValue.noConfusion) id root k
  | .string _, id, root, k => leafAt_setIdent_leaf (fun _ => ConfigValue.noConfusion) id root k
  | .array _, id, root, k => leafAt_setIdent_leaf (fun _ => ConfigValue.noConfusion) id root k

/-- The deep merge of a table's entries is the run of their writes, in order. -/
theorem leafAt_mergeEntries : ∀ (incoming : ConfigMap) (target : ConfigValue) (k : List String),
    leafAt k (mergeEntries incoming target) = applyWrites (leafAt · target) (entriesWrites [] incoming) k
  | [], _, _ => rfl
  | (key, value) :: rest, target, k => by
    rw [mergeEntries, leafAt_mergeEntries rest, funext (leafAt_setIdent value key target), entriesWrites,
      List.nil_append, applyWrites_append]
end

theorem Write.within_within (parent : List String) (key : String) (w : Write) :
    (w.within [key]).within parent = w.within (parent ++ [key]) := by
  cases w <;> simp [Write.within]

/-- The writes of setting a value at a key are below that key. -/
theorem writes_key (key : String) (value : ConfigValue) :
    writes [key] value = (writes [] value).map (Write.within [key]) := by
  rw [← writes_append, List.append_nil]

section
variable {update : ConfigValue → ConfigValue} {ws : List Write}

/-- An entry reached forcibly and updated: the leaves below the key are those the
update writes, the others stay. -/
theorem leafAt_insertForcibly (law : ∀ node k, leafAt k (update node) = applyWrites (leafAt · node) ws k)
    (root : ∀ view, applyWrites view ws [] = none) (nonempty : ws ≠ []) (key : String) (entries : ConfigMap)
    (k : List String) :
    leafAt k (.table (insertField entries key (update ((entries.lookup key).getD .nil)))) =
      applyWrites (leafAt · (.table entries)) (ws.map (Write.within [key])) k := by
  cases k with
  | nil => rw [leafAt_root, applyWrites_within_root key nonempty]
  | cons j r =>
    by_cases same : j = key
    · subst same
      rw [leafAt_insertField_self, law, applyWrites_within_self]
      cases r with
      | nil => rw [root, root]
      | cons x r =>
        exact applyWrites_congr ws (by cases found : entries.lookup j <;> simp [leafAt, lookupPath, found])
    · rw [leafAt_insertField_ne same, applyWrites_within_ne same]

/-- `get_mut_forcibly` and an update that writes `ws` at what it reaches: the run
of `ws` below the expression's path. -/
theorem modifyForcibly_writes (e : Expression)
    (law : ∀ node k, leafAt k (update node) = applyWrites (leafAt · node) ws k)
    (root : ∀ view, applyWrites view ws [] = none) (nonempty : ws ≠ []) (entries : ConfigMap) :
    ∃ after, e.modifyForcibly update (.table entries) = some (.table after) ∧
      ∀ k, leafAt k (.table after) = applyWrites (leafAt · (.table entries)) (ws.map (Write.within e.path)) k := by
  induction e generalizing update ws with
  | identifier id => exact ⟨_, rfl, leafAt_insertForcibly law root nonempty id entries⟩
  | child parent key ih =>
    have law' : ∀ node k, leafAt k (.table (insertField node.entries key (update ((node.entries.lookup key).getD .nil)))) =
        applyWrites (leafAt · node) (ws.map (Write.within [key])) k := by
      intro node k
      rw [leafAt_insertForcibly law root nonempty]
      cases k with
      | nil => rw [applyWrites_within_root key nonempty, applyWrites_within_root key nonempty]
      | cons j r => exact applyWrites_congr _ (leafAt_entries node j r).symm
    obtain ⟨after, found, leaves⟩ := ih law' (fun view => applyWrites_within_root key nonempty view)
      (by simpa using nonempty)
    refine ⟨after, found, fun k => ?_⟩
    rw [leaves, List.map_map]
    simp only [Expression.path, Function.comp_def, Write.within_within]

end

theorem setIdent_table (id : String) (value root : ConfigValue) : ∃ after, setIdent id value root = .table after := by
  cases value <;> exact ⟨_, rfl⟩

/-- Setting a value at an expression of a table is the run of the value's writes at
the expression's path. -/
theorem set_writes (e : Expression) (value : ConfigValue) (entries : ConfigMap) :
    ∃ after, e.set value (.table entries) = .table after ∧
      ∀ k, leafAt k (.table after) = applyWrites (leafAt · (.table entries)) (writes e.path value) k := by
  cases e with
  | identifier id =>
    obtain ⟨after, shape⟩ := setIdent_table id value (.table entries)
    exact ⟨after, shape, fun k => shape ▸ leafAt_setIdent value id (.table entries) k⟩
  | child parent key =>
    obtain ⟨after, found, leaves⟩ := modifyForcibly_writes parent (leafAt_setIdent value key)
      (fun view => by rw [writes_key]; exact applyWrites_within_root key (writes_ne_nil [] value) view)
      (writes_ne_nil [key] value) entries
    refine ⟨after, by simp only [Expression.set, found, Option.getD_some], fun k => ?_⟩
    rw [leaves, Expression.path, writes_append]

/-- The writes of a source's map, each key at the path `set_value` sets it at. -/
def mapWrites (props : ConfigMap) : List Write :=
  props.flatMap fun entry => writes (keyExpression entry.1).path entry.2

/-- `collect_to` is the run of the map's writes. -/
theorem collectTo_writes (props : ConfigMap) (entries : ConfigMap) :
    ∃ after, collectTo props (.table entries) = .table after ∧
      ∀ k, leafAt k (.table after) = applyWrites (leafAt · (.table entries)) (mapWrites props) k := by
  induction props generalizing entries with
  | nil => exact ⟨entries, rfl, fun _ => rfl⟩
  | cons entry props ih =>
    obtain ⟨first, shape, leaves⟩ := set_writes (keyExpression entry.1) entry.2 entries
    obtain ⟨after, collected, rest⟩ := ih first
    refine ⟨after, ?_, fun k => ?_⟩
    · rw [collectTo, List.foldl_cons, ← collectTo]
      exact (congrArg (collectTo props) shape).trans collected
    · rw [rest, funext leaves, ← applyWrites_append]
      rfl

/-- The writes of the sources' maps, in the order the builder sets them. -/
def sourcesWrites (sources : List ConfigMap) : List Write := sources.flatMap mapWrites

theorem buildFrom_writes (sources : List ConfigMap) (entries : ConfigMap) :
    ∃ after, buildFrom (.table entries) (sources.map .ok) = .ok (.table after) ∧
      ∀ k, leafAt k (.table after) = applyWrites (leafAt · (.table entries)) (sourcesWrites sources) k := by
  induction sources generalizing entries with
  | nil => exact ⟨entries, rfl, fun _ => rfl⟩
  | cons props sources ih =>
    obtain ⟨first, shape, leaves⟩ := collectTo_writes props entries
    obtain ⟨after, built, rest⟩ := ih first
    refine ⟨after, by rw [List.map_cons, buildFrom, shape, built], fun k => ?_⟩
    rw [rest, funext leaves, ← applyWrites_append]
    rfl

/-- The built configuration holds at a path what the last write of the sources
touching the path left there, and nothing where no write touches it. -/
theorem build_leafAt (sources : List ConfigMap) :
    ∃ cache, build (sources.map .ok) = .ok cache ∧
      ∀ k, leafAt k cache = (lastTouch k (sourcesWrites sources)).bind (·.result k) := by
  obtain ⟨after, built, leaves⟩ := buildFrom_writes sources []
  refine ⟨.table after, built, fun k => ?_⟩
  rw [leaves, applyWrites_eq]
  cases lastTouch k (sourcesWrites sources) with
  | some last => rfl
  | none => cases k <;> rfl

end Tardis.Config
