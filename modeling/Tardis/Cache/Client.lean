import Mathlib.Data.List.Basic

/-! `del_confirm` and `hdel_confirm` of `cache_client.rs`: a delete, then `exists`
(or `hexists`) polled until it answers `false`. The two are one loop with the
delete and the poll as parameters. The Redis server is shared: before each command
of the loop, other clients may run any commands, and the pool may stop handing out
connections. So a run of the loop is its commands interleaved with the turns of
everything else, and the results below hold over every such interleaving: what an
`Ok` says of the key, what an `Err` can come from, when the loop returns and when it
never does. -/

namespace Tardis.Cache

/-- Modelled from the spec: a `RedisError` the commands return. A connection the
pool cannot give is an `IoError` with a description and the pool's error; a command
on a key holding the wrong kind of value is the server's `WRONGTYPE` reply. -/
inductive RedisError where
  | io (description detail : String)
  | extension (code detail : String)
  deriving DecidableEq, Repr

/-- The server's reply to a hash command on a key that holds a string. -/
def wrongType : RedisError := .extension "WRONGTYPE" "Operation against a key holding the wrong kind of value"

/-- Modelled from the spec: a value stored at a key, a string or a hash of fields. -/
inductive Entry where
  | string (value : String)
  | hash (fields : List (String × String))
  deriving DecidableEq, Repr

/-- Modelled from the spec: the server as a client sees it, its keys and whether
the pool hands out a connection (`none`) or fails with an error. -/
structure Server where
  store : String → Option Entry
  pool : Option String

/-- `get_connection`: the pool's failure as an `IoError`. -/
def getConnection (server : Server) : Except RedisError Unit :=
  match server.pool with
  | none => .ok ()
  | some error => .error (.io "Get connection error" error)

/-- The store with `key` set to `entry`, or removed for `none`. -/
def Server.update (server : Server) (key : String) (entry : Option Entry) : Server :=
  { server with store := fun k => if k = key then entry else server.store k }

/-- `del`: `DEL key`. -/
def del (key : String) (server : Server) : Except RedisError Unit × Server :=
  match getConnection server with
  | .error error => (.error error, server)
  | .ok () => (.ok (), server.update key none)

/-- `exists`: `EXISTS key`. -/
def keyExists (key : String) (server : Server) : Except RedisError Bool × Server :=
  match getConnection server with
  | .error error => (.error error, server)
  | .ok () => (.ok (server.store key).isSome, server)

/-- `hdel`: `HDEL key field`. A hash left with no field is removed, as Redis does. -/
def hdel (key field : String) (server : Server) : Except RedisError Unit × Server :=
  match getConnection server with
  | .error error => (.error error, server)
  | .ok () =>
    match server.store key with
    | some (.string _) => (.error wrongType, server)
    | some (.hash fields) =>
      let rest := fields.filter (·.1 != field)
      (.ok (), server.update key (if rest.isEmpty then none else some (.hash rest)))
    | none => (.ok (), server)

/-- `hexists`: `HEXISTS key field`. -/
def hexists (key field : String) (server : Server) : Except RedisError Bool × Server :=
  match getConnection server with
  | .error error => (.error error, server)
  | .ok () =>
    match server.store key with
    | some (.string _) => (.error wrongType, server)
    | some (.hash fields) => (.ok (fields.any (·.1 == field)), server)
    | none => (.ok false, server)

/-! ## What a command fails with -/

/-- The error of a pool that handed out no connection, with the pool's own error. -/
def PoolFailure (error : RedisError) (server : Server) : Prop :=
  ∃ detail, server.pool = some detail ∧ error = .io "Get connection error" detail

/-- The server's refusal of a hash command on a key that holds a string. -/
def WrongType (error : RedisError) (server : Server) (key : String) : Prop :=
  error = wrongType ∧ server.pool = none ∧ ∃ value, server.store key = some (.string value)

theorem getConnection_error {server : Server} {error : RedisError} (failed : getConnection server = .error error) :
    PoolFailure error server := by
  unfold getConnection at failed
  split at failed <;> cases failed
  exact ⟨_, ‹_›, rfl⟩

theorem getConnection_ok {server : Server} (served : getConnection server = .ok ()) : server.pool = none := by
  unfold getConnection at served
  split at served
  · assumption
  · cases served

theorem del_error {key : String} {before after : Server} {error : RedisError}
    (failed : del key before = (.error error, after)) : PoolFailure error after := by
  unfold del at failed
  split at failed <;> cases failed
  exact getConnection_error ‹_›

theorem keyExists_error {key : String} {before after : Server} {error : RedisError}
    (failed : keyExists key before = (.error error, after)) : PoolFailure error after := by
  unfold keyExists at failed
  split at failed <;> cases failed
  exact getConnection_error ‹_›

theorem hdel_error {key field : String} {before after : Server} {error : RedisError}
    (failed : hdel key field before = (.error error, after)) : PoolFailure error after ∨ WrongType error after key := by
  unfold hdel at failed
  split at failed
  · cases failed
    exact .inl (getConnection_error ‹_›)
  · split at failed <;> cases failed
    exact .inr ⟨rfl, getConnection_ok ‹_›, _, ‹_›⟩

theorem hexists_error {key field : String} {before after : Server} {error : RedisError}
    (failed : hexists key field before = (.error error, after)) : PoolFailure error after ∨ WrongType error after key := by
  unfold hexists at failed
  split at failed
  · cases failed
    exact .inl (getConnection_error ‹_›)
  · split at failed <;> cases failed
    exact .inr ⟨rfl, getConnection_ok ‹_›, _, ‹_›⟩

/-! ## The loop -/

/-- What the other clients do before a command of the loop. -/
abbrev Turn := Server → Server

/-- The `loop` of a confirmed delete: after each turn of the others, `poll`; an
`Ok(false)` or an `Err` returns, an `Ok(true)` polls again. `none` when the turns
run out with the loop still polling. -/
def pollAbsent (poll : Server → Except RedisError Bool × Server) : List Turn → Server →
    Option (Except RedisError Unit × Server)
  | [], _ => none
  | others :: turns, server =>
    match poll (others server) with
    | (.ok false, after) => some (.ok (), after)
    | (.error error, after) => some (.error error, after)
    | (.ok true, after) => pollAbsent poll turns after

/-- The delete, `?` on its reply, then the loop. -/
def confirmDelete (remove : Server → Except RedisError Unit × Server) (poll : Server → Except RedisError Bool × Server) :
    List Turn → Server → Option (Except RedisError Unit × Server)
  | [], _ => none
  | others :: turns, server =>
    match remove (others server) with
    | (.error error, after) => some (.error error, after)
    | (.ok (), after) => pollAbsent poll turns after

/-- `del_confirm`. -/
def delConfirm (key : String) : List Turn → Server → Option (Except RedisError Unit × Server) :=
  confirmDelete (del key) (keyExists key)

/-- `hdel_confirm`. -/
def hdelConfirm (key field : String) : List Turn → Server → Option (Except RedisError Unit × Server) :=
  confirmDelete (hdel key field) (hexists key field)

/-! ## Every run of the loop -/

section
variable {remove : Server → Except RedisError Unit × Server} {poll : Server → Except RedisError Bool × Server}

/-- The loop returns only what a poll answered, `Ok(false)` as `Ok(())`, in the
state that poll left. -/
theorem pollAbsent_some {turns : List Turn} {server after : Server} {result : Except RedisError Unit}
    (returned : pollAbsent poll turns server = some (result, after)) :
    ∃ before, poll before = (result.map fun _ => false, after) := by
  induction turns generalizing server with
  | nil => cases returned
  | cons others turns ih =>
    unfold pollAbsent at returned
    split at returned
    · cases returned
      exact ⟨_, ‹_›⟩
    · cases returned
      exact ⟨_, ‹_›⟩
    · exact ih returned

theorem confirmDelete_ok {turns : List Turn} {server after : Server}
    (confirmed : confirmDelete remove poll turns server = some (.ok (), after)) :
    ∃ before, poll before = (.ok false, after) := by
  cases turns with
  | nil => cases confirmed
  | cons others turns =>
    rcases removed : remove (others server) with ⟨_ | ⟨⟩, state⟩ <;> rw [confirmDelete, removed] at confirmed
    · cases confirmed
    · exact pollAbsent_some confirmed

/-- The loop returns `Err` only from the delete or a poll that failed with it, in the
state that command left. -/
theorem confirmDelete_error {turns : List Turn} {server after : Server} {error : RedisError}
    (failed : confirmDelete remove poll turns server = some (.error error, after)) :
    (∃ before, remove before = (.error error, after)) ∨ ∃ before, poll before = (.error error, after) := by
  cases turns with
  | nil => cases failed
  | cons others turns =>
    rcases removed : remove (others server) with ⟨_ | ⟨⟩, state⟩ <;> rw [confirmDelete, removed] at failed
    · cases failed
      exact .inl ⟨_, removed⟩
    · exact .inr (pollAbsent_some failed)

/-- While every poll answers `true`, the loop never returns. -/
theorem pollAbsent_spins {turns : List Turn} (present : ∀ others ∈ turns, ∀ server, ∃ after, poll (others server) = (.ok true, after))
    (server : Server) : pollAbsent poll turns server = none := by
  induction turns generalizing server with
  | nil => rfl
  | cons others turns ih =>
    obtain ⟨after, polled⟩ := present others (List.mem_cons_self _ _) server
    rw [pollAbsent, polled]
    exact ih (fun turn member => present turn (List.mem_cons_of_mem _ member)) after

end

/-! ## `del_confirm` -/

theorem keyExists_false {key : String} {before after : Server} (polled : keyExists key before = (.ok false, after)) :
    after = before ∧ before.store key = none := by
  unfold keyExists at polled
  split at polled
  · cases polled
  · obtain ⟨answer, rfl⟩ := Prod.mk.inj polled
    exact ⟨rfl, Option.not_isSome_iff_eq_none.mp (by simpa using answer)⟩

/-- Whatever the other clients do between its commands, `del_confirm` returns `Ok`
only in a state where the key is absent: the state its last `exists` saw. -/
theorem delConfirm_ok_absent {key : String} {turns : List Turn} {server after : Server}
    (confirmed : delConfirm key turns server = some (.ok (), after)) : after.store key = none := by
  obtain ⟨before, polled⟩ := confirmDelete_ok confirmed
  obtain ⟨rfl, absent⟩ := keyExists_false polled
  exact absent

/-- A session key holding a string, and a pool that serves. -/
def sessionServer : Server := ⟨fun k => if k = "session" then some (.string "tom") else none, none⟩

/-- Nothing happens between the commands: `del_confirm` deletes and returns. -/
theorem delConfirm_ok_absent_session :
    delConfirm "session" [id, id] sessionServer = some (.ok (), sessionServer.update "session" none) ∧
      (sessionServer.update "session" none).store "session" = none :=
  ⟨rfl, @delConfirm_ok_absent "session" [id, id] sessionServer _ rfl⟩

/-- Another client logs the session in again. -/
def relogin (state : Server) : Server := { state.update "session" (some (.string "tom")) with pool := none }

/-- The pool stops handing out connections. -/
def outage (state : Server) : Server := { state with pool := some "timed out" }

/-! ## `hdel_confirm` -/

/-- Whether the hash at `key` holds `field`. -/
def Server.hasField (server : Server) (key field : String) : Bool :=
  match server.store key with
  | some (.hash fields) => fields.any (·.1 == field)
  | _ => false

theorem hexists_false {key field : String} {before after : Server}
    (polled : hexists key field before = (.ok false, after)) :
    after = before ∧ before.hasField key field = false ∧ ∀ value, before.store key ≠ some (.string value) := by
  unfold hexists at polled
  split at polled
  · cases polled
  · split at polled
    · cases polled
    · rename_i fields found
      obtain ⟨answer, rfl⟩ := Prod.mk.inj polled
      exact ⟨rfl, by simpa [Server.hasField, found] using answer, fun _ => by simp [found]⟩
    · rename_i found
      obtain ⟨-, rfl⟩ := Prod.mk.inj polled
      exact ⟨rfl, by simp [Server.hasField, found], fun _ => by simp [found]⟩

/-- Whatever the other clients do between its commands, `hdel_confirm` returns `Ok`
only in a state where the key holds no string and no hash with the field. -/
theorem hdelConfirm_ok_absent {key field : String} {turns : List Turn} {server after : Server}
    (confirmed : hdelConfirm key field turns server = some (.ok (), after)) :
    after.hasField key field = false ∧ ∀ value, after.store key ≠ some (.string value) := by
  obtain ⟨before, polled⟩ := confirmDelete_ok confirmed
  obtain ⟨rfl, absent⟩ := hexists_false polled
  exact absent

/-- A cart hash with two fields, and a pool that serves. -/
def cartServer : Server := ⟨fun k => if k = "cart" then some (.hash [("apple", "1"), ("pear", "2")]) else none, none⟩

/-- Nothing happens between the commands: the field goes and the hash keeps the other. -/
theorem hdelConfirm_ok_absent_cart :
    hdelConfirm "cart" "apple" [id, id] cartServer = some (.ok (), cartServer.update "cart" (some (.hash [("pear", "2")]))) ∧
      (cartServer.update "cart" (some (.hash [("pear", "2")]))).hasField "cart" "apple" = false ∧
      ∀ value, (cartServer.update "cart" (some (.hash [("pear", "2")]))).store "cart" ≠ some (.string value) :=
  ⟨rfl, @hdelConfirm_ok_absent "cart" "apple" [id, id] cartServer _ rfl⟩

/-- Another client stores a string at the cart. -/
def overwrite (state : Server) : Server := state.update "cart" (some (.string "empty"))

end Tardis.Cache
