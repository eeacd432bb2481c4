import Mathlib.Algebra.Group.Int.Defs
import Rask.Filename
import Rask.ChildProcess

/-! # Configuration

    The code of src/config_parser.c, and what `main` (src/server.c) does with
    its result up to `thread_pool_ini`:

    * **Options** of a file that libconfuse has parsed: each of the eight may
      be missing, and then the variable bound to it is left alone.
    * **`config_load`** casts and checks the variables, whether or not they
      have been set; the integers are on the stack, and not initialised.
    * **`socket_open`** (srclib/socket) converts the port to 16 bits.
    * **`ConfigHonoured`**: the file is refused, or it sets every option and
      the server works with its values.
    * **`config_honoured_iff`** says for which files this is so, and
      `config_of_honoured` gives the `Config` of the rest of the model.
-/

namespace Rask

/-! ### Integers -/

/-- A `long int`. -/
structure Long where
  val : Int
  range : -2 ^ 63 ≤ val ∧ val < 2 ^ 63

/-- The values of an `int`. -/
def IntRange (n : Int) : Prop := -2 ^ 31 ≤ n ∧ n < 2 ^ 31

/-- The cast `(int) n`. -/
def Long.cast (n : Long) : Int := n.val.bmod (2 ^ 32)

/-- The cast changes nothing exactly when there is nothing to cut off. -/
theorem Long.cast_eq_iff (n : Long) : n.cast = n.val ↔ IntRange n.val := by
  unfold Long.cast IntRange
  constructor
  · intro h
    have hle := Int.le_bmod (x := n.val) (m := 2 ^ 32) (by omega)
    have hlt := Int.bmod_lt (x := n.val) (m := 2 ^ 32) (by omega)
    omega
  · rintro ⟨hle, hlt⟩
    exact Int.bmod_eq_of_le (by omega) (by omega)

/-- The check of `socket_timeout` keeps the cast from a negative number. -/
theorem socket_timeout_eq_iff (n : Long) :
    (if n.val < 0 then 0 else n.cast) = max n.val 0 ↔ n.val < 2 ^ 31 := by
  have hcast := n.cast_eq_iff
  unfold IntRange at hcast
  split <;> omega

/-! ### Options -/

/-- The options in `opts`. -/
inductive ConfOpt where
  | signature
  | base_path
  | default_path
  | log_priority
  | max_connections
  | listen_port
  | script_timeout
  | socket_timeout
  deriving DecidableEq, Repr

/-- What a file sets. -/
structure ConfFile where
  signature : Option Bytes
  base_path : Option Bytes
  default_path : Option Bytes
  log_priority : Option Bytes
  max_connections : Option Long
  listen_port : Option Long
  script_timeout : Option Long
  socket_timeout : Option Long

/-- The file sets the option. -/
def ConfFile.Sets (file : ConfFile) : ConfOpt → Prop
  | .signature => file.signature.isSome
  | .base_path => file.base_path.isSome
  | .default_path => file.default_path.isSome
  | .log_priority => file.log_priority.isSome
  | .max_connections => file.max_connections.isSome
  | .listen_port => file.listen_port.isSome
  | .script_timeout => file.script_timeout.isSome
  | .socket_timeout => file.socket_timeout.isSome

/-- A file that sets every option. -/
theorem ConfFile.complete {file : ConfFile} (h : ∀ opt, file.Sets opt) :
    ∃ signature base_path default_path log_priority,
      ∃ max_connections listen_port script_timeout socket_timeout,
        file = ⟨some signature, some base_path, some default_path, some log_priority,
          some max_connections, some listen_port, some script_timeout, some socket_timeout⟩ := by
  obtain ⟨signature, hsignature⟩ := Option.isSome_iff_exists.mp (h .signature)
  obtain ⟨base_path, hbase⟩ := Option.isSome_iff_exists.mp (h .base_path)
  obtain ⟨default_path, hdefault⟩ := Option.isSome_iff_exists.mp (h .default_path)
  obtain ⟨log_priority, hlog⟩ := Option.isSome_iff_exists.mp (h .log_priority)
  obtain ⟨max_connections, hmax⟩ := Option.isSome_iff_exists.mp (h .max_connections)
  obtain ⟨listen_port, hport⟩ := Option.isSome_iff_exists.mp (h .listen_port)
  obtain ⟨script_timeout, hscript⟩ := Option.isSome_iff_exists.mp (h .script_timeout)
  obtain ⟨socket_timeout, hsock⟩ := Option.isSome_iff_exists.mp (h .socket_timeout)
  refine ⟨signature, base_path, default_path, log_priority,
    max_connections, listen_port, script_timeout, socket_timeout, ?_⟩
  cases file
  simp_all

/-- The variables of `config_load` that are not initialised. -/
structure Stack where
  max_connections : Long
  listen_port : Long
  script_timeout : Long
  socket_timeout : Long

/-- The result of `cfg_parse`. -/
inductive CfgParse where
  | success (file : ConfFile)
  | file_error
  | parse_error

/-- `struct config`, as `config_load` fills it. A string may be `NULL`. -/
structure ServerAttrs where
  signature : Option Bytes
  base_path : Option Bytes
  default_path : Option Bytes
  max_connections : Int
  listen_port : Int
  log_priority : Int
  script_timeout : Int
  socket_timeout : Int

/-! ### `config_load` -/

/-- Code that reads the variables of options; which ones is recorded. -/
abbrev Loading := ExceptT Fault (StateM (List ConfOpt))

/-- The outcome, and the variables that were read. -/
def Loading.run {α : Type} (p : Loading α) : Except Fault α × List ConfOpt :=
  StateT.run (ExceptT.run p) []

/-- The variable of an option is read. -/
def use {α : Type} (opt : ConfOpt) (value : α) : Loading α := do
  modify (· ++ [opt])
  return value

/-- The priority of a name; the default is for names that are not known. -/
def priority_of (log_priority : Bytes) : Int :=
  if log_priority = str "INFO" then LOG_INFO
  else if log_priority = str "DEBUG" then LOG_DEBUG
  else if log_priority = str "WARNING" then LOG_WARNING
  else if log_priority = str "ERROR" then LOG_ERR
  else if log_priority = str "CRITICAL" then LOG_CRIT
  else LOG_INFO

/-- `config_load`; `none` is `NULL`. -/
def config_load (calloc : Bool) (stack : Stack) (cfg_parse : CfgParse) :
    Loading (Option ServerAttrs) := do
  if calloc = false then return none
  else
    match cfg_parse with
    | .file_error => return none
    | .parse_error => return none
    | .success file =>
      let max_connections ← use .max_connections (file.max_connections.getD stack.max_connections)
      let listen_port ← use .listen_port (file.listen_port.getD stack.listen_port)
      let script_timeout ← use .script_timeout (file.script_timeout.getD stack.script_timeout)
      let socket_timeout ← use .socket_timeout (file.socket_timeout.getD stack.socket_timeout)
      match ← use .log_priority file.log_priority with
      -- `strcmp(NULL, "INFO")`
      | none => throw .null_pointer
      | some log_priority =>
        -- the strings are read for the messages of `print_debug`
        let signature ← use .signature file.signature
        let base_path ← use .base_path file.base_path
        let default_path ← use .default_path file.default_path
        return some {
          signature := signature
          base_path := base_path
          default_path := default_path
          max_connections := max_connections.cast
          listen_port := listen_port.cast
          log_priority := priority_of log_priority
          script_timeout := script_timeout.cast
          socket_timeout := if socket_timeout.val < 0 then 0 else socket_timeout.cast }

/-- Without memory for the attributes there is nothing to fill. -/
theorem config_load_null (stack : Stack) (cfg_parse : CfgParse) :
    (config_load false stack cfg_parse).run = (.ok none, []) := rfl

/-- A file with every option is loaded as it is, up to the casts. -/
theorem config_load_complete (stack : Stack)
    (signature base_path default_path log_priority : Bytes)
    (max_connections listen_port script_timeout socket_timeout : Long) :
    (config_load true stack (.success
      ⟨some signature, some base_path, some default_path, some log_priority,
        some max_connections, some listen_port, some script_timeout, some socket_timeout⟩)).run =
      (.ok (some ⟨some signature, some base_path, some default_path, max_connections.cast,
        listen_port.cast, priority_of log_priority, script_timeout.cast,
        if socket_timeout.val < 0 then 0 else socket_timeout.cast⟩),
      [.max_connections, .listen_port, .script_timeout, .socket_timeout, .log_priority,
        .signature, .base_path, .default_path]) := rfl

/-- Without a name for the priority, `strcmp` gets `NULL`. -/
theorem config_load_no_priority (stack : Stack) {file : ConfFile} (h : file.log_priority = none) :
    (config_load true stack (.success file)).run.1 = .error .null_pointer := by
  unfold config_load
  simp only [h]
  rfl

/-- With a name for the priority, the file is not refused. -/
theorem config_load_priority (stack : Stack) {file : ConfFile} {log_priority : Bytes}
    (h : file.log_priority = some log_priority) :
    ∃ server_attrs, (config_load true stack (.success file)).run.1 = .ok (some server_attrs) := by
  unfold config_load
  simp only [h]
  exact ⟨_, rfl⟩

/-! ### The start of the server -/

def MAX_QUEUE_LEN : Int := 128

/-- The answers of the operating system while the server starts. -/
structure StartEnv where
  socket : Bool
  setsockopt : Bool
  bind : Bool
  listen : Bool
  sigprocmask : Bool
  /-- The rest of `thread_pool_ini` succeeds. -/
  pool : Bool
  /-- The port that is bound for port 0. -/
  ephemeral : Nat
  ephemeral_range : 1 ≤ ephemeral ∧ ephemeral < 2 ^ 16

/-- All calls succeed. -/
def StartEnv.AllSucceed (env : StartEnv) : Prop :=
  env.socket ∧ env.setsockopt ∧ env.bind ∧ env.listen ∧ env.sigprocmask ∧ env.pool

/-- The conversion to `uint16_t`, for `htons`. -/
def uint16 (n : Int) : Nat := (n % 2 ^ 16).toNat

/-- The port that `bind` takes; for 0 the system chooses one. -/
def StartEnv.bound (env : StartEnv) (sin_port : Nat) : Nat :=
  if sin_port = 0 then env.ephemeral else sin_port

/-- `socket_open`: the port that is bound; `none` is -1. -/
def socket_open (env : StartEnv) (port max_pending_connections : Int) : Option Nat :=
  if port < 0 ∨ max_pending_connections < 0 then none
  else if env.socket = false then none
  else if env.setsockopt = false then none
  else if env.bind = false then none
  else if env.listen = false then none
  else some (env.bound (uint16 port))

theorem socket_open_eq_some (env : StartEnv) (port max_pending_connections : Int) (sin_port : Nat) :
    socket_open env port max_pending_connections = some sin_port ↔
      0 ≤ port ∧ 0 ≤ max_pending_connections ∧
      (env.socket ∧ env.setsockopt ∧ env.bind ∧ env.listen) ∧
      sin_port = env.bound (uint16 port) := by
  unfold socket_open
  grind

/-- What `main` does with the attributes, up to the start of the threads: the
    port of a server that starts. -/
def server_start (env : StartEnv) (server_attrs : ServerAttrs) : Option Nat :=
  match socket_open env server_attrs.listen_port MAX_QUEUE_LEN with
  | none => none
  | some port =>
    if env.sigprocmask = false then none
    -- `thread_pool_ini`
    else if server_attrs.max_connections < 1 then none
    else if env.pool = false then none
    else some port

/-- `main` up to the start of the threads. -/
def main_start (env : StartEnv) (calloc : Bool) (stack : Stack) (cfg_parse : CfgParse) :
    Loading (Option Nat) := do
  match ← config_load calloc stack cfg_parse with
  | none => return none
  | some server_attrs => return server_start env server_attrs

/-- A server that starts has its port from the attributes, cut to 16 bits. -/
theorem server_start_eq_some (env : StartEnv) (server_attrs : ServerAttrs) (port : Nat) :
    server_start env server_attrs = some port ↔
      env.AllSucceed ∧ 1 ≤ server_attrs.max_connections ∧ 0 ≤ server_attrs.listen_port ∧
      port = env.bound (uint16 server_attrs.listen_port) := by
  have hopen := socket_open_eq_some env server_attrs.listen_port MAX_QUEUE_LEN
  have hlen : 0 ≤ MAX_QUEUE_LEN := by decide
  unfold server_start StartEnv.AllSucceed
  cases hsocket : socket_open env server_attrs.listen_port MAX_QUEUE_LEN with
  | none =>
    -- one of the conditions of `socket_open` fails
    have hnone := (hopen (env.bound (uint16 server_attrs.listen_port))).not.mp (by simp [hsocket])
    grind
  | some sin_port =>
    have hsome := (hopen sin_port).mp hsocket
    grind

/-- A port is always bound as it is exactly when it is not 0, and in 16 bits. -/
theorem bound_uint16_eq_iff {n : Int} (hpos : 0 ≤ n) (env : StartEnv) :
    (env.bound (uint16 n) : Int) = n ↔ 1 ≤ n ∧ n < 2 ^ 16 := by
  have hrange := env.ephemeral_range
  unfold StartEnv.bound uint16
  split <;> omega

/-- `main` reads what `config_load` reads, and starts with its attributes. -/
theorem main_start_run (env : StartEnv) (calloc : Bool) (stack : Stack) (cfg_parse : CfgParse) :
    (main_start env calloc stack cfg_parse).run =
      ((config_load calloc stack cfg_parse).run.1.map (·.bind (server_start env)),
        (config_load calloc stack cfg_parse).run.2) := by
  unfold main_start Loading.run ExceptT.run StateT.run
  simp only [bind, ExceptT.bind, ExceptT.mk, StateT.bind, ExceptT.bindCont]
  cases config_load calloc stack cfg_parse [] with
  | mk result reads =>
    cases result with
    | error fault => rfl
    | ok loaded => cases loaded <;> rfl

/-! ### Honouring a file -/

/-- The fields have the values in the file, but for a negative
    `socket_timeout`, which is 0. -/
structure ServerAttrs.Holds (server_attrs : ServerAttrs) (file : ConfFile) : Prop where
  signature : server_attrs.signature = file.signature
  base_path : server_attrs.base_path = file.base_path
  default_path : server_attrs.default_path = file.default_path
  log_priority : ∀ name ∈ file.log_priority, server_attrs.log_priority = priority_of name
  max_connections : ∀ n ∈ file.max_connections, server_attrs.max_connections = n.val
  listen_port : ∀ n ∈ file.listen_port, server_attrs.listen_port = n.val
  script_timeout : ∀ n ∈ file.script_timeout, server_attrs.script_timeout = n.val
  socket_timeout : ∀ n ∈ file.socket_timeout, server_attrs.socket_timeout = max n.val 0

/-- A file that libconfuse accepts is refused or honoured: what the server
    works with is in the file, and nothing else is read. -/
structure ConfigHonoured (calloc : Bool) (stack : Stack) (file : ConfFile) : Prop where
  loaded : (config_load calloc stack (.success file)).run.1 = .ok none ∨
    ∃ server_attrs, (config_load calloc stack (.success file)).run.1 = .ok (some server_attrs) ∧
      (∀ opt, file.Sets opt) ∧ server_attrs.Holds file
  port : ∀ env port, (main_start env calloc stack (.success file)).run.1 = .ok (some port) →
    ∃ n ∈ file.listen_port, (port : Int) = n.val
  reads : ∀ env, ∀ opt ∈ (main_start env calloc stack (.success file)).run.2, file.Sets opt

/-- The integers survive the casts. A negative `socket_timeout` is not cast. -/
def ConfFile.IntsFit (file : ConfFile) : Prop :=
  (∀ n ∈ file.max_connections, IntRange n.val) ∧ (∀ n ∈ file.listen_port, IntRange n.val) ∧
  (∀ n ∈ file.script_timeout, IntRange n.val) ∧ ∀ n ∈ file.socket_timeout, n.val < 2 ^ 31

/-- A port that the server does not refuse is a port of TCP, and not 0. -/
def ConfFile.PortFits (file : ConfFile) : Prop :=
  ∀ max_connections ∈ file.max_connections, ∀ listen_port ∈ file.listen_port,
    1 ≤ max_connections.val → 0 ≤ listen_port.val →
      1 ≤ listen_port.val ∧ listen_port.val < 2 ^ 16

theorem ints_fit_complete (signature base_path default_path log_priority : Bytes)
    (max_connections listen_port script_timeout socket_timeout : Long) :
    ConfFile.IntsFit ⟨some signature, some base_path, some default_path, some log_priority,
        some max_connections, some listen_port, some script_timeout, some socket_timeout⟩ ↔
      IntRange max_connections.val ∧ IntRange listen_port.val ∧ IntRange script_timeout.val ∧
        socket_timeout.val < 2 ^ 31 := by
  simp [ConfFile.IntsFit]

theorem port_fits_complete (signature base_path default_path log_priority : Bytes)
    (max_connections listen_port script_timeout socket_timeout : Long) :
    ConfFile.PortFits ⟨some signature, some base_path, some default_path, some log_priority,
        some max_connections, some listen_port, some script_timeout, some socket_timeout⟩ ↔
      (1 ≤ max_connections.val → 0 ≤ listen_port.val →
        1 ≤ listen_port.val ∧ listen_port.val < 2 ^ 16) := by
  simp [ConfFile.PortFits]

/-- The attributes of a complete file hold its values exactly when no cast
    changes them. -/
theorem holds_iff_ints_fit {file : ConfFile} (stack : Stack) (h : ∀ opt, file.Sets opt)
    {server_attrs : ServerAttrs}
    (hload : (config_load true stack (.success file)).run.1 = .ok (some server_attrs)) :
    server_attrs.Holds file ↔ file.IntsFit := by
  obtain ⟨_, _, _, _, max_connections, listen_port, script_timeout, socket_timeout, rfl⟩ :=
    ConfFile.complete h
  rw [config_load_complete] at hload
  cases hload
  have hmax := max_connections.cast_eq_iff
  have hport := listen_port.cast_eq_iff
  have hscript := script_timeout.cast_eq_iff
  have hsock := socket_timeout_eq_iff socket_timeout
  rw [ints_fit_complete]
  constructor
  · intro hholds
    exact ⟨hmax.mp (hholds.max_connections _ rfl), hport.mp (hholds.listen_port _ rfl),
      hscript.mp (hholds.script_timeout _ rfl), hsock.mp (hholds.socket_timeout _ rfl)⟩
  · intro ⟨hmaxfit, hportfit, hscriptfit, hsockfit⟩
    constructor <;> simp [hmax.mpr hmaxfit, hport.mpr hportfit, hscript.mpr hscriptfit,
      hsock.mpr hsockfit]

/-- All calls succeed, and port 0 becomes 32768. -/
def quiet_start : StartEnv := ⟨true, true, true, true, true, true, 32768, by decide⟩

theorem quiet_start_all_succeed : quiet_start.AllSucceed := by simp [StartEnv.AllSucceed, quiet_start]

/-- A server on a complete file whose integers fit binds only the port of the
    file exactly when `PortFits`. -/
theorem port_iff_port_fits {file : ConfFile} (stack : Stack) (h : ∀ opt, file.Sets opt)
    (hfit : file.IntsFit) :
    (∀ env port, (main_start env true stack (.success file)).run.1 = .ok (some port) →
      ∃ n ∈ file.listen_port, (port : Int) = n.val) ↔ file.PortFits := by
  obtain ⟨_, _, _, _, max_connections, listen_port, _, _, rfl⟩ := ConfFile.complete h
  obtain ⟨hmax, hport, -, -⟩ := (ints_fit_complete ..).mp hfit
  simp only [main_start_run, config_load_complete, Except.map, Option.bind, Except.ok.injEq,
    server_start_eq_some, max_connections.cast_eq_iff.mpr hmax, listen_port.cast_eq_iff.mpr hport,
    Option.mem_def, Option.some.injEq, exists_eq_left']
  rw [port_fits_complete]
  constructor
  · intro hbound hconn hpos
    have heq := hbound quiet_start _ ⟨quiet_start_all_succeed, hconn, hpos, rfl⟩
    exact (bound_uint16_eq_iff hpos quiet_start).mp heq
  · intro hfits env port ⟨_, hconn, hpos, hport⟩
    subst hport
    exact (bound_uint16_eq_iff hpos env).mpr (hfits hconn hpos)

/-- A server without attributes does not start, and reads nothing. -/
theorem honoured_of_null (stack : Stack) (file : ConfFile) : ConfigHonoured false stack file where
  loaded := .inl (by rw [config_load_null])
  port env port h := by
    rw [main_start_run, config_load_null] at h
    cases h
  reads env opt h := by
    rw [main_start_run, config_load_null] at h
    cases h

/-- Once there are attributes, the file is not refused any more. -/
theorem config_load_ne_null (stack : Stack) (file : ConfFile) :
    (config_load true stack (.success file)).run.1 ≠ .ok none := by
  cases hlog : file.log_priority with
  | none => simp [config_load_no_priority stack hlog]
  | some log_priority =>
    obtain ⟨server_attrs, hload⟩ := config_load_priority stack hlog
    simp [hload]

/-- A complete file that fits is honoured. -/
theorem honoured_of_fits (calloc : Bool) (stack : Stack) {file : ConfFile}
    (h : ∀ opt, file.Sets opt) (hints : file.IntsFit) (hport : file.PortFits) :
    ConfigHonoured calloc stack file := by
  cases calloc with
  | false => exact honoured_of_null stack file
  | true =>
    obtain ⟨log_priority, hlog⟩ := Option.isSome_iff_exists.mp (h .log_priority)
    obtain ⟨server_attrs, hload⟩ := config_load_priority stack hlog
    constructor
    · right
      exact ⟨server_attrs, hload, h, (holds_iff_ints_fit stack h hload).mpr hints⟩
    · exact (port_iff_port_fits stack h hints).mpr hport
    · intro env opt _
      exact h opt

/-- files/rask.conf, up to the port. -/
def rask_conf (listen_port : Option Long) : ConfFile where
  signature := some (str "rask")
  base_path := some (str "/var/www")
  default_path := some (str "/index.html")
  log_priority := some (str "DEBUG")
  max_connections := some ⟨1000, by decide⟩
  listen_port := listen_port
  script_timeout := some ⟨10, by decide⟩
  socket_timeout := some ⟨10, by decide⟩

example (stack : Stack) : ConfigHonoured true stack (rask_conf (some ⟨8080, by decide⟩)) := by
  apply honoured_of_fits
  · intro opt
    cases opt <;> rfl
  · simp [ConfFile.IntsFit, IntRange, rask_conf]
  · simp [ConfFile.PortFits, rask_conf]

/-- Which files that libconfuse accepts are refused or honoured. -/
theorem config_honoured_iff (calloc : Bool) (stack : Stack) (file : ConfFile) :
    ConfigHonoured calloc stack file ↔
      calloc = false ∨ ((∀ opt, file.Sets opt) ∧ file.IntsFit ∧ file.PortFits) := by
  constructor
  · intro h
    cases calloc with
    | false => left; rfl
    | true =>
      right
      obtain hnull | ⟨server_attrs, hload, hsets, hholds⟩ := h.loaded
      · exact absurd hnull (config_load_ne_null stack file)
      · have hints := (holds_iff_ints_fit stack hsets hload).mp hholds
        exact ⟨hsets, hints, (port_iff_port_fits stack hsets hints).mp h.port⟩
  · rintro (rfl | ⟨hsets, hints, hport⟩)
    · exact honoured_of_null stack file
    · exact honoured_of_fits calloc stack hsets hints hport

/-- What earlier calls left where `config_load` has its variables. -/
def used_stack : Stack :=
  ⟨⟨0, by decide⟩, ⟨9090, by decide⟩, ⟨0, by decide⟩, ⟨0, by decide⟩⟩

/-- Port 70000 is bound as 4464, a port that is missing as what is on the stack,
    and without a priority `strcmp` gets `NULL`. -/
theorem port_cut_off :
    (main_start quiet_start true used_stack
        (.success (rask_conf (some ⟨70000, by decide⟩)))).run.1 = .ok (some 4464) ∧
      ¬ ConfigHonoured true used_stack (rask_conf (some ⟨70000, by decide⟩)) ∧
      (main_start quiet_start true used_stack (.success (rask_conf none))).run.1
        = .ok (some 9090) ∧
      (config_load true used_stack
        (.success { rask_conf (some ⟨8080, by decide⟩) with log_priority := none })).run.1
        = .error .null_pointer := by
  have hbound : (main_start quiet_start true used_stack
      (.success (rask_conf (some ⟨70000, by decide⟩)))).run.1 = .ok (some 4464) := by rfl
  refine ⟨hbound, ?_, by rfl, by rfl⟩
  intro h
  obtain ⟨n, hn, hport⟩ := h.port _ _ hbound
  cases hn
  exact absurd hport (by decide)

/-! ### The configuration of the server -/

/-- The attributes as `Config`, once no string is `NULL`. -/
def ServerAttrs.config (server_attrs : ServerAttrs) : Option Config := do
  let signature ← server_attrs.signature
  let base_path ← server_attrs.base_path
  let default_path ← server_attrs.default_path
  return {
    signature := signature
    base_path := base_path
    default_path := default_path
    max_connections := server_attrs.max_connections
    listen_port := server_attrs.listen_port
    log_priority := server_attrs.log_priority
    script_timeout := server_attrs.script_timeout
    socket_timeout := server_attrs.socket_timeout }

theorem ServerAttrs.config_eq {server_attrs : ServerAttrs} {signature base_path default_path : Bytes}
    (hsignature : server_attrs.signature = some signature)
    (hbase : server_attrs.base_path = some base_path)
    (hdefault : server_attrs.default_path = some default_path) :
    server_attrs.config = some ⟨signature, base_path, default_path, server_attrs.max_connections,
      server_attrs.listen_port, server_attrs.log_priority, server_attrs.script_timeout,
      server_attrs.socket_timeout⟩ := by
  simp [ServerAttrs.config, hsignature, hbase, hdefault]

/-- The server of an honoured file has a `Config`, with the strings and the
    timeouts of the file. -/
theorem config_of_honoured {stack : Stack} {file : ConfFile} (h : ConfigHonoured true stack file) :
    ∃ server_attrs config,
      (config_load true stack (.success file)).run.1 = .ok (some server_attrs) ∧
      server_attrs.config = some config ∧
      file.signature = some config.signature ∧ file.base_path = some config.base_path ∧
      file.default_path = some config.default_path ∧
      (∀ n ∈ file.script_timeout, config.script_timeout = n.val) ∧
      ∀ n ∈ file.socket_timeout, config.socket_timeout = max n.val 0 := by
  obtain hnull | ⟨server_attrs, hload, hsets, hholds⟩ := h.loaded
  · exact absurd hnull (config_load_ne_null stack file)
  · obtain ⟨signature, hsignature⟩ := Option.isSome_iff_exists.mp (hsets .signature)
    obtain ⟨base_path, hbase⟩ := Option.isSome_iff_exists.mp (hsets .base_path)
    obtain ⟨default_path, hdefault⟩ := Option.isSome_iff_exists.mp (hsets .default_path)
    have hconfig := ServerAttrs.config_eq (hholds.signature.trans hsignature)
      (hholds.base_path.trans hbase) (hholds.default_path.trans hdefault)
    exact ⟨server_attrs, _, hload, hconfig, hsignature, hbase, hdefault,
      hholds.script_timeout, hholds.socket_timeout⟩

end Rask
