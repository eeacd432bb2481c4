import Rask.Request

/-! # The Host of a Request

    What the code of a request asks of the world around it, and how its
    effects are modelled:

    * **The environment** fixes every answer of the operating system while
      one request is handled: allocations, `send`, the file system,
      `strftime`, scripts. Any answers are allowed.
    * **The world** is what the code changes: the bytes still to be read
      from the client, and the log of what was handed to `send`.
    * **`Host`** computations read the environment, change the world, and
      may halt.

    Releasing memory and descriptors has no effect here, and neither have
    the log messages.
-/

namespace Rask

/-! ### The environment -/

/-- How one run of a script goes. -/
structure Script where
  /-- Both calls of `pipe` succeed. -/
  pipe : Bool
  fork : Bool
  /-- The script takes its standard input. -/
  write : Bool
  /-- The results of `read` on its standard output. -/
  output : List ReadResult

/-- The answers of the operating system during one request. Calls that are
    made more than once are answered by the time of the call. -/
structure Env where
  /-- How often each unbounded loop and recursion may go round. -/
  fuel : Nat
  malloc : Nat → Bool
  realloc : Nat → Bool
  /-- `send` of so many bytes: `none` is -1, `some k` at most `k + 1` bytes. -/
  send : Nat → Nat → Option Nat
  /-- The most that one `fread` yields. -/
  fread : Nat → Nat
  /-- What `current_date` holds after its `strftime`. -/
  current_date : Nat → Bytes
  /-- What `c_last_modified` holds after its `strftime` of that time. -/
  c_last_modified : Int → Bytes
  access : Bytes → Bool
  /-- The bytes that the opened file yields. -/
  fopen : Bytes → Option Bytes
  st_size : Bytes → Option Nat
  st_mtime : Bytes → Option Int
  /-- The script started with this interpreter, path, input and timeout. -/
  script : Bytes → Bytes → Bytes → Int → Script

/-- A host on which every call succeeds, with one file and one script output.
    The line 'Last modified' is cut off where its array ends. -/
def Env.friendly (name contents : Bytes) : Env where
  fuel := 10
  malloc := fun _ => true
  realloc := fun _ => true
  send := fun _ len => some len
  fread := fun _ => 4096
  current_date := fun _ => str "Thu, 01 Jan 1970 00:00:00 GMT"
  c_last_modified := fun _ => str "Last modified: Thu, 01 Jan 1970 00:00:"
  access := fun filename => filename = name
  fopen := fun filename => if filename = name then some contents else none
  st_size := fun filename => if filename = name then some contents.length else none
  st_mtime := fun filename => if filename = name then some 0 else none
  script := fun _ _ _ _ => ⟨true, true, true, [.data (str "hello"), .data []]⟩

/-- There is one file. -/
theorem Env.friendly_fopen {name contents filename f : Bytes}
    (h : (Env.friendly name contents).fopen filename = some f) : filename = name ∧ f = contents := by
  simp only [Env.friendly] at h
  split at h
  · next hname => exact ⟨hname, (Option.some.inj h).symm⟩
  · cases h

/-! ### The world -/

/-- One call of `send`. -/
structure Sent where
  /-- The dynamic buffer that held the bytes. -/
  sender : Nat
  offered : Bytes
  /-- The number of bytes accepted, or -1. -/
  result : Option Nat
  deriving DecidableEq, Repr

/-- The bytes that the call put on the connection. -/
def Sent.accepted (sent : Sent) : Bytes := sent.offered.take (sent.result.getD 0)

/-- The call accepted everything. -/
def Sent.Complete (sent : Sent) : Prop := sent.result = some sent.offered.length

instance (sent : Sent) : Decidable sent.Complete := by
  unfold Sent.Complete
  exact inferInstance

/-- The result is an answer of the environment. -/
def Sent.AnsweredBy (sent : Sent) (env : Env) : Prop :=
  ∃ t, sent.result = (env.send t sent.offered.length).map fun k => min (k + 1) sent.offered.length

/-- What the code of a request changes. -/
structure World where
  /-- The results of the `read` calls still to come. -/
  reads : List ReadResult
  /-- The time, counted in calls of the operating system. -/
  clock : Nat
  /-- The calls of `send`, in order. -/
  sent : List Sent
  deriving DecidableEq, Repr

/-- What was handed to `send` between two states of the world. -/
def World.log (w w' : World) : List Sent := w'.sent.drop w.sent.length

/-- The same world, one call later. -/
def World.tick (w : World) : World := { w with clock := w.clock + 1 }

@[simp] theorem World.tick_reads (w : World) : w.tick.reads = w.reads := rfl
@[simp] theorem World.tick_clock (w : World) : w.tick.clock = w.clock + 1 := rfl
@[simp] theorem World.tick_sent (w : World) : w.tick.sent = w.sent := rfl

theorem World.log_append {w w' : World} {log : List Sent} (h : w'.sent = w.sent ++ log) :
    w.log w' = log := by
  rw [World.log, h, List.drop_left]

/-! ### Computations -/

/-- Why a computation does not return. -/
inductive Halt where
  /-- A call of the operating system that never returns. -/
  | blocked
  | fault (f : Fault)
  /-- `strcmp` was called with a null extension. -/
  | null_extension
  /-- A loop or recursion went round more often than `fuel` allows. -/
  | out_of_fuel
  deriving DecidableEq, Repr

/-- The code of a request. -/
abbrev Host := ReaderT Env (StateT World (Except Halt))

/-- Stop: the computation does not return. -/
def halt {α : Type} (h : Halt) : Host α := fun _ _ => .error h

namespace Host

variable {α β : Type} {env : Env} {w w' : World}

theorem bind_ok {p : Host α} {f : α → Host β} {b : β}
    (h : (p >>= f) env w = .ok (b, w')) :
    ∃ a w₁, p env w = .ok (a, w₁) ∧ f a env w₁ = .ok (b, w') := by
  have heq : (p >>= f) env w = (p env w).bind fun x => f x.1 env x.2 := rfl
  rw [heq] at h
  cases hp : p env w with
  | error e =>
    rw [hp] at h
    cases h
  | ok x =>
    rw [hp] at h
    exact ⟨x.1, x.2, rfl, h⟩

/-- A call of which something has been computed returns. -/
theorem ok_of_toOption {p : Host α} {f : α × World → β} {b : β}
    (h : (p env w).toOption.map f = some b) :
    ∃ a w', p env w = .ok (a, w') ∧ f (a, w') = b := by
  cases hp : p env w with
  | error e =>
    rw [hp] at h
    cases h
  | ok x =>
    rw [hp] at h
    exact ⟨x.1, x.2, rfl, Option.some.inj h⟩

theorem bind_of_ok {p : Host α} {f : α → Host β} {a : α} {w₁ : World}
    (h : p env w = .ok (a, w₁)) : (p >>= f) env w = f a env w₁ := by
  have heq : (p >>= f) env w = (p env w).bind fun x => f x.1 env x.2 := rfl
  rw [heq, h]
  rfl

theorem bind_of_error {p : Host α} {f : α → Host β} {e : Halt}
    (h : p env w = .error e) : (p >>= f) env w = .error e := by
  have heq : (p >>= f) env w = (p env w).bind fun x => f x.1 env x.2 := rfl
  rw [heq, h]
  rfl

/-- What comes after does not tell apart computations with one outcome. -/
theorem bind_of_eq {p q : Host α} {f : α → Host β} {w₁ : World} (h : p env w = q env w₁) :
    (p >>= f) env w = (q >>= f) env w₁ := by
  have heq : (p >>= f) env w = (p env w).bind fun x => f x.1 env x.2 := rfl
  rw [heq, h]
  rfl

theorem pure_ok {a b : α} (h : (pure a : Host α) env w = .ok (b, w')) : b = a ∧ w' = w := by
  have heq : (pure a : Host α) env w = .ok (a, w) := rfl
  rw [heq] at h
  cases h
  exact ⟨rfl, rfl⟩

theorem halt_ne_ok {e : Halt} {b : α} : (halt e : Host α) env w ≠ .ok (b, w') := nofun

end Host

/-! ### Calls of the operating system -/

/-- `malloc`: an address that no earlier call returned, or `NULL`. -/
def malloc : Host (Option Nat) := fun env w =>
  .ok (if env.malloc w.clock then some w.clock else none, w.tick)

/-- `realloc`, of which the code uses only whether it succeeds. -/
def realloc : Host Bool := fun env w => .ok (env.realloc w.clock, w.tick)

/-- `strftime(current_date, ..)` of the current time. -/
def strftime : Host Bytes := fun env w => .ok (env.current_date w.clock, w.tick)

/-- `fread(.., n, f)` on a stream with the bytes `f` left: how many of them
    it takes. -/
def fread (n : Nat) (f : Bytes) : Host { k : Nat // k ≤ n } := fun env w =>
  let k := min f.length (env.fread w.clock)
  .ok (⟨min n k, Nat.min_le_left n k⟩, w.tick)

/-- `socket_send` (srclib/socket) of the bytes of a dynamic buffer. -/
def socket_send (sender : Nat) (buffer : Bytes) : Host Int := fun env w =>
  let result := (env.send w.clock buffer.length).map fun k => min (k + 1) buffer.length
  .ok (result.elim (-1) Int.ofNat, { w.tick with sent := w.sent ++ [⟨sender, buffer, result⟩] })

/-- One call of `send` is logged with its answer; it fails if that is -1. -/
theorem socket_send_ok {sender : Nat} {buffer : Bytes} {env : Env} {w w' : World} {ret : Int}
    (h : socket_send sender buffer env w = .ok (ret, w')) :
    ∃ s : Sent, w'.sent = w.sent ++ [s] ∧ s.sender = sender ∧ s.offered = buffer ∧
      s.AnsweredBy env ∧ (ret < 0 ↔ s.result = none) := by
  cases h
  refine ⟨⟨sender, buffer, _⟩, rfl, rfl, rfl, ⟨w.clock, rfl⟩, ?_⟩
  cases (env.send w.clock buffer.length).map fun k => min (k + 1) buffer.length with
  | none => simp
  | some n => simp

end Rask
