import Ppb.Common.KeyedQueue
import Ppb.Server.Error
import Ppb.Server.Types

/-!
# The command broker (`commands/broker.rs`)

`CommandBroker` keeps one bounded channel for each `resource_key` and runs its
tasks on one worker, spawned at the first submit. It is the keyed queue of
`Common/KeyedQueue` with tasks `CommandTask`, keys `resource_key` and capacity
64. `submit` is the two steps `enter` (the map entry) and `send` (`try_send`), so
nothing is assumed about how long the map entry stays locked.

Results:
* `broker_serial_fifo`: tasks of one key run one at a time, in order and at most
  once, a refused submit runs nothing, and keys do not influence each other.
-/

namespace Ppb.Commands

open Ppb.Trace Ppb.KeyedQueue

/-! ## Tasks -/

/-- `CommandAudit` (commands/broker.rs:20-30). -/
structure CommandAudit where
  principalType : String
  actorUserId : Option Uuid
  actorSessionId : Uuid
  action : String
  resourceType : String
  resourceId : String
  requestId : String
  ip : String
  userAgent : String
  deriving DecidableEq

/-- `CommandTask` (commands/broker.rs:34-46). `completion` says whether a caller
    holds the other end of the completion channel. -/
structure CommandTask where
  commandId : Uuid
  action : String
  actor : String
  resourceKey : String
  args : Json
  argsRedacted : Json
  completion : Bool
  audit : Option CommandAudit
  deriving DecidableEq

/-- A field name that `redact_args` hides. -/
def isSensitiveKey (k : String) : Bool :=
  let key := Text.toAsciiLowercase k
  Text.containsStr key "password" || Text.containsStr key "token" || Text.containsStr key "secret"

/-- `redact_args` (commands/broker.rs:99-112). -/
def redactArgs (args : Json) : Json :=
  match args with
  | .obj fields =>
    .obj (fields.map fun f => if isSensitiveKey f.1 then (f.1, .str "[REDACTED]") else f)
  | _ => .obj []

/-! ## The broker -/

/-- `mpsc::channel(64)` (commands/broker.rs:74). -/
def channelCapacity : ℕ := 64

abbrev BrokerState := KeyedQueue.State String CommandTask

abbrev BrokerLabel := KeyedQueue.Label String CommandTask

/-- One step of `CommandBroker::submit` or of a `worker`. -/
def brokerStep : BrokerState → BrokerLabel → Option BrokerState :=
  KeyedQueue.step CommandTask.resourceKey channelCapacity

/-- The error of a refused `submit` (commands/broker.rs:79-80). -/
def submitError : ApiError := .new .longJobAccepted "command queue full"

/-- The tasks of one key. -/
abbrev brokerView (k : String) (s : BrokerState) : BrokerState :=
  KeyedQueue.view CommandTask.resourceKey k s

theorem keyed_init : Keyed CommandTask.resourceKey (KeyedQueue.State.init : BrokerState) := by
  simp [Keyed, State.init]

theorem brokerView_init (k : String) : brokerView k State.init = State.init := by
  refine State.ext rfl ?_ rfl rfl
  funext k'
  simp [KeyedQueue.view, State.init]

/-- **Serial FIFO for each key**: for every interleaving of submits and workers,
    the tasks accepted under a key are executed in the order they were accepted,
    one after the other and each at most once; a refused submit executes
    nothing; the steps of the other keys can be left out of a run, or swapped with
    a step of this key, without this key seeing a difference. -/
theorem broker_serial_fifo (ls : List BrokerLabel) (s : BrokerState)
    (h : runFrom brokerStep State.init ls = some s) :
    (∀ k, SerialFifo CommandTask.resourceKey s k) ∧
      (∀ k, runFrom brokerStep State.init
        (ls.filter fun l => decide (l.keyOf CommandTask.resourceKey = k)) =
          some (brokerView k s)) ∧
      ∀ l l' s', l.keyOf CommandTask.resourceKey ≠ l'.keyOf CommandTask.resourceKey →
        runFrom brokerStep s [l, l'] = some s' →
          ∃ s'', runFrom brokerStep s [l', l] = some s'' ∧
            ∀ k, brokerView k s'' = brokerView k s' := by
  have hreach : Reachable brokerStep State.init s := reachable_of_runFrom h
  refine ⟨serialFifo_of_reachable hreach, fun k => ?_, fun l l' s' hk hs => ?_⟩
  · have hrun := view_run (k := k) keyed_init h
    rw [show KeyedQueue.view CommandTask.resourceKey k State.init = State.init from
      brokerView_init k] at hrun
    exact hrun
  · exact view_swap (lanes_of_reachable hreach).1 hk hs

/-- A task of `room.kick` under `key`. -/
def kickTask (n : ℕ) (key : String) : CommandTask :=
  { commandId := BitVec.ofNat 128 n, action := "room.kick", actor := "", resourceKey := key,
    args := .obj [], argsRedacted := .obj [], completion := false, audit := none }

/-- Two submits race for the key `room:A` while a third uses `room:B`. -/
def twoKeys : List BrokerLabel :=
  [.enter 0 (kickTask 0 "room:A"), .enter 1 (kickTask 1 "room:A"), .enter 0 (kickTask 2 "room:B"),
    .send "room:A" 1, .send "room:B" 0, .recv "room:A" 0, .recv "room:B" 0, .send "room:A" 0,
    .finish "room:A" 0, .recv "room:A" 0]

theorem broker_serial_fifo_two_keys :
    ∃ s, runFrom brokerStep State.init twoKeys = some s ∧
      items .accepted (brokerView "room:A" s).log =
        [⟨1, kickTask 1 "room:A"⟩, ⟨0, kickTask 0 "room:A"⟩] ∧
      SerialFifo CommandTask.resourceKey s "room:A" := by
  have hrun : (runFrom brokerStep State.init twoKeys).any (fun s =>
      decide (items .accepted (brokerView "room:A" s).log =
        [⟨1, kickTask 1 "room:A"⟩, ⟨0, kickTask 0 "room:A"⟩])) = true := by
    decide
  obtain ⟨s, hs, h0⟩ := (Option.any_eq_true _ _).mp hrun
  exact ⟨s, hs, of_decide_eq_true h0, (broker_serial_fifo twoKeys s hs).1 "room:A"⟩

end Ppb.Commands
