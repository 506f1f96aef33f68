import Minerva.Library.Json
import Minerva.Types.Owner

namespace Minerva

abbrev RunId := String

/-- The lane key of an owner, as `ownerKeyFromPrincipal` computes it. -/
abbrev UserId := String

inductive RunState where
  | queued
  | leased
  | running
  | completed
  | failed
  | cancelled
  | timedOut
  deriving DecidableEq, Repr

def RunState.value : RunState → String
  | .queued => "queued"
  | .leased => "leased"
  | .running => "running"
  | .completed => "completed"
  | .failed => "failed"
  | .cancelled => "cancelled"
  | .timedOut => "timed_out"

/-- A run as the repository stores it; dates are in milliseconds. -/
structure Run where
  id : RunId
  owner : OwnerPrincipal
  userId : UserId
  state : RunState
  queuePosition : Option Nat
  leaseToken : Option String
  leaseExpiresAt : Option Int
  createdAt : Int
  startedAt : Option Int
  completedAt : Option Int
  maxDurationMs : Int
  agentPackId : String
  prompt : String
  error : Option String
  finalMessages : Option (List Json)

structure CreateRunInput where
  owner : Option OwnerPrincipal
  userId : Option String
  agentPackId : String
  prompt : String
  maxDurationMs : Option Int

def validStateTransitions : RunState → List RunState
  | .queued => [.leased, .cancelled]
  | .leased => [.running, .failed, .cancelled]
  | .running => [.completed, .failed, .cancelled, .timedOut]
  | .completed => []
  | .failed => []
  | .cancelled => []
  | .timedOut => []

def isValidStateTransition (source target : RunState) : Bool :=
  decide (target ∈ validStateTransitions source)

def isTerminalState (state : RunState) : Bool :=
  decide (state ∈ [RunState.completed, .failed, .cancelled, .timedOut])

def isActiveState (state : RunState) : Bool :=
  decide (state ∈ [RunState.leased, .running])

theorem terminal_has_no_successor (source target : RunState)
    (terminal : isTerminalState source = true) : isValidStateTransition source target = false := by
  revert terminal
  cases source <;> cases target <;> decide

theorem never_back_to_queued (source : RunState) :
    isValidStateTransition source .queued = false := by
  cases source <;> decide

theorem running_of_timeout (source : RunState)
    (valid : isValidStateTransition source .timedOut = true) : source = .running := by
  revert valid
  cases source <;> decide

theorem leased_of_running (source : RunState)
    (valid : isValidStateTransition source .running = true) : source = .leased := by
  revert valid
  cases source <;> decide

theorem active_not_terminal (state : RunState) (active : isActiveState state = true) :
    isTerminalState state = false := by
  revert active
  cases state <;> decide

theorem active_of_live (state : RunState) (waiting : state ≠ .queued)
    (live : isTerminalState state = false) : isActiveState state = true := by
  revert waiting live
  cases state <;> decide

end Minerva
