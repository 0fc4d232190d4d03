/-!
# Cancellable jobs

A job that runs beside its caller. The caller can cancel it at any time: a job that has not started
by then never runs, and nobody waits for one that has.
-/

namespace SymbolSearch

/-- How a job that was run came to its end. -/
inductive JobEnd (α : Type) where
  | returned (value : α)
  | stopped
  | panicked

inductive JobError where
  | cancelled
  | panicked
  deriving DecidableEq, Repr

def JobError.message : JobError → String
  | cancelled => "task cancelled"
  | panicked => "task panicked"

/-- What a caller says that gave up because its token was cancelled. -/
def cancellationMessage : String := "operation cancelled"

/-- A token can be cancelled once and for all. -/
structure Token where
  cancelled : Bool
  deriving DecidableEq, Repr

def Token.check (token : Token) : Except JobError Unit :=
  if token.cancelled then .error .cancelled else .ok ()

/-- A job with the token as it is when the job is started, and as it is when the job is awaited. -/
structure Job (α : Type) where
  atStart : Token
  atJoin : Token
  body : Token → JobEnd α

namespace Job

variable {α : Type}

def run (job : Job α) : Except JobError α := do
  job.atStart.check
  match job.body job.atStart with
  | .returned value => .ok value
  | .stopped => .error .cancelled
  | .panicked => .error .panicked

def join (job : Job α) : Except JobError α := do
  job.atJoin.check
  job.run

/-- Whether the job is run, where that is settled: a token that is cancelled after the start may
come too late or in time. -/
def ran? (job : Job α) : Option Bool :=
  if job.atStart.cancelled then some false
  else if job.atJoin.cancelled then none
  else some true

end Job

end SymbolSearch
