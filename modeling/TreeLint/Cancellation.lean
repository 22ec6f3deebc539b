import TreeLint.Error

/-!
# Cancellation

A host asks an analysis to stop by raising a signal, and the analysis looks at the signal from
time to time. The host acts on its own, so that the signal may turn up raised at any look. A
signal therefore carries the host's plan: the number of looks after which it is found raised.
Once raised, a signal stays raised.

Handles share signals: all copies of a handle stand for the same signal.
-/

namespace TreeLint

/-- The state of a signal and the number of looks for which the host will still leave it alone;
without a number the host never raises it. -/
structure Signal where
  raised : Bool
  looksLeft : Option Nat
deriving Repr, DecidableEq

namespace Signal

/-- A signal that the host never raises. -/
def quiet : Signal :=
  ⟨false, none⟩

def raise (signal : Signal) : Signal :=
  { signal with raised := true }

/-- A signal that was raised from the start, or never is. -/
def ofRaised (raised : Bool) : Signal :=
  ⟨raised, none⟩

/-- The signal as a look finds it and leaves it. -/
def look (signal : Signal) : Signal :=
  if signal.raised then signal
  else
    match signal.looksLeft with
    | none => signal
    | some 0 => ⟨true, none⟩
    | some (looks + 1) => ⟨false, some looks⟩

end Signal

/-- Signals and the handles on them. A handle is the index of its signal. -/
structure Handles where
  raised : List Bool
  handles : List Nat
deriving Repr, DecidableEq

namespace Handles

/-- No signals. -/
def empty : Handles :=
  ⟨[], []⟩

/-- Adds a handle on a new signal. -/
def create (all : Handles) : Handles :=
  ⟨all.raised ++ [false], all.handles ++ [all.raised.length]⟩

def copy (all : Handles) (handle : Nat) : Handles :=
  { all with handles := all.handles ++ all.handles[handle]?.toList }

/-- Raises the signal of a handle. -/
def cancel (all : Handles) (handle : Nat) : Handles :=
  match all.handles[handle]? with
  | some signal => { all with raised := all.raised.set signal true }
  | none => all

def isRaised (all : Handles) (signal : Nat) : Bool :=
  all.raised[signal]?.getD false

/-- Whether the signal of each handle has been raised. -/
def states (all : Handles) : List Bool :=
  all.handles.map all.isRaised

/-- Fails once the signal of a handle has been raised. -/
def check (all : Handles) (handle : Nat) : Except LintError Unit :=
  if all.states[handle]?.getD false then .error .cancelled else .ok ()

end Handles

end TreeLint
