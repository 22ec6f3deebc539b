import TreeLint.Symbols.Model

/-!
# Overloads

An anonymous method with an empty parameter list converts only to delegates without parameters;
without the list it converts to every delegate. Removing the list can therefore make another
overload of the called method fit. Another overload fits when it is a member of the same type with
the same name and the same number of parameters, takes a delegate at the position of the anonymous
method, and has exactly the same parameter types elsewhere.
-/

namespace TreeLint

/-- What is known about removing the parameter list of an argument. -/
inductive Verdict where
  | unambiguous | ambiguous | unresolved
deriving Repr, DecidableEq

namespace Verdict

def name : Verdict → String
  | .unambiguous => "Unambiguous"
  | .ambiguous => "Ambiguous"
  | .unresolved => "Unresolved"

/-- Only an unambiguous call keeps its meaning for certain. -/
def isSafe (verdict : Verdict) : Bool :=
  verdict = .unambiguous

end Verdict

namespace SemanticModel

/-- Whether a candidate's parameters, paired with those of the bound method, take the changed
argument at `position`, and the signal after the queries this needs. -/
def fits (model : SemanticModel) (position : Nat) (signal : Signal) :
    List (ParameterSymbol × ParameterSymbol) → Bool × Signal
  | [] => (true, signal)
  | (theirs, ours) :: parameters =>
      if theirs.ordinal = position then
        let signal := model.afterQuery theirs.type signal
        if (model.type? theirs.type).any (·.isDelegate) then
          model.fits position signal parameters
        else (false, signal)
      else if theirs.type = ours.type then model.fits position signal parameters
      else (false, signal)

/-- The other overloads of a bound method: further members of its type with its name and its
number of parameters. -/
def candidates (model : SemanticModel) (bound : MethodId) (method : MethodSymbol) :
    List MethodSymbol :=
  (((model.membersNamed method.containingType method.name).filter (· ≠ bound)).filterMap
    model.method?).filter (·.arity = method.arity)

/-- Tries the candidates in order. The signal is looked at before each of them; when it turns out
to be raised there is no verdict. -/
def tryCandidates (model : SemanticModel) (method : MethodSymbol) (position : Nat)
    (signal : Signal) : List MethodSymbol → Option Verdict × Signal
  | [] => (some .unambiguous, signal)
  | candidate :: candidates =>
      let signal := signal.look
      if signal.raised then (none, signal)
      else
        let (accepted, signal) :=
          model.fits position signal (candidate.parameters.zip method.parameters)
        if accepted then (some .ambiguous, signal)
        else model.tryCandidates method position signal candidates

/-- The verdict on the argument at `position` of a call bound to a method, and the signal after the
queries this needs. There is no verdict when the signal turns out to be raised between two
candidates. -/
def resolve (model : SemanticModel) (bound : MethodId) (position : Nat) (signal : Signal) :
    Option Verdict × Signal :=
  match model.method? bound with
  | none => (some .unresolved, signal)
  | some method =>
      let signal := model.afterQuery method.containingType signal
      match model.type? method.containingType with
      | none => (some .unresolved, signal)
      | some _ =>
          let signal := model.afterQuery method.containingType signal
          model.tryCandidates method position signal (model.candidates bound method)

end SemanticModel

end TreeLint
