import Hypernote.Foundation.Machine
/-!
# The initialization of the extension

`HypernoteExtension._ensure_initialized` and `_get_orchestrator` as they run in one event loop: a
caller runs from one of its awaits to the next without a switch of task.
-/

namespace Hypernote

/-- The steps of the initialization that can raise. -/
inductive InitStep
  | initializeLedger
  | nbmodelExtension
  | executionStack
  | validateNbmodelInternals
  | ydocExtension
  | createRuntimeManager
  | startGcLoop
  | createNotebookAccessor
  /-- `self._orchestrator = ExecutionOrchestrator(...)`. -/
  | createOrchestrator
  | storeSetting
  | installInterruptIntercept
  deriving DecidableEq

/-- A step that another caller can come before the end of. -/
def InitStep.isAwait : InitStep → Bool
  | .initializeLedger | .startGcLoop => true
  | _ => false

/-- The body of `_ensure_initialized`. -/
def initSteps : List InitStep :=
  [.initializeLedger, .nbmodelExtension, .executionStack, .validateNbmodelInternals,
    .ydocExtension, .createRuntimeManager, .startGcLoop, .createNotebookAccessor,
    .createOrchestrator, .storeSetting, .installInterruptIntercept]

/-- What is kept between the calls; an orchestrator is known by the body that has created it. -/
structure Extension (ε : Type) where
  /-- `_init_event`, and whether it is set. -/
  initEvent : Option Bool
  initError : Option ε
  orchestrator : Option Nat
  deriving DecidableEq

/-- What a call of `_get_orchestrator` ends with. -/
inductive InitOutcome (ε : Type)
  | returned (orchestrator : Nat)
  | raised (error : ε)
  /-- "Hypernote extension initialization did not complete". -/
  | incomplete
  deriving DecidableEq

/-- Where a caller is. -/
inductive InitPc (ε : Type)
  /-- The step is awaited, and these follow it. -/
  | initializing (step : InitStep) (rest : List InitStep)
  /-- `await self._init_event.wait()`. -/
  | waiting
  | done (outcome : InitOutcome ε)
  deriving DecidableEq

namespace Extension

variable {ε : Type}

/-- `initialize_settings`. -/
def initializeSettings : Extension ε := ⟨none, none, none⟩

/-- The `except` and the `finally`. -/
def fail (ext : Extension ε) (error : ε) : Extension ε × InitPc ε :=
  ({ ext with initError := some error, initEvent := some true }, .done (.raised error))

/-- `_get_orchestrator`, once `_ensure_initialized` has returned. -/
def getOrchestrator (ext : Extension ε) : InitOutcome ε :=
  ext.orchestrator.elim .incomplete .returned

def perform (ext : Extension ε) (body : Nat) : InitStep → Extension ε
  | .createOrchestrator => { ext with orchestrator := some body }
  | _ => ext

/-- The body up to its next await, or to its end; `raises` tells what each step raises. -/
def runInit (raises : InitStep → Option ε) (body : Nat) :
    List InitStep → Extension ε → Extension ε × InitPc ε
  | [], ext =>
      let ext := { ext with initError := none, initEvent := some true }
      (ext, .done ext.getOrchestrator)
  | step :: rest, ext =>
      if step.isAwait then (ext, .initializing step rest)
      else
        match raises step with
        | some error => ext.fail error
        | none => runInit raises body rest (ext.perform body step)

/-- The awaited step ends. -/
def resumeInit (raises : InitStep → Option ε) (body : Nat) (step : InitStep)
    (rest : List InitStep) (ext : Extension ε) : Extension ε × InitPc ε :=
  match raises step with
  | some error => ext.fail error
  | none => runInit raises body rest (ext.perform body step)

/-- What follows `await self._init_event.wait()`. -/
def afterWait (ext : Extension ε) : InitPc ε :=
  match ext.initError with
  | some error => .done (.raised error)
  | none => .done ext.getOrchestrator

/-- The caller runs the body. -/
def isFirst (ext : Extension ε) : Bool :=
  ext.orchestrator.isNone && ext.initError.isNone && ext.initEvent.isNone

/-- `_ensure_initialized`, up to its first await. -/
def ensureInitialized (raises : InitStep → Option ε) (body : Nat) (ext : Extension ε) :
    Extension ε × InitPc ε :=
  match ext.orchestrator with
  | some orchestrator => (ext, .done (.returned orchestrator))
  | none =>
      match ext.initError with
      | some error => (ext, .done (.raised error))
      | none =>
          match ext.initEvent with
          | some true => (ext, ext.afterWait)
          | some false => (ext, .waiting)
          | none => runInit raises body initSteps { ext with initEvent := some false }

end Extension

/-- The extension, its callers in the order of their calls, and how often the body has begun. -/
structure InitState (ε : Type) where
  ext : Extension ε
  callers : List (InitPc ε)
  bodies : Nat
  deriving DecidableEq

/-- What happens next; `raises` tells what the steps of the body raise. -/
inductive InitLabel (ε : Type)
  | call (raises : InitStep → Option ε)
  | resume (caller : Nat) (raises : InitStep → Option ε)
  /-- The caller goes on after the event is set. -/
  | wake (caller : Nat)

namespace InitState

variable {ε : Type}

def start : InitState ε := ⟨.initializeSettings, [], 0⟩

def step (s : InitState ε) : InitLabel ε → Option (InitState ε)
  | .call raises =>
      let (ext, pc) := s.ext.ensureInitialized raises s.bodies
      some ⟨ext, s.callers ++ [pc], if s.ext.isFirst then s.bodies + 1 else s.bodies⟩
  | .resume caller raises =>
      match s.callers[caller]? with
      | some (.initializing step rest) =>
          -- The body that runs is the last one that has begun.
          let (ext, pc) := s.ext.resumeInit raises (s.bodies - 1) step rest
          some { s with ext := ext, callers := s.callers.set caller pc }
      | _ => none
  | .wake caller =>
      match s.callers[caller]? with
      | some .waiting =>
          if s.ext.initEvent = some true then
            some { s with callers := s.callers.set caller s.ext.afterWait }
          else none
      | _ => none

end InitState

end Hypernote
