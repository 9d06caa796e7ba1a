import Protovalidate.FieldPathText
import Protovalidate.Registration
import Protovalidate.RuleValues
import Protovalidate.Settled

/-!
# The validator of the Python bindings

A validator has an engine for each Python runtime, which the first call that needs
it creates. A call then registers the file of its message with the engine, and
reads the core to validate. Any number of threads make calls, each lock and the
slots of the engines being shared by all of them.
-/

namespace Protovalidate

open Relation

deriving instance DecidableEq for ProtoRuntime

/-- Writes a violation, with the rule where it has no message. -/
def writeViolation (violation : Violation) : String :=
  let elements := (violation.field.map FieldPath.elements).getD []
  (if elements.isEmpty then "" else writeFieldPath ⟨elements⟩ ++ ": ") ++
    match violation.message.getD "", violation.ruleId.getD "" with
    | "", "" => "[unknown]"
    | "", ruleId => "[" ++ ruleId ++ "]"
    | message, _ => message

/-- The first violation, followed by the number of others. -/
def writeViolations : List Violation → String
  | [] => ""
  | first :: rest => writeViolation first ++
    match rest.length with
    | 0 => ""
    | 1 => ", and 1 more violation"
    | more => ", and " ++ toString more ++ " more violations"

/-- A Python exception, of which those that reads of Python objects raise are `ε`. -/
inductive PyErr (ε : Type)
  | raised (e : ε)
  | compilation (message : String)
  | evaluation (message : String)
  | value (message : String)
  | type (message : String)
  | exception (message : String)
  | panic (why : Panic)

/-- The exception for a failure of validation itself. -/
def toPyErr {ε : Type} : Error ε → PyErr ε
  | .read e => .raised e
  | .compilation message => .compilation message
  | .evaluation message => .evaluation message
  | .argument message => .value message
  | .unexpected message => .exception message
  | .validation violations => .exception (writeViolations violations)

/-- What a descriptor gives of a message. -/
structure PyDescriptor (F ε : Type) where
  file : Except ε F
  typeName : ProtoRuntime → Except ε String

/-- An object to be validated: what its class answers for `desc()`, its attribute
`DESCRIPTOR`, and how it is read. -/
structure PyMessage (R : Runtime) (F : Type) where
  desc : Except R.Error (PyDescriptor F R.Error)
  descriptorUpper : Except R.Error (PyDescriptor F R.Error)
  read : R.MessageType → Except R.Error (Message R)

/-- A message with its resolved descriptor. -/
structure Adapted (R : Runtime) (F : Type) where
  runtime : ProtoRuntime
  descriptor : PyDescriptor F R.Error
  read : R.MessageType → Except R.Error (Message R)
  failFast : Bool

namespace Adapted
variable {R : Runtime} {F : Type}

def resolve (message : PyMessage R F) (failFast : Bool) : Except (PyErr R.Error) (Adapted R F) :=
  match message.desc, message.descriptorUpper with
  | .ok descriptor, _ => .ok ⟨.protobufPy, descriptor, message.read, failFast⟩
  | .error _, .ok descriptor => .ok ⟨.google, descriptor, message.read, failFast⟩
  | .error _, .error _ => .error (.type "expected a protobuf message")

def file (message : Adapted R F) : Except (PyErr R.Error) F :=
  message.descriptor.file.mapError .raised

def typeName (message : Adapted R F) : Except (PyErr R.Error) String :=
  (message.descriptor.typeName message.runtime).mapError .raised

end Adapted

/-- A descriptor in the registry that a validator is created with. The extensions
may be missing or have no length. -/
structure RegistryEntry (F : Type) where
  extensions : Option (Option Nat)
  file : Option F
  self : F

/-- The files in a registry that declare extensions. -/
def collectRegistry {F : Type} (registry : List (RegistryEntry F)) : List F :=
  registry.filterMap fun descriptor =>
    match descriptor.extensions with
    | none => none
    | some extensions =>
      if extensions.getD 0 == 0 then none else some (descriptor.file.getD descriptor.self)

/-- What the engines of a validator are made from: the core that each starts with,
how files are read, linked and added to the registry of protobuf-py, and the registry
that the validator is created with.

Each file is read as what it is. The preregistered files are those of protobuf-py for
both engines, so that with `google` too `graph` and `serialize` read them, and what they
import, as `ProtobufPy` does, and all other files as `Google` does. No file is of both
kinds, and files are the same to `register` when they have the same name. -/
structure Setting (R : Runtime) (F P : Type) where
  start : ProtoRuntime → Validator R
  linker : Linker P
  graph : ProtoRuntime → ImportGraph F
  serialize : ProtoRuntime → F → Except R.Error Bytes
  addToRegistry : List (Attempt F) → F → Except R.Error Unit
  registry : List (RegistryEntry F)

namespace Setting
variable {R : Runtime} {F P : Type} (setting : Setting R F P) (runtime : ProtoRuntime)

def preregistered : List F := collectRegistry setting.registry

/-- The core after a call of `add`. The core keeps what it took of a file also when
the call fails. -/
def takes (core : Validator R) (attempt : Attempt F) : Validator R :=
  match setting.serialize runtime attempt.file with
  | .ok bytes => (core.addFileDescriptorBytes setting.linker bytes).2
  | .error _ => core

/-- The core after some calls of `add`. -/
def core (attempts : List (Attempt F)) : Validator R :=
  attempts.foldl (setting.takes runtime) (setting.start runtime)

/-- Adds a file to the core and, for protobuf-py, to the registry. -/
def adder : Adder F (PyErr R.Error) where
  serialize file := (setting.serialize runtime file).mapError .raised
  add attempts file bytes :=
    match ((setting.core runtime attempts).addFileDescriptorBytes setting.linker bytes).1 with
    | .error message => .error (.value message)
    | .ok () =>
      match runtime with
      | .protobufPy => (setting.addToRegistry attempts file).mapError .raised
      | .google => .ok ()

end Setting

namespace Bindings

/-- The core and the registered names. -/
structure Engine (R : Runtime) (F : Type) where
  registry : Registry F
  cache : ValidatorCache R

/-- Where the engine of a runtime is kept. It stands for a `PyOnceLock`, of which it is
assumed, as documented, that one thread at a time creates the engine, that the others
wait for it, and that it stays empty when the creation fails. -/
inductive Slot (R : Runtime) (F : Type)
  | empty
  | creating
  | created (engine : Engine R F)

/-- Where a call of `check` is. One that is `reading` or `walking` holds the lock of
the core, one that has `missed` waits for it. -/
inductive Check (R : Runtime) (F : Type)
  | idle
  | resolved (message : Adapted R F)
  | creating (message : Adapted R F)
  | started (message : Adapted R F) (file : F)
  | missed (message : Adapted R F) (file : F)
  | registered (message : Adapted R F) (file : F)
  | reading (message : Adapted R F) (file : F) (typeName : String) (call : Call R)
  | walking (message : Adapted R F) (file : F) (typeName : String) (index : MessageIndex)
      (validators : ValidatorCache R)
  | ended (result : Except (PyErr R.Error) (List Violation))

namespace Check
variable {R : Runtime} {F : Type}

/-- Whether the thread can make another call. -/
def isOver : Check R F → Bool
  | .idle | .ended _ => true
  | _ => false

/-- The call holds the lock of the core of a runtime. -/
def Reads (runtime : ProtoRuntime) : Check R F → Prop
  | .reading message _ _ _ | .walking message _ _ _ _ => message.runtime = runtime
  | _ => False

/-- A call that starts resolves its message. -/
def start (message : PyMessage R F) (failFast : Bool) : Check R F :=
  match Adapted.resolve message failFast with
  | .ok message => .resolved message
  | .error e => .ended (.error e)

/-- With its engine at hand, the call asks for the file of its message. -/
def locate (message : Adapted R F) : Check R F :=
  match message.file with
  | .ok file => .started message file
  | .error e => .ended (.error e)

end Check

/-- The slots of the engines, and the calls of the threads `Θ`. -/
structure State (R : Runtime) (F Θ : Type) where
  engines : ProtoRuntime → Slot R F
  calls : Θ → Check R F

section Step
variable {R : Runtime} {F P : Type} [DecidableEq F] (setting : Setting R F P)

/-- What `evaluate` makes of a validation. -/
def evaluated (result : Except (Stopped R.Error) (List Violation)) :
    Except (PyErr R.Error) (List Violation) :=
  match result with
  | .ok violations => .ok violations
  | .error (.error e) => .error (toPyErr e)
  | .error (.panic why) => .error (.panic why)

/-- The engine that `Engine::new` returns. Its preregistered files are read as those of
protobuf-py, as `setting` has it for either runtime. -/
def newEngine (runtime : ProtoRuntime) : Except (PyErr R.Error) (Engine R F) :=
  match Protovalidate.newEngine (setting.graph runtime) (setting.adder runtime)
    setting.preregistered (.empty F) with
  | (.ok (), registry) => .ok ⟨registry, fun _ => none⟩
  | (.error e, _) => .error e

/-- The first step of `register`, which looks the name of the file up. -/
def lookup (message : Adapted R F) (file : F) (registry : Registry F) : Check R F :=
  if registry.registered.contains file then .registered message file else .missed message file

/-- Where a walk over the file and its imports leaves the call. -/
def register (message : Adapted R F) (file : F) : Except (PyErr R.Error) Unit → Check R F
  | .ok () => .registered message file
  | .error e => .ended (.error e)

/-- The first step of `evaluate`, which looks the type of the message up. -/
def enter (message : Adapted R F) (file : F) (core : Validator R) : Check R F :=
  match message.typeName with
  | .error e => .ended (.error e)
  | .ok typeName =>
    match core.pool.messageIndex typeName with
    | none => .ended (.error (.value ("unknown message type: " ++ typeName)))
    | some index => .reading message file typeName (.started index)

/-- A step of the cache, and where it leaves the call. -/
def read (message : Adapted R F) (file : F) (typeName : String) : Call R → Check R F
  | .returned index validators => .walking message file typeName index validators
  | .failed failure => .ended (evaluated (.error failure.stopped))
  | call => .reading message file typeName call

/-- One thread takes a step, or starts a call. -/
inductive Step {Θ : Type} [DecidableEq Θ] : State R F Θ → State R F Θ → Prop
  | call {s : State R F Θ} (t : Θ) (message : PyMessage R F) (failFast : Bool) :
    (s.calls t).isOver = true →
    Step s { s with calls := Function.update s.calls t (.start message failFast) }
  | create {s : State R F Θ} {t : Θ} {message : Adapted R F} :
    s.calls t = .resolved message → s.engines message.runtime = .empty →
    Step s ⟨Function.update s.engines message.runtime .creating,
      Function.update s.calls t (.creating message)⟩
  | found {s : State R F Θ} {t : Θ} {message : Adapted R F} {engine : Engine R F} :
    s.calls t = .resolved message → s.engines message.runtime = .created engine →
    Step s { s with calls := Function.update s.calls t (.locate message) }
  | created {s : State R F Θ} {t : Θ} {message : Adapted R F} {engine : Engine R F} :
    s.calls t = .creating message → newEngine setting message.runtime = .ok engine →
    Step s ⟨Function.update s.engines message.runtime (.created engine),
      Function.update s.calls t (.locate message)⟩
  | uncreated {s : State R F Θ} {t : Θ} {message : Adapted R F} {e : PyErr R.Error} :
    s.calls t = .creating message → newEngine setting message.runtime = .error e →
    Step s ⟨Function.update s.engines message.runtime .empty,
      Function.update s.calls t (.ended (.error e))⟩
  | lookup {s : State R F Θ} {t : Θ} {message : Adapted R F} {file : F} {engine : Engine R F} :
    s.calls t = .started message file → s.engines message.runtime = .created engine →
    Step s { s with calls := Function.update s.calls t (lookup message file engine.registry) }
  | register {s : State R F Θ} {t : Θ} {message : Adapted R F} {file : F} {engine : Engine R F}
      {result : Except (PyErr R.Error) Unit} {registry : Registry F} :
    s.calls t = .missed message file → s.engines message.runtime = .created engine →
    (∀ u, ¬(s.calls u).Reads message.runtime) →
    collectFiles (setting.graph message.runtime) (setting.adder message.runtime) file
      engine.registry = (result, registry) →
    Step s ⟨Function.update s.engines message.runtime (.created ⟨registry, engine.cache⟩),
      Function.update s.calls t (register message file result)⟩
  | enter {s : State R F Θ} {t : Θ} {message : Adapted R F} {file : F} {engine : Engine R F} :
    s.calls t = .registered message file → s.engines message.runtime = .created engine →
    Step s { s with
      calls := Function.update s.calls t
        (enter message file (setting.core message.runtime engine.registry.attempts)) }
  | read {s : State R F Θ} {t : Θ} {message : Adapted R F} {file : F} {typeName : String}
      {call : Call R} {engine : Engine R F} {cache : ValidatorCache R} {next : Call R} :
    s.calls t = .reading message file typeName call →
    s.engines message.runtime = .created engine →
    (setting.core message.runtime engine.registry.attempts).advance engine.cache call =
      (cache, next) →
    Step s ⟨Function.update s.engines message.runtime (.created ⟨engine.registry, cache⟩),
      Function.update s.calls t (read message file typeName next)⟩
  | walk {s : State R F Θ} {t : Θ} {message : Adapted R F} {file : F} {typeName : String}
      {index : MessageIndex} {validators : ValidatorCache R} {engine : Engine R F} :
    s.calls t = .walking message file typeName index validators →
    s.engines message.runtime = .created engine →
    Step s { s with
      calls := Function.update s.calls t (.ended (evaluated
        ((setting.core message.runtime engine.registry.attempts).runWith validators index typeName
          message.read message.failFast))) }

/-- A validator that was just created. -/
def fresh {Θ : Type} : State R F Θ := ⟨fun _ => .empty, fun _ => .idle⟩

/-- A state reached by any interleaving of the threads. -/
def Reachable {Θ : Type} [DecidableEq Θ] (s : State R F Θ) : Prop :=
  ReflTransGen (Step setting) fresh s

end Step

end Bindings

end Protovalidate
