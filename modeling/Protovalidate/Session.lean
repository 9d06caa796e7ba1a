import Protovalidate.CacheLookup

/-!
# A validator over many calls

Files are registered with a validator, and messages validated, in any order.
Rules are built when a message of their type is first validated, from the files
registered by then, and are kept from then on.
-/

namespace Protovalidate

/-- Parsing a file, and linking it into the pool and the CEL environment. Either
may take part of a file that it reports an error of. -/
structure Linker (P : Type) where
  decode : Bytes → Except String P
  addFileDescriptorSet : DescriptorPool → P → Except String Unit × DescriptorPool
  addFile : Cel.Env → Bytes → Except String Unit × Cel.Env

/-- Messages that are linked stay as they are, at their indices. -/
def Linker.Appends {P : Type} (linker : Linker P) : Prop :=
  ∀ pool proto, pool.messages <+: (linker.addFileDescriptorSet pool proto).2.messages

/-- Why a validation does not return. -/
inductive Stopped (ε : Type)
  | error (e : Error ε)
  | panic (panic : Panic)

def Failed.stopped {ε : Type} : Failed ε → Stopped ε
  | .read e => .error (.read e)
  | .panic why => .panic why

namespace Validator
variable {R : Runtime} {P : Type} (self : Validator R)

def withPool (pool : DescriptorPool) : Validator R :=
  { self with descriptors := { self.descriptors with pool := pool } }

def withEnv (env : Cel.Env) : Validator R := { self with env := env }

/-- Registers a serialized file. It is in the pool before the CEL environment
takes it. -/
def addFileDescriptorBytes (linker : Linker P) (file : Bytes) :
    Except String Unit × Validator R :=
  match linker.decode file with
  | .error e => (.error e, self)
  | .ok proto =>
    match linker.addFileDescriptorSet self.pool proto with
    | (.error e, pool) => (.error e, self.withPool pool)
    | (.ok (), pool) =>
      let (added, env) := linker.addFile self.env file
      (added, (self.withPool pool).withEnv env)

/-- Returns the cache, first building the rules of `index` and of every type
reachable from it if they are missing. -/
def validators (cache : ValidatorCache R) (index : MessageIndex) :
    Except (Failed R.Error) (ValidatorCache R) × ValidatorCache R :=
  if (cache index).isSome then (.ok cache, cache)
  else
    match self.build index cache with
    | .error failure => (.error failure, cache)
    | .ok built =>
      let validators := Table.extend cache built
      (.ok validators, validators)

/-- Validates a message of a type, which `message` reads once the type is
resolved, with the rules that `validators` returned. -/
def runWith (validators : ValidatorCache R) (index : MessageIndex) (typeName : String)
    (message : R.MessageType → Except R.Error (Message R)) (failFast : Bool) :
    Except (Stopped R.Error) (List Violation) :=
  match validators index with
  | none => .error (.panic (.missing typeName))
  | some (.error error) => .error (.error (.compilation error))
  | some (.ok validator) =>
    match message validator.messageType with
    | .error e => .error (.error (.read e))
    | .ok message =>
      ((self.walk validators).validate failFast validator message typeName).mapError .error

/-- Validates a message, and the cache it leaves. -/
def run (cache : ValidatorCache R) (typeName : String)
    (message : R.MessageType → Except R.Error (Message R)) (failFast : Bool) :
    Except (Stopped R.Error) (List Violation) × ValidatorCache R :=
  match self.pool.messageIndex typeName with
  | none => (.error (.error (.argument ("unknown message type: " ++ typeName))), cache)
  | some index =>
    match self.validators cache index with
    | (.error failure, cache) => (.error failure.stopped, cache)
    | (.ok validators, cache) => (self.runWith validators index typeName message failFast, cache)

/-- A message that breaks its rules is an error, with the violations. -/
def validateMessage (cache : ValidatorCache R) (typeName : String)
    (message : R.MessageType → Except R.Error (Message R)) (failFast : Bool) :
    Except (Stopped R.Error) Unit × ValidatorCache R :=
  match self.run cache typeName message failFast with
  | (.ok [], cache) => (.ok (), cache)
  | (.ok violations, cache) => (.error (.error (.validation violations)), cache)
  | (.error stopped, cache) => (.error stopped, cache)

end Validator

/-- A call on a validator. -/
inductive Operation (R : Runtime)
  | add (file : Bytes)
  | validate (typeName : String) (message : R.MessageType → Except R.Error (Message R))
      (failFast : Bool)

def Operation.registers {R : Runtime} : Operation R → Bool
  | .add _ => true
  | .validate _ _ _ => false

/-- A validator, as the files registered so far make it, with its cache. -/
structure Session (R : Runtime) where
  validator : Validator R
  cache : ValidatorCache R

namespace Session
variable {R : Runtime} {P : Type} (linker : Linker P)

/-- A session in which nothing was validated. -/
def fresh (validator : Validator R) : Session R := ⟨validator, fun _ => none⟩

def step (s : Session R) : Operation R → Session R
  | .add file => { s with validator := (s.validator.addFileDescriptorBytes linker file).2 }
  | .validate typeName message failFast =>
    { s with cache := (s.validator.validateMessage s.cache typeName message failFast).2 }

/-- The session after some calls. -/
def after (s : Session R) (calls : List (Operation R)) : Session R := calls.foldl (step linker) s

/-- What a call of `validate_message` returns. -/
def result (s : Session R) (typeName : String)
    (message : R.MessageType → Except R.Error (Message R)) (failFast : Bool) :
    Except (Stopped R.Error) Unit :=
  (s.validator.validateMessage s.cache typeName message failFast).1

end Session

/-- The registrations among some calls. -/
def registrations {R : Runtime} (calls : List (Operation R)) : List (Operation R) :=
  calls.filter Operation.registers

end Protovalidate
