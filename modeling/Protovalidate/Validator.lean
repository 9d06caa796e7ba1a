import Protovalidate.Lib.Published
import Protovalidate.Build
import Mathlib.Logic.Function.Basic

/-!
# A validator and its cache

Any number of threads share a validator. A call reads a snapshot of the cache,
builds what the snapshot misses, and merges it into the cache as it is by then.
The rules are built against the snapshot rather than under the cache lock.
-/

namespace Protovalidate

/-- What a validator is made from, with the types its readers resolve. -/
structure Validator (R : Runtime) where
  descriptors : Descriptors
  env : Cel.Env
  backend : Backend
  reflection : Reflection
  resolve : String → Except R.Error R.MessageType

/-- Why a call of `validators` did not return. -/
inductive Failed (ε : Type)
  | read (e : ε)
  | panic (panic : Panic)

/-- Where a call of `validators` is. -/
inductive Call (R : Runtime)
  | idle
  | started (index : MessageIndex)
  | building (index : MessageIndex) (known : ValidatorCache R)
  | merging (index : MessageIndex) (built : ValidatorCache R)
  | returned (index : MessageIndex) (validators : ValidatorCache R)
  | failed (failure : Failed R.Error)

/-- Whether the thread can make another call. -/
def Call.over {R : Runtime} : Call R → Bool
  | .idle | .returned _ _ | .failed _ => true
  | .started _ | .building _ _ | .merging _ _ => false

/-- The cache, and the calls of the threads `Θ`. -/
structure Shared (R : Runtime) (Θ : Type) where
  cache : ValidatorCache R
  calls : Θ → Call R

namespace Validator
variable {R : Runtime} (self : Validator R)

def pool : DescriptorPool := self.descriptors.pool

def builder (types : MessageIndex → Option R.MessageType) : Builder R :=
  ⟨self.descriptors, self.env, self.backend, self.reflection, types⟩

/-- Builds the rules of `index` and of every type reachable from it that
`known` does not have. -/
def build (index : MessageIndex) (known : ValidatorCache R) :
    Except (Failed R.Error) (ValidatorCache R) := do
  let types ← (Protovalidate.resolve self.pool index known self.resolve).mapError .read
  ((self.builder types).buildClosure index known).mapError .panic

/-- The next step of a call, which reads the cache, builds, or replaces the
cache as a whole. -/
def advance (cache : ValidatorCache R) : Call R → ValidatorCache R × Call R
  | .started index =>
    if (cache index).isSome then (cache, .returned index cache)
    else (cache, .building index cache)
  | .building index known =>
    match self.build index known with
    | .ok built => (cache, .merging index built)
    | .error failure => (cache, .failed failure)
  | .merging index built =>
    let validators := Table.extend cache built
    (validators, .returned index validators)
  | call => (cache, call)

/-- One thread takes a step, or starts a call. -/
inductive Step {Θ : Type} [DecidableEq Θ] : Shared R Θ → Shared R Θ → Prop
  | call {s : Shared R Θ} (t : Θ) (index : MessageIndex) : (s.calls t).over = true →
    Step s { s with calls := Function.update s.calls t (.started index) }
  | advance {s : Shared R Θ} (t : Θ) :
    Step s
      ⟨(self.advance s.cache (s.calls t)).1,
        Function.update s.calls t (self.advance s.cache (s.calls t)).2⟩

/-- A state reached from an empty cache by any interleaving of the threads. -/
def Reachable {Θ : Type} [DecidableEq Θ] : Shared R Θ → Prop :=
  Relation.ReflTransGen self.Step ⟨fun _ => none, fun _ => .idle⟩

/-- A message type holds another one in a field. -/
def Holds (index nested : MessageIndex) : Prop := nested ∈ referenced self.pool index

end Validator

end Protovalidate
