import Mathlib.Algebra.GroupWithZero.Nat
import Protovalidate.WalkRefinesSpec

/-!
# When a message is encoded

CEL sees a message through a frame, which encodes and parses it when a program first
needs it. The walk here keeps the frames it made, with where their messages are, and
counts what is encoded; apart from that it is the walk that parses a message wherever it
is needed. A message that is an item is also encoded to tell whether it is its type's
zero value.
-/

namespace Protovalidate

open Recording

/-- The kind of the value that is bound. -/
def CelBind.kind {R : Runtime} : CelBind R → Singular
  | .field _ bound =>
    match bound.kind with
    | .singular kind => kind
    | _ => .message
  | .item kind => kind

namespace Encodes
variable {R : Runtime}

/-- From a message to a value in it: the value read for one of its field validators, and
an element or the value of an entry of such a field. -/
inductive Step
  | field (index : Nat)
  | element (index : Nat)
  | entry (index : Nat)
  deriving DecidableEq

/-- Where a value is, from the root. -/
abbrev Location := List Step

/-- The frame of the message value that is somewhere. -/
structure Located (R : Runtime) extends CelFrame R where
  location : Location

/-- A frame, by its number among those made. -/
structure Framed (R : Runtime) extends Located R where
  id : Nat

/-- Where a value's CEL rules get `this` from. -/
inductive Bind (R : Runtime)
  | field (frame : Framed R) (field : Field R)
  | item (kind : Singular)

def Bind.unframed : Bind R → CelBind R
  | .field frame bound => .field frame.toCelFrame bound
  | .item kind => .item kind

/-- The violations so far, the frames made, what each was parsed as, how often each was
encoded, how often any message was, and whether that failed. -/
structure State (R : Runtime) where
  out : Violations
  frames : List (Located R)
  parsed : Nat → Option Frame
  frameEncodes : Nat → Nat
  encodes : Nat
  failed : Bool

namespace State

def start (failFast : Bool) : State R :=
  ⟨Violations.new failFast, [], fun _ => none, fun _ => 0, 0, false⟩

/-- How often frames of the message value at a location were encoded. -/
def encodesAt (s : State R) (location : Location) : Nat :=
  (s.frames.zipIdx.map fun made =>
    if made.1.location = location then s.frameEncodes made.2 else 0).sum

/-- Counts a message that is encoded. -/
def encode (s : State R) (message : Message R) : State R :=
  { s with encodes := s.encodes + 1, failed := s.failed || !message.encode.isOk }

end State

/-- A step of the walk that counts. -/
def CountM (R : Runtime) (α : Type) : Type := State R → Except (Abort R.Error) α × State R

namespace CountM
variable {α β : Type}

def andThen (x : CountM R α) (f : α → CountM R β) : CountM R β := fun s =>
  match x s with
  | (.ok a, s) => f a s
  | (.error abort, s) => (.error abort, s)

instance : Monad (CountM R) where
  pure a := fun s => (.ok a, s)
  bind := andThen

/-- Changes the violations before and after a step. -/
def around (enter : Violations → Violations) (leave : Violations → Violations → Violations)
    (f : CountM R α) : CountM R α := fun s =>
  let (result, after) := f { s with out := enter s.out }
  (result, { after with out := leave s.out after.out })

instance : Recorder (CountM R) Failure FieldPathElement (Error R.Error) where
  record failure := fun s =>
    let (result, out) := Violations.push failure s.out
    (result, { s with out })
  abort e := fun s => (.error (.error e), s)
  within element := around
    (fun out => { out with path := out.path ++ [⟨element, element.subscript⟩] })
    (fun _ out => { out with path := out.path.dropLast })

/-- Runs `f` validating a map key. -/
def forKey (f : CountM R α) : CountM R α :=
  around (fun out => { out with forKey := true }) (fun _ out => { out with forKey := false }) f

def subscript (subscript : Option Subscript) : CountM R Unit := fun s =>
  (.ok (), { s with out := s.out.subscript subscript })

/-- A new frame, which is not parsed yet. -/
def frame (made : Located R) : CountM R (Framed R) := fun s =>
  (.ok ⟨made, s.frames.length⟩, { s with frames := s.frames ++ [made] })

end CountM

section Counted
variable (walk : Walk R)

/-- The parsed message. It is encoded if the frame is not parsed yet. -/
def Framed.parsed (self : Framed R) : CountM R Frame := fun s =>
  match s.parsed self.id with
  | some frame => (.ok frame, s)
  | none =>
    let s := { s.encode self.message with
      frameEncodes := Function.update s.frameEncodes self.id (s.frameEncodes self.id + 1) }
    match self.toCelFrame.parsed walk with
    | .error e => (.error (.error e), s)
    | .ok frame => (.ok frame, { s with parsed := Function.update s.parsed self.id (some frame) })

/-- Whether an item is its type's zero value. A message is encoded to tell. -/
def isEmptyItem (item : Val R) : CountM R Bool := fun s =>
  let s :=
    match item with
    | .message message => s.encode message
    | _ => s
  (read (Protovalidate.isEmptyItem item) : CountM R Bool) s

/-- Whether an item validator skips an item. -/
def skips (self : ItemValidator R) (item : Val R) : CountM R Bool :=
  if self.ignoreEmpty then isEmptyItem item else pure false

/-- What `this` is bound to. -/
def celThis (value : Option (Val R)) (bind : Bind R) (child : Option (Framed R)) :
    CountM R This :=
  match celScalar value bind.unframed.kind with
  | some scalar => pure (.scalar scalar)
  | none =>
    match bind, child with
    | .field frame field, _ => do
      return .field (← frame.parsed walk) (fieldNumber field.number)
    | .item _, some child => do return .message (← child.parsed walk)
    | .item _, none => abort (.unexpected "no message to bind this to")

def runPrograms (programs : Option CelPrograms) (value : Option (Val R)) (bind : Bind R)
    (child : Option (Framed R)) : CountM R Unit :=
  match programs with
  | none => pure ()
  | some programs => do
    let this ← celThis walk value bind child
    programs.run this

/-- A value's own rules: custom, then standard, then predefined. -/
def valueRules (self : ValueValidator R) (bind : Bind R) (child : Option (Framed R))
    (value : Option (Val R)) : CountM R Unit := do
  runPrograms walk self.custom value bind child
  self.checks.check walk value self.wrapper
  runPrograms walk self.predefined value bind child

def runMessagePrograms (programs : Option CelPrograms) (frame : Framed R) : CountM R Unit :=
  match programs with
  | none => pure ()
  | some programs => do
    let parsed ← frame.parsed walk
    programs.run (.message parsed)

/-- A message's own rules, before those of its fields. -/
def messageRules (self : MessageValidator R) (frame : Framed R) (message : Message R) :
    CountM R Unit := do
  runMessagePrograms walk self.cel frame
  self.messageOneofs.forM (fun oneof => oneof.check message)
  self.oneofs.forM (fun oneof => oneof.check message)

/-- The validator and the frame of the message a value holds. -/
def nestedMessage (self : ValueValidator R) (location : Location) (sub : Message R) :
    CountM R (Option (MessageValidator R × Framed R)) := do
  match ← orAbort (self.nestedMessage walk sub) with
  | none => return none
  | some (validator, child) => return some (validator, ← CountM.frame ⟨child, location⟩)

/-- Validates the key of an entry, a scalar without a message of its own. -/
def validateKey (entries : Entries R) (key : Atom) : CountM R Unit :=
  match entries.keys with
  | none => pure ()
  | some keys => do
    if ← skips keys (.atom key) then
      pure ()
    else
      CountM.forKey (valueRules walk keys.value (.item entries.key) none (some (.atom key)))

/-- Validates one entry of a map. Its subscript is filled in afterwards. -/
def validateEntry (key : Atom) (entryValues : CountM R Unit) : CountM R Unit :=
  CountM.around id (fun out after => after.subscriptSince out.list.length (keySubscript key))
    entryValues

mutual

def validateMessage (self : MessageValidator R) (frame : Framed R) : Message R → CountM R Unit
  | ⟨has, get, encode⟩ => do
    messageRules walk self frame ⟨has, get, encode⟩
    self.fields.zipIdx.forM fun field =>
      match field with
      | (.error error, _) => abort (.compilation error)
      | (.ok field, index) => validateField field ⟨has, get, encode⟩ frame
          (frame.location ++ [.field index]) (get field.field)

/-- Validates one field of `message`, of the value read from it. -/
def validateField (self : FieldValidator R) (message : Message R) (frame : Framed R)
    (location : Location) : Except R.Error (Option (Val R)) → CountM R Unit
  | .error e => abort (.read e)
  | .ok value => do
    let set ← read (self.isSet message value)
    if !set && self.required then
      within self.element (push "required" "value is required" [walk.schema.required])
    else if !set && self.ignoreEmpty then
      pure ()
    else do
      within self.element (validateOption self.value (.field frame self.field) location value)
      validateItems self location value

/-- Validates the items of a container field. -/
def validateItems (self : FieldValidator R) (location : Location) :
    Option (Val R) → CountM R Unit
  | some (.list list) =>
    match self.kind, self.field.kind with
    | .list (some items), .list element =>
      within self.element (validateList items element location list)
    | _, _ => pure ()
  | some (.map map) =>
    match self.kind, self.field.kind with
    | .map element keys values, .map key entry =>
      within element (validateMap ⟨.scalar key, entry, keys, values⟩ location map)
    | _, _ => pure ()
  | _ => pure ()

/-- Validates each element of a list, subscripted by its index. -/
def validateList (self : ItemValidator R) (element : Singular) (location : Location) :
    ListView R → CountM R Unit
  | ⟨len, get⟩ => do
    let len ← read len
    (List.range len).forM fun index => validateItem self element location index (get index)

def validateItem (self : ItemValidator R) (element : Singular) (location : Location)
    (index : Nat) : Except R.Error (Option (Val R)) → CountM R Unit
  | .error e => abort (.read e)
  | .ok none => pure ()
  | .ok (some item) => do
    if ← skips self item then
      pure ()
    else do
      CountM.subscript (some (.index index))
      validateValue self.value (.item element) (location ++ [.element index]) item

/-- Validates each entry of a map, subscripted by its key. -/
def validateMap (entries : Entries R) (location : Location) : MapView R → CountM R Unit
  | ⟨_, visited, fault⟩ => do
    validateEntries entries location 0 visited
    match fault with
    | some e => abort (.read e)
    | none => pure ()

def validateEntries (entries : Entries R) (location : Location) (index : Nat) :
    List (Atom × Val R) → CountM R Unit
  | [] => pure ()
  | entry :: rest => do
    validateEntry entry.1 (validateEntryValues entries (location ++ [.entry index]) entry)
    validateEntries entries location (index + 1) rest

def validateEntryValues (entries : Entries R) (location : Location) :
    Atom × Val R → CountM R Unit
  | (key, value) => do
    validateKey walk entries key
    match entries.values with
    | none => pure ()
    | some values =>
      if ← skips values value then
        pure ()
      else
        validateValue values.value (.item entries.value) location value

/-- Validates the value of a field, absent when the message has no such field. -/
def validateOption (self : ValueValidator R) (bind : Bind R) (location : Location) :
    Option (Val R) → CountM R Unit
  | none => valueRules walk self bind none none
  | some value => validateValue self bind location value

/-- Validates one value, then the message it holds. -/
def validateValue (self : ValueValidator R) (bind : Bind R) (location : Location) :
    Val R → CountM R Unit
  | .message sub => do
    let nested ← nestedMessage walk self location sub
    valueRules walk self bind (nested.map Prod.snd) (some (.message sub))
    match nested with
    | none => pure ()
    | some (validator, child) => validateMessage validator child sub
  | .atom a => valueRules walk self bind none (some (.atom a))
  | .list l => valueRules walk self bind none (some (.list l))
  | .map m => valueRules walk self bind none (some (.map m))

end

/-- A walk from the root, which has a frame of its own. -/
def validate (failFast : Bool) (validator : MessageValidator R) (message : Message R)
    (typeName : String) : Except (Abort R.Error) Unit × State R :=
  (do validateMessage walk validator (← CountM.frame ⟨⟨typeName, message⟩, []⟩) message :
    CountM R Unit) (.start failFast)

end Counted

end Encodes

end Protovalidate
