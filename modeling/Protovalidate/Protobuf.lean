import Protovalidate.Lib.NanOrder
import Mathlib.Algebra.Group.Nat.Defs
import Mathlib.Data.Int.Order.Basic
import Mathlib.Logic.Relation

/-!
# Messages as a runtime hands them out

What the validator asks of a runtime about one message: its fields, lists and
maps, each read possibly failing. A message is the finite tree of everything
its runtime would answer. Numbers are widened to their CEL types.
-/

namespace Protovalidate

abbrev Bytes := List UInt8

/-- A `double`, by its bits. A `float` is taken as the double it widens to. -/
structure Double where
  bits : BitVec 64
  deriving DecidableEq, Repr

namespace Double

def negative (x : Double) : Bool := x.bits.msb

/-- The exponent and fraction bits, which order the values of one sign. -/
def magnitude (x : Double) : Nat := x.bits.toNat % 2 ^ 63

/-- The magnitude of the infinities, `0x7FF0000000000000`. -/
def infinite : Nat := 2047 * 2 ^ 52

def isNan (x : Double) : Bool := infinite < x.magnitude

def isFinite (x : Double) : Bool := x.magnitude < infinite

def isInfinite (x : Double) : Bool := x.magnitude == infinite

def isZero (x : Double) : Bool := x.magnitude == 0

/-- Where a number lies among the others; the signed zeros share a place. -/
def key (x : Double) : Int :=
  if x.negative then -(x.magnitude : Int) else x.magnitude

instance : NanOrder Double Int where
  rank x := if x.isNan then none else some x.key

end Double

instance : NanOrder Int Int where
  rank := some

/-- A Protobuf scalar type. -/
inductive Scalar
  | bool | int32 | int64 | uint32 | uint64 | sint32 | sint64 | fixed32 | fixed64
  | sfixed32 | sfixed64 | float | double | string | bytes
  deriving DecidableEq, Repr

/-- The type of one value, of a singular field, a repeated element or a map
value. -/
inductive Singular
  | scalar (s : Scalar)
  | enum
  | message
  deriving DecidableEq, Repr

/-- How a field holds its values. -/
inductive Kind
  | singular (value : Singular)
  | list (element : Singular)
  | map (key : Scalar) (value : Singular)
  deriving DecidableEq, Repr

/-- What a runtime reports failed reads and describes message types with. -/
structure Runtime where
  Error : Type
  MessageType : Type

/-- A field, as the validator describes it when asking a message for it. -/
structure Field (R : Runtime) where
  number : Nat
  name : String
  kind : Kind
  messageType : Option R.MessageType
  hasPresence : Bool

/-- A field of a well-known type, which the rules read directly. -/
def Field.wellKnown (R : Runtime) (number : Nat) (name : String) (kind : Kind) : Field R where
  number := number
  name := name
  kind := kind
  messageType := none
  hasPresence := false

/-- A value other than a message, a list or a map. Map keys are of this kind. -/
inductive Atom
  | bool (b : Bool)
  | int (i : Int)
  | uint (u : Nat)
  | double (f : Double)
  | enum (e : Int)
  | string (s : String)
  | bytes (b : Bytes)
  deriving DecidableEq, Repr

mutual

/-- A field's value. -/
inductive Val (R : Runtime)
  | atom (a : Atom)
  | message (m : Message R)
  | list (l : ListView R)
  | map (m : MapView R)

/-- A message: whether a field is set, asked only of a field that tracks
presence, a field's value or its default, `none` when the message has no such
field, and the serialized message. -/
structure Message (R : Runtime) where
  has : Field R → Except R.Error Bool
  get : Field R → Except R.Error (Option (Val R))
  encode : Except R.Error Bytes

/-- A repeated field; an element past the end is `none`. -/
structure ListView (R : Runtime) where
  len : Except R.Error Nat
  get : Nat → Except R.Error (Option (Val R))

/-- A map field: the entries in the order a visit yields them, and the error
that ends the visit after them, if one does. -/
structure MapView (R : Runtime) where
  len : Except R.Error Nat
  entries : List (Atom × Val R)
  fault : Option R.Error

end

namespace Val
variable {R : Runtime}

abbrev bool (b : Bool) : Val R := .atom (.bool b)
abbrev int (i : Int) : Val R := .atom (.int i)
abbrev uint (u : Nat) : Val R := .atom (.uint u)
abbrev double (f : Double) : Val R := .atom (.double f)
abbrev enum (e : Int) : Val R := .atom (.enum e)
abbrev string (s : String) : Val R := .atom (.string s)
abbrev bytes (b : Bytes) : Val R := .atom (.bytes b)

end Val

/-- A value its runtime hands out when another one is read. -/
inductive Part {R : Runtime} : Val R → Val R → Prop
  | field {m : Message R} {f : Field R} {v : Val R} :
      m.get f = .ok (some v) → Part v (.message m)
  | element {l : ListView R} {i : Nat} {v : Val R} :
      l.get i = .ok (some v) → Part v (.list l)
  | entry {m : MapView R} {k : Atom} {v : Val R} :
      (k, v) ∈ m.entries → Part v (.map m)

theorem part_atom {R : Runtime} {a : Atom} {v : Val R} (h : Part v (.atom a)) : False := by
  cases h

mutual

theorem Val.accessible {R : Runtime} : ∀ v : Val R, Acc Part v
  | .atom _ => ⟨_, fun _ part => (part_atom part).elim⟩
  | .message m => m.accessible
  | .list l => l.accessible
  | .map m => m.accessible

theorem Message.accessible {R : Runtime} : ∀ m : Message R, Acc Part (.message m)
  | ⟨_, get, _⟩ => ⟨_, fun v part => by
      cases part with
      | @field _ f _ h => exact read_accessible (get f) v h⟩

theorem ListView.accessible {R : Runtime} : ∀ l : ListView R, Acc Part (.list l)
  | ⟨_, get⟩ => ⟨_, fun v part => by
      cases part with
      | @element _ i _ h => exact read_accessible (get i) v h⟩

theorem MapView.accessible {R : Runtime} : ∀ m : MapView R, Acc Part (.map m)
  | ⟨_, entries, _⟩ => ⟨_, fun v part => by
      cases part with
      | @entry _ key _ h => exact entries_accessible entries (key, v) h⟩

theorem read_accessible {R : Runtime} :
    ∀ (r : Except R.Error (Option (Val R))) (v : Val R), r = .ok (some v) → Acc Part v
  | .error _, _, h => by cases h
  | .ok value, v, h => value_accessible value v (Except.ok.inj h)

theorem value_accessible {R : Runtime} :
    ∀ (value : Option (Val R)) (v : Val R), value = some v → Acc Part v
  | none, _, h => by cases h
  | some w, _, h => Option.some.inj h ▸ w.accessible

theorem entries_accessible {R : Runtime} :
    ∀ (entries : List (Atom × Val R)) (entry : Atom × Val R), entry ∈ entries → Acc Part entry.2
  | [], _, h => by cases h
  | first :: rest, entry, h => by
      rcases List.mem_cons.mp h with same | later
      · exact same ▸ entry_accessible first
      · exact entries_accessible rest entry later

theorem entry_accessible {R : Runtime} : ∀ entry : Atom × Val R, Acc Part entry.2
  | (_, v) => v.accessible

end

/-- A value below another one, at any depth. -/
abbrev Below {R : Runtime} : Val R → Val R → Prop := Relation.TransGen Part

/-- A message tree is finite: what holds of a value when it holds of everything
below it holds of every value. -/
theorem Val.below_induction {R : Runtime} {P : Val R → Prop}
    (step : ∀ v, (∀ w, Below w v → P w) → P v) (v : Val R) : P v :=
  (WellFounded.transGen ⟨Val.accessible⟩).induction v step

end Protovalidate
