import Protovalidate.Descriptors
import Mathlib.Data.List.Infix

/-!
# The standard rules, evaluated natively

A check is one predefined rule of `validate.proto` compiled ahead of time: its
id, message and rule path are fixed when it is built, and only its test against
the value is left. The tests here are over plain values. Regular expressions,
the formats that are not regular expressions, and the way numbers and times
print belong to the `Backend`.
-/

namespace Protovalidate

/-- What the native checks take from elsewhere: the regular expression engine,
the `is*` formats, the way values print, and the clock. -/
structure Backend where
  /-- Whether the engine accepts a pattern, or its message for one it rejects. -/
  regexNew : String → Except String Unit
  isMatch : String → String → Bool
  isEmail : String → Bool
  isHostname : String → Bool
  isIp : String → Bool
  isIpv4 : String → Bool
  isIpv6 : String → Bool
  isUri : String → Bool
  isUriRef : String → Bool
  isIpPrefix : String → Bool → Bool
  isIpv4Prefix : String → Bool → Bool
  isIpv6Prefix : String → Bool → Bool
  isHostAndPort : String → Bool → Bool
  /-- The shortest form that reads back to a number that is not infinite. -/
  shortest : Double → String
  /-- The civil date and time of some seconds and nanoseconds after the epoch. -/
  civil : Int → Int → Option String
  /-- The bytes as text, with what is not UTF-8 replaced. -/
  lossyText : Bytes → String
  /-- The system clock, in nanoseconds since the epoch. -/
  now : Int

/-- An engine that compiles every pattern, and formats that no text has. -/
def Backend.bare : Backend where
  regexNew _ := .ok ()
  isMatch _ _ := false
  isEmail _ := false
  isHostname _ := false
  isIp _ := false
  isIpv4 _ := false
  isIpv6 _ := false
  isUri _ := false
  isUriRef _ := false
  isIpPrefix _ _ := false
  isIpv4Prefix _ _ := false
  isIpv6Prefix _ _ := false
  isHostAndPort _ _ := false
  shortest _ := ""
  civil _ _ := none
  lossyText _ := ""
  now := 0

/-- A compiled pattern. -/
structure Regex where
  pattern : String
  deriving DecidableEq, Repr

def Regex.new (B : Backend) (pattern : String) : Except String Regex :=
  (B.regexNew pattern).map (fun _ => ⟨pattern⟩)

def Regex.isMatch (B : Backend) (regex : Regex) (text : String) : Bool :=
  B.isMatch regex.pattern text

def NANOS_PER_SECOND : Int := 1000000000

/-- The `seconds` and `nanos` of a `Duration` or `Timestamp` in nanoseconds. -/
def totalNanos (seconds nanos : Int) : Int := seconds * NANOS_PER_SECOND + nanos

/-- A standard rule against a value: what it reports, and what it tests. -/
structure Check (τ : Type) where
  id : String
  message : String
  rulePath : List FieldPathElement
  test : τ

/-- A comparison against the rule's values. The range forms are what
`validate.proto` defines for a lower bound with an upper one. -/
inductive Cmp (α : Type)
  | const (c : α)
  | lt (v : α)
  | lte (v : α)
  | gt (v : α)
  | gte (v : α)
  | gtLt (gt lt : α)
  | gtLtExclusive (gt lt : α)
  | gtLte (gt lte : α)
  | gtLteExclusive (gt lte : α)
  | gteLt (gte lt : α)
  | gteLtExclusive (gte lt : α)
  | gteLte (gte lte : α)
  | gteLteExclusive (gte lte : α)
  | isIn (list : List α)
  | notIn (list : List α)
  deriving DecidableEq, Repr

/-- Whether a value breaks the comparison. A NaN breaks every rule but
`not_in`. -/
def Cmp.fails {α κ : Type} [LinearOrder κ] [NanOrder α κ] (test : Cmp α) (value : α) :
    Except String Bool :=
  if NanOrder.isNan value then
    .ok (match test with
      | .notIn _ => false
      | _ => true)
  else
    .ok (match test with
      | .const c => !NanOrder.eq value c
      | .lt v => NanOrder.le v value
      | .lte v => NanOrder.lt v value
      | .gt v => NanOrder.le value v
      | .gte v => NanOrder.lt value v
      | .gtLt g l => NanOrder.le l value || NanOrder.le value g
      | .gtLtExclusive g l => NanOrder.le l value && NanOrder.le value g
      | .gtLte g l => NanOrder.lt l value || NanOrder.le value g
      | .gtLteExclusive g l => NanOrder.lt l value && NanOrder.le value g
      | .gteLt g l => NanOrder.le l value || NanOrder.lt value g
      | .gteLtExclusive g l => NanOrder.le l value && NanOrder.lt value g
      | .gteLte g l => NanOrder.lt l value || NanOrder.lt value g
      | .gteLteExclusive g l => NanOrder.lt l value && NanOrder.lt value g
      | .isIn list => !list.any (fun item => NanOrder.eq item value)
      | .notIn list => list.any (fun item => NanOrder.eq item value))

/-- The float and double rules. -/
inductive DoubleTest
  | cmp (test : Cmp Double)
  | finite
  deriving DecidableEq, Repr

def DoubleTest.fails (test : DoubleTest) (value : Double) : Except String Bool :=
  match test with
  | .cmp test => test.fails value
  | .finite => .ok (!value.isFinite)

/-- `bool.const`. -/
def boolFails (test : Bool) (value : Bool) : Except String Bool := .ok (value != test)

/-- A well-known string format. -/
inductive WellKnown
  | email | hostname | ip | ipv4 | ipv6 | uri | uriRef | address | uuid | tuuid
  | ipWithPrefixlen | ipv4WithPrefixlen | ipv6WithPrefixlen
  | ipPrefix | ipv4Prefix | ipv6Prefix | hostAndPort | ulid | protobufFqn | protobufDotFqn
  | headerName (strict : Bool)
  | headerValue (strict : Bool)
  deriving DecidableEq, Repr

def UUID : String :=
  "^[0-9a-fA-F]{8}-[0-9a-fA-F]{4}-[0-9a-fA-F]{4}-[0-9a-fA-F]{4}-[0-9a-fA-F]{12}$"
def TUUID : String := "^[0-9a-fA-F]{32}$"
def ULID : String := "^[0-7][0-9A-HJKMNP-TV-Za-hjkmnp-tv-z]{25}$"
def PROTOBUF_FQN : String := "^[A-Za-z_][A-Za-z_0-9]*(\\.[A-Za-z_][A-Za-z_0-9]*)*$"
def PROTOBUF_DOT_FQN : String := "^\\.[A-Za-z_][A-Za-z_0-9]*(\\.[A-Za-z_][A-Za-z_0-9]*)*$"

/-- RFC 7230's token, with a leading colon allowed for HTTP/2 pseudo-headers. -/
def HEADER_NAME_STRICT : String := "^:?[0-9a-zA-Z!#$%&'*+-.^_|~\\x60]+$"

def HEADER_NAME_LOOSE : String := "^[^\\x00\\x0A\\x0D]+$"

/-- Everything but the control characters other than tab. -/
def HEADER_VALUE_STRICT : String := "^[^\\x00-\\x08\\x0A-\\x1F\\x7F]*$"

def HEADER_VALUE_LOOSE : String := "^[^\\x00\\x0A\\x0D]*$"

namespace WellKnown

/-- Whether the format lets an empty string through, for its `_empty`
companion to reject. -/
def allowsEmpty : WellKnown → Bool
  | .uriRef => false
  | .headerValue _ => false
  | _ => true

/-- Whether a string has the format. -/
def accepts (B : Backend) (format : WellKnown) (s : String) : Bool :=
  match format with
  | .email => B.isEmail s
  | .hostname => B.isHostname s
  | .ip => B.isIp s
  | .ipv4 => B.isIpv4 s
  | .ipv6 => B.isIpv6 s
  | .uri => B.isUri s
  | .address => B.isHostname s || B.isIp s
  | .uuid => B.isMatch UUID s
  | .tuuid => B.isMatch TUUID s
  | .ipWithPrefixlen => B.isIpPrefix s false
  | .ipv4WithPrefixlen => B.isIpv4Prefix s false
  | .ipv6WithPrefixlen => B.isIpv6Prefix s false
  | .ipPrefix => B.isIpPrefix s true
  | .ipv4Prefix => B.isIpv4Prefix s true
  | .ipv6Prefix => B.isIpv6Prefix s true
  | .hostAndPort => B.isHostAndPort s true
  | .ulid => B.isMatch ULID s
  | .protobufFqn => B.isMatch PROTOBUF_FQN s
  | .protobufDotFqn => B.isMatch PROTOBUF_DOT_FQN s
  | .headerName strict =>
    B.isMatch (if strict then HEADER_NAME_STRICT else HEADER_NAME_LOOSE) s
  | .uriRef => B.isUriRef s
  | .headerValue strict =>
    B.isMatch (if strict then HEADER_VALUE_STRICT else HEADER_VALUE_LOOSE) s

def fails (B : Backend) (format : WellKnown) (s : String) : Bool :=
  if s == "" && format.allowsEmpty then false else !format.accepts B s

end WellKnown

inductive StrTest
  | const (c : String)
  | len (n : Nat)
  | minLen (n : Nat)
  | maxLen (n : Nat)
  | lenBytes (n : Nat)
  | minBytes (n : Nat)
  | maxBytes (n : Nat)
  | pattern (regex : Regex)
  | prefixed (p : String)
  | suffix (p : String)
  | contains (p : String)
  | notContains (p : String)
  | isIn (list : List String)
  | notIn (list : List String)
  | wellKnown (format : WellKnown)
  | empty
  deriving DecidableEq, Repr

/-- The number of Unicode code points. -/
def chars (s : String) : Nat := s.toList.length

def startsWith (s p : String) : Bool := p.toList.isPrefixOf s.toList

def endsWith (s p : String) : Bool := p.toList.isSuffixOf s.toList

def containsList {α : Type} [BEq α] (haystack needle : List α) : Bool :=
  haystack.tails.any (fun rest => needle.isPrefixOf rest)

def containsString (s p : String) : Bool := containsList s.toList p.toList

def StrTest.fails (B : Backend) (test : StrTest) (s : String) : Except String Bool :=
  .ok (match test with
    | .const c => s != c
    | .len n => chars s != n
    | .minLen n => chars s < n
    | .maxLen n => chars s > n
    | .lenBytes n => s.utf8ByteSize != n
    | .minBytes n => s.utf8ByteSize < n
    | .maxBytes n => s.utf8ByteSize > n
    | .pattern regex => !regex.isMatch B s
    | .prefixed p => !startsWith s p
    | .suffix p => !endsWith s p
    | .contains p => !containsString s p
    | .notContains p => containsString s p
    | .isIn list => !list.any (fun item => item == s)
    | .notIn list => list.any (fun item => item == s)
    | .wellKnown format => format.fails B s
    | .empty => s == "")

inductive BytesTest
  | const (c : Bytes)
  | len (n : Nat)
  | minLen (n : Nat)
  | maxLen (n : Nat)
  | pattern (regex : Regex)
  | prefixed (p : Bytes)
  | suffix (p : Bytes)
  | contains (p : Bytes)
  | isIn (list : List Bytes)
  | notIn (list : List Bytes)
  | ip
  | ipv4
  | ipv6
  | uuid
  | empty
  deriving DecidableEq, Repr

/-- The windows of `n` elements of a list. -/
def windows {α : Type} (n : Nat) (xs : List α) : List (List α) :=
  (xs.tails.map (List.take n)).filter (fun window => window.length == n)

def contains (haystack needle : Bytes) : Bool :=
  needle.isEmpty || (windows needle.length haystack).any (fun window => window == needle)

/-- The bytes as text, `none` when they are not UTF-8. -/
def fromUtf8 (b : Bytes) : Option String := String.fromUTF8? ⟨b.toArray⟩

/-- Bytes that are not UTF-8 cannot be matched against a pattern. -/
def BytesTest.fails (B : Backend) (test : BytesTest) (b : Bytes) : Except String Bool :=
  match test with
  | .const c => .ok (b != c)
  | .len n => .ok (b.length != n)
  | .minLen n => .ok (b.length < n)
  | .maxLen n => .ok (b.length > n)
  | .pattern regex =>
    match fromUtf8 b with
    | some s => .ok (!regex.isMatch B s)
    | none => .error "must be valid UTF-8 to apply regexp"
  | .prefixed p => .ok (!p.isPrefixOf b)
  | .suffix p => .ok (!p.isSuffixOf b)
  | .contains p => .ok (!Protovalidate.contains b p)
  | .isIn list => .ok (!list.any (fun item => item == b))
  | .notIn list => .ok (list.any (fun item => item == b))
  | .ip => .ok (!(b.length == 0 || b.length == 4 || b.length == 16))
  | .ipv4 => .ok (!(b.length == 0 || b.length == 4))
  | .ipv6 => .ok (!(b.length == 0 || b.length == 16))
  | .uuid => .ok (!(b.length == 0 || b.length == 16))
  | .empty => .ok b.isEmpty

inductive EnumTest
  | cmp (test : Cmp Int)
  | definedOnly (index : EnumIndex)
  deriving DecidableEq, Repr

/-- `defined_only` is looked up in the values of the enum. -/
def EnumTest.fails (defined : EnumIndex → Int → Bool) (test : EnumTest) (number : Int) :
    Except String Bool :=
  match test with
  | .cmp test => test.fails number
  | .definedOnly index => .ok (!defined index number)

inductive ListTest
  | minItems (n : Nat)
  | maxItems (n : Nat)
  | unique
  deriving DecidableEq, Repr

/-- The duplicates of a list are looked for when the test is on them. -/
def ListTest.fails {ε : Type} (test : ListTest) (len : Nat) (duplicates : Except ε Bool) :
    Except ε Bool :=
  match test with
  | .minItems n => .ok (len < n)
  | .maxItems n => .ok (len > n)
  | .unique => duplicates

inductive MapTest
  | minPairs (n : Nat)
  | maxPairs (n : Nat)
  deriving DecidableEq, Repr

def MapTest.fails (test : MapTest) (len : Nat) : Except String Bool :=
  .ok (match test with
    | .minPairs n => len < n
    | .maxPairs n => len > n)

/-- The `any` rules, on the type URL. -/
inductive AnyTest
  | isIn (list : List String)
  | notIn (list : List String)
  deriving DecidableEq, Repr

def AnyTest.fails (test : AnyTest) (typeUrl : String) : Except String Bool :=
  .ok (match test with
    | .isIn list => !list.any (fun allowed => allowed == typeUrl)
    | .notIn list => list.any (fun blocked => blocked == typeUrl))

inductive NowTest
  | ltNow
  | gtNow
  | within (duration : Int)
  deriving DecidableEq, Repr

inductive TimestampTest
  | cmp (test : Cmp Int)
  | now (test : NowTest)
  deriving DecidableEq, Repr

def TimestampTest.fails (B : Backend) (test : TimestampTest) (value : Int) :
    Except String Bool :=
  match test with
  | .cmp test => test.fails value
  | .now .ltNow => .ok (value > B.now)
  | .now .gtNow => .ok (value < B.now)
  | .now (.within within) => .ok (value < B.now - within || value > B.now + within)

/-- The field mask rules. For `in`, every path must be in the list, or below a
path in it. -/
inductive FieldMaskTest
  | const (c : List String)
  | isIn (list : List String)
  | notIn (list : List String)
  deriving DecidableEq, Repr

/-- Whether a path is one of `paths`, or below one of them. -/
def covered (paths : List String) (path : String) : Bool :=
  paths.any (fun allowed =>
    allowed == path ||
      (allowed.toList.isPrefixOf path.toList &&
        ['.'].isPrefixOf (path.toList.drop allowed.toList.length)))

def FieldMaskTest.fails (test : FieldMaskTest) (paths : List String) : Except String Bool :=
  .ok (match test with
    | .const c => paths != c
    | .isIn list => !paths.all (fun path => covered list path)
    | .notIn list => paths.any (fun path => covered list path))

/-- The checks of one rules message, in evaluation order, typed by the value
they test. -/
inductive Checks
  | none
  | bool (checks : List (Check Bool))
  | int (checks : List (Check (Cmp Int)))
  | uint (checks : List (Check (Cmp Int)))
  | double (checks : List (Check DoubleTest))
  | string (checks : List (Check StrTest))
  | bytes (checks : List (Check BytesTest))
  | enum (checks : List (Check EnumTest))
  | list (checks : List (Check ListTest))
  | map (checks : List (Check MapTest))
  | duration (checks : List (Check (Cmp Int)))
  | timestamp (checks : List (Check TimestampTest))
  | fieldMask (checks : List (Check FieldMaskTest))
  | any (checks : List (Check AnyTest))

/-- The rule paths of checks. -/
def Checks.rulePaths : Checks → List (List FieldPathElement)
  | .none => []
  | .bool checks => checks.map Check.rulePath
  | .int checks | .uint checks | .duration checks => checks.map Check.rulePath
  | .double checks => checks.map Check.rulePath
  | .string checks => checks.map Check.rulePath
  | .bytes checks => checks.map Check.rulePath
  | .enum checks => checks.map Check.rulePath
  | .list checks => checks.map Check.rulePath
  | .map checks => checks.map Check.rulePath
  | .timestamp checks => checks.map Check.rulePath
  | .fieldMask checks => checks.map Check.rulePath
  | .any checks => checks.map Check.rulePath

/-- A list element as `unique()` compares it. -/
inductive UniqueKey
  | bool (b : Bool)
  | int (i : Int)
  | uint (u : Nat)
  | double (bits : BitVec 64)
  | str (s : String)
  | bytes (b : Bytes)
  deriving DecidableEq, Repr

/-- Signed zeros have one key, and a NaN has none. -/
def UniqueKey.ofDouble (value : Double) : Option UniqueKey :=
  if value.isNan then none
  else some (.double (if value.isZero then 0 else value.bits))

/-- How many keys are compared pairwise before hashing. -/
def PAIRWISE_KEYS : Nat := 16

/-- Whether a key is already in the set, or repeated among the keys. -/
def hashedDuplicates : List UniqueKey → List UniqueKey → Bool
  | _, [] => false
  | seen, key :: keys =>
    if seen.contains key then true else hashedDuplicates (key :: seen) keys

def pairwiseDuplicates : List UniqueKey → List UniqueKey → Bool
  | _, [] => false
  | first, key :: keys =>
    if first.contains key then true
    else if first.length == PAIRWISE_KEYS then hashedDuplicates (key :: first) keys
    else pairwiseDuplicates (first ++ [key]) keys

/-- Whether any key occurs twice. Elements without a key never count. -/
def hasDuplicates (keys : List (Option UniqueKey)) : Bool :=
  pairwiseDuplicates [] (keys.filterMap id)

end Protovalidate
