import Protovalidate.Lib.Slice

/-!
# The grammar of URIs

The productions of RFC 3986, over the characters of a text. What a host may be is
a parameter of those that have one, and they give the host of a text.
-/

namespace Rfc3986

def unreserved (c : Char) : Bool := c.isAlphanum || "-._~".toList.contains c

def subDelim (c : Char) : Bool := "!$&'()*+,;=".toList.contains c

def hexDig (c : Char) : Bool :=
  c.isDigit || (decide ('a' ≤ c) && decide (c ≤ 'f')) || (decide ('A' ≤ c) && decide (c ≤ 'F'))

def pchar (c : Char) : Bool := unreserved c || subDelim c || c == ':' || c == '@'

/-- Characters of one kind and percent-encoded octets. -/
inductive Encoded (kind : Char → Bool) : List Char → Prop
  | nil : Encoded kind []
  | char {c : Char} {s : List Char} : kind c = true → Encoded kind s → Encoded kind (c :: s)
  | octet {a b : Char} {s : List Char} : hexDig a = true → hexDig b = true → Encoded kind s →
    Encoded kind ('%' :: a :: b :: s)

/-! ### Hosts -/

def DecOctet (s : List Char) : Prop := ∃ n ≤ 255, s = Nat.toDigits 10 n

def Ipv4address (s : List Char) : Prop :=
  ∃ a b c d, DecOctet a ∧ DecOctet b ∧ DecOctet c ∧ DecOctet d ∧
    s = a ++ '.' :: b ++ '.' :: c ++ '.' :: d

def H16 (s : List Char) : Prop := s ≠ [] ∧ s.length ≤ 4 ∧ ∀ c ∈ s, hexDig c = true

/-- The last 32 bits of an address. -/
def Ls32 (s : List Char) : Prop :=
  (∃ a b, H16 a ∧ H16 b ∧ s = a ++ ':' :: b) ∨ Ipv4address s

/-- Groups with a colon after each. -/
def groups (parts : List (List Char)) : List Char := parts.flatMap (fun part => part ++ [':'])

/-- At most `most` groups with a colon between two of them, before a `::`. -/
def Leading (most : Nat) (s : List Char) : Prop :=
  ∃ parts : List (List Char), parts.length ≤ most ∧ (∀ part ∈ parts, H16 part) ∧
    s = [':'].intercalate parts

/-- Eight groups, or fewer around a `::`. -/
inductive Ipv6address : List Char → Prop
  | full {parts : List (List Char)} {last : List Char} : parts.length = 6 →
    (∀ part ∈ parts, H16 part) → Ls32 last → Ipv6address (groups parts ++ last)
  | elided {most : Nat} {front : List Char} {parts : List (List Char)} {last : List Char} :
    most + parts.length = 5 → Leading most front → (∀ part ∈ parts, H16 part) → Ls32 last →
    Ipv6address (front ++ ':' :: ':' :: groups parts ++ last)
  | group {front last : List Char} : Leading 6 front → H16 last →
    Ipv6address (front ++ ':' :: ':' :: last)
  | trailing {front : List Char} : Leading 7 front → Ipv6address (front ++ [':', ':'])

def IpvFuture (s : List Char) : Prop :=
  ∃ v version address, (v = 'v' ∨ v = 'V') ∧ version ≠ [] ∧ (∀ c ∈ version, hexDig c = true) ∧
    address ≠ [] ∧ (∀ c ∈ address, (unreserved c || subDelim c || c == ':') = true) ∧
    s = v :: version ++ '.' :: address

def IpLiteral (s : List Char) : Prop :=
  ∃ address, (Ipv6address address ∨ IpvFuture address) ∧ s = '[' :: address ++ [']']

def RegName : List Char → Prop := Encoded (fun c => unreserved c || subDelim c)

def Host (s : List Char) : Prop := IpLiteral s ∨ Ipv4address s ∨ RegName s

/-! ### The parts of a URI -/

def Scheme (s : List Char) : Prop :=
  ∃ c rest, c.isAlpha = true ∧
    (∀ d ∈ rest, (d.isAlphanum || "+-.".toList.contains d) = true) ∧ s = c :: rest

/-- A user and the `@` after it, or nothing. -/
def UserPrefix (s : List Char) : Prop :=
  s = [] ∨ ∃ user, Encoded (fun c => unreserved c || subDelim c || c == ':') user ∧
    s = user ++ ['@']

/-- A colon and a port, or nothing. -/
def PortSuffix (s : List Char) : Prop :=
  s = [] ∨ ∃ port, (∀ c ∈ port, c.isDigit = true) ∧ s = ':' :: port

def Authority (Host : List Char → Prop) (s host : List Char) : Prop :=
  ∃ user port, UserPrefix user ∧ Host host ∧ PortSuffix port ∧ s = user ++ host ++ port

/-- Segments, each after a slash. -/
def PathAbempty (s : List Char) : Prop :=
  ∃ segments : List (List Char), (∀ segment ∈ segments, Encoded pchar segment) ∧
    s = segments.flatMap (fun segment => '/' :: segment)

def PathRootless (s : List Char) : Prop :=
  ∃ segment rest, segment ≠ [] ∧ Encoded pchar segment ∧ PathAbempty rest ∧ s = segment ++ rest

def PathNoscheme (s : List Char) : Prop :=
  ∃ segment rest, segment ≠ [] ∧ Encoded (fun c => unreserved c || subDelim c || c == '@') segment ∧
    PathAbempty rest ∧ s = segment ++ rest

def PathAbsolute (s : List Char) : Prop := s = ['/'] ∨ ∃ rest, PathRootless rest ∧ s = '/' :: rest

/-- A query and a fragment, either left out. -/
def Tail (s : List Char) : Prop :=
  ∃ query fragment,
    (query = [] ∨ ∃ q, Encoded (fun c => pchar c || c == '/' || c == '?') q ∧ query = '?' :: q) ∧
    (fragment = [] ∨
      ∃ f, Encoded (fun c => pchar c || c == '/' || c == '?') f ∧ fragment = '#' :: f) ∧
    s = query ++ fragment

inductive HierPart (Host : List Char → Prop) : List Char → Option (List Char) → Prop
  | authority {s host path : List Char} : Authority Host s host → PathAbempty path →
    HierPart Host ('/' :: '/' :: s ++ path) (some host)
  | absolute {path : List Char} : PathAbsolute path → HierPart Host path none
  | rootless {path : List Char} : PathRootless path → HierPart Host path none
  | empty : HierPart Host [] none

inductive RelativePart (Host : List Char → Prop) : List Char → Option (List Char) → Prop
  | authority {s host path : List Char} : Authority Host s host → PathAbempty path →
    RelativePart Host ('/' :: '/' :: s ++ path) (some host)
  | absolute {path : List Char} : PathAbsolute path → RelativePart Host path none
  | noscheme {path : List Char} : PathNoscheme path → RelativePart Host path none
  | empty : RelativePart Host [] none

/-- A URI and its host. -/
def Uri (Host : List Char → Prop) (s : List Char) (host : Option (List Char)) : Prop :=
  ∃ scheme part tail, Scheme scheme ∧ HierPart Host part host ∧ Tail tail ∧
    s = scheme ++ ':' :: part ++ tail

def RelativeRef (Host : List Char → Prop) (s : List Char) (host : Option (List Char)) : Prop :=
  ∃ part tail, RelativePart Host part host ∧ Tail tail ∧ s = part ++ tail

/-- A URI or a relative reference, and its host. -/
def Reference (Host : List Char → Prop) (s : List Char) (host : Option (List Char)) : Prop :=
  Uri Host s host ∨ RelativeRef Host s host

/-! ### Octets -/

def hexValue (c : Char) : Nat :=
  if c.isDigit then c.toNat - '0'.toNat
  else if 'a' ≤ c then c.toNat - 'a'.toNat + 10
  else c.toNat - 'A'.toNat + 10

/-- A text with its percent-encoded octets decoded. -/
def octets : List Char → List UInt8
  | '%' :: a :: b :: s =>
    if hexDig a && hexDig b then UInt8.ofNat (hexValue a * 16 + hexValue b) :: octets s
    else String.utf8EncodeChar '%' ++ octets (a :: b :: s)
  | c :: s => String.utf8EncodeChar c ++ octets s
  | [] => []

/-- Whether the octets are UTF-8. -/
def Utf8 (s : List Char) : Prop := (octets s).toByteArray.IsValidUTF8

/-! ### Characters -/

section Characters
variable {s : List Char} {c : Char} {kind kind' : Char → Bool}

theorem Encoded.mem (encoded : Encoded kind s) (member : c ∈ s) :
    kind c = true ∨ hexDig c = true ∨ c = '%' := by
  induction encoded with
  | nil => cases member
  | char here rest ih =>
    rcases List.mem_cons.mp member with rfl | member
    · exact .inl here
    · exact ih member
  | octet first second rest ih =>
    rcases List.mem_cons.mp member with rfl | member
    · exact .inr (.inr rfl)
    · rcases List.mem_cons.mp member with rfl | member
      · exact .inr (.inl first)
      · rcases List.mem_cons.mp member with rfl | member
        · exact .inr (.inl second)
        · exact ih member

/-- A character of another kind is in no encoded text. -/
theorem Encoded.absent (encoded : Encoded kind s) (other : kind c = false)
    (digit : hexDig c = false) (percent : c ≠ '%') : c ∉ s := by
  intro member
  rcases encoded.mem member with here | here | here
  · rw [other] at here
    cases here
  · rw [digit] at here
    cases here
  · exact percent here

theorem H16.absent (group : H16 s) (digit : hexDig c = false) : c ∉ s := by
  intro member
  have here := group.2.2 c member
  rw [digit] at here
  cases here

theorem DecOctet.absent (octet : DecOctet s) (digit : c.isDigit = false) : c ∉ s := by
  obtain ⟨n, -, rfl⟩ := octet
  intro member
  have here := Nat.isDigit_of_mem_toDigits (by omega) (by omega) member
  rw [digit] at here
  cases here

theorem Ipv4address.absent (address : Ipv4address s) (digit : c.isDigit = false) (dot : c ≠ '.') :
    c ∉ s := by
  obtain ⟨a, b, d, e, first, second, third, fourth, rfl⟩ := address
  simp [first.absent digit, second.absent digit, third.absent digit, fourth.absent digit, dot]

/-- An IPv6 address has hexadecimal digits, colons and dots. -/
theorem Ipv6address.absent (address : Ipv6address s) (digit : hexDig c = false) (dot : c ≠ '.')
    (colon : c ≠ ':') : c ∉ s := by
  have decimal : c.isDigit = false := by
    rw [hexDig, Bool.or_eq_false_iff, Bool.or_eq_false_iff] at digit
    exact digit.1.1
  have lower : ∀ last, Ls32 last → c ∉ last := by
    rintro last (⟨a, b, first, second, rfl⟩ | ipv4)
    · simp [first.absent digit, second.absent digit, colon]
    · exact ipv4.absent decimal dot
  have middle : ∀ parts : List (List Char), (∀ part ∈ parts, H16 part) → c ∉ groups parts := by
    intro parts all member
    obtain ⟨part, present, inside⟩ := List.mem_flatMap.mp member
    rcases List.mem_append.mp inside with inside | inside
    · exact (all part present).absent digit inside
    · exact colon (List.mem_singleton.mp inside)
  have leading : ∀ most front, Leading most front → c ∉ front := by
    rintro most front ⟨parts, -, all, rfl⟩ member
    rcases Slice.mem_intercalate member with separator | ⟨part, present, inside⟩
    · exact colon separator
    · exact (all part present).absent digit inside
  cases address with
  | full count all last => simp [middle _ all, lower _ last]
  | elided count front all last => simp [leading _ _ front, middle _ all, lower _ last, colon]
  | group front last => simp [leading _ _ front, last.absent digit, colon]
  | trailing front => simp [leading _ _ front, colon]

theorem IpvFuture.absent (address : IpvFuture s) (digit : hexDig c = false)
    (other : (unreserved c || subDelim c || c == ':') = false) : c ∉ s := by
  obtain ⟨v, version, rest, letter, -, hex, -, all, rfl⟩ := address
  have dot : c ≠ '.' := by
    rintro rfl
    cases other
  have first : c ≠ v := by
    rintro rfl
    rcases letter with rfl | rfl <;> cases other
  have inVersion : c ∉ version := by
    intro member
    have here := hex c member
    rw [digit] at here
    cases here
  have inRest : c ∉ rest := by
    intro member
    have here := all c member
    rw [other] at here
    cases here
  simp [first, dot, inVersion, inRest]

/-- No text is an address of both kinds. -/
theorem Ipv6address.not_future (address : Ipv6address s) : ¬IpvFuture s := by
  rintro ⟨v, version, rest, letter, -, -, -, -, rfl⟩
  rcases letter with rfl | rfl
  · exact address.absent (c := 'v') rfl (by decide) (by decide) List.mem_cons_self
  · exact address.absent (c := 'V') rfl (by decide) (by decide) List.mem_cons_self

theorem Scheme.absent (scheme : Scheme s)
    (other : (c.isAlphanum || "+-.".toList.contains c) = false) : c ∉ s := by
  obtain ⟨first, rest, letter, all, rfl⟩ := scheme
  intro member
  rcases List.mem_cons.mp member with rfl | member
  · rw [Char.isAlphanum, letter] at other
    cases other
  · have here := all c member
    rw [other] at here
    cases here

theorem UserPrefix.absent (prefixed : UserPrefix s)
    (other : (unreserved c || subDelim c || c == ':') = false) (digit : hexDig c = false)
    (percent : c ≠ '%') (sign : c ≠ '@') : c ∉ s := by
  rcases prefixed with rfl | ⟨user, encoded, rfl⟩
  · exact List.not_mem_nil
  · simp [encoded.absent other digit percent, sign]

theorem PortSuffix.absent (port : PortSuffix s) (digit : c.isDigit = false) (colon : c ≠ ':') :
    c ∉ s := by
  rcases port with rfl | ⟨digits, all, rfl⟩
  · exact List.not_mem_nil
  · intro member
    rcases List.mem_cons.mp member with rfl | member
    · exact colon rfl
    · have here := all c member
      rw [digit] at here
      cases here

section Paths
variable (other : pchar c = false) (digit : hexDig c = false) (percent : c ≠ '%')
include other digit percent

theorem PathAbempty.absent (path : PathAbempty s) (slash : c ≠ '/') : c ∉ s := by
  obtain ⟨segments, all, rfl⟩ := path
  intro member
  obtain ⟨segment, present, inside⟩ := List.mem_flatMap.mp member
  rcases List.mem_cons.mp inside with rfl | inside
  · exact slash rfl
  · exact (all segment present).absent other digit percent inside

theorem PathRootless.absent (path : PathRootless s) (slash : c ≠ '/') : c ∉ s := by
  obtain ⟨segment, rest, -, encoded, path, rfl⟩ := path
  simp [encoded.absent other digit percent, path.absent other digit percent slash]

theorem PathNoscheme.absent (path : PathNoscheme s) (slash : c ≠ '/') : c ∉ s := by
  obtain ⟨segment, rest, -, encoded, path, rfl⟩ := path
  have inSegment : c ∉ segment := by
    refine encoded.absent ?_ digit percent
    simp only [pchar, Bool.or_eq_false_iff] at other ⊢
    exact ⟨⟨other.1.1.1, other.1.1.2⟩, other.2⟩
  simp [inSegment, path.absent other digit percent slash]

theorem PathAbsolute.absent (path : PathAbsolute s) (slash : c ≠ '/') : c ∉ s := by
  rcases path with rfl | ⟨rest, path, rfl⟩
  · simp [slash]
  · simp [slash, path.absent other digit percent slash]

theorem Tail.absent (tail : Tail s) (slash : c ≠ '/') (question : c ≠ '?') (sharp : c ≠ '#') :
    c ∉ s := by
  obtain ⟨query, fragment, queried, marked, rfl⟩ := tail
  have kind : (pchar c || c == '/' || c == '?') = false := by
    simp [other, slash, question]
  have inQuery : c ∉ query := by
    rcases queried with rfl | ⟨q, encoded, rfl⟩
    · exact List.not_mem_nil
    · simp [question, encoded.absent kind digit percent]
  have inFragment : c ∉ fragment := by
    rcases marked with rfl | ⟨f, encoded, rfl⟩
    · exact List.not_mem_nil
    · simp [sharp, encoded.absent kind digit percent]
  simp [inQuery, inFragment]

end Paths

end Characters

/-! ### Hosts in their place -/

/-- What may stand before the host, after what may stand before the slashes. -/
def Before (Lead : List Char → Prop) (s : List Char) : Prop :=
  ∃ lead user, Lead lead ∧ UserPrefix user ∧ s = lead ++ '/' :: '/' :: user

def After (s : List Char) : Prop :=
  ∃ port path tail, PortSuffix port ∧ PathAbempty path ∧ Tail tail ∧ s = port ++ path ++ tail

def SchemeColon (s : List Char) : Prop := ∃ scheme, Scheme scheme ∧ s = scheme ++ [':']

/-- A grammar whose texts have brackets in the host alone, in whose place any
other host may stand. -/
structure Framed (Grammar : (List Char → Prop) → List Char → Option (List Char) → Prop)
    (before after : List Char → Prop) : Prop where
  host : ∀ Host s h, Grammar Host s (some h) ↔
    ∃ front back, before front ∧ Host h ∧ after back ∧ s = front ++ h ++ back
  hostless : ∀ Host Host' s, Grammar Host s none → Grammar Host' s none
  before_plain : ∀ s, before s → '[' ∉ s ∧ ']' ∉ s
  after_plain : ∀ s, after s → '[' ∉ s ∧ ']' ∉ s
  hostless_plain : ∀ Host s, Grammar Host s none → '[' ∉ s

section Frames
variable {s : List Char}

theorem Before.plain {Lead : List Char → Prop} (plain : ∀ s, Lead s → '[' ∉ s ∧ ']' ∉ s)
    (before : Before Lead s) : '[' ∉ s ∧ ']' ∉ s := by
  obtain ⟨lead, user, leads, prefixed, rfl⟩ := before
  obtain ⟨opening, closing⟩ := plain lead leads
  have user₁ : '[' ∉ user := prefixed.absent rfl rfl (by decide) (by decide)
  have user₂ : ']' ∉ user := prefixed.absent rfl rfl (by decide) (by decide)
  simp [opening, closing, user₁, user₂]

theorem After.plain (after : After s) : '[' ∉ s ∧ ']' ∉ s := by
  obtain ⟨port, path, tail, ported, pathed, tailed, rfl⟩ := after
  have opening : '[' ∉ port ++ path ++ tail := by
    have one := ported.absent (c := '[') rfl (by decide)
    have two := PathAbempty.absent (c := '[') rfl rfl (by decide) pathed (by decide)
    have three := Tail.absent (c := '[') rfl rfl (by decide) tailed (by decide) (by decide)
      (by decide)
    simp [one, two, three]
  have closing : ']' ∉ port ++ path ++ tail := by
    have one := ported.absent (c := ']') rfl (by decide)
    have two := PathAbempty.absent (c := ']') rfl rfl (by decide) pathed (by decide)
    have three := Tail.absent (c := ']') rfl rfl (by decide) tailed (by decide) (by decide)
      (by decide)
    simp [one, two, three]
  exact ⟨opening, closing⟩

theorem SchemeColon.plain (leads : SchemeColon s) : '[' ∉ s ∧ ']' ∉ s := by
  obtain ⟨scheme, valid, rfl⟩ := leads
  have opening : '[' ∉ scheme := valid.absent rfl
  have closing : ']' ∉ scheme := valid.absent rfl
  simp [opening, closing]

theorem uri_some {Host : List Char → Prop} {h : List Char} : Uri Host s (some h) ↔
    ∃ front back, Before SchemeColon front ∧ Host h ∧ After back ∧ s = front ++ h ++ back := by
  constructor
  · rintro ⟨scheme, part, tail, valid, hier, tailed, rfl⟩
    cases hier with
    | @authority s host path authority pathed =>
      obtain ⟨user, port, prefixed, hosted, ported, rfl⟩ := authority
      refine ⟨scheme ++ [':'] ++ '/' :: '/' :: user, port ++ path ++ tail,
        ⟨_, user, ⟨scheme, valid, rfl⟩, prefixed, rfl⟩, hosted,
        ⟨port, path, tail, ported, pathed, tailed, rfl⟩, by simp⟩
  · rintro ⟨front, back, ⟨lead, user, ⟨scheme, valid, rfl⟩, prefixed, rfl⟩, hosted,
      ⟨port, path, tail, ported, pathed, tailed, rfl⟩, rfl⟩
    exact ⟨scheme, _, tail, valid, .authority ⟨user, port, prefixed, hosted, ported, rfl⟩ pathed,
      tailed, by simp⟩

theorem relativeRef_some {Host : List Char → Prop} {h : List Char} :
    RelativeRef Host s (some h) ↔
      ∃ front back, Before (· = []) front ∧ Host h ∧ After back ∧ s = front ++ h ++ back := by
  constructor
  · rintro ⟨part, tail, relative, tailed, rfl⟩
    cases relative with
    | @authority s host path authority pathed =>
      obtain ⟨user, port, prefixed, hosted, ported, rfl⟩ := authority
      refine ⟨'/' :: '/' :: user, port ++ path ++ tail, ⟨[], user, rfl, prefixed, rfl⟩, hosted,
        ⟨port, path, tail, ported, pathed, tailed, rfl⟩, by simp⟩
  · rintro ⟨front, back, ⟨lead, user, rfl, prefixed, rfl⟩, hosted,
      ⟨port, path, tail, ported, pathed, tailed, rfl⟩, rfl⟩
    exact ⟨_, tail, .authority ⟨user, port, prefixed, hosted, ported, rfl⟩ pathed, tailed,
      by simp⟩

theorem uri_framed : Framed Uri (Before SchemeColon) After where
  host _ _ _ := uri_some
  hostless Host Host' s := by
    rintro ⟨scheme, part, tail, valid, hier, tailed, rfl⟩
    refine ⟨scheme, part, tail, valid, ?_, tailed, rfl⟩
    cases hier with
    | absolute path => exact .absolute path
    | rootless path => exact .rootless path
    | empty => exact .empty
  before_plain _ before := before.plain fun _ leads => leads.plain
  after_plain _ after := after.plain
  hostless_plain Host s := by
    rintro ⟨scheme, part, tail, valid, hier, tailed, rfl⟩
    have one : '[' ∉ scheme := valid.absent rfl
    have three := Tail.absent (c := '[') rfl rfl (by decide) tailed (by decide) (by decide)
      (by decide)
    have two : '[' ∉ part := by
      cases hier with
      | absolute path => exact PathAbsolute.absent rfl rfl (by decide) path (by decide)
      | rootless path => exact PathRootless.absent rfl rfl (by decide) path (by decide)
      | empty => exact List.not_mem_nil
    simp [one, two, three]

/-- What may stand before the slashes of a reference. -/
def SchemeOrNone (s : List Char) : Prop := SchemeColon s ∨ s = []

theorem reference_framed : Framed Reference (Before SchemeOrNone) After where
  host Host s h := by
    unfold Reference
    rw [uri_some, relativeRef_some]
    constructor
    · rintro (⟨front, back, ⟨lead, user, leads, prefixed, rfl⟩, rest⟩ |
        ⟨front, back, ⟨lead, user, leads, prefixed, rfl⟩, rest⟩)
      · exact ⟨_, back, ⟨lead, user, .inl leads, prefixed, rfl⟩, rest⟩
      · exact ⟨_, back, ⟨lead, user, .inr leads, prefixed, rfl⟩, rest⟩
    · rintro ⟨front, back, ⟨lead, user, leads | leads, prefixed, rfl⟩, rest⟩
      · exact .inl ⟨_, back, ⟨lead, user, leads, prefixed, rfl⟩, rest⟩
      · exact .inr ⟨_, back, ⟨lead, user, leads, prefixed, rfl⟩, rest⟩
  hostless Host Host' s := by
    rintro (uri | ⟨part, tail, relative, tailed, rfl⟩)
    · exact .inl (uri_framed.hostless Host Host' s uri)
    · refine .inr ⟨part, tail, ?_, tailed, rfl⟩
      cases relative with
      | absolute path => exact .absolute path
      | noscheme path => exact .noscheme path
      | empty => exact .empty
  before_plain _ before := by
    refine before.plain fun _ leads => ?_
    rcases leads with leads | rfl
    · exact leads.plain
    · exact ⟨List.not_mem_nil, List.not_mem_nil⟩
  after_plain _ after := after.plain
  hostless_plain Host s := by
    rintro (uri | ⟨part, tail, relative, tailed, rfl⟩)
    · exact uri_framed.hostless_plain Host s uri
    · have two := Tail.absent (c := '[') rfl rfl (by decide) tailed (by decide) (by decide)
        (by decide)
      have one : '[' ∉ part := by
        cases relative with
        | absolute path => exact PathAbsolute.absent rfl rfl (by decide) path (by decide)
        | noscheme path => exact PathNoscheme.absent rfl rfl (by decide) path (by decide)
        | empty => exact List.not_mem_nil
      simp [one, two]

end Frames

/-! ### The host of a text -/

section Unique
variable {s path tail host host' : List Char}

/-- What ends an authority. -/
def Ends (c : Char) : Prop := c = '/' ∨ c = '?' ∨ c = '#'

theorem PathAbempty.starts (pathed : PathAbempty path) : path = [] ∨ ∃ t, path = '/' :: t := by
  obtain ⟨segments, -, rfl⟩ := pathed
  cases segments with
  | nil => exact .inl rfl
  | cons segment segments => exact .inr ⟨_, rfl⟩

theorem Tail.starts (tailed : Tail tail) :
    tail = [] ∨ ∃ c t, tail = c :: t ∧ (c = '?' ∨ c = '#') := by
  obtain ⟨query, fragment, queried, marked, rfl⟩ := tailed
  rcases queried with rfl | ⟨q, -, rfl⟩
  · rcases marked with rfl | ⟨f, -, rfl⟩
    · exact .inl rfl
    · exact .inr ⟨_, _, rfl, .inr rfl⟩
  · exact .inr ⟨_, _, rfl, .inl rfl⟩

theorem path_ends (pathed : PathAbempty path) (tailed : Tail tail) :
    path ++ tail = [] ∨ ∃ c t, path ++ tail = c :: t ∧ Ends c := by
  rcases pathed.starts with rfl | ⟨t, rfl⟩
  · rcases tailed.starts with rfl | ⟨c, t, rfl, stop⟩
    · exact .inl rfl
    · exact .inr ⟨c, t, rfl, .inr stop⟩
  · exact .inr ⟨_, _, rfl, .inl rfl⟩

theorem PathRootless.starts (pathed : PathRootless path) : ∃ c t, path = c :: t ∧ c ≠ '/' := by
  obtain ⟨segment, rest, nonempty, encoded, -, rfl⟩ := pathed
  obtain ⟨c, t, rfl⟩ := List.exists_cons_of_ne_nil nonempty
  refine ⟨c, _, rfl, ?_⟩
  rintro rfl
  exact encoded.absent (c := '/') rfl rfl (by decide) List.mem_cons_self

theorem Tail.no_slash (tailed : Tail tail) : ∀ t, tail ≠ '/' :: t := by
  rintro t rfl
  rcases tailed.starts with empty | ⟨c, t', same, stop⟩
  · cases empty
  · cases same
    rcases stop with stop | stop <;> cases stop

theorem PathNoscheme.starts (pathed : PathNoscheme path) : ∃ c t, path = c :: t ∧ c ≠ '/' := by
  obtain ⟨segment, rest, nonempty, encoded, -, rfl⟩ := pathed
  obtain ⟨c, t, rfl⟩ := List.exists_cons_of_ne_nil nonempty
  refine ⟨c, _, rfl, ?_⟩
  rintro rfl
  exact encoded.absent (c := '/') rfl rfl (by decide) List.mem_cons_self

/-- What stands between the scheme and the query: an authority and a path, or a
path that does not start with two slashes. -/
inductive Part (Host : List Char → Prop) : List Char → Option (List Char) → Prop
  | authority {s host path : List Char} : Authority Host s host → PathAbempty path →
    Part Host ('/' :: '/' :: s ++ path) (some host)
  | absolute {path : List Char} : PathAbsolute path → Part Host path none
  | segment {c : Char} {path : List Char} : c ≠ '/' → Part Host (c :: path) none
  | empty : Part Host [] none

theorem HierPart.part {Host : List Char → Prop} {h : Option (List Char)}
    (hier : HierPart Host s h) : Part Host s h := by
  cases hier with
  | authority authority pathed => exact .authority authority pathed
  | absolute pathed => exact .absolute pathed
  | rootless pathed =>
    obtain ⟨c, t, rfl, other⟩ := pathed.starts
    exact .segment other
  | empty => exact .empty

theorem RelativePart.part {Host : List Char → Prop} {h : Option (List Char)}
    (relative : RelativePart Host s h) : Part Host s h := by
  cases relative with
  | authority authority pathed => exact .authority authority pathed
  | absolute pathed => exact .absolute pathed
  | noscheme pathed =>
    obtain ⟨c, t, rfl, other⟩ := pathed.starts
    exact .segment other
  | empty => exact .empty

/-- A path without an authority does not start with two slashes. -/
theorem Part.slashes {Host : List Char → Prop} (part : Part Host path none) (tailed : Tail tail) :
    ∀ t, path ++ tail ≠ '/' :: '/' :: t := by
  intro t same
  cases part with
  | absolute pathed =>
    rcases pathed with rfl | ⟨rest, rootless, rfl⟩
    · rw [List.singleton_append, List.cons.injEq] at same
      exact tailed.no_slash t same.2
    · obtain ⟨c, t', rfl, other⟩ := rootless.starts
      rw [List.cons_append, List.cons_append, List.cons.injEq, List.cons.injEq] at same
      exact other same.2.1
  | segment other =>
    rw [List.cons_append, List.cons.injEq] at same
    exact other same.1
  | empty => exact tailed.no_slash _ same

/-- A host is in brackets, or without a bracket and a colon. -/
theorem Host.shape (valid : Host host) : '@' ∉ host ∧ (∀ c ∈ host, ¬Ends c) ∧
    ((∃ address, ']' ∉ address ∧ host = '[' :: (address ++ [']'])) ∨
      ('[' ∉ host ∧ ':' ∉ host)) := by
  have ends : ('/' ∉ host ∧ '?' ∉ host ∧ '#' ∉ host) → ∀ c ∈ host, ¬Ends c := by
    rintro ⟨slash, question, sharp⟩ c member (rfl | rfl | rfl)
    · exact slash member
    · exact question member
    · exact sharp member
  rcases valid with ⟨address, ipv6 | future, rfl⟩ | ipv4 | name
  · have absent : ∀ c, hexDig c = false → c ≠ '.' → c ≠ ':' → c ∉ address :=
      fun c digit dot colon => ipv6.absent digit dot colon
    have sign := absent '@' rfl (by decide) (by decide)
    have slash := absent '/' rfl (by decide) (by decide)
    have question := absent '?' rfl (by decide) (by decide)
    have sharp := absent '#' rfl (by decide) (by decide)
    have closing := absent ']' rfl (by decide) (by decide)
    exact ⟨by simp [sign], ends ⟨by simp [slash], by simp [question], by simp [sharp]⟩,
      .inl ⟨address, closing, rfl⟩⟩
  · have sign : '@' ∉ address := future.absent rfl rfl
    have slash : '/' ∉ address := future.absent rfl rfl
    have question : '?' ∉ address := future.absent rfl rfl
    have sharp : '#' ∉ address := future.absent rfl rfl
    have closing : ']' ∉ address := future.absent rfl rfl
    exact ⟨by simp [sign], ends ⟨by simp [slash], by simp [question], by simp [sharp]⟩,
      .inl ⟨address, closing, rfl⟩⟩
  · have absent : ∀ c : Char, c.isDigit = false → c ≠ '.' → c ∉ host := fun c digit dot =>
      ipv4.absent digit dot
    exact ⟨absent '@' rfl (by decide), ends ⟨absent '/' rfl (by decide), absent '?' rfl (by decide),
      absent '#' rfl (by decide)⟩, .inr ⟨absent '[' rfl (by decide), absent ':' rfl (by decide)⟩⟩
  · exact ⟨name.absent rfl rfl (by decide), ends ⟨name.absent rfl rfl (by decide),
      name.absent rfl rfl (by decide), name.absent rfl rfl (by decide)⟩,
      .inr ⟨name.absent rfl rfl (by decide), name.absent rfl rfl (by decide)⟩⟩

theorem PortSuffix.starts {port : List Char} (ported : PortSuffix port) :
    port = [] ∨ ∃ c t, port = c :: t ∧ c = ':' := by
  rcases ported with rfl | ⟨digits, -, rfl⟩
  · exact .inl rfl
  · exact .inr ⟨_, _, rfl, rfl⟩

/-- A host is split from the port after it in one way. -/
theorem host_port_unique {port port' : List Char} (valid : Host host) (valid' : Host host')
    (ported : PortSuffix port) (ported' : PortSuffix port')
    (same : host ++ port = host' ++ port') : host = host' := by
  have mixed : ∀ {host host' port port' : List Char}, PortSuffix port' → '[' ∉ host' →
      (∃ address, ']' ∉ address ∧ host = '[' :: (address ++ [']'])) →
      host ++ port = host' ++ port' → False := by
    rintro host host' port port' ported' opening ⟨address, -, rfl⟩ same
    cases host' with
    | nil =>
      rcases ported'.starts with rfl | ⟨c, t, rfl, rfl⟩
      · cases same
      · cases same
    | cons c host' =>
      rw [List.cons_append, List.cons_append, List.cons.injEq] at same
      rw [← same.1] at opening
      exact opening List.mem_cons_self
  rcases valid.shape.2.2 with literal | ⟨opening, colon⟩
  · rcases valid'.shape.2.2 with literal' | ⟨opening', -⟩
    · obtain ⟨address, closing, rfl⟩ := literal
      obtain ⟨address', closing', rfl⟩ := literal'
      have split : address ++ ']' :: port = address' ++ ']' :: port' := by
        simpa using same
      rw [(Slice.first_split split closing closing').1]
    · exact (mixed ported' opening' literal same).elim
  · rcases valid'.shape.2.2 with literal' | ⟨-, colon'⟩
    · exact (mixed ported opening literal' same.symm).elim
    · refine (Slice.stop_split (· = ':') same ?_ ?_ ported.starts ported'.starts).1
      · rintro c member rfl
        exact colon member
      · rintro c member rfl
        exact colon' member

/-- An authority has one host. -/
theorem authority_unique (authority : Authority Host s host) (other : Authority Host s host') :
    host = host' := by
  obtain ⟨user, port, prefixed, valid, ported, rfl⟩ := authority
  obtain ⟨user', port', prefixed', valid', ported', same⟩ := other
  have unsigned : '@' ∉ host ++ port := by
    have one := valid.shape.1
    have two := ported.absent (c := '@') rfl (by decide)
    simp [one, two]
  have unsigned' : '@' ∉ host' ++ port' := by
    have one := valid'.shape.1
    have two := ported'.absent (c := '@') rfl (by decide)
    simp [one, two]
  rw [List.append_assoc, List.append_assoc] at same
  have hosts : host ++ port = host' ++ port' := by
    rcases prefixed with rfl | ⟨u, encoded, rfl⟩
    · rcases prefixed' with rfl | ⟨u', encoded', rfl⟩
      · exact same
      · rw [List.nil_append] at same
        rw [same] at unsigned
        exact absurd (by simp) unsigned
    · rcases prefixed' with rfl | ⟨u', encoded', rfl⟩
      · rw [List.nil_append] at same
        rw [← same] at unsigned'
        exact absurd (by simp) unsigned'
      · have split : u ++ '@' :: (host ++ port) = u' ++ '@' :: (host' ++ port') := by
          simpa using same
        exact (Slice.first_split split (encoded.absent rfl rfl (by decide))
          (encoded'.absent rfl rfl (by decide))).2
  exact host_port_unique valid valid' ported ported' hosts

theorem Authority.ends (authority : Authority Host s host) : ∀ c ∈ s, ¬Ends c := by
  obtain ⟨user, port, prefixed, valid, ported, rfl⟩ := authority
  intro c member stop
  rw [List.mem_append, List.mem_append] at member
  rcases member with (member | member) | member
  · have other : ∀ c, Ends c → c ∉ user := by
      rintro c (rfl | rfl | rfl) <;> exact prefixed.absent rfl rfl (by decide) (by decide)
    exact other c stop member
  · exact valid.shape.2.1 c member stop
  · have other : ∀ c, Ends c → c ∉ port := by
      rintro c (rfl | rfl | rfl) <;> exact ported.absent rfl (by decide)
    exact other c stop member

/-- What follows two slashes has one host. -/
theorem slashes_unique {a a' path' tail' : List Char} (authority : Authority Host a host)
    (authority' : Authority Host a' host') (pathed : PathAbempty path)
    (pathed' : PathAbempty path') (tailed : Tail tail) (tailed' : Tail tail')
    (same : a ++ path ++ tail = a' ++ path' ++ tail') : host = host' := by
  rw [List.append_assoc, List.append_assoc] at same
  obtain ⟨rfl, -⟩ := Slice.stop_split _ same authority.ends authority'.ends
    (path_ends pathed tailed) (path_ends pathed' tailed')
  exact authority_unique authority authority'

theorem part_unique {part part' tail' : List Char} {h h' : Option (List Char)}
    (one : Part Host part h) (other : Part Host part' h') (tailed : Tail tail)
    (tailed' : Tail tail') (same : part ++ tail = part' ++ tail') : h = h' := by
  cases h with
  | none =>
    cases h' with
    | none => rfl
    | some host' =>
      cases other with
      | authority authority pathed =>
        exact absurd (same.trans (by simp; rfl)) (one.slashes tailed _)
  | some host =>
    cases one with
    | @authority a _ path authority pathed =>
      cases h' with
      | none => exact absurd (same.symm.trans (by simp; rfl)) (other.slashes tailed' _)
      | some host' =>
        cases other with
        | @authority a' _ path' authority' pathed' =>
          have rest : a ++ path ++ tail = a' ++ path' ++ tail' := by
            simpa using same
          rw [slashes_unique authority authority' pathed pathed' tailed tailed' rest]

/-- A URI has one host, or none. -/
theorem uri_unique {h h' : Option (List Char)} (uri : Uri Host s h) (uri' : Uri Host s h') :
    h = h' := by
  obtain ⟨scheme, part, tail, valid, hier, tailed, rfl⟩ := uri
  obtain ⟨scheme', part', tail', valid', hier', tailed', same⟩ := uri'
  have split : scheme ++ ':' :: (part ++ tail) = scheme' ++ ':' :: (part' ++ tail') := by
    simpa using same
  have parts := (Slice.first_split split (valid.absent rfl) (valid'.absent rfl)).2
  exact part_unique hier.part hier'.part tailed tailed' parts

/-- A relative reference does not start as a URI does. -/
theorem relativeRef_not_uri {h h' : Option (List Char)} (relative : RelativeRef Host s h)
    (uri : Uri Host s h') : False := by
  obtain ⟨scheme, hier, end', valid, -, -, rfl⟩ := uri
  obtain ⟨part, tail, relative, tailed, same⟩ := relative
  obtain ⟨c, rest, letter, -, shape⟩ := id valid
  have first : ∀ d t, part ++ tail = d :: t → d.isAlpha = true := by
    intro d t starts
    rw [← same, shape] at starts
    cases starts
    exact letter
  cases relative with
  | authority authority pathed => exact absurd (first '/' _ rfl) (by decide)
  | absolute pathed =>
    rcases pathed with rfl | ⟨rest, -, rfl⟩
    · exact absurd (first '/' _ rfl) (by decide)
    · exact absurd (first '/' _ rfl) (by decide)
  | noscheme pathed =>
    obtain ⟨segment, path, -, encoded, pathed, rfl⟩ := pathed
    have split : scheme ++ ':' :: (hier ++ end') = segment ++ (path ++ tail) := by
      simpa using same
    have stops := path_ends pathed tailed
    -- A scheme and a first segment end at the same colon or slash.
    have parts := Slice.stop_split (fun c => c = ':' ∨ Ends c) split ?_ ?_
      (.inr ⟨':', _, rfl, .inl rfl⟩)
      (stops.imp_right fun ⟨c, t, shape, stop⟩ => ⟨c, t, shape, .inr stop⟩)
    · rcases stops with empty | ⟨d, t, starts, stop⟩
      · rw [empty] at parts
        cases parts.2
      · rw [starts, List.cons.injEq] at parts
        rcases parts.2.1 ▸ stop with stop | stop | stop <;> exact absurd stop (by decide)
    · rintro d member (rfl | rfl | rfl | rfl) <;> exact valid.absent rfl member
    · rintro d member (rfl | rfl | rfl | rfl) <;>
        exact encoded.absent rfl rfl (by decide) member
  | empty =>
    rcases tailed.starts with rfl | ⟨d, t, rfl, stop⟩
    · rw [shape] at same
      cases same
    · have letter := first d t rfl
      rcases stop with rfl | rfl <;> exact absurd letter (by decide)

/-- A reference has one host, or none. -/
theorem reference_unique {h h' : Option (List Char)} (reference : Reference Host s h)
    (other : Reference Host s h') : h = h' := by
  rcases reference with uri | relative
  · rcases other with uri' | relative'
    · exact uri_unique uri uri'
    · exact (relativeRef_not_uri relative' uri).elim
  · rcases other with uri' | relative'
    · exact (relativeRef_not_uri relative uri').elim
    · obtain ⟨part, tail, relative, tailed, rfl⟩ := relative
      obtain ⟨part', tail', relative', tailed', same⟩ := relative'
      exact part_unique relative.part relative'.part tailed tailed' same

end Unique

end Rfc3986
