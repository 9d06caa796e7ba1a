import Protovalidate.Lib.Rfc3986

/-!
# URIs and URI references

They follow RFC 3986 with two additions: an IPv6 literal may carry a zone ID,
which is cut out before the text is parsed, and the percent-encoded octets of a
host name or zone ID must form valid UTF-8.
-/

namespace Protovalidate

/-- The URI parsers, which give the host of what they accept, and the decoder of
percent-encoded octets. -/
structure UriParser where
  uri : List Char → Option (Option (List Char))
  reference : List Char → Option (Option (List Char))
  percentDecode : List Char → List UInt8

/-- The parsers accept the grammar and give the host, and the decoder decodes the
triplets. -/
structure UriParser.Conforms (parser : UriParser) : Prop where
  uri : ∀ s host, parser.uri s = some host ↔ Rfc3986.Uri Rfc3986.Host s host
  reference : ∀ s host, parser.reference s = some host ↔ Rfc3986.Reference Rfc3986.Host s host
  decode : ∀ s, parser.percentDecode s = Rfc3986.octets s

namespace WellKnown
variable (parser : UriParser)

/-- Whether the percent-encoded octets of a text, whose triplets are already
known to be well-formed, decode to UTF-8. -/
def decodesToUtf8 (text : List Char) : Bool := (parser.percentDecode text).toByteArray.validateUTF8

def isUnreserved (b : UInt8) : Bool :=
  Slice.isAsciiAlphanumeric b || b == Slice.byte '-' || b == Slice.byte '_' ||
    b == Slice.byte '.' || b == Slice.byte '~'

def isAsciiHexdigit (b : UInt8) : Bool :=
  Slice.isAsciiDigit b || (decide (97 ≤ b.toNat) && decide (b.toNat ≤ 102)) ||
    (decide (65 ≤ b.toNat) && decide (b.toNat ≤ 70))

/-- The loop over the bytes of a zone ID. -/
def zoneBytes : List UInt8 → Bool
  | b :: x :: y :: rest =>
    if b == Slice.byte '%' && isAsciiHexdigit x && isAsciiHexdigit y then zoneBytes rest
    else isUnreserved b && zoneBytes (x :: y :: rest)
  | b :: rest => isUnreserved b && zoneBytes rest
  | [] => true

def isZoneId (zone : List Char) : Bool :=
  !zone.isEmpty && zoneBytes (Slice.bytes zone) && decodesToUtf8 parser zone

/-- The text with the zone ID of its first brackets removed, `none` for a bad zone
ID; the outer `none` where a slice is out of range. -/
def withoutZoneId (s : List Char) : Option (Option (List Char)) :=
  match Slice.find '[' s with
  | none => some (some s)
  | some opening => do
    let literal ← Slice.range s opening (Slice.len s)
    match Slice.find ']' literal with
    | none => return none
    | some offset =>
      let close := opening + offset
      let inner ← Slice.range s (opening + 1) close
      match Slice.splitOnce ['%', '2', '5'] inner with
      | none => return some s
      | some (address, zone) =>
        if isZoneId parser zone then
          let before ← Slice.range s 0 (opening + 1)
          let after ← Slice.range s close (Slice.len s)
          return some (before ++ address ++ after)
        else return none

/-- A registered name's percent-encoded octets must be UTF-8; IP literals are in
brackets. -/
def isHostUtf8 (host : List Char) : Bool := host.head? == some '[' || decodesToUtf8 parser host

/-- Whether a parser accepts the text without its zone ID, and its host is UTF-8. -/
def isParsed (parse : List Char → Option (Option (List Char))) (s : List Char) : Option Bool := do
  match ← withoutZoneId parser s with
  | none => return false
  | some s =>
    match parse s with
    | none => return false
    | some host => return host.all (isHostUtf8 parser)

def isUri (s : List Char) : Option Bool := isParsed parser parser.uri s

def isUriRef (s : List Char) : Option Bool := isParsed parser parser.reference s

/-! ### The grammar with its additions -/

open Rfc3986

/-- `ZoneID = 1*( unreserved / pct-encoded )`, with the octets valid UTF-8. -/
structure ZoneId (zone : List Char) : Prop where
  nonempty : zone ≠ []
  encoded : Encoded unreserved zone
  utf8 : Utf8 zone

/-- An address in brackets with a zone ID. -/
def Zoned (Address : List Char → Prop) (host : List Char) : Prop :=
  ∃ address zone, Address address ∧ ZoneId zone ∧
    host = '[' :: (address ++ '%' :: '2' :: '5' :: zone) ++ [']']

/-- A host of RFC 3986 whose registered name is UTF-8. -/
def Utf8Host (host : List Char) : Prop :=
  IpLiteral host ∨ Ipv4address host ∨ (RegName host ∧ Utf8 host)

/-- A host with both additions. -/
def ZonedHost (host : List Char) : Prop := Utf8Host host ∨ Zoned Ipv6address host

/-! ### Zone IDs -/

section Zones
variable {s zone : List Char} {b : UInt8}

theorem ascii_unreserved : Slice.Ascii isUnreserved unreserved where
  small c small := by
    have same : ∀ d : Char, d.toNat < 128 → (Slice.byte c == Slice.byte d) = (c == d) := by
      intro d small'
      rw [Bool.eq_iff_iff, beq_iff_eq, beq_iff_eq]
      exact Slice.byte_inj small small'
    rw [isUnreserved, Slice.ascii_alphanumeric.small c small, same '-' (by decide),
      same '_' (by decide), same '.' (by decide), same '~' (by decide), unreserved, Bool.eq_iff_iff]
    simp only [Bool.or_eq_true, beq_iff_eq, List.contains_iff_mem]
    have listed : c ∈ "-._~".toList ↔ c = '-' ∨ c = '.' ∨ c = '_' ∨ c = '~' := by simp
    rw [listed]
    constructor
    · rintro ((((letter | hyphen) | low) | dot) | tilde)
      · exact .inl letter
      · exact .inr (.inl hyphen)
      · exact .inr (.inr (.inr (.inl low)))
      · exact .inr (.inr (.inl dot))
      · exact .inr (.inr (.inr (.inr tilde)))
    · rintro (letter | hyphen | dot | low | tilde)
      · exact .inl (.inl (.inl (.inl letter)))
      · exact .inl (.inl (.inl (.inr hyphen)))
      · exact .inl (.inr dot)
      · exact .inl (.inl (.inr low))
      · exact .inr tilde
  bytes b large := by
    have other : ∀ d : Char, d.toNat < 128 → (b == Slice.byte d) = false := by
      intro d small
      rw [beq_eq_false_iff_ne]
      rintro rfl
      rw [Slice.byte_toNat small] at large
      omega
    rw [isUnreserved, Slice.ascii_alphanumeric.bytes b large, other '-' (by decide),
      other '_' (by decide), other '.' (by decide), other '~' (by decide)]
    rfl
  chars c large := by
    rw [unreserved, Slice.ascii_alphanumeric.chars c large, Bool.false_or]
    have listed : c ∈ "-._~".toList ↔ c = '-' ∨ c = '.' ∨ c = '_' ∨ c = '~' := by simp
    rw [← Bool.not_eq_true, List.contains_iff_mem, listed]
    rintro (rfl | rfl | rfl | rfl) <;> exact absurd large (by decide)

theorem ascii_hexdigit : Slice.Ascii isAsciiHexdigit hexDig where
  small c small := by
    have same : c.toNat = c.val.toNat := rfl
    have digit := Slice.ascii_digit.small c small
    simp only [isAsciiHexdigit, digit, hexDig, Slice.byte_toNat small, Char.le_def,
      UInt32.le_iff_toNat_le, same]
    rfl
  bytes b large := by
    have digit := Slice.ascii_digit.bytes b large
    simp only [isAsciiHexdigit, digit, Bool.false_or, Bool.or_eq_false_iff, Bool.and_eq_false_iff,
      decide_eq_false_iff_not]
    omega
  chars c large := by
    have same : c.toNat = c.val.toNat := rfl
    have digit := Slice.ascii_digit.chars c large
    have lower : 'f'.val.toNat = 102 := rfl
    have upper : 'F'.val.toNat = 70 := rfl
    simp only [hexDig, digit, Bool.false_or, Char.le_def, UInt32.le_iff_toNat_le,
      Bool.or_eq_false_iff, Bool.and_eq_false_iff, decide_eq_false_iff_not]
    omega

/-- A byte that is no percent sign stands for itself. -/
theorem zoneBytes_cons {rest : List UInt8} (other : b ≠ Slice.byte '%') :
    zoneBytes (b :: rest) = (isUnreserved b && zoneBytes rest) := by
  have sign : (b == Slice.byte '%') = false := beq_eq_false_iff_ne.mpr other
  cases rest with
  | nil => rfl
  | cons x rest =>
    cases rest with
    | nil => rfl
    | cons y rest => simp [zoneBytes, sign]

theorem zoneBytes_percent {rest : List UInt8} :
    zoneBytes (Slice.byte '%' :: rest) = true ↔
      ∃ x y more, rest = x :: y :: more ∧ isAsciiHexdigit x = true ∧ isAsciiHexdigit y = true ∧
        zoneBytes more = true := by
  have reserved : isUnreserved (Slice.byte '%') = false := by decide
  cases rest with
  | nil => simp [zoneBytes, reserved]
  | cons x rest =>
    cases rest with
    | nil => simp [zoneBytes, reserved]
    | cons y rest =>
      simp only [zoneBytes, BEq.rfl, Bool.true_and, reserved, Bool.false_and, List.cons.injEq]
      by_cases digits : (isAsciiHexdigit x && isAsciiHexdigit y) = true
      · rw [if_pos digits]
        rw [Bool.and_eq_true] at digits
        constructor
        · intro accepted
          exact ⟨x, y, rest, ⟨rfl, rfl, rfl⟩, digits.1, digits.2, accepted⟩
        · rintro ⟨x', y', more, ⟨rfl, rfl, rfl⟩, -, -, accepted⟩
          exact accepted
      · rw [if_neg digits]
        rw [Bool.and_eq_true] at digits
        constructor
        · intro accepted
          cases accepted
        · rintro ⟨x', y', more, ⟨rfl, rfl, rfl⟩, first, second, -⟩
          exact absurd ⟨first, second⟩ digits

/-- A byte that is a hexadecimal digit is a character. -/
theorem bytes_hexdigit {x : UInt8} {rest : List UInt8} (shape : Slice.bytes s = x :: rest)
    (digit : isAsciiHexdigit x = true) :
    ∃ c s', s = c :: s' ∧ hexDig c = true ∧ rest = Slice.bytes s' := by
  cases s with
  | nil => cases shape
  | cons c s =>
    rw [Slice.bytes_cons] at shape
    rcases Slice.encode_cases c with ⟨small, encoded⟩ | ⟨large, encoded⟩
    · rw [encoded, List.singleton_append] at shape
      cases shape
      rw [ascii_hexdigit.small c small] at digit
      exact ⟨c, s, rfl, digit, rfl⟩
    · obtain ⟨b, more, bytes⟩ := List.exists_cons_of_ne_nil (@String.utf8EncodeChar_ne_nil c)
      rw [bytes, List.cons_append] at shape
      cases shape
      rw [ascii_hexdigit.bytes x (encoded x (by simp [bytes]))] at digit
      cases digit

theorem bytes_cons_hexdigit {c : Char} (digit : hexDig c = true) :
    Slice.bytes (c :: s) = Slice.byte c :: Slice.bytes s ∧
      isAsciiHexdigit (Slice.byte c) = true := by
  rcases Slice.encode_cases c with ⟨small, encoded⟩ | ⟨large, -⟩
  · exact ⟨by rw [Slice.bytes_cons, encoded, List.singleton_append],
      (ascii_hexdigit.small c small).trans digit⟩
  · rw [ascii_hexdigit.chars c large] at digit
    cases digit

/-- The loop accepts the characters and octets of a zone ID. -/
theorem zoneBytes_iff : zoneBytes (Slice.bytes s) = true ↔ Encoded unreserved s := by
  have percent : Slice.bytes ['%'] = [Slice.byte '%'] := by decide
  induction length : s.length using Nat.strongRecOn generalizing s with
  | ind n ih =>
    cases s with
    | nil => exact ⟨fun _ => .nil, fun _ => rfl⟩
    | cons c t =>
      by_cases sign : c = '%'
      · subst sign
        have bytes : Slice.bytes ('%' :: t) = Slice.byte '%' :: Slice.bytes t := by
          rw [← List.singleton_append, Slice.bytes_append, percent, List.singleton_append]
        rw [bytes, zoneBytes_percent]
        constructor
        · rintro ⟨x, y, more, shape, first, second, accepted⟩
          obtain ⟨a, t', rfl, hexA, rest⟩ := bytes_hexdigit shape first
          obtain ⟨b, t'', rfl, hexB, rfl⟩ := bytes_hexdigit rest.symm second
          have shorter : t''.length < n := by
            simp only [List.length_cons] at length
            omega
          exact .octet hexA hexB ((ih _ shorter rfl).mp accepted)
        · intro encoded
          cases encoded with
          | char here _ => cases here
          | @octet a b t' hexA hexB encoded =>
            have shorter : t'.length < n := by
              simp only [List.length_cons] at length
              omega
            obtain ⟨outer, first⟩ := bytes_cons_hexdigit (s := b :: t') hexA
            obtain ⟨inner, second⟩ := bytes_cons_hexdigit (s := t') hexB
            exact ⟨_, _, _, outer.trans (by rw [inner]), first, second,
              (ih _ shorter rfl).mpr encoded⟩
      · have shorter : t.length < n := by
          simp only [List.length_cons] at length
          omega
        have inversion : Encoded unreserved (c :: t) ↔
            unreserved c = true ∧ Encoded unreserved t := by
          constructor
          · intro encoded
            cases encoded with
            | char here rest => exact ⟨here, rest⟩
            | octet _ _ _ => exact absurd rfl sign
          · rintro ⟨here, rest⟩
            exact .char here rest
        rw [inversion, Slice.bytes_cons]
        rcases Slice.encode_cases c with ⟨small, encoded⟩ | ⟨large, encoded⟩
        · have other : Slice.byte c ≠ Slice.byte '%' := fun same =>
            sign ((Slice.byte_inj small (by decide)).mp same)
          have tail : zoneBytes (Slice.bytes t) = true ↔ Encoded unreserved t := ih _ shorter rfl
          rw [encoded, List.singleton_append, zoneBytes_cons other, Bool.and_eq_true,
            ascii_unreserved.small c small, tail]
        · obtain ⟨b, more, bytes⟩ := List.exists_cons_of_ne_nil (@String.utf8EncodeChar_ne_nil c)
          have first : 128 ≤ b.toNat := encoded b (by simp [bytes])
          have other : b ≠ Slice.byte '%' := by
            rintro rfl
            exact absurd first (by decide)
          rw [bytes, List.cons_append, zoneBytes_cons other, ascii_unreserved.bytes b first,
            ascii_unreserved.chars c large]
          simp

end Zones

section Decoding
variable {parser} (conforms : parser.Conforms) {s zone host : List Char}
include conforms

theorem decodesToUtf8_iff : decodesToUtf8 parser s = true ↔ Utf8 s := by
  rw [decodesToUtf8, conforms.decode, ByteArray.validateUTF8_eq_true_iff]
  rfl

theorem isZoneId_iff : isZoneId parser zone = true ↔ ZoneId zone := by
  rw [isZoneId, Bool.and_eq_true, Bool.and_eq_true, Bool.not_eq_true', zoneBytes_iff,
    decodesToUtf8_iff conforms, List.isEmpty_eq_false_iff]
  constructor
  · rintro ⟨⟨nonempty, encoded⟩, utf8⟩
    exact ⟨nonempty, encoded, utf8⟩
  · rintro ⟨nonempty, encoded, utf8⟩
    exact ⟨⟨nonempty, encoded⟩, utf8⟩

omit conforms in
theorem octets_plain (absent : '%' ∉ s) : octets s = Slice.bytes s := by
  induction s with
  | nil => rfl
  | cons c s ih =>
    rw [List.mem_cons, not_or] at absent
    rw [octets, ih absent.2, Slice.bytes_cons]
    intro a b rest sign shape
    exact absurd sign.symm absent.1

omit conforms in
/-- A text without a percent sign is UTF-8 as it is. -/
theorem utf8_plain (absent : '%' ∉ s) : Utf8 s := by
  rw [Utf8, octets_plain absent]
  exact ByteArray.isValidUTF8_utf8Encode

/-- The host that is checked for UTF-8. -/
theorem checked_host : (Host host ∧ isHostUtf8 parser host = true) ↔ Utf8Host host := by
  rw [isHostUtf8, Bool.or_eq_true, beq_iff_eq, decodesToUtf8_iff conforms]
  constructor
  · rintro ⟨literal | ipv4 | name, checked⟩
    · exact .inl literal
    · exact .inr (.inl ipv4)
    · refine .inr (.inr ⟨name, checked.resolve_left fun opening => ?_⟩)
      exact name.absent (c := '[') rfl rfl (by decide) (List.mem_of_mem_head? opening)
  · rintro (literal | ipv4 | ⟨name, utf8⟩)
    · refine ⟨.inl literal, .inl ?_⟩
      obtain ⟨address, -, rfl⟩ := literal
      rfl
    · exact ⟨.inr (.inl ipv4), .inr (utf8_plain (ipv4.absent rfl (by decide)))⟩
    · exact ⟨.inr (.inr name), .inr utf8⟩

end Decoding

/-! ### The cut -/

section Cut
variable {parser} {s front inner address zone back rest : List Char}

theorem withoutZoneId_plain (absent : '[' ∉ s) : withoutZoneId parser s = some (some s) := by
  rw [withoutZoneId, Slice.find_eq_none.mpr absent]

theorem withoutZoneId_open (first : '[' ∉ front) (absent : ']' ∉ rest) :
    withoutZoneId parser (front ++ '[' :: rest) = some none := by
  have unclosed : Slice.find ']' ('[' :: rest) = none :=
    Slice.find_eq_none.mpr (by simp [absent])
  rw [withoutZoneId, Slice.find_append first]
  dsimp only
  rw [Slice.range_suffix, Option.bind_eq_bind, Option.bind_some, unclosed]
  rfl

theorem opened_len : Slice.len (front ++ ['[']) = Slice.len front + 1 := by
  rw [Slice.len_append]
  rfl

theorem range_inside : Slice.range (front ++ '[' :: (inner ++ ']' :: back)) (Slice.len front + 1)
    (Slice.len front + (1 + Slice.len inner)) = some inner := by
  have part := Slice.range_append (front ++ ['[']) inner (']' :: back)
  rw [opened_len, Nat.add_assoc] at part
  simpa using part

theorem range_before :
    Slice.range (front ++ '[' :: (inner ++ ']' :: back)) 0 (Slice.len front + 1) =
      some (front ++ ['[']) := by
  have part := Slice.range_prefix (a := front ++ ['[']) (b := inner ++ ']' :: back)
  rw [opened_len] at part
  simpa using part

theorem range_after : Slice.range (front ++ '[' :: (inner ++ ']' :: back))
    (Slice.len front + (1 + Slice.len inner))
    (Slice.len (front ++ '[' :: (inner ++ ']' :: back))) = some (']' :: back) := by
  have closed : Slice.len (front ++ '[' :: inner) = Slice.len front + (1 + Slice.len inner) := by
    rw [Slice.len_append, Slice.len_cons]
    rfl
  have part := Slice.range_suffix (a := front ++ '[' :: inner) (b := ']' :: back)
  rw [closed] at part
  simpa using part

variable (parser) in
/-- The text between the first bracket and the one that closes it is looked at. -/
theorem withoutZoneId_closed (first : '[' ∉ front) (absent : ']' ∉ inner)
    (whole : s = front ++ '[' :: (inner ++ ']' :: back)) :
    (Slice.splitOnce ['%', '2', '5'] inner = none → withoutZoneId parser s = some (some s)) ∧
    ∀ address zone, Slice.splitOnce ['%', '2', '5'] inner = some (address, zone) →
      withoutZoneId parser s =
        some (if isZoneId parser zone then some (front ++ '[' :: (address ++ ']' :: back))
          else none) := by
  subst whole
  have one : '['.utf8Size = 1 := by decide
  have literal : Slice.range (front ++ '[' :: (inner ++ ']' :: back)) (Slice.len front)
      (Slice.len (front ++ '[' :: (inner ++ ']' :: back))) = some ('[' :: (inner ++ ']' :: back)) :=
    Slice.range_suffix
  have closing : Slice.find ']' ('[' :: (inner ++ ']' :: back)) = some (1 + Slice.len inner) := by
    rw [← List.cons_append, Slice.find_append (by simp [absent]), Slice.len_cons, one]
  constructor
  · intro split
    rw [withoutZoneId, Slice.find_append first]
    dsimp only
    rw [literal, Option.bind_eq_bind, Option.bind_some, closing]
    dsimp only
    rw [range_inside, Option.bind_some, split]
    rfl
  · intro address zone split
    rw [withoutZoneId, Slice.find_append first]
    dsimp only
    rw [literal, Option.bind_eq_bind, Option.bind_some, closing]
    dsimp only
    rw [range_inside, Option.bind_some, split]
    dsimp only
    by_cases valid : isZoneId parser zone = true
    · rw [if_pos valid, if_pos valid, range_before, range_after]
      simp
    · rw [if_neg valid, if_neg valid]
      rfl

end Cut

/-! ### Brackets -/

/-- A host with a bracket is in brackets, and has no others. -/
def Bracketed (Host : List Char → Prop) : Prop :=
  ∀ host, Host host → '[' ∈ host →
    ∃ inner, '[' ∉ inner ∧ ']' ∉ inner ∧ host = '[' :: (inner ++ [']'])

theorem literal_plain {address : List Char} (literal : Ipv6address address ∨ IpvFuture address) :
    '[' ∉ address ∧ ']' ∉ address ∧ '%' ∉ address := by
  rcases literal with ipv6 | future
  · exact ⟨ipv6.absent rfl (by decide) (by decide), ipv6.absent rfl (by decide) (by decide),
      ipv6.absent rfl (by decide) (by decide)⟩
  · exact ⟨future.absent rfl rfl, future.absent rfl rfl, future.absent rfl rfl⟩

theorem utf8Host_literal {host : List Char} (valid : Utf8Host host) (opening : '[' ∈ host) :
    IpLiteral host := by
  rcases valid with literal | ipv4 | ⟨name, -⟩
  · exact literal
  · exact absurd opening (ipv4.absent rfl (by decide))
  · exact absurd opening (name.absent rfl rfl (by decide))

theorem bracketed_utf8Host : Bracketed Utf8Host := by
  intro host valid opening
  obtain ⟨address, literal, rfl⟩ := utf8Host_literal valid opening
  obtain ⟨one, two, -⟩ := literal_plain literal
  exact ⟨address, one, two, rfl⟩

theorem bracketed_zoned {Address : List Char → Prop}
    (plain : ∀ address, Address address → Ipv6address address ∨ IpvFuture address) :
    Bracketed (Zoned Address) := by
  rintro host ⟨address, zone, valid, zoned, rfl⟩ -
  obtain ⟨one, two, -⟩ := literal_plain (plain address valid)
  have three : '[' ∉ zone := zoned.encoded.absent rfl rfl (by decide)
  have four : ']' ∉ zone := zoned.encoded.absent rfl rfl (by decide)
  exact ⟨_, by simp [one, three], by simp [two, four], rfl⟩

theorem bracketed_zonedHost : Bracketed ZonedHost := by
  rintro host (valid | zoned) opening
  · exact bracketed_utf8Host host valid opening
  · exact bracketed_zoned (fun _ => .inl) host zoned opening

theorem utf8Host_iff {address : List Char} : Utf8Host ('[' :: (address ++ [']'])) ↔
    Ipv6address address ∨ IpvFuture address := by
  constructor
  · intro valid
    obtain ⟨address', literal, same⟩ := utf8Host_literal valid List.mem_cons_self
    rw [List.cons_append, List.cons.injEq] at same
    rwa [List.append_cancel_right same.2]
  · intro literal
    exact .inl ⟨address, literal, rfl⟩

/-- A zone ID is what stands after the first `%25` in the brackets. -/
theorem zoned_iff {Address : List Char → Prop} {inner : List Char}
    (plain : ∀ address, Address address → Ipv6address address ∨ IpvFuture address) :
    Zoned Address ('[' :: (inner ++ [']'])) ↔ ∃ address zone,
      Slice.splitOnce ['%', '2', '5'] inner = some (address, zone) ∧ Address address ∧
        ZoneId zone := by
  constructor
  · rintro ⟨address, zone, valid, zoned, same⟩
    rw [List.cons_append, List.cons.injEq] at same
    obtain ⟨-, -, percent⟩ := literal_plain (plain address valid)
    refine ⟨address, zone, ?_, valid, zoned⟩
    rw [List.append_cancel_right same.2]
    have found := Slice.splitOnce_pattern ['2', '5'] (b := zone) percent
    simpa using found
  · rintro ⟨address, zone, split, valid, zoned⟩
    have shape := Slice.splitOnce_append split
    exact ⟨address, zone, valid, zoned, by simp [shape]⟩

section Framing
variable {Grammar : (List Char → Prop) → List Char → Option (List Char) → Prop}
  {before after : List Char → Prop} (framed : Framed Grammar before after)
  {Host : List Char → Prop} {s front inner back rest : List Char}
include framed

theorem opened_host (bracketed : Bracketed Host) (first : '[' ∉ front) {host : Option (List Char)}
    (derives : Grammar Host (front ++ '[' :: rest) host) :
    ∃ inner back, '[' ∉ inner ∧ ']' ∉ inner ∧ before front ∧ Host ('[' :: (inner ++ [']'])) ∧
      after back ∧ rest = inner ++ ']' :: back := by
  cases host with
  | none => exact absurd (by simp) (framed.hostless_plain _ _ derives)
  | some h =>
    obtain ⟨pre, post, leads, hosted, follows, whole⟩ := (framed.host _ _ _).mp derives
    have one := framed.before_plain pre leads
    have two := framed.after_plain post follows
    have opening : '[' ∈ h := by
      have present : '[' ∈ front ++ '[' :: rest := by simp
      rw [whole, List.mem_append, List.mem_append] at present
      rcases present with (early | here) | late
      · exact absurd early one.1
      · exact here
      · exact absurd late two.1
    obtain ⟨inner, unopened, unclosed, rfl⟩ := bracketed h hosted opening
    have split : front ++ '[' :: rest = pre ++ '[' :: (inner ++ ']' :: post) := by
      rw [whole]
      simp
    obtain ⟨rfl, rfl⟩ := Slice.first_split split first one.1
    exact ⟨inner, post, unopened, unclosed, leads, hosted, follows, rfl⟩

variable (back) in
theorem closed_host (bracketed : Bracketed Host) (first : '[' ∉ front) (absent : ']' ∉ inner) :
    (∃ host, Grammar Host (front ++ '[' :: (inner ++ ']' :: back)) host) ↔
      before front ∧ Host ('[' :: (inner ++ [']'])) ∧ after back := by
  constructor
  · rintro ⟨host, derives⟩
    obtain ⟨inner', back', -, unclosed, leads, hosted, follows, same⟩ :=
      opened_host framed bracketed first derives
    obtain ⟨rfl, rfl⟩ := Slice.first_split same absent unclosed
    exact ⟨leads, hosted, follows⟩
  · rintro ⟨leads, hosted, follows⟩
    exact ⟨some _, (framed.host _ _ _).mpr ⟨front, back, leads, hosted, follows, by simp⟩⟩

/-- What a parser of the grammar accepts with a host that is UTF-8. -/
theorem parsed_iff {parser : UriParser} (conforms : parser.Conforms)
    {parse : List Char → Option (Option (List Char))}
    (parses : ∀ s host, parse s = some host ↔ Grammar Rfc3986.Host s host) {cut : List Char}
    (zoned : withoutZoneId parser s = some (some cut)) :
    isParsed parser parse s = some true ↔ ∃ host, Grammar Utf8Host cut host := by
  have result : isParsed parser parse s = some true ↔
      ∃ host, parse cut = some host ∧ host.all (isHostUtf8 parser) = true := by
    rw [isParsed, zoned]
    dsimp only [Option.bind_eq_bind, Option.bind_some]
    cases parse cut with
    | none => simp
    | some host => simp
  rw [result]
  constructor
  · rintro ⟨host, parsed, checked⟩
    have derives := (parses cut host).mp parsed
    cases host with
    | none => exact ⟨none, framed.hostless _ _ _ derives⟩
    | some h =>
      obtain ⟨pre, post, leads, hosted, follows, whole⟩ := (framed.host _ _ _).mp derives
      exact ⟨some h, (framed.host _ _ _).mpr ⟨pre, post, leads,
        (checked_host conforms).mp ⟨hosted, checked⟩, follows, whole⟩⟩
  · rintro ⟨host, derives⟩
    cases host with
    | none => exact ⟨none, (parses cut none).mpr (framed.hostless _ _ _ derives), rfl⟩
    | some h =>
      obtain ⟨pre, post, leads, hosted, follows, whole⟩ := (framed.host _ _ _).mp derives
      obtain ⟨plain, checked⟩ := (checked_host conforms).mpr hosted
      exact ⟨some h, (parses cut _).mpr
        ((framed.host _ _ _).mpr ⟨pre, post, leads, plain, follows, whole⟩), checked⟩

omit framed in
theorem zoned_percent {inner address zone : List Char}
    (split : Slice.splitOnce ['%', '2', '5'] inner = some (address, zone)) :
    '%' ∈ inner ∧ (']' ∉ inner → ']' ∉ address) := by
  have shape := Slice.splitOnce_append split
  subst shape
  constructor
  · simp
  · intro absent member
    exact absent (by simp [member])

/-- No text has a zone ID after an IPv6 and after another address. -/
theorem zoned_exclusive (zoned : ∃ host, Grammar ZonedHost s host)
    (future : ∃ host, Grammar (Zoned IpvFuture) s (some host)) : False := by
  obtain ⟨host, derives⟩ := future
  obtain ⟨front, back, leads, hosted, follows, whole⟩ := (framed.host _ _ _).mp derives
  have opening : '[' ∈ host := by
    obtain ⟨address, zone, -, -, rfl⟩ := hosted
    simp
  obtain ⟨inner, -, closed, rfl⟩ := bracketed_zoned (fun _ => .inr) host hosted opening
  have shape : s = front ++ '[' :: (inner ++ ']' :: back) := by
    rw [whole]
    simp
  rw [shape, closed_host framed _ bracketed_zonedHost (framed.before_plain _ leads).1 closed]
    at zoned
  obtain ⟨address, zone, split, valid, -⟩ := (zoned_iff fun _ => .inr).mp hosted
  rcases zoned.2.1 with literal | zoned
  · exact (literal_plain (utf8Host_iff.mp literal)).2.2 (zoned_percent split).1
  · obtain ⟨address', zone', split', ipv6, -⟩ := (zoned_iff fun _ => .inl).mp zoned
    rw [split, Option.some.injEq, Prod.mk.injEq] at split'
    rw [← split'.1] at ipv6
    exact ipv6.not_future valid

section Parsed
variable {parser : UriParser} (conforms : parser.Conforms)
  {parse : List Char → Option (Option (List Char))}
  (parses : ∀ s host, parse s = some host ↔ Grammar Rfc3986.Host s host)
include conforms parses

theorem parsed_unbracketed (absent : '[' ∉ s) : isParsed parser parse s = some true ↔
    (∃ host, Grammar ZonedHost s host) ∨ ∃ host, Grammar (Zoned IpvFuture) s (some host) := by
  have outside : ∀ {Host host}, Grammar Host s (some host) → '[' ∉ host := by
    intro Host host derives opening
    obtain ⟨front, back, -, -, -, rfl⟩ := (framed.host _ _ _).mp derives
    exact absent (by simp [opening])
  rw [parsed_iff framed conforms parses (withoutZoneId_plain absent)]
  constructor
  · rintro ⟨host, derives⟩
    left
    cases host with
    | none => exact ⟨none, framed.hostless _ _ _ derives⟩
    | some h =>
      obtain ⟨front, back, leads, hosted, follows, whole⟩ := (framed.host _ _ _).mp derives
      exact ⟨some h, (framed.host _ _ _).mpr ⟨front, back, leads, .inl hosted, follows, whole⟩⟩
  · rintro (⟨host, derives⟩ | ⟨host, derives⟩)
    · cases host with
      | none => exact ⟨none, framed.hostless _ _ _ derives⟩
      | some h =>
        have plain := outside derives
        obtain ⟨front, back, leads, hosted, follows, whole⟩ := (framed.host _ _ _).mp derives
        rcases hosted with valid | ⟨address, zone, -, -, rfl⟩
        · exact ⟨some h, (framed.host _ _ _).mpr ⟨front, back, leads, valid, follows, whole⟩⟩
        · exact absurd (by simp) plain
    · have plain := outside derives
      obtain ⟨front, back, -, ⟨address, zone, -, -, rfl⟩, -⟩ := (framed.host _ _ _).mp derives
      exact absurd (by simp) plain

theorem parsed_closed (first : '[' ∉ front) (closed : ']' ∉ inner)
    (whole : s = front ++ '[' :: (inner ++ ']' :: back)) : isParsed parser parse s = some true ↔
    (∃ host, Grammar ZonedHost s host) ∨ ∃ host, Grammar (Zoned IpvFuture) s host := by
  obtain ⟨uncut, cut⟩ := withoutZoneId_closed parser first closed whole
  have zoned := closed_host framed back bracketed_zonedHost first closed
  have future := closed_host framed back (bracketed_zoned fun _ => .inr) first closed
  rw [← whole] at zoned future
  rw [zoned, future, ZonedHost, utf8Host_iff, zoned_iff fun _ => .inl, zoned_iff fun _ => .inr]
  cases split : Slice.splitOnce ['%', '2', '5'] inner with
  | none =>
    rw [parsed_iff framed conforms parses (uncut split), whole,
      closed_host framed _ bracketed_utf8Host first closed, utf8Host_iff]
    simp
  | some parts =>
    obtain ⟨address, zone⟩ := parts
    have unzoned : ¬(Ipv6address inner ∨ IpvFuture inner) := fun literal =>
      (literal_plain literal).2.2 (zoned_percent split).1
    have found : ∀ Address : List Char → Prop, (∃ address' zone',
        some (address, zone) = some (address', zone') ∧ Address address' ∧ ZoneId zone') ↔
        Address address ∧ ZoneId zone := by
      simp
    rw [found, found, ← isZoneId_iff conforms]
    by_cases valid : isZoneId parser zone = true
    · have result := cut address zone split
      rw [if_pos valid] at result
      rw [parsed_iff framed conforms parses result,
        closed_host framed _ bracketed_utf8Host first ((zoned_percent split).2 closed),
        utf8Host_iff]
      simp only [unzoned, valid, false_or, and_true]
      rw [← and_or_left, ← or_and_right]
    · have result := cut address zone split
      rw [if_neg valid] at result
      have rejected : isParsed parser parse s = some false := by
        rw [isParsed, result]
        rfl
      rw [rejected]
      simp [valid, unzoned]

/-- A parser accepts what the grammar with the additions derives, and besides a
zone ID after an address that is not IPv6. -/
theorem parsed_zoned (s : List Char) : isParsed parser parse s = some true ↔
    (∃ host, Grammar ZonedHost s host) ∨ ∃ host, Grammar (Zoned IpvFuture) s (some host) := by
  by_cases opening : '[' ∈ s
  · obtain ⟨front, rest, rfl, first⟩ := List.eq_append_cons_of_mem opening
    by_cases closing : ']' ∈ rest
    · obtain ⟨inner, back, rfl, closed⟩ := List.eq_append_cons_of_mem closing
      rw [parsed_closed framed conforms parses first closed rfl]
      refine or_congr_right ⟨?_, fun ⟨host, derives⟩ => ⟨_, derives⟩⟩
      rintro ⟨host, derives⟩
      cases host with
      | none => exact absurd opening (framed.hostless_plain _ _ derives)
      | some host => exact ⟨host, derives⟩
    · have rejected : isParsed parser parse (front ++ '[' :: rest) = some false := by
        rw [isParsed, withoutZoneId_open first closing]
        rfl
      have unclosed : ∀ {Host host}, Bracketed Host →
          ¬Grammar Host (front ++ '[' :: rest) host := by
        intro Host host bracketed derives
        obtain ⟨inner, back, -, -, -, -, -, rfl⟩ := opened_host framed bracketed first derives
        exact closing (by simp)
      rw [rejected]
      constructor
      · intro accepted
        cases accepted
      · rintro (⟨host, derives⟩ | ⟨host, derives⟩)
        · exact absurd derives (unclosed bracketed_zonedHost)
        · exact absurd derives (unclosed (bracketed_zoned fun _ => .inr))
  · exact parsed_unbracketed framed conforms parses opening

/-- A parser accepts what the grammar with the additions derives, unless it is a
text with a zone ID after an address that is not IPv6. -/
theorem parsed_correct (s : List Char) :
    (isParsed parser parse s = some true ↔ ∃ host, Grammar ZonedHost s host) ↔
      ¬∃ host, Grammar (Zoned IpvFuture) s (some host) := by
  rw [parsed_zoned framed conforms parses]
  constructor
  · intro same future
    exact zoned_exclusive framed (same.mp (.inr future)) future
  · intro absent
    exact or_iff_left absent

omit framed conforms parses in
/-- No slice is out of range. -/
theorem isParsed_isSome (s : List Char) : (isParsed parser parse s).isSome := by
  have total : ∀ cut, withoutZoneId parser s = some cut → (isParsed parser parse s).isSome := by
    intro cut result
    rw [isParsed, result]
    cases cut with
    | none => rfl
    | some cut =>
      dsimp only [Option.bind_eq_bind, Option.bind_some]
      cases parse cut <;> rfl
  by_cases opening : '[' ∈ s
  · obtain ⟨front, rest, rfl, first⟩ := List.eq_append_cons_of_mem opening
    by_cases closing : ']' ∈ rest
    · obtain ⟨inner, back, rfl, closed⟩ := List.eq_append_cons_of_mem closing
      obtain ⟨uncut, cut⟩ := withoutZoneId_closed parser first closed rfl
      cases split : Slice.splitOnce ['%', '2', '5'] inner with
      | none => exact total _ (uncut split)
      | some parts => exact total _ (cut parts.1 parts.2 split)
    · exact total _ (withoutZoneId_open first closing)
  · exact total _ (withoutZoneId_plain opening)

end Parsed

end Framing

variable {parser}

/-- URIs and references are what the grammar with the additions derives, unless it
is a text with a zone ID after an address that is not IPv6. -/
theorem uris_iff (conforms : parser.Conforms) (s : List Char) :
    ((isUri parser s).isSome ∧ (isUriRef parser s).isSome) ∧
    ((isUri parser s = some true ↔ ∃ host, Uri ZonedHost s host) ↔
      ¬∃ host, Uri (Zoned IpvFuture) s (some host)) ∧
    ((isUriRef parser s = some true ↔ ∃ host, Reference ZonedHost s host) ↔
      ¬∃ host, Reference (Zoned IpvFuture) s (some host)) :=
  ⟨⟨isParsed_isSome s, isParsed_isSome s⟩, parsed_correct uri_framed conforms conforms.uri s,
    parsed_correct reference_framed conforms conforms.reference s⟩

/-- The parser of the grammar. -/
noncomputable def exactParser : UriParser := by
  classical
  exact {
    uri := fun s => if found : ∃ host, Uri Host s host then some found.choose else none
    reference := fun s => if found : ∃ host, Reference Host s host then some found.choose else none
    percentDecode := octets }

theorem exactParser_conforms : exactParser.Conforms where
  uri s host := by
    unfold exactParser
    dsimp only
    constructor
    · intro parsed
      split at parsed
      · rename_i found
        cases parsed
        exact found.choose_spec
      · cases parsed
    · intro derives
      have found : ∃ host, Uri Host s host := ⟨host, derives⟩
      rw [dif_pos found, uri_unique found.choose_spec derives]
  reference s host := by
    unfold exactParser
    dsimp only
    constructor
    · intro parsed
      split at parsed
      · rename_i found
        cases parsed
        exact found.choose_spec
      · cases parsed
    · intro derives
      have found : ∃ host, Reference Host s host := ⟨host, derives⟩
      rw [dif_pos found, reference_unique found.choose_spec derives]
  decode s := rfl

/-- A text with a literal for its host. -/
theorem literal_uri {Host : List Char → Prop} (inner : List Char)
    (valid : Host ('[' :: (inner ++ [']']))) :
    Uri Host ("http://".toList ++ '[' :: (inner ++ [']']) ++ ['/'])
      (some ('[' :: (inner ++ [']']))) := by
  refine (uri_framed.host _ _ _).mpr ⟨_, ['/'], ?_, valid, ?_, rfl⟩
  · have scheme : Scheme "http".toList :=
      ⟨'h', "ttp".toList, by decide, List.all_eq_true.mp (by decide), rfl⟩
    exact ⟨"http:".toList, [], ⟨"http".toList, scheme, rfl⟩, .inl rfl, rfl⟩
  · refine ⟨[], ['/'], [], .inl rfl, ⟨[[]], by simp [Encoded.nil], rfl⟩, ?_, rfl⟩
    exact ⟨[], [], .inl rfl, .inl rfl, rfl⟩

theorem zoneId_eth : ZoneId "eth0".toList where
  nonempty := by decide
  encoded := .char (by decide) (.char (by decide) (.char (by decide) (.char (by decide) .nil)))
  utf8 := utf8_plain (by decide)

/-- The zone ID is cut out of an `IPvFuture` literal as well. -/
theorem future_zone_accepted : ∃ parser : UriParser, parser.Conforms ∧
    isUri parser "http://[v1.a%25eth0]/".toList = some true ∧
    ¬∃ host, Uri ZonedHost "http://[v1.a%25eth0]/".toList host := by
  have address : IpvFuture "v1.a".toList :=
    ⟨'v', ['1'], ['a'], .inl rfl, by decide, List.all_eq_true.mp (by decide), by decide,
      List.all_eq_true.mp (by decide), rfl⟩
  have derives : Uri (Zoned IpvFuture) "http://[v1.a%25eth0]/".toList
      (some "[v1.a%25eth0]".toList) :=
    literal_uri "v1.a%25eth0".toList ⟨_, _, address, zoneId_eth, rfl⟩
  refine ⟨exactParser, exactParser_conforms, ?_, ?_⟩
  · exact (parsed_zoned uri_framed exactParser_conforms exactParser_conforms.uri _).mpr
      (.inr ⟨_, derives⟩)
  · intro zoned
    exact zoned_exclusive uri_framed zoned ⟨_, derives⟩

/-- An IPv6 literal with a zone ID. -/
theorem uris_iff_zone : isUri exactParser "http://[::1%25eth0]/".toList = some true ∧
    ∃ host, Uri ZonedHost "http://[::1%25eth0]/".toList host := by
  have front : Leading 6 [] := ⟨[], by decide, by simp, rfl⟩
  have group : H16 ['1'] := ⟨by decide, by decide, List.all_eq_true.mp (by decide)⟩
  have address : Ipv6address "::1".toList := .group front group
  have derives : Uri ZonedHost "http://[::1%25eth0]/".toList (some "[::1%25eth0]".toList) :=
    literal_uri "::1%25eth0".toList (.inr ⟨_, _, address, zoneId_eth, rfl⟩)
  refine ⟨?_, _, derives⟩
  have condition : ¬∃ host, Uri (Zoned IpvFuture) "http://[::1%25eth0]/".toList (some host) :=
    fun future => zoned_exclusive uri_framed ⟨_, derives⟩ future
  have correct := (uris_iff exactParser_conforms "http://[::1%25eth0]/".toList).2.1.mpr condition
  exact correct.mpr ⟨_, derives⟩

end WellKnown

end Protovalidate
