import Protovalidate.Lib.Addresses
import Protovalidate.Lib.Numeral
import Protovalidate.Lib.Slice
import Mathlib.Data.Nat.Bitwise

/-!
# IPv4 and IPv6 addresses and prefixes

The zone ID an IPv6 address may carry, and, for strict prefixes, host bits that
must be zero. The address parsers are the standard library's.
-/

namespace Protovalidate

/-- The address parsers of the standard library. -/
structure AddressParsers where
  ipv4 : List Char → Option (BitVec 32)
  ipv6 : List Char → Option (BitVec 128)

/-- What the parsers accept is not empty and has none of the characters that stand
around an address. -/
structure AddressParsers.Plain (parsers : AddressParsers) : Prop where
  ipv4 : ∀ s v, parsers.ipv4 s = some v → s ≠ [] ∧ '[' ∉ s ∧ ':' ∉ s ∧ '/' ∉ s
  ipv6 : ∀ s v, parsers.ipv6 s = some v → '[' ∉ s ∧ ']' ∉ s ∧ '/' ∉ s ∧ '%' ∉ s

def AddressParsers.std : AddressParsers := ⟨Addresses.parseIpv4, Addresses.parseIpv6⟩

namespace WellKnown
variable (parsers : AddressParsers)

def isIpv4 (s : List Char) : Bool := (parsers.ipv4 s).isSome

def isIpv6 (s : List Char) : Bool :=
  let (address, zone) :=
    match Slice.splitOnce ['%'] s with
    | some (address, zone) => (address, some zone)
    | none => (s, none)
  if zone.any (fun zone => zone.isEmpty || zone.contains '\x00') then false
  else (parsers.ipv6 address).isSome

def isIp (s : List Char) : Bool := isIpv4 parsers s || isIpv6 parsers s

/-- The length of a prefix of an address of `bits` bits: decimal digits with no
sign and no leading zero, at most `bits`. -/
def prefixLength (s : List Char) (bits : Nat) : Option Nat :=
  if s.isEmpty || !(Slice.bytes s).all Slice.isAsciiDigit ||
      (decide (Slice.len s > 1) && s.head? == some '0') then none
  else (Numeral.parse (2 ^ 32) s).filter (fun length => decide (length ≤ bits))

/-- A shift right, `none` by the width or more. -/
def checkedShr {w : Nat} (value : BitVec w) (count : Nat) : Option (BitVec w) :=
  if count < w then some (value >>> count) else none

/-- An address, a slash and the length of a prefix of it, whose host bits are
zero if `strict` is set. -/
def isAddressPrefix {w : Nat} (parse : List Char → Option (BitVec w)) (s : List Char)
    (strict : Bool) : Bool :=
  match Slice.splitOnce ['/'] s with
  | none => false
  | some (address, length) =>
    match parse address, prefixLength length w with
    | some address, some length =>
      let hostMask := (checkedShr (BitVec.allOnes w) length).getD 0
      !strict || address &&& hostMask == 0
    | _, _ => false

def isIpv4Prefix (s : List Char) (strict : Bool) : Bool := isAddressPrefix parsers.ipv4 s strict

/-- A zone ID is not permitted. -/
def isIpv6Prefix (s : List Char) (strict : Bool) : Bool := isAddressPrefix parsers.ipv6 s strict

def isIpPrefix (s : List Char) (strict : Bool) : Bool :=
  isIpv4Prefix parsers s strict || isIpv6Prefix parsers s strict

example : isIpv6 .std "fe80::1%eth0".toList = true := by decide

/-! ### The grammar -/

/-- A prefix of an address: the address, a slash and the canonical numeral of a
length up to the width, whose host bits are zero if the prefix is strict. -/
def AddressPrefix {w : Nat} (parse : List Char → Option (BitVec w)) (strict : Bool)
    (s : List Char) : Prop :=
  ∃ address v length n, s = address ++ '/' :: length ∧ parse address = some v ∧
    n ≤ w ∧ length = Nat.toDigits 10 n ∧ (strict = true → 2 ^ (w - n) ∣ v.toNat)

variable {s : List Char} {n bits w : Nat}

theorem digits_ascii (digits : ∀ c ∈ s, c.isDigit) : Slice.len s = s.length := by
  refine Slice.len_eq_length fun c member => ?_
  by_contra large
  have other := Slice.ascii_digit.chars c (by omega)
  rw [digits c member] at other
  cases other

/-- The checks of a numeral before it is read. -/
theorem canonical_checks : Numeral.Canonical s ↔
    s ≠ [] ∧ (Slice.bytes s).all Slice.isAsciiDigit = true ∧
      ¬(Slice.len s > 1 ∧ s.head? = some '0') := by
  rw [Slice.ascii_digit.all_bytes, List.all_eq_true]
  constructor
  · intro canonical
    refine ⟨canonical.nonempty, canonical.digits, ?_⟩
    rintro ⟨long, zero⟩
    rw [digits_ascii canonical.digits] at long
    exact canonical.leading long zero
  · rintro ⟨nonempty, digits, leading⟩
    refine ⟨nonempty, digits, fun long zero => leading ⟨?_, zero⟩⟩
    rwa [digits_ascii digits]

theorem prefixLength_eq_some (small : bits < 2 ^ 32) :
    prefixLength s bits = some n ↔ n ≤ bits ∧ s = Nat.toDigits 10 n := by
  by_cases canonical : Numeral.Canonical s
  · obtain ⟨m, rfl⟩ := Numeral.canonical_iff.mp canonical
    obtain ⟨nonempty, digits, leading⟩ := canonical_checks.mp canonical
    have read : prefixLength (Nat.toDigits 10 m) bits =
        (Numeral.parse (2 ^ 32) (Nat.toDigits 10 m)).filter
          (fun length => decide (length ≤ bits)) := by
      rw [prefixLength, if_neg]
      simpa [nonempty, digits] using leading
    rw [read, Numeral.parse_toDigits (by omega)]
    constructor
    · intro found
      by_cases fits : m < 2 ^ 32
      · rw [if_pos fits, Option.filter_eq_some_iff] at found
        obtain ⟨same, within⟩ := found
        cases same
        exact ⟨of_decide_eq_true within, rfl⟩
      · rw [if_neg fits] at found
        cases found
    · rintro ⟨within, same⟩
      have value := congrArg (Nat.ofDigitChars 10 · 0) same
      simp only [Nat.ofDigitChars_ten_toDigits] at value
      subst value
      rw [if_pos (by omega)]
      simp [Option.filter, within]
  · constructor
    · intro found
      exfalso
      apply canonical
      rw [canonical_checks]
      by_contra failed
      rw [prefixLength, if_pos] at found
      · cases found
      · by_contra passed
        apply failed
        simpa [not_or, and_assoc] using passed
    · rintro ⟨-, rfl⟩
      exact absurd Numeral.canonical_toDigits canonical

/-! ### The host mask -/

/-- The bits below a prefix are zero for the multiples of their power of two. -/
theorem and_mask (v : BitVec w) (within : n ≤ w) :
    v &&& (checkedShr (BitVec.allOnes w) n).getD 0 = 0 ↔ 2 ^ (w - n) ∣ v.toNat := by
  have mask : ((checkedShr (BitVec.allOnes w) n).getD 0).toNat = 2 ^ (w - n) - 1 := by
    unfold checkedShr
    by_cases part : n < w
    · rw [if_pos part, Option.getD_some, BitVec.toNat_ushiftRight, BitVec.toNat_allOnes,
        Nat.shiftRight_eq_div_pow]
      have split : 2 ^ w = 2 ^ (w - n) * 2 ^ n := by
        rw [← Nat.pow_add, Nat.sub_add_cancel within]
      have positive : 0 < 2 ^ n := Nat.two_pow_pos n
      have one : 1 ≤ 2 ^ (w - n) := Nat.two_pow_pos _
      obtain ⟨m, shape⟩ := Nat.exists_eq_add_of_le' one
      have product : (m + 1) * 2 ^ n = m * 2 ^ n + 2 ^ n := Nat.succ_mul m _
      rw [split, shape, Nat.add_sub_cancel]
      apply Nat.div_eq_of_lt_le
      · omega
      · omega
    · rw [if_neg part, Option.getD_none]
      have whole : w - n = 0 := by omega
      rw [whole]
      rfl
  rw [← BitVec.toNat_inj, BitVec.toNat_and, mask, Nat.and_two_pow_sub_one_eq_mod]
  exact Nat.dvd_iff_mod_eq_zero.symm

/-- A prefix is what the grammar says it is, if no address has a slash. -/
theorem isAddressPrefix_iff {parse : List Char → Option (BitVec w)} {strict : Bool}
    (plain : ∀ s v, parse s = some v → '/' ∉ s) (small : w < 2 ^ 32) :
    isAddressPrefix parse s strict = true ↔ AddressPrefix parse strict s := by
  constructor
  · intro accepted
    unfold isAddressPrefix at accepted
    cases split : Slice.splitOnce ['/'] s with
    | none => simp [split] at accepted
    | some parts =>
      obtain ⟨address, length⟩ := parts
      obtain ⟨shape, -⟩ := Slice.splitOnce_char.mp split
      simp only [split] at accepted
      cases parsed : parse address with
      | none => simp [parsed] at accepted
      | some v =>
        cases read : prefixLength length w with
        | none => simp [parsed, read] at accepted
        | some n =>
          obtain ⟨within, numeral⟩ := (prefixLength_eq_some small).mp read
          simp only [parsed, read, Bool.or_eq_true, Bool.not_eq_true', beq_iff_eq] at accepted
          refine ⟨address, v, length, n, shape, parsed, within, numeral, fun set => ?_⟩
          rcases accepted with unset | masked
          · rw [set] at unset
            cases unset
          · exact (and_mask v within).mp masked
  · rintro ⟨address, v, length, n, rfl, parsed, within, numeral, host⟩
    have split : Slice.splitOnce ['/'] (address ++ '/' :: length) = some (address, length) :=
      Slice.splitOnce_char.mpr ⟨rfl, plain address v parsed⟩
    have read : prefixLength length w = some n :=
      (prefixLength_eq_some small).mpr ⟨within, numeral⟩
    simp only [isAddressPrefix, split, parsed, read, Bool.or_eq_true, Bool.not_eq_true',
      beq_iff_eq]
    by_cases set : strict = true
    · right
      exact (and_mask v within).mpr (host set)
    · left
      exact Bool.eq_false_iff.mpr set

theorem AddressPrefix.relax {parse : List Char → Option (BitVec w)}
    (strictly : AddressPrefix parse true s) : AddressPrefix parse false s := by
  obtain ⟨address, v, length, n, shape, parsed, within, numeral, -⟩ := strictly
  exact ⟨address, v, length, n, shape, parsed, within, numeral, fun set => by cases set⟩

/-- No zone ID is in a prefix of an IPv6 address. -/
theorem AddressPrefix.unzoned {parse : List Char → Option (BitVec w)} {strict : Bool}
    (plain : ∀ s v, parse s = some v → '%' ∉ s) (accepted : AddressPrefix parse strict s) :
    '%' ∉ s := by
  obtain ⟨address, v, length, n, rfl, parsed, -, rfl, -⟩ := accepted
  intro member
  rcases List.mem_append.mp member with member | member
  · exact plain address v parsed member
  · rcases List.mem_cons.mp member with slash | member
    · exact absurd slash (by decide)
    · exact absurd (Numeral.canonical_toDigits.digits '%' member) (by decide)

variable {parsers}

/-- The prefixes are those of the grammar; a strict one is one that is not, and
no zone ID is in any. -/
theorem prefixes_iff (plain : parsers.Plain) (s : List Char) (strict : Bool) :
    (isIpv4Prefix parsers s strict = true ↔ AddressPrefix parsers.ipv4 strict s) ∧
    (isIpv6Prefix parsers s strict = true ↔ AddressPrefix parsers.ipv6 strict s) ∧
    (isIpv6Prefix parsers s strict = true → '%' ∉ s) ∧
    (isIpPrefix parsers s strict = true ↔
      AddressPrefix parsers.ipv4 strict s ∨ AddressPrefix parsers.ipv6 strict s) ∧
    (isIpv4Prefix parsers s true = true → isIpv4Prefix parsers s false = true) ∧
    (isIpv6Prefix parsers s true = true → isIpv6Prefix parsers s false = true) ∧
    (isIpPrefix parsers s true = true → isIpPrefix parsers s false = true) := by
  have ipv4 : ∀ strict, isIpv4Prefix parsers s strict = true ↔
      AddressPrefix parsers.ipv4 strict s := fun strict =>
    isAddressPrefix_iff (fun s v parsed => (plain.ipv4 s v parsed).2.2.2) (by omega)
  have ipv6 : ∀ strict, isIpv6Prefix parsers s strict = true ↔
      AddressPrefix parsers.ipv6 strict s := fun strict =>
    isAddressPrefix_iff (fun s v parsed => (plain.ipv6 s v parsed).2.2.1) (by omega)
  have either : ∀ strict, isIpPrefix parsers s strict = true ↔
      AddressPrefix parsers.ipv4 strict s ∨ AddressPrefix parsers.ipv6 strict s := by
    intro strict
    rw [isIpPrefix, Bool.or_eq_true, ipv4 strict, ipv6 strict]
  refine ⟨ipv4 strict, ipv6 strict, ?_, either strict, ?_, ?_, ?_⟩
  · intro accepted
    exact ((ipv6 strict).mp accepted).unzoned fun s v parsed => (plain.ipv6 s v parsed).2.2.2
  · intro strictly
    exact (ipv4 false).mpr ((ipv4 true).mp strictly).relax
  · intro strictly
    exact (ipv6 false).mpr ((ipv6 true).mp strictly).relax
  · intro strictly
    rw [either] at strictly ⊢
    exact strictly.imp AddressPrefix.relax AddressPrefix.relax

end WellKnown

/-- The characters of the standard library's addresses. -/
theorem AddressParsers.std_plain : AddressParsers.std.Plain where
  ipv4 s v parsed := by
    have chars := Addresses.parseIpv4_chars parsed
    refine ⟨?_, ?_, ?_, ?_⟩
    · rintro rfl
      cases parsed
    all_goals exact fun member => absurd (chars _ member) (by decide)
  ipv6 s v parsed := by
    have chars := Addresses.parseIpv6_chars parsed
    refine ⟨?_, ?_, ?_, ?_⟩ <;>
      exact fun member => absurd (chars _ member) (by unfold Addresses.AddressChar; decide)

/-- A prefix of no bits has every bit of the address for the host. -/
theorem WellKnown.prefixes_iff_zero :
    WellKnown.isIpv4Prefix .std "0.0.0.0/0".toList true = true ∧
    (WellKnown.isIpv4Prefix .std "0.0.0.0/0".toList true = true ↔
      WellKnown.AddressPrefix AddressParsers.std.ipv4 true "0.0.0.0/0".toList) :=
  ⟨by decide, (WellKnown.prefixes_iff AddressParsers.std_plain "0.0.0.0/0".toList true).1⟩

end Protovalidate
