import Mathlib.Data.List.TakeWhile

/-!
# The text of IP addresses

The parser takes numbers and separators off the front of its input, and an
address is one that leaves nothing. A part of an address that does not parse
takes nothing.
-/

namespace Addresses

abbrev Reader (α : Type) := List Char → Option (α × List Char)

/-- The value of a digit. -/
def toDigit (radix : Nat) (c : Char) : Option Nat :=
  let value :=
    if c.isDigit then some (c.toNat - '0'.toNat)
    else if 'a' ≤ c ∧ c ≤ 'z' then some (c.toNat - 'a'.toNat + 10)
    else if 'A' ≤ c ∧ c ≤ 'Z' then some (c.toNat - 'A'.toNat + 10)
    else none
  value.filter (fun digit => decide (digit < radix))

/-- A number of at most `maxDigits` digits, below a bound. -/
def readNumber (radix maxDigits bound : Nat) (allowZeroPrefix : Bool) : Reader Nat := fun s =>
  let digits := s.takeWhile (fun c => (toDigit radix c).isSome)
  let value := digits.foldl (fun value c => value * radix + (toDigit radix c).getD 0) 0
  if digits.isEmpty || decide (digits.length > maxDigits) then none
  else if !allowZeroPrefix && digits.head? == some '0' && decide (digits.length > 1) then none
  else if value < bound then some (value, s.dropWhile (fun c => (toDigit radix c).isSome))
  else none

/-- What a reader takes after a separator, which the first part has none of. -/
def readSeparator {α : Type} (separator : Char) (index : Nat) (inner : Reader α) : Reader α :=
  fun s =>
    if index = 0 then inner s
    else
      match s with
      | c :: rest => if c = separator then inner rest else none
      | [] => none

/-- Four numbers of a byte, with no zero before them. -/
def readIpv4 : Reader (BitVec 32) := fun s => do
  let (one, s) ← readSeparator '.' 0 (readNumber 10 3 256 false) s
  let (two, s) ← readSeparator '.' 1 (readNumber 10 3 256 false) s
  let (three, s) ← readSeparator '.' 2 (readNumber 10 3 256 false) s
  let (four, s) ← readSeparator '.' 3 (readNumber 10 3 256 false) s
  return (BitVec.ofNat 32 (((one * 256 + two) * 256 + three) * 256 + four), s)

/-- Groups of sixteen bits, up to one that does not parse or to an IPv4 address,
which stands for the last two; whether it was one, and what is left. -/
def readGroups : Nat → Nat → List Char → List Nat × Bool × List Char
  | 0, _, s => ([], false, s)
  | left + 1, index, s =>
    let ipv4 := if 0 < left then readSeparator ':' index readIpv4 s else none
    match ipv4 with
    | some (address, rest) => ([address.toNat / 65536, address.toNat % 65536], true, rest)
    | none =>
      match readSeparator ':' index (readNumber 16 4 65536 true) s with
      | none => ([], false, s)
      | some (group, rest) =>
        let (groups, ipv4, rest) := readGroups left (index + 1) rest
        (group :: groups, ipv4, rest)

/-- Eight groups, or fewer around a `::` for the zeros left out. -/
def readIpv6 : Reader (BitVec 128) := fun s =>
  let address := fun (groups : List Nat) =>
    BitVec.ofNat 128 (groups.foldl (fun value group => value * 65536 + group) 0)
  let (head, ipv4, rest) := readGroups 8 0 s
  if head.length = 8 then some (address head, rest)
  else if ipv4 then none
  else
    match rest with
    | ':' :: ':' :: rest =>
      let (tail, _, rest) := readGroups (8 - (head.length + 1)) 0 rest
      some (address (head ++ List.replicate (8 - head.length - tail.length) 0 ++ tail), rest)
    | _ => none

/-- What a reader takes is all there is. -/
def parseWith {α : Type} (inner : Reader α) (s : List Char) : Option α :=
  match inner s with
  | some (value, []) => some value
  | _ => none

/-- An address of more than 15 characters is not tried. -/
def parseIpv4 (s : List Char) : Option (BitVec 32) :=
  if s.length > 15 then none else parseWith readIpv4 s

def parseIpv6 (s : List Char) : Option (BitVec 128) := parseWith readIpv6 s

/-- The characters of an address. -/
def AddressChar (c : Char) : Prop := (toDigit 16 c).isSome ∨ c = '.' ∨ c = ':'

/-- What a reader leaves comes after characters of one kind. -/
def Takes {α : Type} (kind : Char → Prop) (reader : Reader α) : Prop :=
  ∀ s value rest, reader s = some (value, rest) → ∃ taken, s = taken ++ rest ∧ ∀ c ∈ taken, kind c

section Takes
variable {α : Type} {kind kind' : Char → Prop} {reader : Reader α}

theorem Takes.mono (takes : Takes kind reader) (wider : ∀ c, kind c → kind' c) :
    Takes kind' reader := by
  intro s value rest read
  obtain ⟨taken, shape, all⟩ := takes s value rest read
  exact ⟨taken, shape, fun c member => wider c (all c member)⟩

theorem takes_number (radix maxDigits bound : Nat) (allowZeroPrefix : Bool) :
    Takes (fun c => (toDigit radix c).isSome)
      (readNumber radix maxDigits bound allowZeroPrefix) := by
  intro s value rest read
  have digits : ∀ c ∈ s.takeWhile (fun c => (toDigit radix c).isSome),
      (toDigit radix c).isSome := by
    intro c member
    exact List.mem_takeWhile_imp (p := fun c => (toDigit radix c).isSome) member
  refine ⟨s.takeWhile (fun c => (toDigit radix c).isSome), ?_, digits⟩
  unfold readNumber at read
  dsimp only at read
  split at read
  · cases read
  · split at read
    · cases read
    · split at read
      · cases read
        exact List.takeWhile_append_dropWhile.symm
      · cases read

theorem takes_separator {separator : Char} (index : Nat) (takes : Takes kind reader)
    (separates : kind separator) : Takes kind (readSeparator separator index reader) := by
  intro s value rest read
  unfold readSeparator at read
  by_cases first : index = 0
  · rw [if_pos first] at read
    exact takes s value rest read
  · rw [if_neg first] at read
    cases s with
    | nil => cases read
    | cons c s =>
      dsimp only at read
      by_cases same : c = separator
      · subst same
        rw [if_pos rfl] at read
        obtain ⟨taken, rfl, all⟩ := takes s value rest read
        refine ⟨c :: taken, rfl, fun d member => ?_⟩
        rcases List.mem_cons.mp member with rfl | member
        · exact separates
        · exact all d member
      · rw [if_neg same] at read
        cases read

/-- One reader after another. -/
theorem taken_append {s middle rest : List Char}
    (first : ∃ taken, s = taken ++ middle ∧ ∀ c ∈ taken, kind c)
    (second : ∃ taken, middle = taken ++ rest ∧ ∀ c ∈ taken, kind c) :
    ∃ taken, s = taken ++ rest ∧ ∀ c ∈ taken, kind c := by
  obtain ⟨front, rfl, all⟩ := first
  obtain ⟨back, rfl, all'⟩ := second
  refine ⟨front ++ back, (List.append_assoc _ _ _).symm, fun c member => ?_⟩
  rcases List.mem_append.mp member with member | member
  · exact all c member
  · exact all' c member

end Takes

/-- Decimal digits and dots. -/
theorem takes_ipv4 : Takes (fun c => (toDigit 10 c).isSome ∨ c = '.') readIpv4 := by
  intro s value rest read
  have byte : ∀ index, Takes (fun c => (toDigit 10 c).isSome ∨ c = '.')
      (readSeparator '.' index (readNumber 10 3 256 false)) := fun index =>
    takes_separator index ((takes_number 10 3 256 false).mono fun c digit => .inl digit) (.inr rfl)
  unfold readIpv4 at read
  simp only [Option.bind_eq_bind, Option.bind_eq_some_iff, Option.pure_def, Option.some.injEq,
    Prod.mk.injEq, Prod.exists] at read
  obtain ⟨one, s1, first, two, s2, second, three, s3, third, four, s4, fourth, -, rfl⟩ := read
  exact taken_append (taken_append (taken_append (byte 0 _ _ _ first) (byte 1 _ _ _ second))
    (byte 2 _ _ _ third)) (byte 3 _ _ _ fourth)

theorem decimal_hex {c : Char} (digit : (toDigit 10 c).isSome) : (toDigit 16 c).isSome := by
  unfold toDigit at digit ⊢
  dsimp only at digit ⊢
  rw [Option.isSome_filter] at digit ⊢
  refine Option.any_eq_true _ _ |>.mpr ?_
  obtain ⟨value, found, small⟩ := Option.any_eq_true _ _ |>.mp digit
  refine ⟨value, found, ?_⟩
  simp only [decide_eq_true_eq] at small ⊢
  omega

theorem takes_groups (left index : Nat) (s : List Char) :
    ∃ taken, s = taken ++ (readGroups left index s).2.2 ∧ ∀ c ∈ taken, AddressChar c := by
  induction left generalizing index s with
  | zero => exact ⟨[], rfl, fun c member => absurd member List.not_mem_nil⟩
  | succ left ih =>
    have ipv4 : Takes AddressChar (readSeparator ':' index readIpv4) := by
      refine takes_separator index (takes_ipv4.mono fun c part => ?_) (.inr (.inr rfl))
      rcases part with digit | dot
      · exact .inl (decimal_hex digit)
      · exact .inr (.inl dot)
    have group : Takes AddressChar (readSeparator ':' index (readNumber 16 4 65536 true)) :=
      takes_separator index ((takes_number 16 4 65536 true).mono fun c digit => .inl digit)
        (.inr (.inr rfl))
    rw [readGroups]
    dsimp only
    split
    · rename_i address rest read
      by_cases more : 0 < left
      · rw [if_pos more] at read
        exact ipv4 s address rest read
      · rw [if_neg more] at read
        cases read
    · split
      · exact ⟨[], rfl, fun c member => absurd member List.not_mem_nil⟩
      · rename_i value rest read
        exact taken_append (group s value rest read) (ih (index + 1) rest)

theorem takes_ipv6 : Takes AddressChar readIpv6 := by
  intro s value rest read
  have front := takes_groups 8 0 s
  unfold readIpv6 at read
  dsimp only at read
  split at read
  · cases read
    exact front
  · split at read
    · cases read
    · split at read
      · rename_i middle back shape
        have tail := takes_groups (8 - ((readGroups 8 0 s).1.length + 1)) 0 back
        have colons : ∃ taken, ':' :: ':' :: back = taken ++ back ∧ ∀ c ∈ taken, AddressChar c :=
          ⟨[':', ':'], rfl, by simp [AddressChar]⟩
        rw [shape] at front
        cases read
        exact taken_append (taken_append front colons) tail
      · cases read

theorem parseWith_chars {α : Type} {kind : Char → Prop} {reader : Reader α} {s : List Char}
    {value : α} (takes : Takes kind reader) (parsed : parseWith reader s = some value) :
    ∀ c ∈ s, kind c := by
  unfold parseWith at parsed
  split at parsed
  · rename_i read
    obtain ⟨taken, shape, all⟩ := takes s _ [] read
    rw [List.append_nil] at shape
    rw [shape]
    exact all
  · cases parsed

theorem parseIpv4_chars {s : List Char} {value : BitVec 32} (parsed : parseIpv4 s = some value) :
    ∀ c ∈ s, (toDigit 10 c).isSome ∨ c = '.' := by
  unfold parseIpv4 at parsed
  split at parsed
  · cases parsed
  · exact parseWith_chars takes_ipv4 parsed

theorem parseIpv6_chars {s : List Char} {value : BitVec 128} (parsed : parseIpv6 s = some value) :
    ∀ c ∈ s, AddressChar c := parseWith_chars takes_ipv6 parsed

end Addresses
