import Protovalidate.Ip

/-!
# Host names and host-and-port pairs
-/

namespace Protovalidate

namespace WellKnown
variable (parsers : AddressParsers)

/-- A byte of a label: whether all so far are digits, `none` if no label has it. -/
def scanByte (allDigits : Bool) (b : UInt8) : Option Bool :=
  if !Slice.isAsciiAlphanumeric b && b != Slice.byte '-' then none
  else some (allDigits && Slice.isAsciiDigit b)

/-- Whether a label is digits only, `none` if it is no label. -/
def scanLabel (part : List Char) : Option Bool :=
  let bytes := Slice.bytes part
  if bytes.isEmpty || decide (bytes.length > 63) || bytes.head? == some (Slice.byte '-') ||
      bytes.getLast? == some (Slice.byte '-') then none
  else bytes.foldlM scanByte true

/-- Labels separated by dots, with a dot after them or not. The right-most label
must not be digits only, and the limit excludes the trailing dot. -/
def isHostname (s : List Char) : Bool :=
  if s.isEmpty then false
  else
    let s := (Slice.stripSuffix '.' s).getD s
    if Slice.len s > 253 then false
    else
      match (s.splitOn '.').foldlM (fun _ part => scanLabel part) false with
      | none => false
      | some allDigits => !allDigits

def isPort (s : List Char) : Bool :=
  let bytes := Slice.bytes s
  if bytes.isEmpty || (decide (bytes.length > 1) && bytes.head? == some (Slice.byte '0')) then
    false
  else if !bytes.all Slice.isAsciiDigit then false
  else (Numeral.parse (2 ^ 32) s).any (fun port => decide (port ≤ 65535))

/-- Whether the string is a host and port pair, or a host alone if the port is
not required; `none` where a slice of it is out of range. -/
def isHostAndPort (s : List Char) (portRequired : Bool) : Option Bool :=
  if s.isEmpty then some false
  else
    let split := Slice.rfind ':' s
    if s.head? = some '[' then
      match Slice.rfind ']' s with
      | none => some false
      | some stop =>
        let afterEnd := stop + 1
        if afterEnd = Slice.len s then
          -- No port.
          if portRequired then some false
          else (Slice.range s 1 stop).map (isIpv6 parsers)
        else if some afterEnd = split then do
          let address ← Slice.range s 1 stop
          if isIpv6 parsers address then
            let port ← Slice.range s (afterEnd + 1) (Slice.len s)
            return isPort port
          else return false
        else some false
    else
      match split with
      | none => some (!portRequired && (isHostname s || isIpv4 parsers s))
      | some split => do
        let host ← Slice.range s 0 split
        let port ← Slice.range s (split + 1) (Slice.len s)
        return (isHostname host || isIpv4 parsers host) && isPort port

example : isHostAndPort .std "[::1%a]:b]:443".toList true = some true := by decide

/-! ### Host names -/

/-- A label of a host name: letters, digits and hyphens, no hyphen at an end. -/
structure HostLabel (label : List Char) : Prop where
  nonempty : label ≠ []
  short : label.length ≤ 63
  characters : ∀ c ∈ label, c.isAlphanum ∨ c = '-'
  start : label.head? ≠ some '-'
  stop : label.getLast? ≠ some '-'

/-- A host name without a trailing dot: labels separated by dots, of at most 253
characters, the last of them not digits only. -/
def HostName (s : List Char) : Prop :=
  ∃ labels last, s = ['.'].intercalate (labels ++ [last]) ∧
    (∀ label ∈ labels ++ [last], HostLabel label) ∧ s.length ≤ 253 ∧ ∃ c ∈ last, ¬c.isDigit

variable {s : List Char} {c : Char} {d : Bool}

theorem HostLabel.undotted {label : List Char} (valid : HostLabel label) : '.' ∉ label := by
  intro member
  exact absurd (valid.characters '.' member) (by decide)

theorem isAlphanum_ascii (alphanumeric : c.isAlphanum) : c.toNat < 128 := by
  by_contra large
  rw [Slice.ascii_alphanumeric.chars c (by omega)] at alphanumeric
  cases alphanumeric

theorem HostLabel.ascii {label : List Char} (valid : HostLabel label) :
    ∀ c ∈ label, c.toNat < 128 := by
  intro c member
  rcases valid.characters c member with alphanumeric | rfl
  · exact isAlphanum_ascii alphanumeric
  · decide

/-- The bytes of a label. -/
theorem ascii_label : Slice.Ascii
    (fun b => Slice.isAsciiAlphanumeric b || b == Slice.byte '-')
    (fun c => c.isAlphanum || c == '-') where
  small c small := by
    have hyphen : (Slice.byte c == Slice.byte '-') = (c == '-') := by
      rw [Bool.eq_iff_iff, beq_iff_eq, beq_iff_eq]
      exact Slice.byte_inj small (by decide)
    rw [Slice.ascii_alphanumeric.small c small, hyphen]
  bytes b large := by
    have other : (b == Slice.byte '-') = false := by
      rw [beq_eq_false_iff_ne]
      rintro rfl
      exact absurd large (by decide)
    rw [Slice.ascii_alphanumeric.bytes b large, other]
    rfl
  chars c large := by
    have other : (c == '-') = false := by
      rw [beq_eq_false_iff_ne]
      rintro rfl
      exact absurd large (by decide)
    rw [Slice.ascii_alphanumeric.chars c large, other]
    rfl

/-- The loop over the bytes of a label. -/
theorem foldlM_scanByte (bytes : List UInt8) : bytes.foldlM scanByte d =
    if bytes.all (fun b => Slice.isAsciiAlphanumeric b || b == Slice.byte '-') then
      some (d && bytes.all Slice.isAsciiDigit)
    else none := by
  induction bytes generalizing d with
  | nil => simp
  | cons b bytes ih =>
    have step : scanByte d b =
        if Slice.isAsciiAlphanumeric b || b == Slice.byte '-' then
          some (d && Slice.isAsciiDigit b)
        else none := by
      rw [scanByte]
      cases Slice.isAsciiAlphanumeric b <;> cases same : b == Slice.byte '-' <;>
        simp [bne, same]
    rw [List.foldlM_cons, step]
    by_cases allowed : (Slice.isAsciiAlphanumeric b || b == Slice.byte '-') = true
    · rw [if_pos allowed]
      simp only [Option.bind_eq_bind, Option.bind_some, ih, List.all_cons, allowed, Bool.true_and,
        Bool.and_assoc]
    · rw [if_neg allowed]
      simp [allowed]

theorem scanLabel_eq_some : scanLabel s = some d ↔ HostLabel s ∧ d = s.all Char.isDigit := by
  have hyphen : '-'.toNat < 128 := by decide
  have length : ∀ s : List Char, (∀ c ∈ s, c.isAlphanum ∨ c = '-') →
      (Slice.bytes s).length = s.length := by
    intro s characters
    refine Slice.len_eq_length fun c member => ?_
    rcases characters c member with alphanumeric | rfl
    · exact isAlphanum_ascii alphanumeric
    · exact hyphen
  have characters : (Slice.bytes s).all
      (fun b => Slice.isAsciiAlphanumeric b || b == Slice.byte '-') = true ↔
      ∀ c ∈ s, c.isAlphanum ∨ c = '-' := by
    rw [ascii_label.all_bytes, List.all_eq_true]
    simp
  unfold scanLabel
  dsimp only
  constructor
  · intro scanned
    split at scanned
    · cases scanned
    · rename_i passed
      rw [foldlM_scanByte] at scanned
      split at scanned
      · rename_i all
        have valid := characters.mp all
        simp only [Bool.or_eq_true, decide_eq_true_eq, beq_iff_eq, not_or, Slice.bytes_isEmpty,
          List.isEmpty_iff, Slice.head_bytes hyphen, Slice.getLast_bytes hyphen] at passed
        obtain ⟨⟨⟨nonempty, short⟩, start⟩, stop⟩ := passed
        rw [length s valid] at short
        rw [Bool.true_and, Slice.ascii_digit.all_bytes, Option.some.injEq] at scanned
        exact ⟨⟨nonempty, by omega, valid, start, stop⟩, scanned.symm⟩
      · cases scanned
  · rintro ⟨valid, rfl⟩
    have short := valid.short
    rw [if_neg, foldlM_scanByte, if_pos (characters.mpr valid.characters), Bool.true_and,
      Slice.ascii_digit.all_bytes]
    simp only [Bool.or_eq_true, decide_eq_true_eq, beq_iff_eq, not_or, Slice.bytes_isEmpty,
      List.isEmpty_iff, Slice.head_bytes hyphen, Slice.getLast_bytes hyphen,
      length s valid.characters]
    exact ⟨⟨⟨valid.nonempty, by omega⟩, valid.start⟩, valid.stop⟩

/-- The loop over the labels: the flag it ends with is that of the last one. -/
theorem foldlM_scanLabel {labels : List (List Char)} {last : List Char} {init : Bool} :
    (labels ++ [last]).foldlM (fun _ part => scanLabel part) init = some d ↔
      (∀ label ∈ labels ++ [last], HostLabel label) ∧ d = last.all Char.isDigit := by
  induction labels generalizing init with
  | nil => simp [scanLabel_eq_some]
  | cons label labels ih =>
    rw [List.cons_append, List.foldlM_cons, Option.bind_eq_bind, Option.bind_eq_some_iff]
    constructor
    · rintro ⟨flag, scanned, rest⟩
      obtain ⟨valid, same⟩ := ih.mp rest
      refine ⟨fun part member => ?_, same⟩
      rcases List.mem_cons.mp member with rfl | member
      · exact (scanLabel_eq_some.mp scanned).1
      · exact valid part member
    · rintro ⟨valid, same⟩
      refine ⟨_, scanLabel_eq_some.mpr ⟨valid label List.mem_cons_self, rfl⟩, ih.mpr ⟨?_, same⟩⟩
      exact fun part member => valid part (List.mem_cons_of_mem _ member)

theorem HostName.characters (name : HostName s) : ∀ c ∈ s, c = '.' ∨ c.isAlphanum ∨ c = '-' := by
  obtain ⟨labels, last, rfl, valid, -, -⟩ := name
  intro c member
  rcases Slice.mem_intercalate member with dot | ⟨label, present, inside⟩
  · exact .inl dot
  · exact .inr ((valid label present).characters c inside)

theorem HostName.undotted (name : HostName s) : s.getLast? ≠ some '.' := by
  obtain ⟨labels, last, rfl, valid, -, -⟩ := name
  have label := valid last (by simp)
  obtain ⟨front, shape⟩ := Slice.intercalate_last (c := '.') labels last
  rw [shape, List.getLast?_append_of_ne_nil _ label.nonempty]
  intro dot
  exact label.undotted (List.mem_of_getLast? dot)

/-- What is left of a host name without its trailing dot. -/
theorem stripped_hostname : (if Slice.len s > 253 then false else
      match (s.splitOn '.').foldlM (fun _ part => scanLabel part) false with
      | none => false
      | some allDigits => !allDigits) = true ↔ HostName s := by
  constructor
  · intro accepted
    split at accepted
    · cases accepted
    · rename_i short
      split at accepted
      · cases accepted
      · rename_i allDigits scanned
        obtain ⟨labels, last, parts⟩ :=
          (List.eq_nil_or_concat (s.splitOn '.')).resolve_left (List.splitOn_ne_nil '.' s)
        have joined : s = ['.'].intercalate (labels ++ [last]) := by
          rw [← List.concat_eq_append, ← parts]
          exact (List.intercalate_splitOn '.').symm
        rw [parts, List.concat_eq_append] at scanned
        obtain ⟨valid, flag⟩ := foldlM_scanLabel.mp scanned
        rw [flag, Bool.not_eq_true', List.all_eq_false] at accepted
        refine ⟨labels, last, joined, valid, ?_, accepted⟩
        have ascii : Slice.len s = s.length := by
          refine Slice.len_eq_length fun c member => ?_
          rw [joined] at member
          rcases Slice.mem_intercalate member with rfl | ⟨label, present, inside⟩
          · decide
          · exact (valid label present).ascii c inside
        omega
  · intro name
    have ascii : Slice.len s = s.length := by
      refine Slice.len_eq_length fun c member => ?_
      rcases name.characters c member with rfl | alphanumeric | rfl
      · decide
      · exact isAlphanum_ascii alphanumeric
      · decide
    obtain ⟨labels, last, joined, valid, short, letter⟩ := name
    have parts : s.splitOn '.' = labels ++ [last] := by
      rw [joined]
      exact List.splitOn_intercalate '.' (fun label member => (valid label member).undotted)
        (by simp)
    rw [if_neg (by omega), parts, foldlM_scanLabel.mpr ⟨valid, rfl⟩]
    rw [Bool.not_eq_true', List.all_eq_false]
    exact letter

/-- Host names are those of the grammar, with a trailing dot or without. -/
theorem isHostname_iff (s : List Char) : isHostname s = true ↔
    HostName s ∨ ∃ name, s = name ++ ['.'] ∧ HostName name := by
  have nonempty : HostName s → s ≠ [] := by
    rintro name rfl
    obtain ⟨labels, last, joined, valid, -⟩ := name
    obtain ⟨front, shape⟩ := Slice.intercalate_last (c := '.') labels last
    rw [shape, eq_comm, List.append_eq_nil_iff] at joined
    exact (valid last (by simp)).nonempty joined.2
  by_cases empty : s = []
  · subst empty
    constructor
    · intro accepted
      cases accepted
    · rintro (name | ⟨name, shape, -⟩)
      · exact absurd rfl (nonempty name)
      · exact absurd shape (by simp)
  · rw [isHostname, if_neg (by simp [empty])]
    dsimp only
    rw [stripped_hostname]
    by_cases dotted : s.getLast? = some '.'
    · obtain ⟨name, shape⟩ := List.getLast?_eq_some_iff.mp dotted
      subst shape
      rw [Slice.stripSuffix_append, Option.getD_some]
      constructor
      · intro valid
        exact .inr ⟨name, rfl, valid⟩
      · rintro (whole | ⟨name', shape, valid⟩)
        · exact absurd dotted whole.undotted
        · rw [List.append_cancel_right shape]
          exact valid
    · rw [Slice.stripSuffix_eq_none.mpr dotted, Option.getD_none]
      constructor
      · intro valid
        exact .inl valid
      · rintro (valid | ⟨name, rfl, -⟩)
        · exact valid
        · exact absurd (by simp) dotted

/-! ### Hosts and ports -/

/-- A host and port as they read: an IPv6 address in brackets, or a host name or
IPv4 address, and a port or none. -/
structure HostPort where
  bracketed : Bool
  host : List Char
  port : Option (List Char)

namespace HostPort

def text (reading : HostPort) : List Char :=
  (if reading.bracketed then '[' :: reading.host ++ [']'] else reading.host) ++
    (match reading.port with
    | none => []
    | some port => ':' :: port)

/-- The parts are what they are read as. A port is the canonical numeral of a
number up to 65535. -/
structure Reads (portRequired : Bool) (reading : HostPort) : Prop where
  literal : reading.bracketed = true → isIpv6 parsers reading.host = true
  name : reading.bracketed = false →
    isHostname reading.host = true ∨ isIpv4 parsers reading.host = true
  port : ∀ port, reading.port = some port → ∃ n ≤ 65535, port = Nat.toDigits 10 n
  required : portRequired = true → reading.port.isSome

end HostPort

theorem isPort_iff : isPort s = true ↔ ∃ n ≤ 65535, s = Nat.toDigits 10 n := by
  have same : isPort s = (prefixLength s 65535).isSome := by
    have zero : (Slice.bytes s).head? = some (Slice.byte '0') ↔ s.head? = some '0' :=
      Slice.head_bytes (by decide)
    have first : ((Slice.bytes s).head? == some (Slice.byte '0')) = (s.head? == some '0') := by
      rw [Bool.eq_iff_iff, beq_iff_eq, beq_iff_eq, zero]
    unfold isPort prefixLength
    dsimp only
    rw [Slice.bytes_isEmpty, first, ← Slice.len]
    cases s.isEmpty <;> cases (Slice.bytes s).all Slice.isAsciiDigit <;>
      cases decide (Slice.len s > 1) && s.head? == some '0' <;> simp
  rw [same, Option.isSome_iff_exists]
  exact exists_congr fun n => prefixLength_eq_some (by omega)

theorem isPort_characters {port : List Char} (valid : isPort port = true) :
    ':' ∉ port ∧ ']' ∉ port := by
  obtain ⟨n, -, rfl⟩ := isPort_iff.mp valid
  constructor
  · intro member
    exact absurd (Numeral.canonical_toDigits.digits ':' member) (by decide)
  · intro member
    exact absurd (Numeral.canonical_toDigits.digits ']' member) (by decide)

/-- What may follow an address in brackets. -/
def portAfter (portRequired : Bool) : List Char → Bool
  | [] => !portRequired
  | c :: port => c == ':' && isPort port

section Cases
variable {parsers} {host rest port : List Char} {portRequired : Bool}

/-- A port comes after the only colon. -/
theorem portAfter_colon {c : Char} (accepted : portAfter portRequired (c :: port) = true) :
    c = ':' ∧ ':' ∉ port := by
  rw [portAfter, Bool.and_eq_true, beq_iff_eq] at accepted
  exact ⟨accepted.1, (isPort_characters accepted.2).1⟩

theorem literal_len : Slice.len ('[' :: host ++ [']']) = 1 + Slice.len host + 1 := by
  rw [Slice.len_append, Slice.len_cons]
  rfl

theorem literal_address :
    Slice.range ('[' :: host ++ ']' :: rest) 1 (1 + Slice.len host) = some host :=
  Slice.range_append ['['] host (']' :: rest)

theorem literal_port : Slice.range ('[' :: host ++ ']' :: ':' :: port) (1 + Slice.len host + 1 + 1)
    (Slice.len ('[' :: host ++ ']' :: ':' :: port)) = some port := by
  have whole : '[' :: host ++ ']' :: ':' :: port = ('[' :: host ++ [']', ':']) ++ port := by
    simp
  have position : Slice.len ('[' :: host ++ [']', ':']) = 1 + Slice.len host + 1 + 1 := by
    rw [Slice.len_append, Slice.len_cons]
    rfl
  rw [whole, ← position]
  exact Slice.range_suffix

/-- A text is split after the last bracket if it starts with one. -/
theorem isHostAndPort_literal (absent : ']' ∉ rest) :
    isHostAndPort parsers ('[' :: host ++ ']' :: rest) portRequired =
      some (isIpv6 parsers host && portAfter portRequired rest) := by
  have found : Slice.rfind ']' ('[' :: host ++ ']' :: rest) = some (1 + Slice.len host) := by
    rw [Slice.rfind_append absent, Slice.len_cons]
    rfl
  have split : '[' :: host ++ ']' :: rest = ('[' :: host ++ [']']) ++ rest := by simp
  unfold isHostAndPort
  rw [if_neg (by simp)]
  dsimp only
  rw [if_pos (by simp), found]
  dsimp only
  cases rest with
  | nil =>
    rw [if_pos literal_len.symm]
    cases portRequired with
    | true => simp [portAfter]
    | false =>
      rw [if_neg Bool.false_ne_true, literal_address]
      simp [portAfter]
  | cons c port =>
    have longer : ¬1 + Slice.len host + 1 = Slice.len ('[' :: host ++ ']' :: c :: port) := by
      have positive := c.utf8Size_pos
      rw [split, Slice.len_append, literal_len, Slice.len_cons]
      omega
    rw [if_neg longer]
    by_cases colon : c = ':' ∧ ':' ∉ port
    · obtain ⟨rfl, last⟩ := colon
      have after : some (1 + Slice.len host + 1) =
          Slice.rfind ':' ('[' :: host ++ ']' :: ':' :: port) := by
        rw [split, ← literal_len]
        exact (Slice.rfind_append last).symm
      rw [if_pos after, literal_address, literal_port]
      by_cases literal : isIpv6 parsers host = true
      · simp [portAfter, literal]
      · simp [literal]
    · have elsewhere : ¬some (1 + Slice.len host + 1) =
          Slice.rfind ':' ('[' :: host ++ ']' :: c :: port) := by
        rw [split, ← literal_len, eq_comm, Slice.rfind_eq_len]
        rintro ⟨port', same, last⟩
        cases same
        exact colon ⟨rfl, last⟩
      have rejected : portAfter portRequired (c :: port) = false := by
        rw [← Bool.not_eq_true]
        exact fun accepted => colon (portAfter_colon accepted)
      rw [if_neg elsewhere, rejected, Bool.and_false]

theorem isHostAndPort_open (starts : s.head? = some '[') (absent : ']' ∉ s) :
    isHostAndPort parsers s portRequired = some false := by
  have nonempty : ¬s.isEmpty = true := by
    cases s with
    | nil => cases starts
    | cons c s => simp
  unfold isHostAndPort
  rw [if_neg nonempty]
  dsimp only
  rw [if_pos starts, Slice.rfind_eq_none.mpr absent]

theorem isHostAndPort_alone (nonempty : s ≠ []) (starts : s.head? ≠ some '[') (absent : ':' ∉ s) :
    isHostAndPort parsers s portRequired =
      some (!portRequired && (isHostname s || isIpv4 parsers s)) := by
  unfold isHostAndPort
  rw [if_neg (by simp [nonempty])]
  dsimp only
  rw [if_neg starts, Slice.rfind_eq_none.mpr absent]

/-- A text is split at its last colon otherwise. -/
theorem isHostAndPort_pair (starts : (host ++ ':' :: port).head? ≠ some '[')
    (absent : ':' ∉ port) :
    isHostAndPort parsers (host ++ ':' :: port) portRequired =
      some ((isHostname host || isIpv4 parsers host) && isPort port) := by
  have suffix : Slice.range (host ++ ':' :: port) (Slice.len host + 1)
      (Slice.len (host ++ ':' :: port)) = some port := by
    have whole : host ++ ':' :: port = (host ++ [':']) ++ port := by simp
    have position : Slice.len (host ++ [':']) = Slice.len host + 1 := by
      rw [Slice.len_append]
      rfl
    rw [whole, ← position]
    exact Slice.range_suffix
  unfold isHostAndPort
  rw [if_neg (by simp)]
  dsimp only
  rw [if_neg starts, Slice.rfind_append absent]
  dsimp only
  rw [Slice.range_prefix, suffix]
  rfl

end Cases

namespace HostPort
variable {parsers} {reading : HostPort} {portRequired : Bool}

/-- What follows the host. -/
def after (reading : HostPort) : List Char :=
  match reading.port with
  | none => []
  | some port => ':' :: port

theorem text_bracketed (bracketed : reading.bracketed = true) :
    reading.text = '[' :: reading.host ++ ']' :: reading.after := by
  simp [text, after, bracketed]

theorem text_name (name : reading.bracketed = false) :
    reading.text = reading.host ++ reading.after := by
  simp [text, after, name]

variable (reads : reading.Reads parsers portRequired)
include reads

theorem Reads.after_characters : ']' ∉ reading.after ∧ (reading.after = [] ∨
    ∃ port, reading.port = some port ∧ reading.after = ':' :: port ∧ ':' ∉ port ∧
      isPort port = true) := by
  unfold after
  cases given : reading.port with
  | none => exact ⟨List.not_mem_nil, .inl rfl⟩
  | some port =>
    have valid : isPort port = true := isPort_iff.mpr (reads.port port given)
    obtain ⟨colon, bracket⟩ := isPort_characters valid
    exact ⟨by simp [bracket], .inr ⟨port, rfl, rfl, colon, valid⟩⟩

/-- The host that is not in brackets has none, and no colon. -/
theorem Reads.name_characters (plain : parsers.Plain) (name : reading.bracketed = false) :
    reading.host ≠ [] ∧ '[' ∉ reading.host ∧ ':' ∉ reading.host := by
  rcases reads.name name with hostname | ipv4
  · have characters : ∀ c ∈ reading.host, c = '.' ∨ c.isAlphanum ∨ c = '-' := by
      rcases (isHostname_iff _).mp hostname with whole | ⟨stripped, shape, valid⟩
      · exact whole.characters
      · intro c member
        rw [shape, List.mem_append, List.mem_singleton] at member
        rcases member with member | rfl
        · exact valid.characters c member
        · exact .inl rfl
    refine ⟨?_, ?_, ?_⟩
    · intro empty
      rw [empty] at hostname
      cases hostname
    · intro member
      exact absurd (characters '[' member) (by decide)
    · intro member
      exact absurd (characters ':' member) (by decide)
  · obtain ⟨v, parsed⟩ := Option.isSome_iff_exists.mp ipv4
    obtain ⟨nonempty, bracket, colon, -⟩ := plain.ipv4 _ v parsed
    exact ⟨nonempty, bracket, colon⟩

/-- A reading is in brackets if the text starts with one. -/
theorem Reads.bracketed_iff (plain : parsers.Plain) :
    reading.bracketed = true ↔ reading.text.head? = some '[' := by
  constructor
  · intro bracketed
    rw [text_bracketed bracketed]
    rfl
  · intro starts
    by_contra name
    rw [Bool.not_eq_true] at name
    obtain ⟨nonempty, bracket, -⟩ := reads.name_characters plain name
    rw [text_name name] at starts
    obtain ⟨c, host, shape⟩ := List.exists_cons_of_ne_nil nonempty
    rw [shape] at starts bracket
    cases starts
    exact bracket List.mem_cons_self

end HostPort

section Readings
variable {parsers} {portRequired : Bool}

/-- A text reads as a host and port in one way. -/
theorem HostPort.Reads.unique {reading other : HostPort} (same : reading.text = other.text)
    (plain : parsers.Plain) (reads : reading.Reads parsers portRequired)
    (reads' : other.Reads parsers portRequired) : reading = other := by
  obtain ⟨bracket, after⟩ := reads.after_characters
  obtain ⟨bracket', after'⟩ := reads'.after_characters
  have kinds : reading.bracketed = other.bracketed := by
    rw [Bool.eq_iff_iff, reads.bracketed_iff plain, reads'.bracketed_iff plain, same]
  have parts : reading.host = other.host ∧ reading.after = other.after := by
    cases bracketed : reading.bracketed with
    | true =>
      rw [HostPort.text_bracketed bracketed, HostPort.text_bracketed (kinds ▸ bracketed)] at same
      obtain ⟨front, rest⟩ := Slice.last_split same bracket bracket'
      exact ⟨(List.cons.inj front).2, rest⟩
    | false =>
      obtain ⟨-, -, colon⟩ := reads.name_characters plain bracketed
      obtain ⟨-, -, colon'⟩ := reads'.name_characters plain (kinds ▸ bracketed)
      rw [HostPort.text_name bracketed, HostPort.text_name (kinds ▸ bracketed)] at same
      rcases after with empty | ⟨port, -, shape, last, -⟩
      · rcases after' with empty' | ⟨port', -, shape', -, -⟩
        · rw [empty, empty', List.append_nil, List.append_nil] at same
          exact ⟨same, empty.trans empty'.symm⟩
        · rw [empty, shape', List.append_nil] at same
          rw [same] at colon
          exact absurd (by simp) colon
      · rcases after' with empty' | ⟨port', -, shape', last', -⟩
        · rw [shape, empty', List.append_nil] at same
          rw [← same] at colon'
          exact absurd (by simp) colon'
        · rw [shape, shape'] at same
          obtain ⟨hosts, ports⟩ := Slice.last_split same last last'
          exact ⟨hosts, by rw [shape, shape', ports]⟩
  have ports : reading.port = other.port := by
    have rest := parts.2
    unfold HostPort.after at rest
    cases given : reading.port <;> cases given' : other.port <;> simp_all
  cases reading
  cases other
  simp_all

theorem HostPort.Reads.portAfter {reading : HostPort}
    (reads : reading.Reads parsers portRequired) :
    portAfter portRequired reading.after = true := by
  rcases reads.after_characters.2 with empty | ⟨port, -, shape, -, valid⟩
  · have absent : reading.port = none := by
      unfold HostPort.after at empty
      cases given : reading.port with
      | none => rfl
      | some port => simp [given] at empty
    have optional : portRequired = false := by
      by_contra required
      have present := reads.required (by simpa using required)
      rw [absent] at present
      cases present
    rw [empty, WellKnown.portAfter, optional]
    rfl
  · rw [shape, WellKnown.portAfter, valid]
    rfl

theorem portAfter_reads {rest : List Char} (accepted : portAfter portRequired rest = true) :
    ∃ port : Option (List Char), (∀ bracketed host, HostPort.after ⟨bracketed, host, port⟩ = rest) ∧
      (∀ p, port = some p → ∃ n ≤ 65535, p = Nat.toDigits 10 n) ∧
      (portRequired = true → port.isSome) := by
  cases rest with
  | nil =>
    refine ⟨none, fun _ _ => rfl, ?_, ?_⟩
    · intro port given
      cases given
    · intro required
      rw [required] at accepted
      cases accepted
  | cons c port =>
    rw [portAfter, Bool.and_eq_true, beq_iff_eq] at accepted
    obtain ⟨rfl, valid⟩ := accepted
    refine ⟨some port, fun _ _ => rfl, fun p given => ?_, fun _ => rfl⟩
    cases given
    exact isPort_iff.mp valid

/-- A text in brackets is accepted as it reads. -/
theorem literal_reads (plain : parsers.Plain) {host rest : List Char} (absent : ']' ∉ rest) :
    (isIpv6 parsers host && portAfter portRequired rest) = true ↔
      ∃ reading : HostPort, reading.text = '[' :: host ++ ']' :: rest ∧
        reading.Reads parsers portRequired := by
  rw [Bool.and_eq_true]
  constructor
  · rintro ⟨address, accepted⟩
    obtain ⟨port, after, valid, required⟩ := portAfter_reads accepted
    refine ⟨⟨true, host, port⟩, ?_, {
      literal := fun _ => address
      name := fun name => by cases name
      port := valid
      required := required }⟩
    rw [HostPort.text_bracketed rfl, after]
  · rintro ⟨reading, same, reads⟩
    have bracketed : reading.bracketed = true := by
      rw [reads.bracketed_iff plain, same]
      rfl
    rw [HostPort.text_bracketed bracketed] at same
    obtain ⟨front, after⟩ := Slice.last_split same reads.after_characters.1 absent
    rw [← (List.cons.inj front).2, ← after]
    exact ⟨reads.literal bracketed, reads.portAfter⟩

/-- Any other text is accepted as it reads. -/
theorem name_reads (plain : parsers.Plain) (nonempty : s ≠ []) (starts : s.head? ≠ some '[') :
    ∃ accepted, isHostAndPort parsers s portRequired = some accepted ∧
      (accepted = true ↔
        ∃ reading : HostPort, reading.text = s ∧ reading.Reads parsers portRequired) := by
  have name : ∀ reading : HostPort, reading.text = s → reading.Reads parsers portRequired →
      reading.bracketed = false := by
    rintro reading rfl reads
    rw [← Bool.not_eq_true, reads.bracketed_iff plain]
    exact starts
  cases found : Slice.rfind ':' s with
  | none =>
    have absent := Slice.rfind_eq_none.mp found
    refine ⟨_, isHostAndPort_alone nonempty starts absent, ?_⟩
    rw [Bool.and_eq_true, Bool.not_eq_true', Bool.or_eq_true]
    constructor
    · rintro ⟨optional, host⟩
      refine ⟨⟨false, s, none⟩, by simp [HostPort.text], {
        literal := fun bracketed => by cases bracketed
        name := fun _ => host
        port := fun port given => by cases given
        required := fun required => ?_ }⟩
      rw [optional] at required
      cases required
    · rintro ⟨reading, same, reads⟩
      have accepted := reads.portAfter
      have plainName := name reading same reads
      rw [HostPort.text_name plainName] at same
      rcases reads.after_characters.2 with empty | ⟨port, -, shape, -, -⟩
      · rw [empty, List.append_nil] at same
        rw [empty, portAfter, Bool.not_eq_true'] at accepted
        rw [← same]
        exact ⟨accepted, reads.name plainName⟩
      · rw [shape] at same
        rw [← same] at absent
        exact absurd (by simp) absent
  | some i =>
    obtain ⟨host, port, rfl, absent, -⟩ := Slice.rfind_eq_some.mp found
    refine ⟨_, isHostAndPort_pair starts absent, ?_⟩
    rw [Bool.and_eq_true, Bool.or_eq_true, isPort_iff]
    constructor
    · rintro ⟨valid, number⟩
      refine ⟨⟨false, host, some port⟩, by simp [HostPort.text], {
        literal := fun bracketed => by cases bracketed
        name := fun _ => valid
        port := fun p given => ?_
        required := fun _ => rfl }⟩
      cases given
      exact number
    · rintro ⟨reading, same, reads⟩
      have plainName := name reading same reads
      rw [HostPort.text_name plainName] at same
      rcases reads.after_characters.2 with empty | ⟨port', -, shape, last, valid⟩
      · obtain ⟨-, -, colon⟩ := reads.name_characters plain plainName
        rw [empty, List.append_nil] at same
        rw [same] at colon
        exact absurd (by simp) colon
      · rw [shape] at same
        obtain ⟨hosts, ports⟩ := Slice.last_split same last absent
        rw [← hosts, ← ports]
        exact ⟨reads.name plainName, isPort_iff.mp valid⟩

/-- A text is accepted as it reads. -/
theorem isHostAndPort_reads (plain : parsers.Plain) (s : List Char) (portRequired : Bool) :
    ∃ accepted, isHostAndPort parsers s portRequired = some accepted ∧
      (accepted = true ↔
        ∃ reading : HostPort, reading.text = s ∧ reading.Reads parsers portRequired) := by
  by_cases empty : s = []
  · subst empty
    refine ⟨false, rfl, by simp, ?_⟩
    rintro ⟨reading, same, reads⟩
    cases bracketed : reading.bracketed with
    | true =>
      rw [HostPort.text_bracketed bracketed] at same
      cases same
    | false =>
      rw [HostPort.text_name bracketed, List.append_eq_nil_iff] at same
      exact absurd same.1 (reads.name_characters plain bracketed).1
  · by_cases starts : s.head? = some '['
    · cases found : Slice.rfind ']' s with
      | none =>
        have absent := Slice.rfind_eq_none.mp found
        refine ⟨false, isHostAndPort_open starts absent, by simp, ?_⟩
        rintro ⟨reading, rfl, reads⟩
        rw [HostPort.text_bracketed ((reads.bracketed_iff plain).mpr starts)] at absent
        exact absurd (by simp) absent
      | some i =>
        obtain ⟨front, rest, rfl, absent, -⟩ := Slice.rfind_eq_some.mp found
        cases front with
        | nil => cases starts
        | cons c host =>
          cases starts
          exact ⟨_, isHostAndPort_literal absent, literal_reads plain absent⟩
    · exact name_reads plain empty starts

/-- A host and port is accepted if and only if it reads as one, which it does in
one way, and no slice of it is out of range. -/
theorem hostAndPort_iff (plain : parsers.Plain) (s : List Char) (portRequired : Bool) :
    (isHostAndPort parsers s portRequired).isSome ∧
    (isHostAndPort parsers s portRequired = some true ↔
      ∃ reading : HostPort, reading.text = s ∧ reading.Reads parsers portRequired) ∧
    ∀ reading other : HostPort, reading.text = s → reading.Reads parsers portRequired →
      other.text = s → other.Reads parsers portRequired → reading = other := by
  obtain ⟨accepted, result, reads⟩ := isHostAndPort_reads plain s portRequired
  refine ⟨by rw [result]; rfl, ?_, ?_⟩
  · rw [result, Option.some.injEq]
    exact reads
  · intro reading other same valid same' valid'
    exact valid.unique (same.trans same'.symm) plain valid'

/-- A zone ID may hold what ends an address. -/
theorem hostAndPort_iff_zone :
    isHostAndPort .std "[::1%a]:b]:443".toList true = some true ∧
    ∃ reading : HostPort, reading.text = "[::1%a]:b]:443".toList ∧
      reading.Reads .std true :=
  ⟨by decide, (hostAndPort_iff AddressParsers.std_plain "[::1%a]:b]:443".toList true).2.1.mp
    (by decide)⟩

end Readings

end WellKnown

end Protovalidate
