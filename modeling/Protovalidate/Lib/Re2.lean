import Mathlib.Data.List.TakeWhile

/-!
# Bracket classes in RE2

Where the bracket classes of a pattern begin and end. Inside a class an opening
bracket is a character like others, unless it begins a name between `[:` and `:]`,
and so is a closing bracket that comes first. A range takes the character after its
dash, whichever it is.
-/

namespace Re2

/-- A part of a pattern. -/
inductive Token
  /-- A character outside of classes. -/
  | char (c : Char)
  /-- The bracket that opens a class, with a caret or not, and a closing bracket that
  comes first or not. -/
  | opens (negated first : Bool)
  /-- A character of a class. -/
  | inside (c : Char)
  /-- A named class. -/
  | name (text : List Char)
  | closes
  /-- A backslash, and the character after it. -/
  | escape (inClass : Bool) (c : Char)
  deriving DecidableEq, Repr

def Token.text : Token → List Char
  | .char c => [c]
  | .opens negated first =>
    '[' :: ((if negated then ['^'] else []) ++ (if first then [']'] else []))
  | .inside c => [c]
  | .name text => '[' :: ':' :: (text ++ [':', ']'])
  | .closes => [']']
  | .escape _ c => ['\\', c]

def isHex (c : Char) : Bool := c.isDigit || ('a' ≤ c && c ≤ 'f') || ('A' ≤ c && c ≤ 'F')

def isOctal (c : Char) : Bool := '0' ≤ c && c ≤ '7'

/-- The escapes of C. -/
def C_ESCAPES : List Char := ['n', 't', 'v', 'f', 'r', 'a']

/-- The escapes that are classes themselves. -/
def PERL_CLASSES : List Char := ['d', 'D', 'w', 'W', 's', 'S']

/-- What begins a quotation, or the name of a Unicode class. -/
def UNSUPPORTED : List Char := ['Q', 'E', 'p', 'P']

def POSIX_NAMES : List String :=
  ["alnum", "alpha", "ascii", "blank", "cntrl", "digit", "graph", "lower", "print", "punct",
    "space", "upper", "word", "xdigit"]

/-- A name, or its complement. -/
def isPosixName (text : List Char) : Bool :=
  POSIX_NAMES.any fun name => text == name.toList || text == '^' :: name.toList

/-- A name, up to `:]`. -/
def endName : List Char → Option (List Char × List Char)
  | [] => none
  | c :: s =>
    if c = ':' && s.head? = some ']' then some ([], s.drop 1)
    else (endName s).map fun found => (c :: found.1, found.2)

/-- An escaped character of a class, in the character after the backslash and those
that belong to it: a code in hexadecimal or octal digits, an escape of C, or
punctuation, an underscore included. -/
def readEscape : List Char → Option (Char × List Char × List Char)
  | [] => none
  | c :: s =>
    if c = 'x' then
      if s.head? = some '\x7b' then
        let digits := (s.drop 1).takeWhile isHex
        let rest := s.drop (1 + digits.length)
        if !digits.isEmpty && rest.head? = some '\x7d' then
          some (c, '\x7b' :: (digits ++ ['\x7d']), rest.drop 1)
        else none
      else
        let digits := s.take 2
        if digits.length = 2 && digits.all isHex then some (c, digits, s.drop 2) else none
    else if isOctal c then
      let digits := (s.take 2).takeWhile isOctal
      if c ≠ '0' && digits.isEmpty then none else some (c, digits, s.drop digits.length)
    else if C_ESCAPES.contains c || (decide (c.toNat < 128) && !c.isAlphanum) then some (c, [], s)
    else none

/-- One character of a class. -/
def readChar : List Char → Option (List Token × List Char)
  | [] => none
  | c :: s =>
    if c = '\\' then do
      let (c, more, s) ← readEscape s
      return (.escape true c :: more.map .inside, s)
    else some ([.inside c], s)

/-- The other end of a range, if a character begins one. -/
def readHigh (s : List Char) : Option (List Token × List Char) :=
  if s.head? = some '-' && (s.drop 1).head? ≠ none && (s.drop 1).head? ≠ some ']' then do
    let (high, s) ← readChar (s.drop 1)
    return (.inside '-' :: high, s)
  else some ([], s)

def readRange (s : List Char) : Option (List Token × List Char) := do
  let (low, s) ← readChar s
  let (high, s) ← readHigh s
  return (low ++ high, s)

/-- A named class, a class that is an escape, or a range. -/
def readItem (s : List Char) : Option (List Token × List Char) :=
  match s with
  | '[' :: ':' :: s' =>
    match endName s' with
    | some (name, s) => if isPosixName name then some ([.name name], s) else none
    | none => readRange s
  | '\\' :: c :: s' => if PERL_CLASSES.contains c then some ([.escape true c], s') else readRange s
  | s => readRange s

/-- The rest of a class. -/
def readItems : Nat → List Char → Option (List Token × List Char)
  | 0, _ => none
  | fuel + 1, s =>
    if s.head? = some ']' then some ([.closes], s.drop 1)
    else do
      let (item, s) ← readItem s
      let (more, s) ← readItems fuel s
      return (item ++ more, s)

/-- What follows the bracket of a class, and its caret. A closing bracket that comes
first may begin a range. -/
def readBody (fuel : Nat) (negated : Bool) (s : List Char) : Option (List Token × List Char) :=
  if s.head? = some ']' then do
    let (high, s) ← readHigh (s.drop 1)
    let (items, s) ← readItems fuel s
    return (.opens negated true :: (high ++ items), s)
  else do
    let (items, s) ← readItems fuel s
    return (.opens negated false :: items, s)

/-- A class, after its bracket. -/
def readClass (fuel : Nat) (s : List Char) : Option (List Token × List Char) :=
  if s.head? = some '^' then readBody fuel true (s.drop 1) else readBody fuel false s

/-- The parts of a pattern, up to a number of them. -/
def readPattern : Nat → List Char → Option (List Token)
  | 0, _ => none
  | fuel + 1, s =>
    match s with
    | [] => some []
    | '\\' :: c :: s =>
      if UNSUPPORTED.contains c then none
      else do
        let more ← readPattern fuel s
        return .escape false c :: more
    | '[' :: s => do
      let (cls, s) ← readClass fuel s
      let more ← readPattern fuel s
      return cls ++ more
    | c :: s => do
      let more ← readPattern fuel s
      return .char c :: more

/-- The parts of a pattern without quotations and Unicode classes. -/
def tokens (pattern : List Char) : Option (List Token) :=
  readPattern (pattern.length + 1) pattern

/-- The parts of a pattern, each where it may stand. -/
inductive Placed : Bool → List Token → Prop
  | done : Placed false []
  | char {c : Char} {rest : List Token} : c ≠ '\\' → c ≠ '[' → Placed false rest →
    Placed false (.char c :: rest)
  | backslash : Placed false [.char '\\']
  | opens {negated first : Bool} {rest : List Token} : Placed true rest →
    Placed false (.opens negated first :: rest)
  | inside {c : Char} {rest : List Token} : c ≠ '\\' → c ≠ ']' → Placed true rest →
    Placed true (.inside c :: rest)
  | name {text : List Char} {rest : List Token} : (∀ c ∈ text, c.isAlpha ∨ c = '^') →
    Placed true rest → Placed true (.name text :: rest)
  | closes {rest : List Token} : Placed false rest → Placed true (.closes :: rest)
  | escape {inClass : Bool} {c : Char} {rest : List Token} : Placed inClass rest →
    Placed inClass (.escape inClass c :: rest)

/-- A part that may stand in a class. -/
def Token.Inside : Token → Prop
  | .inside c => c ≠ '\\' ∧ c ≠ ']'
  | .name text => ∀ c ∈ text, c.isAlpha ∨ c = '^'
  | .escape inClass _ => inClass = true
  | _ => False

theorem Placed.append {item rest : List Token} (inside : ∀ token ∈ item, token.Inside)
    (placed : Placed true rest) : Placed true (item ++ rest) := by
  induction item with
  | nil => exact placed
  | cons token item ih =>
    have here := inside token List.mem_cons_self
    have more := ih fun token member => inside token (List.mem_cons_of_mem _ member)
    cases token with
    | inside c => exact .inside here.1 here.2 more
    | name text => exact .name here more
    | escape inClass c =>
      cases here
      exact .escape more
    | _ => exact absurd here id

/-- What is read of a class: parts that may stand there, and the rest of the text. -/
structure Reads (s : List Char) (tokens : List Token) (rest : List Char) : Prop where
  text : s = tokens.flatMap Token.text ++ rest
  inside : ∀ token ∈ tokens, token.Inside

section Reads
variable {s rest : List Char} {tokens : List Token}

theorem Reads.append {more : List Token} {last : List Char} (first : Reads s tokens rest)
    (second : Reads rest more last) : Reads s (tokens ++ more) last where
  text := by rw [first.text, second.text, List.flatMap_append, List.append_assoc]
  inside token member := by
    rcases List.mem_append.mp member with here | later
    · exact first.inside token here
    · exact second.inside token later

/-- A character that neither ends a class nor begins an escape. -/
def Plain (c : Char) : Prop := c ≠ '\\' ∧ c ≠ ']'

theorem plain_hex {c : Char} (hex : isHex c = true) : Plain c := by
  constructor <;>
    · rintro rfl
      exact absurd hex (by decide)

theorem plain_octal {c : Char} (octal : isOctal c = true) : Plain c := by
  constructor <;>
    · rintro rfl
      exact absurd octal (by decide)

theorem head_drop {c : Char} (first : s.head? = some c) : s = c :: s.drop 1 := by
  cases s with
  | nil => cases first
  | cons d s =>
    cases first
    rfl

theorem readEscape_reads {c : Char} {more : List Char}
    (read : readEscape s = some (c, more, rest)) :
    s = c :: (more ++ rest) ∧ ∀ d ∈ more, Plain d := by
  cases s with
  | nil => cases read
  | cons b s =>
    simp only [readEscape] at read
    split_ifs at read with hex braced closed pair octal alone single
    · simp only [Option.some.injEq, Prod.mk.injEq] at read
      obtain ⟨rfl, rfl, rfl⟩ := read
      have digits : (s.drop 1).takeWhile isHex <+: s.drop 1 := List.takeWhile_prefix _
      have split := List.prefix_iff_eq_append.mp digits
      rw [List.drop_drop] at split
      rw [Bool.and_eq_true, decide_eq_true_eq] at closed
      constructor
      · rw [List.cons.injEq]
        refine ⟨rfl, ?_⟩
        conv => lhs; rw [head_drop braced, ← split, head_drop closed.2]
        simp
      · intro d member
        simp only [List.mem_cons, List.mem_append, List.not_mem_nil, or_false] at member
        rcases member with rfl | digit | rfl
        · exact ⟨by decide, by decide⟩
        · exact plain_hex (List.mem_takeWhile_imp digit)
        · exact ⟨by decide, by decide⟩
    · simp only [Option.some.injEq, Prod.mk.injEq] at read
      obtain ⟨rfl, rfl, rfl⟩ := read
      rw [Bool.and_eq_true, List.all_eq_true] at pair
      exact ⟨by rw [List.take_append_drop], fun d member => plain_hex (pair.2 d member)⟩
    · simp only [Option.some.injEq, Prod.mk.injEq] at read
      obtain ⟨rfl, rfl, rfl⟩ := read
      have digits : (s.take 2).takeWhile isOctal <+: s :=
        (List.takeWhile_prefix _).trans (List.take_prefix 2 s)
      exact ⟨by rw [List.prefix_iff_eq_append.mp digits],
        fun d member => plain_octal (List.mem_takeWhile_imp member)⟩
    · simp only [Option.some.injEq, Prod.mk.injEq] at read
      obtain ⟨rfl, rfl, rfl⟩ := read
      exact ⟨rfl, fun d member => by cases member⟩

theorem readChar_reads (read : readChar s = some (tokens, rest)) (open_ : s.head? ≠ some ']') :
    Reads s tokens rest := by
  cases s with
  | nil => cases read
  | cons c s =>
    simp only [readChar] at read
    by_cases backslash : c = '\\'
    · rw [if_pos backslash] at read
      obtain ⟨⟨d, more, rest'⟩, escaped, same⟩ := Option.bind_eq_some_iff.mp read
      cases same
      obtain ⟨text, plain⟩ := readEscape_reads escaped
      constructor
      · simp [Token.text, backslash, text, List.flatMap_map]
      · intro token member
        rcases List.mem_cons.mp member with rfl | later
        · rfl
        · obtain ⟨e, digit, rfl⟩ := List.mem_map.mp later
          exact plain e digit
    · rw [if_neg backslash] at read
      cases read
      have other : c ≠ ']' := fun same => open_ (by rw [same]; rfl)
      refine ⟨rfl, fun token member => ?_⟩
      rw [List.mem_singleton.mp member]
      exact ⟨backslash, other⟩

theorem readHigh_reads (read : readHigh s = some (tokens, rest)) : Reads s tokens rest := by
  unfold readHigh at read
  split_ifs at read with dash
  · simp only [Bool.and_eq_true, decide_eq_true_eq, ne_eq] at dash
    obtain ⟨⟨dash, -⟩, open_⟩ := dash
    obtain ⟨⟨high, rest'⟩, found, same⟩ := Option.bind_eq_some_iff.mp read
    cases same
    have reads := readChar_reads found open_
    constructor
    · rw [head_drop dash, reads.text]
      rfl
    · intro token member
      rcases List.mem_cons.mp member with rfl | later
      · exact ⟨by decide, by decide⟩
      · exact reads.inside token later
  · cases read
    exact ⟨rfl, fun token member => by cases member⟩

theorem readRange_reads (read : readRange s = some (tokens, rest)) (open_ : s.head? ≠ some ']') :
    Reads s tokens rest := by
  obtain ⟨⟨low, rest'⟩, first, read⟩ := Option.bind_eq_some_iff.mp read
  obtain ⟨⟨high, rest''⟩, second, same⟩ := Option.bind_eq_some_iff.mp read
  cases same
  exact (readChar_reads first open_).append (readHigh_reads second)

theorem endName_text {name : List Char} (read : endName s = some (name, rest)) :
    s = name ++ ':' :: ']' :: rest := by
  induction s generalizing name with
  | nil => cases read
  | cons c s ih =>
    simp only [endName] at read
    split_ifs at read with closing
    · simp only [Bool.and_eq_true, decide_eq_true_eq] at closing
      simp only [Option.some.injEq, Prod.mk.injEq] at read
      obtain ⟨rfl, rfl⟩ := read
      rw [closing.1, List.nil_append, ← head_drop closing.2]
    · obtain ⟨⟨name', rest'⟩, found, same⟩ := Option.map_eq_some_iff.mp read
      cases same
      rw [List.cons_append, ← ih found]

theorem posix_letters {text : List Char} (posix : isPosixName text = true) :
    ∀ c ∈ text, c.isAlpha ∨ c = '^' := by
  have letters : ∀ name ∈ POSIX_NAMES, ∀ c ∈ name.toList, c.isAlpha = true := by
    have all : (POSIX_NAMES.all fun name => name.toList.all Char.isAlpha) = true := by decide
    intro name member c inside
    exact List.all_eq_true.mp (List.all_eq_true.mp all name member) c inside
  simp only [isPosixName, List.any_eq_true, Bool.or_eq_true, beq_iff_eq] at posix
  obtain ⟨name, member, rfl | rfl⟩ := posix
  · exact fun c inside => .inl (letters name member c inside)
  · intro c inside
    rcases List.mem_cons.mp inside with rfl | later
    · exact .inr rfl
    · exact .inl (letters name member c later)

theorem readItem_reads (read : readItem s = some (tokens, rest)) (open_ : s.head? ≠ some ']') :
    Reads s tokens rest := by
  unfold readItem at read
  split at read
  · split at read
    · rename_i s' name rest' ended
      split_ifs at read with posix
      simp only [Option.some.injEq, Prod.mk.injEq] at read
      obtain ⟨rfl, rfl⟩ := read
      constructor
      · simp [Token.text, endName_text ended]
      · intro token member
        rw [List.mem_singleton.mp member]
        exact posix_letters posix
    · exact readRange_reads read open_
  · split_ifs at read with perl
    · simp only [Option.some.injEq, Prod.mk.injEq] at read
      obtain ⟨rfl, rfl⟩ := read
      refine ⟨rfl, fun token member => ?_⟩
      rw [List.mem_singleton.mp member]
      rfl
    · exact readRange_reads read open_
  · exact readRange_reads read open_

/-- The rest of a class ends it. -/
theorem readItems_placed {fuel : Nat} (read : readItems fuel s = some (tokens, rest)) :
    s = tokens.flatMap Token.text ++ rest ∧
      ∀ more, Placed false more → Placed true (tokens ++ more) := by
  induction fuel generalizing s tokens with
  | zero => cases read
  | succ fuel ih =>
    simp only [readItems] at read
    split_ifs at read with closing
    · cases read
      exact ⟨head_drop closing, fun more placed => .closes placed⟩
    · obtain ⟨⟨item, s'⟩, found, read⟩ := Option.bind_eq_some_iff.mp read
      obtain ⟨⟨items, rest'⟩, later, same⟩ := Option.bind_eq_some_iff.mp read
      cases same
      have reads := readItem_reads found closing
      obtain ⟨text, placed⟩ := ih later
      constructor
      · rw [List.flatMap_append, List.append_assoc, ← text]
        exact reads.text
      · intro more after
        rw [List.append_assoc]
        exact (placed more after).append reads.inside

theorem readBody_placed {fuel : Nat} {negated : Bool}
    (read : readBody fuel negated s = some (tokens, rest)) :
    '[' :: ((if negated then ['^'] else []) ++ s) = tokens.flatMap Token.text ++ rest ∧
      ∀ more, Placed false more → Placed false (tokens ++ more) := by
  unfold readBody at read
  split_ifs at read with closing
  · obtain ⟨⟨high, s'⟩, found, read⟩ := Option.bind_eq_some_iff.mp read
    obtain ⟨⟨items, rest'⟩, later, same⟩ := Option.bind_eq_some_iff.mp read
    cases same
    have reads := readHigh_reads found
    obtain ⟨text, placed⟩ := readItems_placed later
    constructor
    · conv => lhs; rw [head_drop closing, reads.text, text]
      simp [Token.text]
    · intro more after
      rw [List.cons_append, List.append_assoc]
      exact .opens ((placed more after).append reads.inside)
  · obtain ⟨⟨items, rest'⟩, later, same⟩ := Option.bind_eq_some_iff.mp read
    cases same
    obtain ⟨text, placed⟩ := readItems_placed later
    constructor
    · rw [text]
      simp [Token.text]
    · intro more after
      exact .opens (placed more after)

theorem readClass_placed {fuel : Nat} (read : readClass fuel s = some (tokens, rest)) :
    '[' :: s = tokens.flatMap Token.text ++ rest ∧
      ∀ more, Placed false more → Placed false (tokens ++ more) := by
  unfold readClass at read
  split_ifs at read with caret
  · obtain ⟨text, placed⟩ := readBody_placed read
    refine ⟨?_, placed⟩
    rw [← text, head_drop caret]
    rfl
  · exact readBody_placed read

/-- A pattern is made of its parts, each where it may stand. -/
theorem readPattern_placed {fuel : Nat} (read : readPattern fuel s = some tokens) :
    s = tokens.flatMap Token.text ∧ Placed false tokens := by
  induction fuel generalizing s tokens with
  | zero => cases read
  | succ fuel ih =>
    simp only [readPattern] at read
    split at read
    · cases read
      exact ⟨rfl, .done⟩
    · split_ifs at read with unsupported
      obtain ⟨more, later, same⟩ := Option.bind_eq_some_iff.mp read
      cases same
      obtain ⟨text, placed⟩ := ih later
      exact ⟨by rw [List.flatMap_cons, ← text]; rfl, .escape placed⟩
    · obtain ⟨⟨cls, s'⟩, found, read⟩ := Option.bind_eq_some_iff.mp read
      obtain ⟨more, later, same⟩ := Option.bind_eq_some_iff.mp read
      cases same
      obtain ⟨text, placed⟩ := readClass_placed found
      obtain ⟨text', placed'⟩ := ih later
      exact ⟨by rw [List.flatMap_append, ← text', text], placed more placed'⟩
    · rename_i c s backslash bracket
      obtain ⟨more, later, same⟩ := Option.bind_eq_some_iff.mp read
      cases same
      obtain ⟨text, placed⟩ := ih later
      refine ⟨by rw [List.flatMap_cons, ← text]; rfl, ?_⟩
      by_cases last : c = '\\'
      · subst last
        have end_ : s = [] := by
          cases s with
          | nil => rfl
          | cons d s => exact (backslash d s rfl rfl).elim
        subst end_
        cases fuel with
        | zero => cases later
        | succ fuel =>
          cases later
          exact .backslash
      · exact .char last (fun same => bracket same) placed

theorem tokens_placed (read : Re2.tokens s = some tokens) :
    s = tokens.flatMap Token.text ∧ Placed false tokens :=
  readPattern_placed read

end Reads

end Re2
