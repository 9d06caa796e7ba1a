import Mathlib.Data.List.Basic

/-!
# Regular expressions

An expression takes a part of a text, from one position to another. A text matches
if the expression takes some part of it; anchors hold the part to the ends of the
text. The matcher finds every position at which a part can end.
-/

namespace Regexes

/-- A place in a text. -/
structure Position where
  before : List Char
  after : List Char
  deriving DecidableEq, Repr

/-- The characters in some ranges, or those in none of them. -/
structure CharSet where
  negated : Bool
  ranges : List (Char × Char)
  deriving DecidableEq, Repr

def CharSet.has (s : CharSet) (c : Char) : Bool :=
  (s.ranges.any fun range => decide (range.1 ≤ c) && decide (c ≤ range.2)) != s.negated

inductive Expr
  | empty
  | set (s : CharSet)
  | start
  | stop
  | seq (first second : Expr)
  | alt (first second : Expr)
  | star (expr : Expr)
  deriving DecidableEq, Repr

def one (c : Char) : Expr := .set ⟨false, [(c, c)]⟩

/-- What an expression takes. -/
inductive Takes : Expr → Position → Position → Prop
  | empty {p : Position} : Takes .empty p p
  | set {s : CharSet} {before after : List Char} {c : Char} : s.has c = true →
    Takes (.set s) ⟨before, c :: after⟩ ⟨before ++ [c], after⟩
  | start {after : List Char} : Takes .start ⟨[], after⟩ ⟨[], after⟩
  | stop {before : List Char} : Takes .stop ⟨before, []⟩ ⟨before, []⟩
  | seq {a b : Expr} {p q r : Position} : Takes a p q → Takes b q r → Takes (.seq a b) p r
  | left {a b : Expr} {p q : Position} : Takes a p q → Takes (.alt a b) p q
  | right {a b : Expr} {p q : Position} : Takes b p q → Takes (.alt a b) p q
  | done {a : Expr} {p : Position} : Takes (.star a) p p
  | more {a : Expr} {p q r : Position} : Takes a p q → Takes (.star a) q r → Takes (.star a) p r

def Expr.Matches (expr : Expr) (text : List Char) : Prop :=
  ∃ before after q, text = before ++ after ∧ Takes expr ⟨before, after⟩ q

/-- Up to a number of steps. -/
def upTo (step : Position → List Position) : Nat → Position → List Position
  | 0, p => [p]
  | n + 1, p => p :: (step p).flatMap (upTo step n)

/-- Where what an expression takes can end. -/
def Expr.ends : Expr → Position → List Position
  | .empty, p => [p]
  | .set s, ⟨before, after⟩ =>
    match after with
    | [] => []
    | c :: after => if s.has c then [⟨before ++ [c], after⟩] else []
  | .start, p => if p.before.isEmpty then [p] else []
  | .stop, p => if p.after.isEmpty then [p] else []
  | .seq a b, p => (a.ends p).flatMap b.ends
  | .alt a b, p => a.ends p ++ b.ends p
  | .star a, p => upTo a.ends p.after.length p

/-- The positions of a text, from one on. -/
def positions (before : List Char) : List Char → List Position
  | [] => [⟨before, []⟩]
  | c :: after => ⟨before, c :: after⟩ :: positions (before ++ [c]) after

def Expr.isMatch (expr : Expr) (text : List Char) : Bool :=
  (positions [] text).any fun p => !(expr.ends p).isEmpty

section Takes
variable {a b : Expr} {p q r : Position}

theorem takes_seq : Takes (.seq a b) p r ↔ ∃ q, Takes a p q ∧ Takes b q r := by
  constructor
  · intro takes
    cases takes with
    | seq first second => exact ⟨_, first, second⟩
  · rintro ⟨q, first, second⟩
    exact .seq first second

theorem takes_alt : Takes (.alt a b) p q ↔ Takes a p q ∨ Takes b p q := by
  constructor
  · intro takes
    cases takes with
    | left first => exact .inl first
    | right second => exact .inr second
  · rintro (first | second)
    · exact .left first
    · exact .right second

theorem takes_empty : Takes .empty p q ↔ q = p := by
  constructor
  · intro takes
    cases takes
    rfl
  · rintro rfl
    exact .empty

theorem takes_start : Takes .start p q ↔ p.before = [] ∧ q = p := by
  constructor
  · intro takes
    cases takes
    exact ⟨rfl, rfl⟩
  · obtain ⟨before, after⟩ := p
    rintro ⟨rfl, rfl⟩
    exact .start

theorem takes_stop : Takes .stop p q ↔ p.after = [] ∧ q = p := by
  constructor
  · intro takes
    cases takes
    exact ⟨rfl, rfl⟩
  · obtain ⟨before, after⟩ := p
    rintro ⟨rfl, rfl⟩
    exact .stop

theorem takes_set {s : CharSet} : Takes (.set s) p q ↔
    ∃ c, s.has c = true ∧ p.after = c :: q.after ∧ q.before = p.before ++ [c] := by
  constructor
  · intro takes
    cases takes with
    | set has => exact ⟨_, has, rfl, rfl⟩
  · obtain ⟨before, after⟩ := p
    obtain ⟨before', after'⟩ := q
    rintro ⟨c, has, split, reached⟩
    obtain rfl : after = c :: after' := split
    obtain rfl : before' = before ++ [c] := reached
    exact .set has

/-- What is taken lies between the positions. -/
theorem Takes.between {expr : Expr} (takes : Takes expr p q) :
    ∃ taken, p.after = taken ++ q.after ∧ q.before = p.before ++ taken := by
  induction takes with
  | set _ => exact ⟨[_], rfl, rfl⟩
  | seq _ _ first second =>
    obtain ⟨taken, after, before⟩ := first
    obtain ⟨taken', after', before'⟩ := second
    exact ⟨taken ++ taken', by simp [after, after'], by simp [before, before']⟩
  | more _ _ first second =>
    obtain ⟨taken, after, before⟩ := first
    obtain ⟨taken', after', before'⟩ := second
    exact ⟨taken ++ taken', by simp [after, after'], by simp [before, before']⟩
  | left _ ih => exact ih
  | right _ ih => exact ih
  | _ => exact ⟨[], rfl, (List.append_nil _).symm⟩

/-- A repeated set takes characters of the set. -/
theorem takes_star_set {s : CharSet} : Takes (.star (.set s)) p q ↔
    ∃ taken, (∀ c ∈ taken, s.has c = true) ∧ p.after = taken ++ q.after ∧
      q.before = p.before ++ taken := by
  constructor
  · intro takes
    generalize starred : Expr.star (.set s) = expr at takes
    induction takes with
    | done => exact ⟨[], by simp, rfl, (List.append_nil _).symm⟩
    | more first _ _ ih =>
      cases starred
      obtain ⟨c, has, after, before⟩ := takes_set.mp first
      obtain ⟨taken, all, after', before'⟩ := ih rfl
      refine ⟨c :: taken, ?_, by simp [after, after'], by simp [before, before']⟩
      intro d member
      rcases List.mem_cons.mp member with rfl | later
      · exact has
      · exact all d later
    | _ => cases starred
  · obtain ⟨before, after⟩ := p
    obtain ⟨before', after'⟩ := q
    rintro ⟨taken, all, split, reached⟩
    obtain rfl : after = taken ++ after' := split
    obtain rfl : before' = before ++ taken := reached
    induction taken generalizing before with
    | nil =>
      rw [List.append_nil]
      exact .done
    | cons c taken ih =>
      have has := all c List.mem_cons_self
      have rest := ih (before ++ [c]) fun d later => all d (List.mem_cons_of_mem c later)
      rw [List.append_assoc] at rest
      exact .more (.set has) rest

/-- One character of a set, and more. -/
theorem takes_plus_set {s : CharSet} : Takes (.seq (.set s) (.star (.set s))) p q ↔
    ∃ taken, taken ≠ [] ∧ (∀ c ∈ taken, s.has c = true) ∧ p.after = taken ++ q.after ∧
      q.before = p.before ++ taken := by
  rw [takes_seq]
  constructor
  · rintro ⟨m, first, rest⟩
    obtain ⟨c, has, after, before⟩ := takes_set.mp first
    obtain ⟨taken, all, after', before'⟩ := takes_star_set.mp rest
    refine ⟨c :: taken, by simp, ?_, by simp [after, after'], by simp [before, before']⟩
    intro d member
    rcases List.mem_cons.mp member with rfl | later
    · exact has
    · exact all d later
  · rintro ⟨taken, some, all, after, before⟩
    obtain ⟨c, taken, rfl⟩ := List.exists_cons_of_ne_nil some
    refine ⟨⟨p.before ++ [c], taken ++ q.after⟩, ?_, ?_⟩
    · exact takes_set.mpr ⟨c, all c List.mem_cons_self, after, rfl⟩
    · refine takes_star_set.mpr ⟨taken, ?_, rfl, by simp [before]⟩
      exact fun d member => all d (List.mem_cons_of_mem c member)

theorem takes_one {c : Char} : Takes (one c) p q ↔
    p.after = c :: q.after ∧ q.before = p.before ++ [c] := by
  rw [one, takes_set]
  constructor
  · rintro ⟨d, has, after, before⟩
    have both : c ≤ d ∧ d ≤ c := by simpa [CharSet.has] using has
    obtain rfl : c = d := Char.le_antisymm both.1 both.2
    exact ⟨after, before⟩
  · rintro ⟨after, before⟩
    exact ⟨c, by simp [CharSet.has], after, before⟩

/-- A set repeated, between the ends of a text and after an optional character. -/
theorem matches_anchored {s : CharSet} {c : Char} {text : List Char} :
    (Expr.seq .start (.seq (.alt (one c) .empty) (.seq (.seq (.set s) (.star (.set s)))
      (.seq .stop .empty)))).Matches text ↔
    ∃ name, (text = name ∨ text = c :: name) ∧ name ≠ [] ∧ ∀ d ∈ name, s.has d = true := by
  constructor
  · rintro ⟨before, after, q, split, takes⟩
    obtain ⟨p, first, takes⟩ := takes_seq.mp takes
    obtain ⟨none, rfl⟩ := takes_start.mp first
    obtain rfl : before = [] := none
    rw [List.nil_append] at split
    subst split
    obtain ⟨m, optional, takes⟩ := takes_seq.mp takes
    obtain ⟨r, repeated, takes⟩ := takes_seq.mp takes
    obtain ⟨r', last, -⟩ := takes_seq.mp takes
    obtain ⟨name, some, all, rest, -⟩ := takes_plus_set.mp repeated
    rw [(takes_stop.mp last).1, List.append_nil] at rest
    refine ⟨name, ?_, some, all⟩
    rcases takes_alt.mp optional with colon | empty
    · rw [← rest]
      exact .inr (takes_one.mp colon).1
    · rw [← rest, takes_empty.mp empty]
      exact .inl rfl
  · rintro ⟨name, shape, some, all⟩
    have whole : ∀ before, Takes (.seq (.seq (.set s) (.star (.set s))) (.seq .stop .empty))
        ⟨before, name⟩ ⟨before ++ name, []⟩ := by
      intro before
      refine .seq (takes_plus_set.mpr ⟨name, some, all, ?_, rfl⟩) (.seq .stop .empty)
      exact (List.append_nil name).symm
    rcases shape with rfl | rfl
    · exact ⟨[], text, _, rfl, .seq .start (.seq (.right .empty) (whole []))⟩
    · refine ⟨[], c :: name, _, rfl, .seq .start (.seq (.left ?_) (whole [c]))⟩
      exact takes_one.mpr ⟨rfl, rfl⟩

end Takes

/-! ### The matcher -/

section Ends
variable {a : Expr} {p q : Position}

theorem upTo_sound {step : Position → List Position}
    (sound : ∀ p q, q ∈ step p → Takes a p q) (n : Nat) (p q : Position)
    (found : q ∈ upTo step n p) : Takes (.star a) p q := by
  induction n generalizing p with
  | zero =>
    rw [List.mem_singleton.mp found]
    exact .done
  | succ n ih =>
    rcases List.mem_cons.mp found with rfl | later
    · exact .done
    · obtain ⟨m, first, rest⟩ := List.mem_flatMap.mp later
      exact .more (sound p m first) (ih m rest)

/-- As many steps as there are characters are enough: a step that takes none stays
where it is. -/
theorem upTo_complete {step : Position → List Position}
    (complete : ∀ p q, Takes a p q → q ∈ step p) {n : Nat} (takes : Takes (.star a) p q)
    (enough : p.after.length ≤ n) : q ∈ upTo step n p := by
  generalize starred : Expr.star a = expr at takes
  induction takes generalizing n with
  | done => cases n <;> exact List.mem_cons_self
  | @more a' p m q first rest _ ih =>
    cases starred
    obtain ⟨taken, after, before⟩ := first.between
    by_cases none : taken = []
    · subst none
      obtain ⟨before', after'⟩ := m
      rw [List.nil_append] at after
      rw [List.append_nil] at before
      obtain ⟨beforeP, afterP⟩ := p
      cases after
      cases before
      exact ih enough rfl
    · have some : 0 < taken.length := List.length_pos_iff.mpr none
      have shorter : m.after.length < p.after.length := by
        rw [after, List.length_append]
        omega
      cases n with
      | zero => omega
      | succ n =>
        refine List.mem_cons_of_mem _ (List.mem_flatMap.mpr ⟨m, complete p m first, ?_⟩)
        exact ih (by omega) rfl
  | _ => cases starred

/-- The matcher finds where what is taken ends. -/
theorem mem_ends {expr : Expr} {p q : Position} : q ∈ expr.ends p ↔ Takes expr p q := by
  induction expr generalizing p q with
  | empty => simp [Expr.ends, takes_empty]
  | set s =>
    obtain ⟨before, after⟩ := p
    obtain ⟨before', after'⟩ := q
    rw [takes_set]
    cases after with
    | nil => simp [Expr.ends]
    | cons c after =>
      by_cases has : s.has c = true
      · simp only [Expr.ends, has, if_true, List.mem_singleton, Position.mk.injEq,
          List.cons.injEq]
        constructor
        · rintro ⟨rfl, rfl⟩
          exact ⟨c, has, ⟨rfl, rfl⟩, rfl⟩
        · rintro ⟨d, _, ⟨rfl, rfl⟩, rfl⟩
          exact ⟨rfl, rfl⟩
      · simp only [Expr.ends, has, Bool.false_eq_true, if_false, List.not_mem_nil, false_iff,
          List.cons.injEq]
        rintro ⟨d, hasD, ⟨rfl, -⟩, -⟩
        exact has hasD
  | start =>
    rw [takes_start, Expr.ends]
    by_cases first : p.before = [] <;> simp [first]
  | stop =>
    rw [takes_stop, Expr.ends]
    by_cases last : p.after = [] <;> simp [last]
  | seq a b first second => simp only [Expr.ends, List.mem_flatMap, first, second, takes_seq]
  | alt a b first second => simp only [Expr.ends, List.mem_append, first, second, takes_alt]
  | star a ih =>
    constructor
    · exact upTo_sound (fun p q => ih.mp) _ p q
    · intro takes
      exact upTo_complete (fun p q => ih.mpr) takes (Nat.le_refl _)

theorem mem_positions {before after : List Char} {p : Position} :
    p ∈ positions before after ↔
      ∃ taken, after = taken ++ p.after ∧ p.before = before ++ taken := by
  induction after generalizing before with
  | nil =>
    obtain ⟨before', after'⟩ := p
    simp only [positions, List.mem_singleton, Position.mk.injEq]
    constructor
    · rintro ⟨rfl, rfl⟩
      exact ⟨[], rfl, (List.append_nil _).symm⟩
    · rintro ⟨taken, nothing, rfl⟩
      obtain ⟨rfl, rfl⟩ := List.append_eq_nil_iff.mp nothing.symm
      exact ⟨List.append_nil _, rfl⟩
  | cons c after ih =>
    obtain ⟨before', after'⟩ := p
    simp only [positions, List.mem_cons, Position.mk.injEq, ih]
    constructor
    · rintro (⟨rfl, rfl⟩ | ⟨taken, rfl, rfl⟩)
      · exact ⟨[], rfl, (List.append_nil _).symm⟩
      · exact ⟨c :: taken, rfl, by simp⟩
    · rintro ⟨taken, split, rfl⟩
      cases taken with
      | nil => exact .inl ⟨List.append_nil _, split.symm⟩
      | cons d taken =>
        cases split
        exact .inr ⟨taken, rfl, by simp⟩

theorem isMatch_iff {expr : Expr} {text : List Char} :
    expr.isMatch text = true ↔ expr.Matches text := by
  simp only [Expr.isMatch, List.any_eq_true, Expr.Matches, mem_positions, List.nil_append]
  constructor
  · rintro ⟨⟨before, after⟩, ⟨_, split, rfl⟩, found⟩
    obtain ⟨q, member⟩ : ∃ q, q ∈ expr.ends ⟨before, after⟩ := by
      simpa [List.eq_nil_iff_forall_not_mem] using found
    exact ⟨before, after, q, split, mem_ends.mp member⟩
  · rintro ⟨before, after, q, split, takes⟩
    have member := mem_ends.mpr takes
    refine ⟨⟨before, after⟩, ⟨before, split, rfl⟩, ?_⟩
    cases ends : expr.ends ⟨before, after⟩ with
    | nil => simp [ends] at member
    | cons => rfl

end Ends

/-! ### Patterns -/

def hexValue (c : Char) : Option Nat :=
  if c.isDigit then some (c.toNat - 48)
  else if 'a' ≤ c && c ≤ 'f' then some (c.toNat - 87)
  else if 'A' ≤ c && c ≤ 'F' then some (c.toNat - 55)
  else none

/-- The character that an escape stands for: a code in two hexadecimal digits, or
punctuation. -/
def readEscape : List Char → Option (Char × List Char)
  | 'x' :: high :: low :: s => do
    let high ← hexValue high
    let low ← hexValue low
    return (Char.ofNat (16 * high + low), s)
  | c :: s => if c.isAlphanum then none else some (c, s)
  | [] => none

/-- A character of a class. -/
def readClassChar : List Char → Option (Char × List Char)
  | '\\' :: s => readEscape s
  | c :: s => if c = '[' then none else some (c, s)
  | [] => none

/-- The ranges of a class, up to its bracket. A dash between two characters makes a
range of them, unless the second is the bracket. -/
def readRanges : Nat → List Char → Option (List (Char × Char) × List Char)
  | 0, _ => none
  | fuel + 1, s =>
    match s with
    | ']' :: s => some ([], s)
    | s => do
      let (low, s) ← readClassChar s
      let (high, s) ←
        if s.head? = some '-' && (s.drop 1).head? != some ']' then readClassChar (s.drop 1)
        else some (low, s)
      let (ranges, s) ← readRanges fuel s
      if low ≤ high then return ((low, high) :: ranges, s) else none

def readClass (fuel : Nat) (s : List Char) : Option (Expr × List Char) := do
  let negated := s.head? = some '^'
  let (ranges, s) ← readRanges fuel (if negated then s.drop 1 else s)
  if ranges.isEmpty then none else some (.set ⟨negated, ranges⟩, s)

/-- An expression a number of times. -/
def Expr.times (a : Expr) : Nat → Expr
  | 0 => .empty
  | n + 1 => .seq a (a.times n)

/-- An expression from one number of times to another. -/
def Expr.timesTo (a : Expr) (least most : Nat) : Expr :=
  .seq (a.times least) ((Expr.alt a .empty).times (most - least))

/-- A number, and the character after it. -/
def readNumber (s : List Char) : Option (Nat × Char × List Char) :=
  let digits := s.takeWhile Char.isDigit
  match digits, s.drop digits.length with
  | _ :: _, c :: s => some (Nat.ofDigitChars 10 digits 0, c, s)
  | _, _ => none

/-- What repeats the expression before it. -/
def readRepeat (a : Expr) : List Char → Option (Expr × List Char)
  | '*' :: s => some (.star a, s)
  | '+' :: s => some (.seq a (.star a), s)
  | '?' :: s => some (.alt a .empty, s)
  | '\x7b' :: s =>
    match readNumber s with
    | some (count, '\x7d', s) => some (a.times count, s)
    | some (least, ',', s) =>
      match readNumber s with
      | some (most, '\x7d', s) => if least ≤ most then some (a.timesTo least most, s) else none
      | _ => none
    | _ => none
  | s => some (a, s)

mutual

/-- The alternatives up to the end of a group. -/
def readAlternatives : Nat → List Char → Option (Expr × List Char)
  | 0, _ => none
  | fuel + 1, s => do
    let (first, s) ← readSequence fuel s
    match s with
    | '|' :: s => do
      let (second, s) ← readAlternatives fuel s
      return (.alt first second, s)
    | s => return (first, s)

def readSequence : Nat → List Char → Option (Expr × List Char)
  | 0, _ => none
  | fuel + 1, s =>
    match s with
    | [] | '|' :: _ | ')' :: _ => some (.empty, s)
    | s => do
      let (first, s) ← readAtom fuel s
      let (first, s) ← readRepeat first s
      let (second, s) ← readSequence fuel s
      return (.seq first second, s)

def readAtom : Nat → List Char → Option (Expr × List Char)
  | 0, _ => none
  | fuel + 1, s =>
    match s with
    | '^' :: s => some (.start, s)
    | '$' :: s => some (.stop, s)
    | '[' :: s => readClass fuel s
    | '\\' :: s => (readEscape s).map fun (c, s) => (one c, s)
    | '(' :: s => do
      -- `(?:` groups as `(` does; they differ in what they capture.
      let (group, s) ← readAlternatives fuel
        (if s.take 2 = ['?', ':'] then s.drop 2 else s)
      if s.head? = some ')' then return (group, s.drop 1) else none
    | c :: s => if c ∈ ['*', '+', '?', '.', '\x7b', '\x7d', ']'] then none else some (one c, s)
    | [] => none

end

/-- The expression that a pattern of these constructs stands for. -/
def parse (pattern : String) : Option Expr := do
  let (expr, rest) ← readAlternatives (3 * pattern.toList.length + 3) pattern.toList
  if rest.isEmpty then some expr else none

/-- Compiles a pattern, or tells why it does not. -/
structure Engine where
  compile : String → Except String (String → Bool)

/-- The engine compiles a pattern of these constructs, and finds what it matches and
nothing else. -/
def Engine.Ordinary (engine : Engine) (pattern : String) : Prop :=
  ∀ expr, parse pattern = some expr →
    ∃ matcher, engine.compile pattern = .ok matcher ∧
      ∀ text, matcher text = true ↔ expr.Matches text.toList

/-- The engine that is the matcher. -/
def Engine.backtracking : Engine where
  compile pattern :=
    match parse pattern with
    | some expr => .ok fun text => expr.isMatch text.toList
    | none => .error "not a pattern of these constructs"

theorem Engine.backtracking_ordinary (pattern : String) :
    Engine.backtracking.Ordinary pattern := by
  intro expr parsed
  refine ⟨fun text => expr.isMatch text.toList, ?_, fun _ => isMatch_iff⟩
  simp only [Engine.backtracking, parsed]

end Regexes
