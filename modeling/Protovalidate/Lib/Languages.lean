import Mathlib.Computability.Language
import Protovalidate.Lib.Regexes

/-!
# The languages of expressions

An expression without anchors takes the words of a language, wherever it stands. Between
the two ends of a text, expressions one after the other match the products of theirs.
-/

namespace Regexes

open Computability

namespace Expr

/-- Whether there are no anchors in an expression. -/
def plain : Expr → Bool
  | .start | .stop => false
  | .empty | .set _ => true
  | .seq a b | .alt a b => a.plain && b.plain
  | .star a => a.plain

/-- The words that an expression takes. -/
def language : Expr → Language Char
  | .empty | .start | .stop => 1
  | .set s => {word | ∃ c, s.has c = true ∧ word = [c]}
  | .seq a b => a.language * b.language
  | .alt a b => a.language + b.language
  | .star a => a.language∗

/-- Expressions one after the other, from the start of a text to its end. -/
def anchored (parts : List Expr) : Expr :=
  .seq .start (parts.foldr .seq (.seq .stop .empty))

end Expr

/-- From one position to another, past a word. -/
def Past (word : List Char) (p q : Position) : Prop :=
  p.after = word ++ q.after ∧ q.before = p.before ++ word

theorem past_nil {p q : Position} : Past [] p q ↔ q = p := by
  obtain ⟨before, after⟩ := p
  obtain ⟨before', after'⟩ := q
  simp only [Past, List.nil_append, List.append_nil, Position.mk.injEq]
  exact ⟨fun ⟨same, same'⟩ => ⟨same', same.symm⟩, fun ⟨same, same'⟩ => ⟨same'.symm, same⟩⟩

theorem past_append {a b : List Char} {p r : Position} :
    Past (a ++ b) p r ↔ ∃ q, Past a p q ∧ Past b q r := by
  constructor
  · rintro ⟨after, before⟩
    refine ⟨⟨p.before ++ a, b ++ r.after⟩, ⟨?_, rfl⟩, rfl, ?_⟩
    · rw [after, List.append_assoc]
    · rw [before, List.append_assoc]
  · rintro ⟨q, ⟨after, before⟩, after', before'⟩
    exact ⟨by rw [after, after', List.append_assoc], by rw [before', before, List.append_assoc]⟩

section Languages
variable {a b : Expr} {word : List Char}

theorem mem_set {s : CharSet} :
    word ∈ (Expr.set s).language ↔ ∃ c, s.has c = true ∧ word = [c] := Iff.rfl

theorem mem_alt : word ∈ (Expr.alt a b).language ↔ word ∈ a.language ∨ word ∈ b.language :=
  Iff.rfl

theorem mem_seq : word ∈ (Expr.seq a b).language ↔
    ∃ first ∈ a.language, ∃ second ∈ b.language, first ++ second = word :=
  Language.mem_mul

theorem mem_one {c : Char} : word ∈ (one c).language ↔ word = [c] := by
  rw [one, mem_set]
  constructor
  · rintro ⟨d, has, rfl⟩
    have both : c ≤ d ∧ d ≤ c := by simpa [CharSet.has] using has
    rw [Char.le_antisymm both.1 both.2]
  · rintro rfl
    exact ⟨c, by simp [CharSet.has], rfl⟩

theorem takes_star {p q : Position}
    (each : ∀ p q, Takes a p q ↔ ∃ word ∈ a.language, Past word p q) :
    Takes (.star a) p q ↔ ∃ word ∈ a.language∗, Past word p q := by
  constructor
  · intro takes
    generalize starred : Expr.star a = expr at takes
    induction takes with
    | done => exact ⟨[], Language.nil_mem_kstar _, past_nil.mpr rfl⟩
    | more first _ _ ih =>
      cases starred
      obtain ⟨word, member, past⟩ := (each _ _).mp first
      obtain ⟨rest, later, past'⟩ := ih rfl
      obtain ⟨words, rfl, all⟩ := Language.mem_kstar.mp later
      refine ⟨word ++ words.flatten, ?_, past_append.mpr ⟨_, past, past'⟩⟩
      exact Language.mem_kstar.mpr ⟨word :: words, rfl, List.forall_mem_cons.mpr ⟨member, all⟩⟩
    | _ => cases starred
  · rintro ⟨_, member, past⟩
    obtain ⟨words, rfl, all⟩ := Language.mem_kstar.mp member
    clear member
    induction words generalizing p with
    | nil =>
      rw [past_nil.mp past]
      exact .done
    | cons first words ih =>
      obtain ⟨m, past, past'⟩ := past_append.mp past
      rw [List.forall_mem_cons] at all
      exact .more ((each _ _).mpr ⟨first, all.1, past⟩) (ih all.2 past')

/-- An expression without anchors takes the words of its language. -/
theorem takes_plain (plain : a.plain = true) {p q : Position} :
    Takes a p q ↔ ∃ word ∈ a.language, Past word p q := by
  induction a generalizing p q with
  | empty =>
    rw [takes_empty, ← past_nil]
    exact ⟨fun past => ⟨[], rfl, past⟩, fun ⟨word, member, past⟩ => by cases member; exact past⟩
  | set s =>
    rw [takes_set]
    constructor
    · rintro ⟨c, has, past⟩
      exact ⟨[c], ⟨c, has, rfl⟩, past⟩
    · rintro ⟨_, ⟨c, has, rfl⟩, past⟩
      exact ⟨c, has, past⟩
  | start => cases plain
  | stop => cases plain
  | seq a b first second =>
    simp only [Expr.plain, Bool.and_eq_true] at plain
    simp only [takes_seq, first plain.1, second plain.2, mem_seq]
    constructor
    · rintro ⟨m, ⟨word, member, past⟩, rest, later, past'⟩
      exact ⟨word ++ rest, ⟨word, member, rest, later, rfl⟩, past_append.mpr ⟨m, past, past'⟩⟩
    · rintro ⟨_, ⟨word, member, rest, later, rfl⟩, past⟩
      obtain ⟨m, past, past'⟩ := past_append.mp past
      exact ⟨m, ⟨word, member, past⟩, rest, later, past'⟩
  | alt a b first second =>
    simp only [Expr.plain, Bool.and_eq_true] at plain
    simp only [takes_alt, first plain.1, second plain.2, mem_alt, or_and_right, exists_or]
  | star a ih => exact takes_star fun p q => ih plain

theorem takes_parts {parts : List Expr} (plain : ∀ part ∈ parts, part.plain = true)
    {p q : Position} : Takes (parts.foldr .seq (.seq .stop .empty)) p q ↔
      q.after = [] ∧ p.after ∈ (parts.map Expr.language).prod ∧ q.before = p.before ++ p.after := by
  induction parts generalizing p with
  | nil =>
    simp only [List.foldr_nil, takes_seq, takes_stop, takes_empty, List.map_nil, List.prod_nil,
      Language.mem_one]
    constructor
    · rintro ⟨_, ⟨ends, rfl⟩, rfl⟩
      exact ⟨ends, ends, by rw [ends, List.append_nil]⟩
    · obtain ⟨before, after⟩ := p
      obtain ⟨before', after'⟩ := q
      rintro ⟨rfl, rfl, rfl⟩
      exact ⟨_, ⟨rfl, rfl⟩, by rw [List.append_nil]⟩
  | cons part parts ih =>
    rw [List.forall_mem_cons] at plain
    simp only [List.foldr_cons, takes_seq, takes_plain plain.1, ih plain.2, List.map_cons,
      List.prod_cons, Language.mem_mul]
    constructor
    · rintro ⟨m, ⟨word, member, after, before⟩, ends, rest, reached⟩
      refine ⟨ends, ⟨word, member, m.after, rest, after.symm⟩, ?_⟩
      rw [reached, before, after, List.append_assoc]
    · rintro ⟨ends, ⟨word, member, rest, later, split⟩, reached⟩
      refine ⟨⟨p.before ++ word, rest⟩, ⟨word, member, split.symm, rfl⟩, ends, later, ?_⟩
      rw [reached, ← split, List.append_assoc]

/-- Expressions between the ends of a text match the products of their languages. -/
theorem matches_whole {parts : List Expr} (plain : ∀ part ∈ parts, part.plain = true)
    {text : List Char} :
    (Expr.anchored parts).Matches text ↔ text ∈ (parts.map Expr.language).prod := by
  constructor
  · rintro ⟨before, after, q, rfl, takes⟩
    obtain ⟨p, first, takes⟩ := takes_seq.mp takes
    obtain ⟨rfl, rfl⟩ := takes_start.mp first
    exact ((takes_parts plain).mp takes).2.1
  · intro member
    exact ⟨[], text, ⟨text, []⟩, rfl, .seq .start ((takes_parts plain).mpr ⟨rfl, member, rfl⟩)⟩

/-- A pattern, with the expressions that it has between the ends of a text. -/
structure Pattern where
  text : String
  parts : List Expr
  plain : ∀ part ∈ parts, part.plain = true
  parsed : parse text = some (Expr.anchored parts)

/-- The texts of a pattern. -/
def Pattern.language (pattern : Pattern) : Language Char := (pattern.parts.map Expr.language).prod

theorem Pattern.matches_iff (pattern : Pattern) {text : List Char} :
    (Expr.anchored pattern.parts).Matches text ↔ text ∈ pattern.language :=
  matches_whole pattern.plain

/-! ### Repeated sets, and lists -/

theorem times_language (n : Nat) : (a.times n).language = a.language ^ n := by
  induction n with
  | zero => exact (pow_zero _).symm
  | succ n ih => rw [pow_succ', ← ih]; rfl

/-- As many characters of a set. -/
theorem mem_times_set {s : CharSet} {n : Nat} :
    word ∈ ((Expr.set s).times n).language ↔ word.length = n ∧ ∀ c ∈ word, s.has c = true := by
  induction n generalizing word with
  | zero =>
    rw [times_language, pow_zero, Language.mem_one, List.length_eq_zero_iff]
    exact ⟨fun none => ⟨none, by simp [none]⟩, And.left⟩
  | succ n ih =>
    rw [Expr.times, mem_seq]
    constructor
    · rintro ⟨_, ⟨c, has, rfl⟩, rest, later, rfl⟩
      obtain ⟨length, all⟩ := ih.mp later
      exact ⟨by simp [length], List.forall_mem_cons.mpr ⟨has, all⟩⟩
    · rintro ⟨length, all⟩
      obtain ⟨c, rest, rfl⟩ := List.exists_cons_of_length_eq_add_one length
      rw [List.forall_mem_cons] at all
      refine ⟨[c], ⟨c, all.1, rfl⟩, rest, ih.mpr ⟨?_, all.2⟩, rfl⟩
      simpa using length

/-- Any number of characters of a set. -/
theorem mem_star_set {s : CharSet} :
    word ∈ (Expr.star (.set s)).language ↔ ∀ c ∈ word, s.has c = true := by
  constructor
  · intro member
    obtain ⟨words, rfl, all⟩ := Language.mem_kstar.mp member
    intro c present
    obtain ⟨part, inside, present⟩ := List.mem_flatten.mp present
    obtain ⟨d, has, rfl⟩ := all part inside
    rw [List.mem_singleton.mp present]
    exact has
  · intro all
    refine Language.mem_kstar.mpr ⟨word.map fun c => [c], ?_, ?_⟩
    · exact (List.flatMap_singleton' word).symm
    · rintro _ member
      obtain ⟨c, present, rfl⟩ := List.mem_map.mp member
      exact ⟨c, all c present, rfl⟩

theorem intercalate_flatMap {c : Char} (first : List Char) (parts : List (List Char)) :
    [c].intercalate (first :: parts) = first ++ parts.flatMap (c :: ·) := by
  induction parts generalizing first with
  | nil => simp [List.intercalate]
  | cons second parts ih =>
    rw [List.flatMap_cons, List.cons_append, ← ih second]
    simp [List.intercalate]

theorem mem_intercalate {c d : Char} {part : List Char} {parts : List (List Char)}
    (present : part ∈ parts) (inside : d ∈ part) : d ∈ [c].intercalate parts := by
  obtain ⟨first, parts, rfl⟩ := List.exists_cons_of_ne_nil (List.ne_nil_of_mem present)
  rw [intercalate_flatMap]
  rcases List.mem_cons.mp present with rfl | later
  · exact List.mem_append_left _ inside
  · refine List.mem_append_right _ (List.mem_flatMap.mpr ⟨part, later, ?_⟩)
    exact List.mem_cons_of_mem _ inside

/-- Words with a separator before each. -/
theorem mem_star_separated {c : Char} : word ∈ (Expr.star (.seq (one c) a)).language ↔
    ∃ parts : List (List Char), (∀ part ∈ parts, part ∈ a.language) ∧
      word = parts.flatMap (c :: ·) := by
  constructor
  · intro member
    obtain ⟨words, rfl, all⟩ := Language.mem_kstar.mp member
    clear member
    induction words with
    | nil => exact ⟨[], by simp, rfl⟩
    | cons first words ih =>
      rw [List.forall_mem_cons] at all
      obtain ⟨parts, each, same⟩ := ih all.2
      obtain ⟨_, separator, part, inside, rfl⟩ := mem_seq.mp all.1
      obtain rfl := mem_one.mp separator
      refine ⟨part :: parts, List.forall_mem_cons.mpr ⟨inside, each⟩, ?_⟩
      rw [List.flatten_cons, same]
      rfl
  · rintro ⟨parts, each, rfl⟩
    refine Language.mem_kstar.mpr ⟨parts.map (c :: ·), rfl, ?_⟩
    rintro _ member
    obtain ⟨part, present, rfl⟩ := List.mem_map.mp member
    exact mem_seq.mpr ⟨[c], mem_one.mpr rfl, part, each part present, rfl⟩

/-- A list of words with a separator between them. -/
theorem mem_separated {c : Char} :
    word ∈ a.language * (Expr.star (.seq (one c) a)).language ↔
      ∃ parts, parts ≠ [] ∧ (∀ part ∈ parts, part ∈ a.language) ∧
        word = [c].intercalate parts := by
  rw [Language.mem_mul]
  constructor
  · rintro ⟨first, inside, rest, later, rfl⟩
    obtain ⟨parts, each, rfl⟩ := mem_star_separated.mp later
    refine ⟨first :: parts, List.cons_ne_nil _ _, List.forall_mem_cons.mpr ⟨inside, each⟩, ?_⟩
    exact (intercalate_flatMap first parts).symm
  · rintro ⟨parts, some, each, rfl⟩
    obtain ⟨first, parts, rfl⟩ := List.exists_cons_of_ne_nil some
    rw [List.forall_mem_cons] at each
    refine ⟨first, each.1, parts.flatMap (c :: ·), ?_, (intercalate_flatMap first parts).symm⟩
    exact mem_star_separated.mpr ⟨parts, each.2, rfl⟩

/-- Words of some widths with a separator between them. -/
theorem mem_groups {s : CharSet} {c : Char} {widths : List Nat} :
    word ∈ (((widths.map (Expr.set s).times).intersperse (one c)).map Expr.language).prod ↔
      ∃ parts : List (List Char), parts.map List.length = widths ∧
        (∀ part ∈ parts, ∀ d ∈ part, s.has d = true) ∧ word = [c].intercalate parts := by
  induction widths generalizing word with
  | nil =>
    rw [List.map_nil, List.intersperse_nil, List.map_nil, List.prod_nil, Language.mem_one]
    constructor
    · rintro rfl
      exact ⟨[], rfl, by simp, rfl⟩
    · rintro ⟨parts, lengths, -, rfl⟩
      rw [List.map_eq_nil_iff.mp lengths]
      rfl
  | cons width widths ih =>
    cases widths with
    | nil =>
      simp only [List.map_cons, List.map_nil, List.intersperse_singleton, List.prod_cons,
        List.prod_nil, mul_one, mem_times_set]
      constructor
      · rintro ⟨length, all⟩
        exact ⟨[word], by simp [length], by simpa using all, by simp [List.intercalate]⟩
      · rintro ⟨parts, lengths, all, rfl⟩
        have single : parts.length = 1 := by simpa using congrArg List.length lengths
        obtain ⟨part, rfl⟩ := List.length_eq_one_iff.mp single
        simpa [List.intercalate] using And.intro lengths all
    | cons next widths =>
      rw [List.map_cons, List.map_cons, List.intersperse_cons_cons, List.map_cons, List.map_cons,
        List.prod_cons, List.prod_cons, Language.mem_mul, ← List.map_cons]
      simp only [Language.mem_mul, mem_one, ih, mem_times_set]
      constructor
      · rintro ⟨first, ⟨length, all⟩, _, ⟨_, rfl, _, ⟨parts, lengths, each, rfl⟩, rfl⟩, rfl⟩
        refine ⟨first :: parts, by rw [List.map_cons, length, lengths],
          List.forall_mem_cons.mpr ⟨all, each⟩, ?_⟩
        cases parts with
        | nil => cases lengths
        | cons second parts => simp [intercalate_flatMap]
      · rintro ⟨parts, lengths, each, rfl⟩
        cases parts with
        | nil => cases lengths
        | cons first parts =>
          rw [List.map_cons, List.cons.injEq] at lengths
          rw [List.forall_mem_cons] at each
          refine ⟨first, ⟨lengths.1, each.1⟩, c :: [c].intercalate parts,
            ⟨[c], rfl, _, ⟨parts, lengths.2, each.2, rfl⟩, rfl⟩, ?_⟩
          cases parts with
          | nil => cases lengths.2
          | cons second parts => simp [intercalate_flatMap]

/-- Characters of a set, one at least. -/
theorem mem_plus_set {s : CharSet} :
    word ∈ (Expr.set s).language * (Expr.star (.set s)).language ↔
      word ≠ [] ∧ ∀ c ∈ word, s.has c = true := by
  rw [Language.mem_mul]
  constructor
  · rintro ⟨_, ⟨c, has, rfl⟩, rest, others, rfl⟩
    exact ⟨List.cons_ne_nil c rest, List.forall_mem_cons.mpr ⟨has, mem_star_set.mp others⟩⟩
  · rintro ⟨some, all⟩
    obtain ⟨c, rest, rfl⟩ := List.exists_cons_of_ne_nil some
    rw [List.forall_mem_cons] at all
    exact ⟨[c], ⟨c, all.1, rfl⟩, rest, mem_star_set.mpr all.2, rfl⟩

/-- As many characters of a set, or fewer. -/
theorem mem_optional_set {s : CharSet} {n : Nat} :
    word ∈ ((Expr.alt (.set s) .empty).times n).language ↔
      word.length ≤ n ∧ ∀ c ∈ word, s.has c = true := by
  induction n generalizing word with
  | zero =>
    rw [times_language, pow_zero, Language.mem_one, Nat.le_zero, List.length_eq_zero_iff]
    exact ⟨fun none => ⟨none, by simp [none]⟩, And.left⟩
  | succ n ih =>
    rw [Expr.times, mem_seq]
    constructor
    · rintro ⟨_, ⟨c, has, rfl⟩ | rfl, rest, later, rfl⟩
      · obtain ⟨length, all⟩ := ih.mp later
        exact ⟨by simpa using length, List.forall_mem_cons.mpr ⟨has, all⟩⟩
      · obtain ⟨length, all⟩ := ih.mp later
        exact ⟨Nat.le_succ_of_le length, all⟩
    · rintro ⟨length, all⟩
      cases word with
      | nil => exact ⟨[], .inr rfl, [], ih.mpr ⟨Nat.zero_le n, by simp⟩, rfl⟩
      | cons c rest =>
        rw [List.forall_mem_cons] at all
        exact ⟨[c], .inl ⟨c, all.1, rfl⟩, rest, ih.mpr ⟨Nat.le_of_succ_le_succ length, all.2⟩, rfl⟩

/-- Words with a separator between them that is in none of them. -/
theorem mem_splitOn {c : Char} (free : ∀ part ∈ a.language, c ∉ part) :
    word ∈ a.language * (Expr.star (.seq (one c) a)).language ↔
      ∀ part ∈ word.splitOn c, part ∈ a.language := by
  rw [mem_separated]
  constructor
  · rintro ⟨parts, some, each, rfl⟩
    rwa [List.splitOn_intercalate c (fun part present => free part (each part present)) some]
  · intro each
    exact ⟨word.splitOn c, List.splitOn_ne_nil c word, each, (List.intercalate_splitOn c).symm⟩

/-! ### Characters by their codes -/

section Codes
variable {c : Char}

theorem ranges_has {ranges : List (Char × Char)} : (CharSet.mk false ranges).has c = true ↔
    ∃ range ∈ ranges, range.1.toNat ≤ c.toNat ∧ c.toNat ≤ range.2.toNat := by
  simp only [CharSet.has, Bool.bne_false, List.any_eq_true, Bool.and_eq_true, decide_eq_true_eq,
    Char.le_def, UInt32.le_iff_toNat_le]
  rfl

theorem negated_has {ranges : List (Char × Char)} : (CharSet.mk true ranges).has c = true ↔
    ∀ range ∈ ranges, ¬(range.1.toNat ≤ c.toNat ∧ c.toNat ≤ range.2.toNat) := by
  have opposite : (CharSet.mk true ranges).has c = !(CharSet.mk false ranges).has c := by
    simp [CharSet.has]
  rw [opposite, Bool.not_eq_true', ← Bool.not_eq_true, ranges_has]
  simp only [not_exists, not_and]

theorem mem_codes {digits : List Char} : c ∈ digits ↔ ∃ d ∈ digits, c.toNat = d.toNat := by
  simp [Char.toNat_inj]

theorem isAlpha_code : c.isAlpha = true ↔
    (65 ≤ c.toNat ∧ c.toNat ≤ 90) ∨ (97 ≤ c.toNat ∧ c.toNat ≤ 122) := by
  change (decide (c.val ≥ 'A'.val ∧ c.val ≤ 'Z'.val) ||
    (decide (c.val ≥ 'a'.val) && decide (c.val ≤ 'z'.val))) = true ↔ _
  simp only [Bool.or_eq_true, Bool.and_eq_true, decide_eq_true_eq, ge_iff_le,
    UInt32.le_iff_toNat_le]
  rfl

theorem isAlphanum_code : c.isAlphanum = true ↔ (65 ≤ c.toNat ∧ c.toNat ≤ 90) ∨
    (97 ≤ c.toNat ∧ c.toNat ≤ 122) ∨ (48 ≤ c.toNat ∧ c.toNat ≤ 57) := by
  rw [Char.isAlphanum, Bool.or_eq_true, isAlpha_code, Char.isDigit_iff_toNat, or_assoc]
  simp only [Char.reduceToNat]

theorem equal_code {d : Char} : c = d ↔ c.toNat = d.toNat := Char.toNat_inj.symm

end Codes

/-! ### Sets that do not tell some characters apart -/

/-- Whether a character and its image are in the same sets of an expression. -/
def Expr.Blind (f : Char → Char) : Expr → Prop
  | .set s => ∀ c, s.has (f c) = s.has c
  | .empty | .start | .stop => True
  | .seq a b | .alt a b => a.Blind f ∧ b.Blind f
  | .star a => a.Blind f

theorem blind_times {f : Char → Char} (blind : a.Blind f) : ∀ n, (a.times n).Blind f
  | 0 => trivial
  | n + 1 => ⟨blind, blind_times blind n⟩

theorem mem_map {f : Char → Char} (blind : a.Blind f) :
    word.map f ∈ a.language ↔ word ∈ a.language := by
  induction a generalizing word with
  | empty => exact List.map_eq_nil_iff
  | start => exact List.map_eq_nil_iff
  | stop => exact List.map_eq_nil_iff
  | set s =>
    simp only [mem_set, List.map_eq_singleton_iff]
    constructor
    · rintro ⟨_, has, c, rfl, rfl⟩
      exact ⟨c, (blind c).symm.trans has, rfl⟩
    · rintro ⟨c, has, rfl⟩
      exact ⟨f c, (blind c).trans has, c, rfl, rfl⟩
  | seq a b first second =>
    simp only [mem_seq]
    constructor
    · rintro ⟨one, member, two, later, split⟩
      obtain ⟨one, two, rfl, rfl, rfl⟩ := List.append_eq_map_iff.mp split
      exact ⟨one, (first blind.1).mp member, two, (second blind.2).mp later, rfl⟩
    · rintro ⟨one, member, two, later, rfl⟩
      exact ⟨one.map f, (first blind.1).mpr member, two.map f, (second blind.2).mpr later,
        List.map_append.symm⟩
  | alt a b first second => rw [mem_alt, mem_alt, first blind.1, second blind.2]
  | star a ih =>
    constructor
    · intro member
      obtain ⟨words, split, all⟩ := Language.mem_kstar.mp member
      clear member
      induction words generalizing word with
      | nil =>
        rw [List.map_eq_nil_iff.mp split]
        exact Language.nil_mem_kstar _
      | cons first words further =>
        rw [List.forall_mem_cons] at all
        obtain ⟨one, rest, rfl, rfl, later⟩ := List.map_eq_append_iff.mp split
        obtain ⟨words', rfl, all'⟩ := Language.mem_kstar.mp (further later all.2)
        exact Language.mem_kstar.mpr ⟨one :: words', rfl,
          List.forall_mem_cons.mpr ⟨(ih blind).mp all.1, all'⟩⟩
    · intro member
      obtain ⟨words, rfl, all⟩ := Language.mem_kstar.mp member
      refine Language.mem_kstar.mpr ⟨words.map (List.map f), List.map_flatten, ?_⟩
      rintro _ present
      obtain ⟨part, inside, rfl⟩ := List.mem_map.mp present
      exact (ih blind).mpr (all part inside)

theorem mem_map_prod {f : Char → Char} {parts : List Expr} (blind : ∀ part ∈ parts, part.Blind f) :
    word.map f ∈ (parts.map Expr.language).prod ↔ word ∈ (parts.map Expr.language).prod := by
  have whole : (parts.foldr Expr.seq Expr.empty).Blind f ∧
      (parts.foldr Expr.seq Expr.empty).language = (parts.map Expr.language).prod := by
    induction parts with
    | nil => exact ⟨trivial, rfl⟩
    | cons part parts ih =>
      rw [List.forall_mem_cons] at blind
      obtain ⟨later, same⟩ := ih blind.2
      exact ⟨⟨blind.1, later⟩, by rw [List.map_cons, List.prod_cons, ← same]; rfl⟩
  rw [← whole.2]
  exact mem_map whole.1

end Languages

end Regexes
