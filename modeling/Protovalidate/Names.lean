import Protovalidate.Host
import Protovalidate.Lib.Languages
import Protovalidate.Text

/-!
# Formats of names

A Protobuf name is a list of identifiers with dots between them. No header name or value
lets a NUL or the end of a line through. An email address has labels with dots between
them after the sign, each a label of a host name, though together they need not be one:
they may be too long for it, and the last of them may be digits only.
-/

namespace Protovalidate

open Regexes

def alphanumericSet : CharSet := ⟨false, [('a', 'z'), ('A', 'Z'), ('0', '9')]⟩

theorem alphanumericSet_has {c : Char} : alphanumericSet.has c = true ↔ c.isAlphanum = true := by
  rw [alphanumericSet, ranges_has, isAlphanum_code]
  simp only [List.mem_cons, List.not_mem_nil, or_false, exists_eq_or_imp, exists_eq_left,
    Char.reduceToNat]
  omega

/-! ### Protobuf names -/

def firstSet : CharSet := ⟨false, [('A', 'Z'), ('a', 'z'), ('_', '_')]⟩

def nameSet : CharSet := ⟨false, [('A', 'Z'), ('a', 'z'), ('_', '_'), ('0', '9')]⟩

def identifierExpr : Expr := .seq (.set firstSet) (.seq (.star (.set nameSet)) .empty)

/-- Whether a word is an identifier of Protobuf. -/
def isIdentifier : List Char → Bool
  | [] => false
  | c :: word => (c.isAlpha || c == '_') && word.all fun d => d.isAlphanum || d == '_'

theorem firstSet_has {c : Char} : firstSet.has c = true ↔ c.isAlpha = true ∨ c = '_' := by
  rw [firstSet, ranges_has, isAlpha_code, equal_code]
  simp only [List.mem_cons, List.not_mem_nil, or_false, exists_eq_or_imp, exists_eq_left,
    Char.reduceToNat]
  omega

theorem nameSet_has {c : Char} : nameSet.has c = true ↔ c.isAlphanum = true ∨ c = '_' := by
  rw [nameSet, ranges_has, isAlphanum_code, equal_code]
  simp only [List.mem_cons, List.not_mem_nil, or_false, exists_eq_or_imp, exists_eq_left,
    Char.reduceToNat]
  omega

section ProtobufNames
variable {word : List Char}

theorem mem_identifier : word ∈ identifierExpr.language ↔ isIdentifier word = true := by
  have split : word ∈ identifierExpr.language ↔
      ∃ c rest, firstSet.has c = true ∧ (∀ d ∈ rest, nameSet.has d = true) ∧ word = c :: rest := by
    simp only [identifierExpr, mem_seq, mem_set, mem_star_set]
    constructor
    · rintro ⟨_, ⟨c, first, rfl⟩, _, ⟨rest, others, _, rfl, rfl⟩, rfl⟩
      exact ⟨c, rest, first, others, by simp⟩
    · rintro ⟨c, rest, first, others, rfl⟩
      exact ⟨[c], ⟨c, first, rfl⟩, rest, ⟨rest, others, [], rfl, List.append_nil rest⟩, rfl⟩
  rw [split]
  simp only [firstSet_has, nameSet_has]
  cases word with
  | nil => simp [isIdentifier]
  | cons c rest =>
    simp only [isIdentifier, Bool.and_eq_true, Bool.or_eq_true, beq_iff_eq, List.all_eq_true]
    constructor
    · rintro ⟨_, _, first, others, same⟩
      cases same
      exact ⟨first, others⟩
    · rintro ⟨first, others⟩
      exact ⟨c, rest, first, others, rfl⟩

theorem identifier_undotted : ∀ word ∈ identifierExpr.language, '.' ∉ word := by
  intro word member dotted
  rw [mem_identifier] at member
  cases word with
  | nil => cases dotted
  | cons c rest =>
    simp only [isIdentifier, Bool.and_eq_true, Bool.or_eq_true, beq_iff_eq, List.all_eq_true]
      at member
    rcases List.mem_cons.mp dotted with rfl | inside
    · exact absurd member.1 (by decide)
    · exact absurd (member.2 '.' inside) (by decide)

/-- An identifier, and one after each dot. -/
def nameParts : List Expr :=
  [.set firstSet, .star (.set nameSet), .star (.seq (one '.') identifierExpr)]

theorem mem_name : word ∈ (nameParts.map Expr.language).prod ↔
    ∀ part ∈ word.splitOn '.', isIdentifier part = true := by
  have grouped : (nameParts.map Expr.language).prod =
      identifierExpr.language * (Expr.star (.seq (one '.') identifierExpr)).language := by
    have first : identifierExpr.language =
        (Expr.set firstSet).language * ((Expr.star (.set nameSet)).language * 1) := rfl
    rw [first]
    simp only [nameParts, List.map_cons, List.map_nil, List.prod_cons, List.prod_nil, mul_one,
      mul_assoc]
  rw [grouped, mem_splitOn identifier_undotted]
  simp only [mem_identifier]

end ProtobufNames

def fqnPattern : Pattern where
  text := PROTOBUF_FQN
  parts := nameParts
  plain := by decide
  parsed := by decide +kernel

def dotFqnPattern : Pattern where
  text := PROTOBUF_DOT_FQN
  parts := one '.' :: nameParts
  plain := by decide
  parsed := by decide +kernel

/-- A Protobuf name is identifiers with dots between them, and one with a leading dot is
such a name after it. -/
theorem protobufNames_iff (cel : Bool) (inner : Regexes.Engine) (fqn : inner.Ordinary PROTOBUF_FQN)
    (dotFqn : inner.Ordinary PROTOBUF_DOT_FQN) (s : String) :
    (isProtobufFqn cel inner s = .ok true ↔
      ∀ part ∈ s.toList.splitOn '.', isIdentifier part = true) ∧
    (isProtobufDotFqn cel inner s = .ok true ↔
      ∃ name, s = "." ++ name ∧ isProtobufFqn cel inner name = .ok true) := by
  have whole : ∀ name, isProtobufFqn cel inner name = .ok true ↔
      ∀ part ∈ name.toList.splitOn '.', isIdentifier part = true := fun name =>
    (isFormat_pattern fqnPattern (by simp [fqnPattern, PATTERNS]) fqn name).trans mem_name
  refine ⟨whole s, (isFormat_pattern dotFqnPattern (by simp [dotFqnPattern, PATTERNS])
    dotFqn s).trans ?_⟩
  rw [Pattern.language, dotFqnPattern, List.map_cons, List.prod_cons, Language.mem_mul]
  simp only [mem_one, mem_name, whole]
  constructor
  · rintro ⟨_, rfl, rest, parts, same⟩
    refine ⟨String.ofList rest, String.toList_inj.mp ?_, by rwa [String.toList_ofList]⟩
    rw [String.toList_append, ← same]
    exact congrArg (['.'] ++ ·) String.toList_ofList.symm
  · rintro ⟨name, rfl, parts⟩
    exact ⟨['.'], rfl, name.toList, parts, by rw [String.toList_append]; rfl⟩

/-- A name with a leading dot, and one with two dots in a row. -/
theorem protobufNames_iff_dots :
    (∃ name, ".foo.Bar" = "." ++ name ∧ isProtobufFqn false .backtracking name = .ok true) ∧
    ¬∀ part ∈ "foo..Baz".toList.splitOn '.', isIdentifier part = true := by
  have ordinary := Regexes.Engine.backtracking_ordinary
  have names := protobufNames_iff false .backtracking (ordinary _) (ordinary _)
  have found : isProtobufDotFqn false .backtracking ".foo.Bar" = .ok true ∧
      isProtobufFqn false .backtracking "foo..Baz" ≠ .ok true := by decide +kernel
  exact ⟨(names _).2.mp found.1, fun parts => found.2 ((names _).1.mpr parts)⟩

/-! ### Header names and values -/

/-- NUL, and the characters that end a line. -/
def isBreak (c : Char) : Bool := c == '\x00' || c == '\n' || c == '\r'

def isControl (c : Char) : Bool := decide (c.toNat < 32) || c.toNat == 127

def unbrokenSet : CharSet := ⟨true, [('\x00', '\x00'), ('\n', '\n'), ('\r', '\r')]⟩

def visibleSet : CharSet := ⟨true, [('\x00', '\x08'), ('\n', '\x1f'), ('\x7f', '\x7f')]⟩

theorem unbrokenSet_has {c : Char} : unbrokenSet.has c = true ↔ isBreak c = false := by
  rw [unbrokenSet, negated_has, isBreak]
  simp only [List.forall_mem_cons, List.not_mem_nil, false_imp_iff, implies_true, and_true,
    Char.reduceToNat, Bool.or_eq_false_iff, beq_eq_false_iff_ne, ne_eq, equal_code]
  omega

theorem visibleSet_has {c : Char} : visibleSet.has c = true ↔ c = '\t' ∨ isControl c = false := by
  rw [visibleSet, negated_has, isControl, equal_code]
  simp only [List.forall_mem_cons, List.not_mem_nil, false_imp_iff, implies_true, and_true,
    Char.reduceToNat, Bool.or_eq_false_iff, decide_eq_false_iff_not, beq_eq_false_iff_ne, ne_eq]
  omega

def nameLoosePattern : Pattern where
  text := HEADER_NAME_LOOSE
  parts := [.seq (.set unbrokenSet) (.star (.set unbrokenSet))]
  plain := by decide
  parsed := by decide +kernel

def valueStrictPattern : Pattern where
  text := HEADER_VALUE_STRICT
  parts := [.star (.set visibleSet)]
  plain := by decide
  parsed := by decide +kernel

def valueLoosePattern : Pattern where
  text := HEADER_VALUE_LOOSE
  parts := [.star (.set unbrokenSet)]
  plain := by decide
  parsed := by decide +kernel

/-- A set without NUL and the ends of lines has no breaks. -/
theorem unbroken {set : CharSet} (nul : set.has '\x00' = false) (feed : set.has '\n' = false)
    (back : set.has '\r' = false) {c : Char} (has : set.has c = true) : isBreak c = false := by
  simp only [isBreak, Bool.or_eq_false_iff, beq_eq_false_iff_ne, ne_eq]
  refine ⟨⟨?_, ?_⟩, ?_⟩ <;> rintro rfl
  · exact absurd has (by rw [nul]; decide)
  · exact absurd has (by rw [feed]; decide)
  · exact absurd has (by rw [back]; decide)

section Headers
variable (cel : Bool) (inner : Regexes.Engine)
  (ordinary : ∀ pattern ∈ PATTERNS, inner.Ordinary pattern) (s : String)
include ordinary

theorem headerName_loose : isHeaderName cel inner s false = .ok true ↔
    s.toList ≠ [] ∧ ∀ c ∈ s.toList, isBreak c = false := by
  have listed : nameLoosePattern.text ∈ PATTERNS := by simp [nameLoosePattern, PATTERNS]
  refine (isFormat_pattern nameLoosePattern listed (ordinary _ listed) s).trans ?_
  simp only [Pattern.language, nameLoosePattern, List.map_cons, List.map_nil, List.prod_singleton]
  refine mem_plus_set.trans ?_
  simp only [unbrokenSet_has]

theorem headerValue_loose : isHeaderValue cel inner s false = .ok true ↔
    ∀ c ∈ s.toList, isBreak c = false := by
  have listed : valueLoosePattern.text ∈ PATTERNS := by simp [valueLoosePattern, PATTERNS]
  refine (isFormat_pattern valueLoosePattern listed (ordinary _ listed) s).trans ?_
  simp only [Pattern.language, valueLoosePattern, List.map_cons, List.map_nil, List.prod_singleton,
    mem_star_set, unbrokenSet_has]

theorem headerValue_strict : isHeaderValue cel inner s true = .ok true ↔
    ∀ c ∈ s.toList, c = '\t' ∨ isControl c = false := by
  have listed : valueStrictPattern.text ∈ PATTERNS := by simp [valueStrictPattern, PATTERNS]
  refine (isFormat_pattern valueStrictPattern listed (ordinary _ listed) s).trans ?_
  simp only [Pattern.language, valueStrictPattern, List.map_cons, List.map_nil,
    List.prod_singleton, mem_star_set, visibleSet_has]

/-- What the strict format of a header lets through, the loose one does, which lets
everything but breaks through. -/
theorem headers_unbroken :
    (isHeaderName cel inner s false = .ok true ↔
      s.toList ≠ [] ∧ ∀ c ∈ s.toList, isBreak c = false) ∧
    (isHeaderName cel inner s true = .ok true → isHeaderName cel inner s false = .ok true) ∧
    (isHeaderValue cel inner s false = .ok true ↔ ∀ c ∈ s.toList, isBreak c = false) ∧
    (isHeaderValue cel inner s true = .ok true ↔
      ∀ c ∈ s.toList, c = '\t' ∨ isControl c = false) ∧
    (isHeaderValue cel inner s true = .ok true → isHeaderValue cel inner s false = .ok true) := by
  refine ⟨headerName_loose cel inner ordinary s, fun strict => ?_,
    headerValue_loose cel inner ordinary s, headerValue_strict cel inner ordinary s,
    fun strict => ?_⟩
  · have listed : HEADER_NAME_STRICT ∈ PATTERNS := by simp [PATTERNS]
    rw [isHeaderName, if_pos rfl, isFormat_iff listed (ordinary _ listed) parse_headerName,
      matches_anchored] at strict
    obtain ⟨name, shape, some, all⟩ := strict
    rw [headerName_loose cel inner ordinary]
    have each : ∀ c ∈ name, isBreak c = false := fun c member =>
      unbroken (by decide) (by decide) (by decide) (all c member)
    rcases shape with same | same
    · rw [same]
      exact ⟨some, each⟩
    · rw [same]
      exact ⟨List.cons_ne_nil _ _, List.forall_mem_cons.mpr ⟨by decide, each⟩⟩
  · rw [headerValue_strict cel inner ordinary] at strict
    rw [headerValue_loose cel inner ordinary]
    intro c member
    have visible : visibleSet.has c = true := visibleSet_has.mpr (strict c member)
    exact unbroken (by decide) (by decide) (by decide) visible

end Headers

/-- A value that sets another header, and a name with a tab. -/
theorem headers_unbroken_injected :
    isHeaderValue false .backtracking "a\r\nSet-Cookie: b" false ≠ .ok true ∧
      isHeaderName false .backtracking "a\tb" false = .ok true := by
  have headers := fun s => headers_unbroken false .backtracking
    (fun _ _ => Regexes.Engine.backtracking_ordinary _) s
  refine ⟨fun accepted => ?_, (headers _).1.mpr ⟨by decide, fun c member => ?_⟩⟩
  · exact absurd ((headers _).2.2.1.mp accepted '\n' (by decide)) (by decide)
  · have none : "a\tb".toList.all (fun c => !isBreak c) = true := by decide
    simpa using List.all_eq_true.mp none c member

/-! ### Email addresses -/

/-- The pattern of a valid address in the HTML standard. -/
def EMAIL : String :=
  "^[a-zA-Z0-9.!#$%&'*+/=?^_\x60\x7b|\x7d~-]+@[a-zA-Z0-9](?:[a-zA-Z0-9-]\x7b0,61\x7d[a-zA-Z0-9])?(?:\\.[a-zA-Z0-9](?:[a-zA-Z0-9-]\x7b0,61\x7d[a-zA-Z0-9])?)*$"

def isEmail (cel : Bool) (inner : Regexes.Engine) : String → Except String Bool :=
  isFormat cel inner EMAIL

def mailboxSet : CharSet where
  negated := false
  ranges := [('a', 'z'), ('A', 'Z'), ('0', '9'), ('.', '.'), ('!', '!'), ('#', '#'), ('$', '$'),
    ('%', '%'), ('&', '&'), ('\'', '\''), ('*', '*'), ('+', '+'), ('/', '/'), ('=', '='),
    ('?', '?'), ('^', '^'), ('_', '_'), ('\x60', '\x60'), ('\x7b', '\x7b'), ('|', '|'),
    ('\x7d', '\x7d'), ('~', '~'), ('-', '-')]

def hyphenSet : CharSet := ⟨false, [('a', 'z'), ('A', 'Z'), ('0', '9'), ('-', '-')]⟩

/-- What may follow the first letter or digit of a label: up to 61 characters and another
letter or digit. -/
def labelRest : Expr :=
  .alt (.seq ((Expr.set hyphenSet).timesTo 0 61) (.seq (.set alphanumericSet) .empty)) .empty

def labelExpr : Expr := .seq (.set alphanumericSet) (.seq labelRest .empty)

def emailPattern : Pattern where
  text := EMAIL
  parts := [.seq (.set mailboxSet) (.star (.set mailboxSet)), one '@', .set alphanumericSet,
    labelRest, .star (.seq (one '.') labelExpr)]
  plain := by decide
  parsed := by decide +kernel

theorem hyphenSet_has {c : Char} : hyphenSet.has c = true ↔ c.isAlphanum = true ∨ c = '-' := by
  rw [hyphenSet, ranges_has, isAlphanum_code, equal_code]
  simp only [List.mem_cons, List.not_mem_nil, or_false, exists_eq_or_imp, exists_eq_left,
    Char.reduceToNat]
  omega

/-- A character before the sign. -/
def isMailboxChar (c : Char) : Bool :=
  c.isAlphanum || ".!#$%&'*+/=?^_`{|}~-".toList.contains c

theorem mailboxSet_has {c : Char} : mailboxSet.has c = true ↔ isMailboxChar c = true := by
  have listed : ".!#$%&'*+/=?^_`{|}~-".toList = ['.', '!', '#', '$', '%', '&', '\'', '*',
      '+', '/', '=', '?', '^', '_', '`', '{', '|', '}', '~', '-'] := by decide
  rw [mailboxSet, ranges_has, isMailboxChar, Bool.or_eq_true, isAlphanum_code,
    List.contains_iff_mem, mem_codes, listed]
  simp only [List.mem_cons, List.not_mem_nil, or_false, exists_eq_or_imp, exists_eq_left,
    Char.reduceToNat]
  omega

theorem mem_labelRest {word : List Char} : word ∈ labelRest.language ↔
    (∃ middle d, middle ++ [d] = word ∧ middle.length ≤ 61 ∧
      (∀ c ∈ middle, c.isAlphanum = true ∨ c = '-') ∧ d.isAlphanum = true) ∨ word = [] := by
  have optional : ((Expr.set hyphenSet).timesTo 0 61).language =
      ((Expr.alt (.set hyphenSet) .empty).times 61).language := one_mul _
  have single : (Expr.seq (.set alphanumericSet) .empty).language =
      (Expr.set alphanumericSet).language := mul_one _
  rw [labelRest, mem_alt, mem_seq, optional, single]
  simp only [mem_optional_set, mem_set, alphanumericSet_has, hyphenSet_has]
  constructor
  · rintro (⟨middle, ⟨short, others⟩, _, ⟨d, last, rfl⟩, rfl⟩ | none)
    · exact .inl ⟨middle, d, rfl, short, others, last⟩
    · exact .inr none
  · rintro (⟨middle, d, rfl, short, others, last⟩ | none)
    · exact .inl ⟨middle, ⟨short, others⟩, [d], ⟨d, last, rfl⟩, rfl⟩
    · exact .inr none

/-- What the pattern has for a label is a label of a host name. -/
theorem mem_label {word : List Char} : word ∈ labelExpr.language ↔ WellKnown.HostLabel word := by
  have rest : (Expr.seq labelRest .empty).language = labelRest.language := mul_one _
  rw [labelExpr, mem_seq, rest]
  simp only [mem_labelRest, mem_set, alphanumericSet_has]
  have inner : ∀ c : Char, c.isAlphanum = true → c ≠ '-' := by
    rintro c alphanumeric rfl
    exact absurd alphanumeric (by decide)
  constructor
  · rintro ⟨_, ⟨c, first, rfl⟩, _, ⟨middle, d, rfl, short, others, last⟩ | rfl, rfl⟩
    · refine ⟨by simp, by simp; omega, fun e member => ?_, ?_, ?_⟩
      · rw [List.mem_append, List.mem_append, List.mem_singleton, List.mem_singleton] at member
        rcases member with rfl | inside | rfl
        · exact .inl first
        · exact others e inside
        · exact .inl last
      · simpa using inner c first
      · rw [List.getLast?_append_of_ne_nil _ (by simp), List.getLast?_append_of_ne_nil _ (by simp)]
        simpa using inner d last
    · refine ⟨by simp, by simp, fun e member => ?_, ?_, ?_⟩
      · rw [List.append_nil, List.mem_singleton] at member
        exact .inl (member ▸ first)
      · simpa using inner c first
      · simpa using inner c first
  · rintro ⟨nonempty, short, characters, start, stop⟩
    obtain ⟨c, tail, rfl⟩ := List.exists_cons_of_ne_nil nonempty
    have first : c.isAlphanum = true :=
      (characters c List.mem_cons_self).resolve_right fun dash => start (by rw [dash]; rfl)
    refine ⟨[c], ⟨c, first, rfl⟩, tail, ?_, rfl⟩
    rcases List.eq_nil_or_concat tail with rfl | ⟨middle, d, rfl⟩
    · exact .inr rfl
    · rw [List.concat_eq_append] at short characters stop ⊢
      rw [← List.cons_append, List.getLast?_append_of_ne_nil _ (by simp)] at stop
      have last : d.isAlphanum = true :=
        (characters d (by simp)).resolve_right fun dash => stop (by rw [dash]; rfl)
      refine .inl ⟨middle, d, rfl, ?_, fun e inside => characters e (by simp [inside]), last⟩
      simp only [List.length_cons, List.length_append, List.length_nil] at short
      omega

theorem label_undotted : ∀ word ∈ labelExpr.language, '.' ∉ word :=
  fun _ member => (mem_label.mp member).undotted

/-- An address: characters before the sign, and labels with dots between them after it. -/
def IsAddress (mailbox domain : List Char) : Prop :=
  mailbox ≠ [] ∧ (∀ c ∈ mailbox, isMailboxChar c = true) ∧
    ∀ label ∈ domain.splitOn '.', WellKnown.HostLabel label

theorem mem_email {text : List Char} : text ∈ emailPattern.language ↔
    ∃ mailbox domain, text = mailbox ++ '@' :: domain ∧ IsAddress mailbox domain := by
  have domain : ∀ word : List Char,
      word ∈ labelExpr.language * (Expr.star (.seq (one '.') labelExpr)).language ↔
        ∀ label ∈ word.splitOn '.', WellKnown.HostLabel label := by
    intro word
    rw [mem_splitOn label_undotted]
    simp only [mem_label]
  have label : labelExpr.language =
      (Expr.set alphanumericSet).language * (labelRest.language * 1) := rfl
  have grouped : emailPattern.language =
      ((Expr.set mailboxSet).language * (Expr.star (.set mailboxSet)).language) *
        ((one '@').language *
          (labelExpr.language * (Expr.star (.seq (one '.') labelExpr)).language)) := by
    have mailbox : (Expr.seq (.set mailboxSet) (.star (.set mailboxSet))).language =
        (Expr.set mailboxSet).language * (Expr.star (.set mailboxSet)).language := rfl
    rw [label]
    simp only [Pattern.language, emailPattern, List.map_cons, List.map_nil, List.prod_cons,
      List.prod_nil, mailbox, mul_one, mul_assoc]
  rw [grouped]
  constructor
  · intro member
    obtain ⟨mailbox, before, _, after, rfl⟩ := Language.mem_mul.mp member
    obtain ⟨_, sign, labels, valid, rfl⟩ := Language.mem_mul.mp after
    obtain rfl := mem_one.mp sign
    obtain ⟨some, all⟩ := mem_plus_set.mp before
    simp only [mailboxSet_has] at all
    exact ⟨mailbox, labels, rfl, some, all, (domain labels).mp valid⟩
  · rintro ⟨mailbox, labels, rfl, some, all, valid⟩
    simp only [← mailboxSet_has] at all
    exact Language.mem_mul.mpr ⟨mailbox, mem_plus_set.mpr ⟨some, all⟩, '@' :: labels,
      Language.mem_mul.mpr ⟨['@'], mem_one.mpr rfl, labels, (domain labels).mpr valid, rfl⟩, rfl⟩

theorem asciiClasses_email : asciiClasses EMAIL = EMAIL := by
  decide +kernel

theorem isEmail_iff {cel : Bool} {inner : Regexes.Engine} (ordinary : inner.Ordinary EMAIL)
    (s : String) : isEmail cel inner s = .ok true ↔ s.toList ∈ emailPattern.language := by
  obtain ⟨matcher, compiled, found⟩ := ordinary _ emailPattern.parsed
  have same : regexNew cel inner EMAIL = .ok matcher := by
    cases cel with
    | true => exact compiled
    | false => exact (congrArg inner.compile asciiClasses_email).trans compiled
  rw [isEmail, isFormat, same, ← emailPattern.matches_iff, ← found]
  change Except.ok (matcher s) = Except.ok true ↔ matcher s = true
  rw [Except.ok.injEq]

/-- Labels with dots between them are a host name if they are short enough together and
the last one is not digits only. -/
theorem isHostname_labels {domain : List Char}
    (valid : ∀ label ∈ domain.splitOn '.', WellKnown.HostLabel label) :
    WellKnown.isHostname domain = true ↔ domain.length ≤ 253 ∧
      ∃ last ∈ (domain.splitOn '.').getLast?, ∃ c ∈ last, ¬c.isDigit := by
  obtain ⟨labels, last, parts⟩ :=
    (List.eq_nil_or_concat (domain.splitOn '.')).resolve_left (List.splitOn_ne_nil '.' domain)
  rw [List.concat_eq_append] at parts
  have joined : domain = ['.'].intercalate (labels ++ [last]) := by
    rw [← parts]
    exact (List.intercalate_splitOn '.').symm
  rw [parts] at valid ⊢
  have label := valid last (by simp)
  have ends : domain.getLast? = last.getLast? := by
    obtain ⟨front, shape⟩ := Slice.intercalate_last (c := '.') labels last
    rw [joined, shape, List.getLast?_append_of_ne_nil _ label.nonempty]
  have undotted : domain.getLast? ≠ some '.' := by
    rw [ends]
    exact fun dot => label.undotted (List.mem_of_getLast? dot)
  have nonempty : ¬domain.isEmpty = true := by
    rw [List.isEmpty_iff]
    rintro rfl
    exact label.nonempty (List.getLast?_eq_none_iff.mp ends.symm)
  rw [WellKnown.isHostname, if_neg nonempty]
  dsimp only
  rw [Slice.stripSuffix_eq_none.mpr undotted, Option.getD_none, WellKnown.stripped_hostname]
  constructor
  · rintro ⟨labels', last', joined', valid', short, letter⟩
    have parts' := List.splitOn_intercalate '.'
      (fun label member => (valid' label member).undotted) (by simp)
    rw [← joined', parts] at parts'
    obtain ⟨-, same⟩ := List.append_inj' parts' rfl
    rw [List.singleton_inj.mp same]
    exact ⟨short, last', by simp, letter⟩
  · rintro ⟨short, last', ends', letter⟩
    rw [List.getLast?_concat, Option.mem_some_iff] at ends'
    exact ⟨labels, last, joined, valid, short, ends' ▸ letter⟩

/-- The format has the addresses. The domain of one is a host name unless it is too long
for it, or its last label is digits only. -/
theorem emails_iff (cel : Bool) (inner : Regexes.Engine) (ordinary : inner.Ordinary EMAIL)
    (s : String) :
    (isEmail cel inner s = .ok true ↔ ∃ mailbox domain,
      s.toList = mailbox ++ '@' :: domain ∧ IsAddress mailbox domain) ∧
    ∀ mailbox domain, s.toList = mailbox ++ '@' :: domain → IsAddress mailbox domain →
      (WellKnown.isHostname domain = true ↔ domain.length ≤ 253 ∧
        ∃ last ∈ (domain.splitOn '.').getLast?, ∃ c ∈ last, ¬c.isDigit) :=
  ⟨(isEmail_iff ordinary s).trans mem_email,
    fun _ _ _ address => isHostname_labels address.2.2⟩

/-- An address with a label of digits only in the end, which no host name has. -/
theorem emails_iff_digits : WellKnown.isHostname "example.1".toList = false ∧
    isEmail true .backtracking "foo@example.1" = .ok true := by
  have emails := emails_iff true _ (Regexes.Engine.backtracking_ordinary EMAIL) "foo@example.1"
  have labels : ∀ label ∈ "example.1".toList.splitOn '.', label = "example".toList ∨
      label = "1".toList := by decide
  have label : ∀ label : List Char, label.all Char.isAlphanum = true → label ≠ [] →
      label.length ≤ 63 → label.head? ≠ some '-' → label.getLast? ≠ some '-' →
      WellKnown.HostLabel label := fun label all nonempty short start stop =>
    ⟨nonempty, short, fun c member => .inl (List.all_eq_true.mp all c member), start, stop⟩
  have mailbox : "foo".toList.all isMailboxChar = true := by decide
  have address : IsAddress "foo".toList "example.1".toList := by
    refine ⟨by decide, List.all_eq_true.mp mailbox, fun part member => ?_⟩
    rcases labels part member with rfl | rfl <;> apply label <;> decide
  refine ⟨?_, emails.1.mpr ⟨"foo".toList, "example.1".toList, by decide, address⟩⟩
  rw [Bool.eq_false_iff]
  intro accepted
  obtain ⟨-, last, ends, c, inside, letter⟩ := (emails.2 _ _ (by decide) address).mp accepted
  have digits : ∀ last ∈ ("example.1".toList.splitOn '.').getLast?,
      last.all Char.isDigit = true := by
    decide
  exact letter (List.all_eq_true.mp (digits last ends) c inside)

end Protovalidate
