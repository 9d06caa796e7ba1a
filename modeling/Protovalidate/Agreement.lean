import Protovalidate.Comparison
import Protovalidate.Lib.Regexes

/-!
# The other standard rules against their CEL expressions

Each rules message in turn, field by field in the order the checks are built.
-/

namespace Protovalidate

section Small
variable (kind : String)

theorem agree_bool (r : BoolRules) (this : Bool) :
    Agree (fun test => boolFails test this) r this (boolChecks kind r).1 (boolFields kind) :=
  agree_append_silent (f := [_])
    (agree_breaks kind 1 "const" (by simp) (fun c => rfl))
    (agree_example kind 2 _)

theorem agree_repeated (r : RepeatedRules FieldRules) (this : ListSubject) :
    Agree (fun test => ListTest.fails test this.size (.ok (!this.unique))) r this
      (repeatedChecks kind r).1 (repeatedFields kind) := by
  refine agree_append (agree_append (f := [_]) (g := [_]) ?_ ?_)
    (agree_append_silent (f := [_]) (g := [_]) ?_ ?_)
  · exact agree_breaks kind 1 "min_items" (by simp) (fun _ => rfl)
  · exact agree_breaks kind 2 "max_items" (by simp) (fun _ => rfl)
  · refine agree_flag 3 "unique" (fun disabled => ?_) (fun enabled => ?_)
    · simp [report_holds, disabled]
    · rw [reports_push, report_holds, enabled]
      cases this.unique <;> simp [ListTest.fails, Except.toOption]
  · exact agree_silent rfl

theorem agree_map (r : MapRules FieldRules) (this : Nat) :
    Agree (fun test => MapTest.fails test this) r this (mapChecks kind r).1 (mapFields kind) := by
  refine agree_append_silent (g := [_, _])
    (agree_append (f := [_]) (g := [_]) ?_ ?_) ?_
  · exact agree_breaks kind 1 "min_pairs" (by simp) (fun _ => rfl)
  · exact agree_breaks kind 2 "max_pairs" (by simp) (fun _ => rfl)
  · exact agree_append_silent (f := [_]) (agree_silent rfl) (agree_silent rfl)

theorem not_all_eq_any {α : Type} (list : List α) (p : α → Bool) :
    (!list.all fun a => !p a) = list.any p := by
  simp [List.any_eq_not_all_not]

theorem append_isPrefixOf {α : Type} [BEq α] (p q s : List α) :
    (p ++ q).isPrefixOf s = (p.isPrefixOf s && q.isPrefixOf (s.drop p.length)) := by
  induction p generalizing s with
  | nil => simp
  | cons a p ih =>
    cases s with
    | nil => simp
    | cons b s => simp [List.isPrefixOf, ih, Bool.and_assoc]

/-- A path below `f` is one that starts with `f.`. -/
theorem covered_eq_listed (paths : List String) (path : String) :
    covered paths path = listed paths path := by
  unfold covered listed
  induction paths with
  | nil => rfl
  | cons f paths ih =>
    have below : startsWith path (f ++ ".") = (f.toList.isPrefixOf path.toList &&
        ['.'].isPrefixOf (path.toList.drop f.toList.length)) := by
      rw [startsWith, String.toList_append, append_isPrefixOf]
      rfl
    rw [List.any_cons, List.any_cons, List.contains_cons, ih, below, Bool.beq_comm (a := f)]
    ac_rfl

theorem agree_fieldMask (r : FieldMaskRules) (this : List String) :
    Agree (fun test => FieldMaskTest.fails test this) r this (fieldMaskChecks kind r).1
      (fieldMaskFields kind) := by
  refine agree_append_silent (agree_append
    (agree_append (f := [_]) (g := [_]) ?_ ?_) (g := [_]) ?_)
    (agree_example kind 4 _)
  · exact agree_breaks kind 1 "const" (by simp) (fun _ => rfl)
  · refine agree_breaksList kind 2 "in" (by simp) (fun list _ => ?_)
    simp only [FieldMaskTest.fails, covered_eq_listed]
  · refine agree_breaksList kind 3 "not_in" (by simp) (fun list _ => ?_)
    simp only [FieldMaskTest.fails, covered_eq_listed, not_all_eq_any]

theorem filter_whenSet {τ α : Type} {p : Nat × Native τ → Bool} (value : Option α)
    {checks : α → Unplaced τ} (kept : ∀ v, (checks v).filter p = checks v) :
    (whenSet value checks).filter p = whenSet value checks := by
  cases value with
  | none => rfl
  | some v => exact kept v

theorem filter_whenListed {τ α : Type} {p : Nat × Native τ → Bool} (list : List α)
    {checks : List α → Unplaced τ} (kept : ∀ list, (checks list).filter p = checks list) :
    (whenListed list checks).filter p = whenListed list checks := by
  cases list with
  | nil => rfl
  | cons v rest => exact kept (v :: rest)

theorem int_eq (a b : Int) : NanOrder.eq a b = (a == b) := rfl

theorem int_inList (a : Int) (list : List Int) : inList a list = list.contains a := by
  simp only [inList, int_eq, List.contains_eq_any_beq, Bool.beq_comm]

/-- `defined_only` has no expression, so its check is left out. -/
theorem agree_enum (r : EnumRules) (enum : Option EnumIndex) (defined : EnumIndex → Int → Bool)
    (this : Int) :
    Agree (fun test => EnumTest.fails defined test this) r this
      ((enumChecks kind r enum).1.filter (fun check => check.1 != 2)) (enumFields kind) := by
  have definedOnly : (whenTrue r.definedOnly (whenSet enum fun enum =>
      Unplaced.push kind 2 "defined_only" "value must be one of the defined enum values"
        (EnumTest.definedOnly enum))).filter (fun check => check.1 != 2) = [] := by
    rcases r.definedOnly with _ | _ | _ <;> cases enum <;> rfl
  simp only [enumChecks, List.filter_append, definedOnly]
  rw [filter_whenSet _ (fun _ => rfl), filter_whenListed _ (fun _ => rfl),
    filter_whenListed _ (fun _ => rfl)]
  refine agree_append_silent (agree_append (agree_append (agree_append
    (f := [_]) (g := [_]) ?_ ?_) (g := [_]) ?_) (g := [_]) ?_)
    (agree_example kind 5 _)
  · exact agree_breaks kind 1 "const" (by simp) (fun c => fails_const c)
  · exact agree_silent rfl
  · refine agree_breaksList kind 3 "in" (by simp) (fun list _ => ?_)
    rw [← int_inList]
    exact fails_isIn list
  · refine agree_breaksList kind 4 "not_in" (by simp) (fun list _ => ?_)
    rw [← int_inList]
    exact fails_notIn list

end Small

section Patterns
variable (B : Backend) (kind : String)

/-- A pattern that compiled, against the text of the value. -/
theorem agree_pattern {ρ ν τ : Type} {fails : τ → Except String Bool} {rules : ρ} {this : ν}
    {get : ρ → Option String} {text : ν → Option String} {message : String → String}
    {test : Regex → τ} {checks : Unplaced τ} (number : Nat) (nonempty : ∀ p, message p ≠ "")
    (outcome : ∀ regex, (fails (test regex)).toOption =
      (text this).map fun text => !regex.isMatch B text)
    (built : patternChecks B kind (get rules) (fun p compiled =>
      Unplaced.push kind number "pattern" (message p) (test compiled)) = .ok checks) :
    Agree fails rules this checks [patternField B kind number get text message] := by
  rcases patternChecks_cases built with ⟨unset, rfl⟩ | ⟨p, set, compiled, rfl⟩
  · exact agree_unset (by simp [patternField, unset])
  · refine agree_set (.string p) (by simp [patternField, set]) ?_
    rw [reports_push, outcome, patternField, collect_singleton]
    cases read : text this with
    | none => simp [Predefined.report, Predefined.failure, onSet, set, read]
    | some text =>
      have matched : celMatches B text p = some (B.isMatch p text) := by
        rw [celMatches, compiled]
      cases found : B.isMatch p text <;>
        simp [Predefined.report, Predefined.failure, onSet, set, read, matched, found, failIf,
          Regex.isMatch, nonempty]

/-- A format that lets an empty string through, when its flag is true. -/
theorem agree_format {ρ ν τ : Type} {fails : τ → Except String Bool} {rules : ρ} {this : ν}
    (get : ρ → Option Bool) (isEmpty passes : ν → Bool) {test empty_ : τ} (number : Nat)
    (name what empty : String)
    (outcome : fails test = .ok (!(isEmpty this || passes this)))
    (emptyOutcome : fails empty_ = .ok (isEmpty this)) :
    Agree fails rules this
      (whenTrue (get rules)
        (Unplaced.push kind number name ("must be a valid " ++ what) test ++
          Unplaced.push kind number (name ++ "_empty")
            ("value is empty, which is not a valid " ++ empty) empty_))
      [formatField kind number name get isEmpty what empty passes] := by
  rcases set : get rules with _ | _ | _
  · exact agree_unset (by simp [formatField, flagField, set])
  · refine agree_silent ?_
    simp [formatField, flagField, collect_cons, report_holds, set]
  · refine agree_set (.bool true) (by simp [formatField, flagField, set]) ?_
    simp only [whenTrue, if_true, reports_append, reports_push, outcome, emptyOutcome,
      formatField, flagField, collect_cons, collect_nil, report_holds, set]
    cases isEmpty this <;> cases passes this <;> simp [Except.toOption]

end Patterns

section Headers
variable {B : Backend}

/-- The engine of a backend, which compiles a pattern and matches with it. -/
def Backend.engine (B : Backend) : Regexes.Engine where
  compile pattern := (B.regexNew pattern).map fun _ => B.isMatch pattern

/-- The patterns of the header formats, as the native checks and the schema have them. -/
def HEADER_PATTERNS : List String :=
  [HEADER_NAME_STRICT, HEADER_NAME_LOOSE, HEADER_VALUE_STRICT, HEADER_VALUE_LOOSE,
    celHeaderName true, celHeaderName false, celHeaderValue true, celHeaderValue false]

/-- The engine matches with the patterns of headers what they stand for. -/
def Backend.ReadsHeaders (B : Backend) : Prop :=
  ∀ pattern ∈ HEADER_PATTERNS, B.engine.Ordinary pattern

theorem engine_ordinary {pattern : String} {expr : Regexes.Expr}
    (ordinary : B.engine.Ordinary pattern) (parsed : Regexes.parse pattern = some expr) :
    B.regexNew pattern = .ok () ∧
      ∀ text, B.isMatch pattern text = true ↔ expr.Matches text.toList := by
  obtain ⟨matcher, compiled, found⟩ := ordinary expr parsed
  simp only [Backend.engine] at compiled
  cases built : B.regexNew pattern with
  | error e => simp [built, Except.map] at compiled
  | ok _ =>
    simp only [built, Except.map, Except.ok.injEq] at compiled
    exact ⟨rfl, compiled ▸ found⟩

/-- Two patterns that stand for the same expression match the same texts. -/
theorem celMatches_same {native cel : String}
    (same : Regexes.parse native = Regexes.parse cel) (parses : (Regexes.parse cel).isSome)
    (ordinary : B.engine.Ordinary native) (ordinaryCel : B.engine.Ordinary cel) (text : String) :
    celMatches B text cel = some (B.isMatch native text) := by
  obtain ⟨expr, parsed⟩ := Option.isSome_iff_exists.mp parses
  obtain ⟨compiled, found⟩ := engine_ordinary ordinaryCel parsed
  have foundNative := (engine_ordinary ordinary (same.trans parsed)).2 text
  rw [celMatches, compiled, Option.some.injEq, Bool.eq_iff_iff, found text, foundNative]

/-- A backslash and a code in the native patterns is the character itself in those of the
schema. -/
theorem headers_parse :
    (∀ strict, Regexes.parse (if strict then HEADER_NAME_STRICT else HEADER_NAME_LOOSE) =
        Regexes.parse (celHeaderName strict) ∧ (Regexes.parse (celHeaderName strict)).isSome) ∧
    ∀ strict, Regexes.parse (if strict then HEADER_VALUE_STRICT else HEADER_VALUE_LOOSE) =
        Regexes.parse (celHeaderValue strict) ∧ (Regexes.parse (celHeaderValue strict)).isSome := by
  decide +kernel

variable (reads : B.ReadsHeaders)
include reads

theorem celMatches_headerName (strict : Bool) (text : String) :
    celMatches B text (celHeaderName strict) =
      some (B.isMatch (if strict then HEADER_NAME_STRICT else HEADER_NAME_LOOSE) text) := by
  obtain ⟨same, parses⟩ := headers_parse.1 strict
  exact celMatches_same same parses
    (reads _ (by cases strict <;> simp [HEADER_PATTERNS]))
    (reads _ (by cases strict <;> simp [HEADER_PATTERNS])) text

theorem celMatches_headerValue (strict : Bool) (text : String) :
    celMatches B text (celHeaderValue strict) =
      some (B.isMatch (if strict then HEADER_VALUE_STRICT else HEADER_VALUE_LOOSE) text) := by
  obtain ⟨same, parses⟩ := headers_parse.2 strict
  exact celMatches_same same parses
    (reads _ (by cases strict <;> simp [HEADER_PATTERNS]))
    (reads _ (by cases strict <;> simp [HEADER_PATTERNS])) text

end Headers

section WellKnown
variable (B : Backend) (kind : String)

/-- What a rule reports that matches a text unless it is exempt. -/
theorem report_holdsMatching {ρ : Type} {rules : ρ} {this : String} (id message : String)
    (exempt : ρ → String → Bool) (pattern : ρ → String) (number : Nat) :
    (holdsMatching B id message exempt pattern).report number rules this =
      if exempt rules this then some []
      else (celMatches B this (pattern rules)).map fun matched =>
        if matched then [] else [⟨id, message, number⟩] := by
  by_cases free : exempt rules this = true
  · simp [Predefined.report, Predefined.failure, holdsMatching, free]
  · rcases matched : celMatches B this (pattern rules) with _ | _ | _ <;>
      simp [Predefined.report, Predefined.failure, holdsMatching, free, matched]

theorem fails_wellKnown {format : WellKnown} (allowsEmpty : format.allowsEmpty = true)
    (this : String) :
    StrTest.fails B (.wellKnown format) this = .ok (!(this == "" || format.accepts B this)) := by
  simp only [StrTest.fails, WellKnown.fails, allowsEmpty, Bool.and_true]
  cases this == "" <;> simp

/-- The checks of one flag of the `well_known` oneof, if it is true. -/
def flagChecks (r : StringRules) (flag : StringWellKnown → Option Bool) (format : Format)
    (empty : String) : Unplaced StrTest :=
  whenTrue (r.wellKnown.bind flag)
    (Unplaced.push kind format.number format.suffix ("must be a valid " ++ format.what)
        (.wellKnown format.format) ++
      Unplaced.push kind format.number (format.suffix ++ "_empty")
        ("value is empty, which is not a valid " ++ empty) .empty)

theorem agree_flagChecks {r : StringRules} {this : String} {passes : String → Bool}
    (flag : StringWellKnown → Option Bool) (format : Format) (empty : String)
    (allowsEmpty : format.format.allowsEmpty = true)
    (accepts : ∀ s, format.format.accepts B s = passes s) :
    Agree (fun test => StrTest.fails B test this) r this (flagChecks kind r flag format empty)
      [stringFormatField kind format.number format.suffix flag format.what empty passes] := by
  unfold flagChecks stringFormatField
  have outcome := fails_wellKnown B allowsEmpty this
  rw [accepts] at outcome
  exact agree_format kind (fun rules : StringRules => rules.wellKnown.bind flag)
    (fun s => s == "") passes
    format.number format.suffix format.what empty outcome rfl

/-- At most one member of the oneof is set, so its checks are those of all of
the members together. -/
theorem wellKnownChecks_eq (r : StringRules) (strict : Bool) :
    whenSet r.wellKnown (fun rule => wellKnownChecks kind rule strict) = List.flatten [
      flagChecks kind r (fun | .email b => some b | _ => none)
        ⟨12, "email", "email address", .email⟩ "email address",
      flagChecks kind r (fun | .hostname b => some b | _ => none)
        ⟨13, "hostname", "hostname", .hostname⟩ "hostname",
      flagChecks kind r (fun | .ip b => some b | _ => none)
        ⟨14, "ip", "IP address", .ip⟩ "IP address",
      flagChecks kind r (fun | .ipv4 b => some b | _ => none)
        ⟨15, "ipv4", "IPv4 address", .ipv4⟩ "IPv4 address",
      flagChecks kind r (fun | .ipv6 b => some b | _ => none)
        ⟨16, "ipv6", "IPv6 address", .ipv6⟩ "IPv6 address",
      flagChecks kind r (fun | .uri b => some b | _ => none) ⟨17, "uri", "URI", .uri⟩ "URI",
      whenTrue r.uriRef (Unplaced.push kind 18 "uri_ref" ("must be a valid " ++ "URI Reference")
        (.wellKnown .uriRef)),
      flagChecks kind r (fun | .address b => some b | _ => none)
        ⟨21, "address", "hostname, or ip address", .address⟩ "hostname, or ip address",
      flagChecks kind r (fun | .uuid b => some b | _ => none)
        ⟨22, "uuid", "UUID", .uuid⟩ "UUID",
      flagChecks kind r (fun | .tuuid b => some b | _ => none)
        ⟨33, "tuuid", "trimmed UUID", .tuuid⟩ "trimmed UUID",
      flagChecks kind r (fun | .ipWithPrefixlen b => some b | _ => none)
        ⟨26, "ip_with_prefixlen", "IP prefix", .ipWithPrefixlen⟩ "IP prefix",
      flagChecks kind r (fun | .ipv4WithPrefixlen b => some b | _ => none)
        ⟨27, "ipv4_with_prefixlen", "IPv4 address with prefix length", .ipv4WithPrefixlen⟩
        "IPv4 address with prefix length",
      flagChecks kind r (fun | .ipv6WithPrefixlen b => some b | _ => none)
        ⟨28, "ipv6_with_prefixlen", "IPv6 address with prefix length", .ipv6WithPrefixlen⟩
        "IPv6 address with prefix length",
      flagChecks kind r (fun | .ipPrefix b => some b | _ => none)
        ⟨29, "ip_prefix", "IP prefix", .ipPrefix⟩ "IP prefix",
      flagChecks kind r (fun | .ipv4Prefix b => some b | _ => none)
        ⟨30, "ipv4_prefix", "IPv4 prefix", .ipv4Prefix⟩ "IPv4 prefix",
      flagChecks kind r (fun | .ipv6Prefix b => some b | _ => none)
        ⟨31, "ipv6_prefix", "IPv6 prefix", .ipv6Prefix⟩ "IPv6 prefix",
      flagChecks kind r (fun | .hostAndPort b => some b | _ => none)
        ⟨32, "host_and_port", "host (hostname or IP address) and port pair", .hostAndPort⟩
        "host and port pair",
      flagChecks kind r (fun | .ulid b => some b | _ => none)
        ⟨35, "ulid", "ULID", .ulid⟩ "ULID",
      flagChecks kind r (fun | .protobufFqn b => some b | _ => none)
        ⟨37, "protobuf_fqn", "fully-qualified Protobuf name", .protobufFqn⟩
        "fully-qualified Protobuf name",
      flagChecks kind r (fun | .protobufDotFqn b => some b | _ => none)
        ⟨38, "protobuf_dot_fqn", "fully-qualified Protobuf name with a leading dot",
          .protobufDotFqn⟩
        "fully-qualified Protobuf name with a leading dot",
      whenSet r.wellKnownRegex (fun regex =>
        wellKnownChecks kind (.wellKnownRegex regex) strict)] := by
  unfold flagChecks StringRules.wellKnownRegex StringRules.uriRef
  rcases r.wellKnown with _ | rule
  · rfl
  · cases rule with
    | wellKnownRegex regex => cases regex <;> rfl
    | _ b => cases b <;> rfl

theorem agree_uriRef (r : StringRules) (this : String) :
    Agree (fun test => StrTest.fails B test this) r this
      (whenTrue r.uriRef (Unplaced.push kind 18 "uri_ref" ("must be a valid " ++ "URI Reference")
        (.wellKnown .uriRef)))
      [flagField 18 "uri_ref" StringRules.uriRef [
        holds (kind ++ "." ++ "uri_ref") "must be a valid URI Reference"
          (fun rules this => !rules.uriRef.getD false || B.isUriRef this)]] := by
  refine agree_flag 18 "uri_ref" (fun disabled => ?_) (fun enabled => ?_)
  · simp [report_holds, disabled]
  · have message : "must be a valid " ++ "URI Reference" = "must be a valid URI Reference" := rfl
    rw [message, reports_push, report_holds, enabled]
    cases accepted : B.isUriRef this <;>
      simp [StrTest.fails, WellKnown.fails, WellKnown.allowsEmpty, WellKnown.accepts, accepted,
        Except.toOption]

/-- `strict` is true unless the rules say otherwise. -/
theorem isStrict_eq (r : StringRules) : r.isStrict = r.strict.getD true := by
  unfold StringRules.isStrict
  cases r.strict <;> rfl

theorem headerName_checks (strict : Bool) :
    wellKnownChecks kind (.wellKnownRegex .httpHeaderName) strict =
      Unplaced.push kind 24 "well_known_regex.header_name" "must be a valid HTTP header name"
        (.wellKnown (.headerName strict)) ++
      Unplaced.push kind 24 "well_known_regex.header_name_empty"
        "value is empty, which is not a valid HTTP header name" .empty := rfl

theorem headerValue_checks (strict : Bool) :
    wellKnownChecks kind (.wellKnownRegex .httpHeaderValue) strict =
      Unplaced.push kind 24 "well_known_regex.header_value" "must be a valid HTTP header value"
        (.wellKnown (.headerValue strict)) := rfl

theorem agree_wellKnownRegex (reads : B.ReadsHeaders) (r : StringRules) (this : String) :
    Agree (fun test => StrTest.fails B test this) r this
      (whenSet r.wellKnownRegex (fun regex =>
        wellKnownChecks kind (.wellKnownRegex regex) (r.strict.getD true)))
      [wellKnownRegexField B kind] := by
  cases set : r.wellKnownRegex with
  | none => exact agree_unset (by simp [wellKnownRegexField, set])
  | some regex =>
    refine agree_set (.regex regex) (by simp [wellKnownRegexField, set]) ?_
    simp only [wellKnownRegexField, collect_cons, collect_nil, report_holds, report_holdsMatching,
      celMatches_headerName reads, celMatches_headerValue reads, set, isStrict_eq]
    cases regex with
    | unspecified => rfl
    | httpHeaderName =>
      simp only [whenSet, headerName_checks, reports_append, reports_push, StrTest.fails,
        WellKnown.fails, WellKnown.allowsEmpty, WellKnown.accepts]
      generalize B.isMatch _ this = matched
      cases isEmpty : this == "" <;> cases matched <;> simp [Except.toOption, bne, isEmpty]
    | httpHeaderValue =>
      simp only [whenSet, headerValue_checks, reports_push, StrTest.fails, WellKnown.fails,
        WellKnown.allowsEmpty, WellKnown.accepts]
      generalize B.isMatch _ this = matched
      cases matched <;> simp [Except.toOption]

theorem agree_wellKnown (reads : B.ReadsHeaders) (r : StringRules) (this : String) :
    Agree (fun test => StrTest.fails B test this) r this
      (whenSet r.wellKnown (fun rule => wellKnownChecks kind rule (r.strict.getD true)))
      (wellKnownFields B kind) := by
  rw [wellKnownChecks_eq]
  refine agree_each ?_
  unfold wellKnownFields
  simp only [List.forall₂_cons]
  and_intros
  all_goals first
    | exact agree_flagChecks B kind _ _ _ rfl (fun _ => rfl)
    | exact agree_uriRef B kind r this
    | exact agree_wellKnownRegex B kind reads r this
    | exact .nil

end WellKnown

section Text
variable (B : Backend) (kind : String)

theorem agree_lengths (r : StringRules) (this : String) :
    Agree (fun test => StrTest.fails B test this) r this (lengthChecks kind r)
      (stringLengthFields kind) := by
  refine agree_each ?_
  unfold stringLengthFields
  simp only [List.forall₂_cons]
  and_intros
  · exact agree_breaks kind 19 "len" (by simp) (fun _ => rfl)
  · exact agree_breaks kind 2 "min_len" (by simp) (fun _ => rfl)
  · exact agree_breaks kind 3 "max_len" (by simp) (fun _ => rfl)
  · exact agree_breaks kind 20 "len_bytes" (by simp) (fun _ => rfl)
  · exact agree_breaks kind 4 "min_bytes" (by simp) (fun _ => rfl)
  · exact agree_breaks kind 5 "max_bytes" (by simp) (fun _ => rfl)
  · exact .nil

theorem agree_substrings (r : StringRules) (this : String) :
    Agree (fun test => StrTest.fails B test this) r this (substringChecks kind r)
      (substringFields kind) := by
  refine agree_each ?_
  unfold substringFields
  simp only [List.forall₂_cons]
  and_intros
  · exact agree_breaks kind 7 "prefix" (by simp) (fun _ => rfl)
  · exact agree_breaks kind 8 "suffix" (by simp) (fun _ => rfl)
  · exact agree_breaks kind 9 "contains" (by simp) (fun _ => rfl)
  · exact agree_breaks kind 23 "not_contains" (by simp) (fun _ => rfl)
  · exact .nil

theorem any_eq_contains {α : Type} [BEq α] [LawfulBEq α] (list : List α) (this : α) :
    (list.any fun item => item == this) = list.contains this := by
  simp only [List.contains_eq_any_beq, Bool.beq_comm]

theorem agree_string (reads : B.ReadsHeaders) {r rest : StringRules}
    {checks : Unplaced StrTest} (built : stringChecks B kind r = .ok (checks, rest))
    (this : String) :
    Agree (fun test => StrTest.fails B test this) r this checks (stringFields B kind) := by
  cases patterns : patternChecks B kind r.pattern (fun p compiled =>
      Unplaced.push kind 6 "pattern" ("does not match regex pattern `" ++ p ++ "`")
        (StrTest.pattern compiled)) with
  | error e => simp [stringChecks, patterns, bind, Except.bind] at built
  | ok pattern =>
    simp only [stringChecks, patterns, bind, Except.bind, pure, Except.pure, Except.ok.injEq,
      Prod.mk.injEq] at built
    obtain ⟨rfl, -⟩ := built
    refine agree_append_silent (g := [_, _]) (agree_flatten ?_) ?_
    · simp only [List.forall₂_cons]
      and_intros
      · exact agree_breaks kind 1 "const" (by simp) (fun _ => rfl)
      · exact agree_lengths B kind r this
      · exact agree_pattern B kind 6 (by simp) (fun _ => rfl) patterns
      · exact agree_substrings B kind r this
      · refine agree_breaksList kind 10 "in" (by simp) (fun list _ => ?_)
        rw [← any_eq_contains]
        rfl
      · refine agree_breaksList kind 11 "not_in" (by simp) (fun list _ => ?_)
        rw [← any_eq_contains]
        rfl
      · exact agree_wellKnown B kind reads r this
      · exact .nil
    · exact agree_append_silent (f := [_]) (agree_silent rfl) (agree_example kind 34 _)

/-- The checks of one flag of the `well_known` oneof of `BytesRules`. -/
def bytesFlagChecks (r : BytesRules) (flag : BytesWellKnown → Option Bool) (number : Nat)
    (name what : String) (test : BytesTest) : Unplaced BytesTest :=
  whenTrue (r.wellKnown.bind flag)
    (Unplaced.push kind number name ("must be a valid " ++ what) test ++
      Unplaced.push kind number (name ++ "_empty")
        ("value is empty, which is not a valid " ++ what) .empty)

theorem bytesFormatChecks_eq (r : BytesRules) :
    whenSet r.wellKnown (bytesFormatChecks kind) = List.flatten [
      bytesFlagChecks kind r (fun | .ip b => some b | _ => none) 10 "ip" "IP address" .ip,
      bytesFlagChecks kind r (fun | .ipv4 b => some b | _ => none) 11 "ipv4" "IPv4 address" .ipv4,
      bytesFlagChecks kind r (fun | .ipv6 b => some b | _ => none) 12 "ipv6" "IPv6 address" .ipv6,
      bytesFlagChecks kind r (fun | .uuid b => some b | _ => none) 15 "uuid" "UUID" .uuid] := by
  unfold bytesFlagChecks
  rcases r.wellKnown with _ | rule
  · rfl
  · cases rule with
    | _ b => cases b <;> rfl

theorem agree_bytesFlagChecks {r : BytesRules} {this : Bytes} {flag : BytesWellKnown → Option Bool}
    {test : BytesTest} {sizes : List Nat} (number : Nat) (name what : String)
    (outcome : test.fails B this = .ok (!(this.length == 0 || sizes.contains this.length))) :
    Agree (fun test => BytesTest.fails B test this) r this
      (bytesFlagChecks kind r flag number name what test)
      [bytesFormatField kind number name flag what sizes] := by
  unfold bytesFlagChecks bytesFormatField
  have empty : BytesTest.fails B .empty this = .ok (this.length == 0) := by
    cases this <;> rfl
  refine agree_format kind (fun rules : BytesRules => rules.wellKnown.bind flag)
    (fun b : Bytes => b.length == 0) (fun b : Bytes => sizes.contains b.length)
    number name what what ?_ ?_
  · exact outcome
  · exact empty

theorem agree_bytesFormats (r : BytesRules) (this : Bytes) :
    Agree (fun test => BytesTest.fails B test this) r this
      (whenSet r.wellKnown (bytesFormatChecks kind)) (bytesFormatFields kind) := by
  rw [bytesFormatChecks_eq]
  refine agree_each ?_
  unfold bytesFormatFields
  simp only [List.forall₂_cons]
  and_intros
  · refine agree_bytesFlagChecks B kind 10 "ip" "IP address" ?_
    simp only [BytesTest.fails, List.contains_cons, List.contains_nil, Bool.or_false,
      Bool.or_assoc]
  · refine agree_bytesFlagChecks B kind 11 "ipv4" "IPv4 address" ?_
    simp only [BytesTest.fails, List.contains_cons, List.contains_nil, Bool.or_false]
  · refine agree_bytesFlagChecks B kind 12 "ipv6" "IPv6 address" ?_
    simp only [BytesTest.fails, List.contains_cons, List.contains_nil, Bool.or_false]
  · refine agree_bytesFlagChecks B kind 15 "uuid" "UUID" ?_
    simp only [BytesTest.fails, List.contains_cons, List.contains_nil, Bool.or_false]
  · exact .nil

theorem agree_bytes {r rest : BytesRules} {checks : Unplaced BytesTest}
    (built : bytesChecks B kind r = .ok (checks, rest)) (this : Bytes) :
    Agree (fun test => BytesTest.fails B test this) r this checks (bytesFields B kind) := by
  cases patterns : patternChecks B kind r.pattern (fun p compiled =>
      Unplaced.push kind 4 "pattern" ("must match regex pattern `" ++ p ++ "`")
        (BytesTest.pattern compiled)) with
  | error e => simp [bytesChecks, patterns, bind, Except.bind] at built
  | ok pattern =>
    simp only [bytesChecks, patterns, bind, Except.bind, pure, Except.pure, Except.ok.injEq,
      Prod.mk.injEq] at built
    obtain ⟨rfl, -⟩ := built
    refine agree_append_silent (agree_flatten ?_) (agree_example kind 14 _)
    simp only [List.forall₂_cons]
    and_intros
    · exact agree_breaks kind 1 "const" (by simp) (fun _ => rfl)
    · exact agree_breaks kind 13 "len" (by simp) (fun _ => rfl)
    · exact agree_breaks kind 2 "min_len" (by simp) (fun _ => rfl)
    · exact agree_breaks kind 3 "max_len" (by simp) (fun _ => rfl)
    · refine agree_pattern B kind 4 (by simp) (fun regex => ?_) patterns
      simp only [BytesTest.fails]
      cases fromUtf8 this <;> rfl
    · exact agree_breaks kind 5 "prefix" (by simp) (fun _ => rfl)
    · exact agree_breaks kind 6 "suffix" (by simp) (fun _ => rfl)
    · exact agree_breaks kind 7 "contains" (by simp) (fun _ => rfl)
    · refine agree_breaksList kind 8 "in" (by simp) (fun list nonempty => ?_)
      have listed : 0 < list.length := List.length_pos_iff.mpr nonempty
      simp only [BytesTest.fails, any_eq_contains, gt_iff_lt, listed, decide_true, Bool.true_and]
    · refine agree_breaksList kind 9 "not_in" (by simp) (fun list _ => ?_)
      rw [← any_eq_contains]
      rfl
    · exact agree_bytesFormats B kind r this
    · exact .nil

end Text

section Aborts
variable {ρ ν τ : Type}

theorem reports_cons (fails : τ → Except String Bool) (check : Nat × Native τ)
    (checks : Unplaced τ) :
    reports fails (check :: checks) =
      (fails check.2.test).toOption.bind fun failed => (reports fails checks).map
        ((if failed then [⟨check.2.id, check.2.message, check.1⟩] else []) ++ ·) := by
  simp only [reports, collect_cons]
  cases (fails check.2.test).toOption <;> rfl

/-- A value that no test fails to read aborts nothing. -/
theorem reports_isSome {fails : τ → Except String Bool} {checks : Unplaced τ}
    (total : ∀ check ∈ checks, ((fails check.2.test).toOption).isSome) :
    (reports fails checks).isSome := by
  induction checks with
  | nil => rfl
  | cons check checks ih =>
    simp only [List.forall_mem_cons] at total
    obtain ⟨failed, read⟩ := Option.isSome_iff_exists.mp total.1
    obtain ⟨later, rest⟩ := Option.isSome_iff_exists.mp (ih total.2)
    simp [reports_cons, read, rest]

theorem reports_eq_none {fails : τ → Except String Bool} {checks : Unplaced τ} :
    reports fails checks = none ↔
      (checks.any fun check => (fails check.2.test).toOption.isNone) = true := by
  induction checks with
  | nil => simp
  | cons check checks ih =>
    rw [reports_cons, List.any_cons]
    cases read : (fails check.2.test).toOption with
    | none => simp
    | some failed => simpa using ih

@[simp] theorem any_whenSet {α : Type} (p : Nat × Native τ → Bool) (value : Option α)
    (checks : α → Unplaced τ) :
    (whenSet value checks).any p = value.any fun v => (checks v).any p := by
  cases value <;> rfl

@[simp] theorem any_whenListed {α : Type} (p : Nat × Native τ → Bool) (list : List α)
    (checks : List α → Unplaced τ) :
    (whenListed list checks).any p = (!list.isEmpty && (checks list).any p) := by
  cases list <;> rfl

@[simp] theorem any_push (p : Nat × Native τ → Bool) (kind : String) (number : Nat)
    (suffix message : String) (test : τ) :
    (Unplaced.push kind number suffix message test).any p =
      p (number, ⟨kind ++ "." ++ suffix, message, test⟩) := by
  simp [Unplaced.push]

variable (B : Backend) (kind : String)

/-- Bytes are read as text for a pattern only. -/
theorem bytes_reports_eq_none {r rest : BytesRules} {checks : Unplaced BytesTest}
    (built : bytesChecks B kind r = .ok (checks, rest)) (this : Bytes) :
    reports (fun test => BytesTest.fails B test this) checks = none ↔
      r.pattern.isSome ∧ fromUtf8 this = none := by
  cases patterns : patternChecks B kind r.pattern (fun p compiled =>
      Unplaced.push kind 4 "pattern" ("must match regex pattern `" ++ p ++ "`")
        (BytesTest.pattern compiled)) with
  | error e => simp [bytesChecks, patterns, bind, Except.bind] at built
  | ok pattern =>
    simp only [bytesChecks, patterns, bind, Except.bind, pure, Except.pure, Except.ok.injEq,
      Prod.mk.injEq] at built
    obtain ⟨rfl, -⟩ := built
    have formats : ((whenSet r.wellKnown (bytesFormatChecks kind)).any fun check =>
        (BytesTest.fails B check.2.test this).toOption.isNone) = false := by
      rcases r.wellKnown with _ | rule
      · rfl
      · cases rule with
        | _ b => cases b <;> rfl
    have matched : (pattern.any fun check =>
        (BytesTest.fails B check.2.test this).toOption.isNone) =
          (r.pattern.isSome && (fromUtf8 this).isNone) := by
      rcases patternChecks_cases patterns with ⟨unset, rfl⟩ | ⟨p, set, -, rfl⟩
      · simp [unset]
      · rw [any_push, set]
        cases text : fromUtf8 this <;> simp [BytesTest.fails, text, Except.toOption]
    rw [reports_eq_none]
    simp only [List.flatten_cons, List.flatten_nil, List.any_append, List.any_nil, any_whenSet,
      any_whenListed, any_push, formats, matched]
    simp [BytesTest.fails, Except.toOption]

end Aborts

/-- Checks report of every value what the expressions do, and never abort. -/
def AgreeTotally {ρ ν τ : Type} (fails : τ → ν → Except String Bool) (rules : ρ)
    (checks : Unplaced τ) (fields : List (RuleField ρ ν)) : Prop :=
  ∀ this, Agree (fun test => fails test this) rules this checks fields ∧
    (reports (fun test => fails test this) checks).isSome

/-- The checks of strings or bytes are built when the pattern compiles, if there is one. -/
theorem stringChecks_builds (B : Backend) (kind : String) (r : StringRules) :
    (∃ checks rest, stringChecks B kind r = .ok (checks, rest)) ↔
      ∀ p, r.pattern = some p → B.regexNew p = .ok () := by
  have pattern := patternChecks_builds B kind r.pattern fun p compiled =>
    Unplaced.push kind 6 "pattern" ("does not match regex pattern `" ++ p ++ "`")
      (StrTest.pattern compiled)
  rw [← pattern, stringChecks]
  cases patternChecks B kind r.pattern _ with
  | error e => simp [bind, Except.bind]
  | ok checks => simp [bind, Except.bind, pure, Except.pure]

theorem bytesChecks_builds (B : Backend) (kind : String) (r : BytesRules) :
    (∃ checks rest, bytesChecks B kind r = .ok (checks, rest)) ↔
      ∀ p, r.pattern = some p → B.regexNew p = .ok () := by
  have pattern := patternChecks_builds B kind r.pattern fun p compiled =>
    Unplaced.push kind 4 "pattern" ("must match regex pattern `" ++ p ++ "`")
      (BytesTest.pattern compiled)
  rw [← pattern, bytesChecks]
  cases patternChecks B kind r.pattern _ with
  | error e => simp [bind, Except.bind]
  | ok checks => simp [bind, Except.bind, pure, Except.pure]

/-- The checks built for a bool, enum, repeated, map, field mask, string or
bytes rules message report the failures of the CEL expressions `validate.proto`
attaches to its fields. Only bytes that are not UTF-8 abort, under a `pattern`,
and they abort both. The checks of strings and bytes are built exactly when the
engine takes their `pattern`. -/
theorem standard_checks_agree (B : Backend) (reads : B.ReadsHeaders) (kind : String) :
    (∀ r, AgreeTotally boolFails r (boolChecks kind r).1 (boolFields kind)) ∧
    (∀ r enum defined, AgreeTotally (EnumTest.fails defined) r
      ((enumChecks kind r enum).1.filter fun check => check.1 != 2) (enumFields kind)) ∧
    (∀ r, AgreeTotally
      (fun test (this : ListSubject) => ListTest.fails test this.size (.ok (!this.unique))) r
      (repeatedChecks kind r).1 (repeatedFields kind)) ∧
    (∀ r, AgreeTotally MapTest.fails r (mapChecks kind r).1 (mapFields kind)) ∧
    (∀ r, AgreeTotally FieldMaskTest.fails r (fieldMaskChecks kind r).1
      (fieldMaskFields kind)) ∧
    (∀ r, ((∃ checks rest, stringChecks B kind r = .ok (checks, rest)) ↔
        ∀ p, r.pattern = some p → B.regexNew p = .ok ()) ∧
      ∀ checks rest, stringChecks B kind r = .ok (checks, rest) →
        AgreeTotally (StrTest.fails B) r checks (stringFields B kind)) ∧
    ∀ r, ((∃ checks rest, bytesChecks B kind r = .ok (checks, rest)) ↔
        ∀ p, r.pattern = some p → B.regexNew p = .ok ()) ∧
      ∀ checks rest, bytesChecks B kind r = .ok (checks, rest) → ∀ this,
        Agree (fun test => BytesTest.fails B test this) r this checks (bytesFields B kind) ∧
        (reports (fun test => BytesTest.fails B test this) checks = none ↔
          r.pattern.isSome ∧ fromUtf8 this = none) := by
  refine ⟨fun r this => ⟨agree_bool kind r this, ?_⟩,
    fun r enum defined this => ⟨agree_enum kind r enum defined this, ?_⟩,
    fun r this => ⟨agree_repeated kind r this, ?_⟩, fun r this => ⟨agree_map kind r this, ?_⟩,
    fun r this => ⟨agree_fieldMask kind r this, ?_⟩,
    fun r => ⟨stringChecks_builds B kind r, fun checks rest built this =>
      ⟨agree_string B kind reads built this, ?_⟩⟩,
    fun r => ⟨bytesChecks_builds B kind r, fun checks rest built this =>
      ⟨agree_bytes B kind built this, bytes_reports_eq_none B kind built this⟩⟩⟩
  · exact reports_isSome fun _ _ => rfl
  · refine reports_isSome fun check _ => ?_
    cases check.2.test with
    | cmp test => rfl
    | definedOnly index => rfl
  · refine reports_isSome fun check _ => ?_
    cases check.2.test <;> rfl
  · exact reports_isSome fun _ _ => rfl
  · exact reports_isSome fun _ _ => rfl
  · exact reports_isSome fun _ _ => rfl

/-- A backend whose engine is the matcher. -/
def Backend.matching : Backend :=
  { Backend.bare with
    regexNew := fun pattern => (Regexes.Engine.backtracking.compile pattern).map fun _ => ()
    isMatch := fun pattern text =>
      (Regexes.parse pattern).any fun expr => expr.isMatch text.toList }

theorem Backend.matching_ordinary (pattern : String) :
    Backend.matching.engine.Ordinary pattern := by
  intro expr parsed
  refine ⟨fun text => expr.isMatch text.toList, ?_, fun _ => Regexes.isMatch_iff⟩
  simp [Backend.engine, Backend.matching, Regexes.Engine.backtracking, parsed, Except.map]

/-- The rules for a header name that is not strict. -/
def looseHeaderName : StringRules :=
  ⟨none, none, none, none, none, none, none, none, none, none, none, none, [], [],
    some (.wellKnownRegex .httpHeaderName), some false, [], []⟩

/-- The expressions let a space into a header name that is not strict, and no line break;
and a byte that is not UTF-8 aborts a pattern. -/
theorem standard_checks_agree_not_utf8 :
    collect (RuleField.report looseHeaderName "a b") (stringFields .matching "string") =
      some [] ∧
    collect (RuleField.report looseHeaderName "a\r\n") (stringFields .matching "string") =
      some [⟨"string.well_known_regex.header_name", "must be a valid HTTP header name", 24⟩] ∧
    reports (fun test => BytesTest.fails .matching test [0xff])
      [(4, ⟨"bytes.pattern", "must match regex pattern `^a`", .pattern ⟨"^a"⟩⟩)] = none := by
  have agree := standard_checks_agree .matching
    fun pattern _ => Backend.matching_ordinary pattern
  obtain ⟨-, -, -, -, -, strings, -⟩ := agree "string"
  obtain ⟨-, -, -, -, -, -, bytes⟩ := agree "bytes"
  have reported := (strings looseHeaderName).2 _ _ rfl
  refine ⟨(reported "a b").1.symm.trans ?_, (reported "a\r\n").1.symm.trans ?_, ?_⟩
  · decide +kernel
  · decide +kernel
  · exact ((bytes ⟨none, none, none, none, some "^a", none, none, none, [], [], none, [], []⟩).2
      _ _ rfl [0xff]).2.mpr ⟨rfl, by decide⟩

end Protovalidate
