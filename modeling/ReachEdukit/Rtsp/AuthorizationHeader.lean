import ReachEdukit.Lib.Loop
import ReachEdukit.Lib.Scanf

/-!
# The fields of an authorization

`parseAuthorizationHeader` finds the line `Authorization: Digest` of a request and goes through its
fields. At each place it tries two formats, one for a value in quotes and one for an empty value, and then
goes on by the lengths of what was read and of the quotes between.

The second format fits as soon as there is a name, whatever comes behind. So the text is passed over by
the wrong length when a value has no quotes, and when the text is too short for that the next place is
behind the end of the request. The end of the line is looked for only behind a field, so in a line without
fields the following lines are read as fields.

## Main definitions

* `parseAuthorizationHeader` — the fields that are returned, and where the loop ended
* `Header` — a request whose line has these fields
* `Comes` — a place that the loop comes to

## Main results

* `inside_iff` — when the loop stays in the request
* `parseFields_fields` — well formed fields are found
* `parsed_iff` — when the function does what it should
-/

namespace ReachEdukit

namespace AuthorizationHeader

open Scanf (scan)

/-- A string, without the terminating zero. -/
abbrev Text := List Char

/-- The names of the fields that are looked for. -/
inductive Key where
  | username
  | realm
  | nonce
  | uri
  | response
  deriving DecidableEq, Repr

/-- The name of a field. -/
def Key.text : Key → Text
  | .username => ['u', 's', 'e', 'r', 'n', 'a', 'm', 'e']
  | .realm => ['r', 'e', 'a', 'l', 'm']
  | .nonce => ['n', 'o', 'n', 'c', 'e']
  | .uri => ['u', 'r', 'i']
  | .response => ['r', 'e', 's', 'p', 'o', 'n', 's', 'e']

/-- `*username`, `*realm`, `*nonce`, `*uri` and `*response`. -/
abbrev Fields := Key → Option Text

/-- The comparisons of the name, and `strDup` of the value. -/
def Fields.store (fields : Fields) (parameter value : Text) : Fields := fun key =>
  if parameter = key.text then some value else fields key

/-- Where the pointer `fields` stands. -/
inductive Place where
  | inside (rest : Text)
  /-- The loop has ended. -/
  | ended
  /-- The pointer is behind the terminating zero. -/
  | overrun
  deriving DecidableEq, Repr

/-- What is left to read. -/
def Place.rest : Place → Option Text
  | .inside rest => some rest
  | .ended => none
  | .overrun => none

/-- The state of the loop. -/
structure State where
  fields : Fields
  place : Place

/-- `"%[^=]=\"%[^\"]\""`. -/
def valueFormat : List Scanf.Item := [.notIn '=', .lit '=', .lit '"', .notIn '"', .lit '"']

/-- `"%[^=]=\"\""`. -/
def emptyFormat : List Scanf.Item := [.notIn '=', .lit '=', .lit '"', .lit '"']

/-- What is passed over between fields. -/
def isSeparator (c : Char) : Bool := c = ',' || c = ' '

/-- The end of the string or of the line. -/
def AtEnd (rest : Text) : Prop := rest.head? ∈ [none, some '\r', some '\n']

instance (rest : Text) : Decidable (AtEnd rest) :=
  inferInstanceAs (Decidable (rest.head? ∈ [none, some '\r', some '\n']))

/-- The loop body, for what is left to read. -/
def readField (fields : Fields) (rest : Text) : State :=
  let first := (scan valueFormat rest).1
  let second := (scan emptyFormat rest).1
  if first.length ≠ 2 ∧ second.length ≠ 1 then ⟨fields, .ended⟩
  else
    let parameter := ((if first.length = 2 then first else second)[0]?.bind Scanf.Value.text?).getD []
    let value := (first[1]?.bind Scanf.Value.text?).getD []
    let step := parameter.length + 2 + value.length + 1
    let later := (rest.drop step).dropWhile isSeparator
    ⟨fields.store parameter value,
      if rest.length < step then .overrun else if AtEnd later then .ended else .inside later⟩

/-- One turn of the loop. -/
def fieldTurn (s : State) : Option (Unit × State) :=
  s.place.rest.map fun rest => ((), readField s.fields rest)

/-- There is less to read after every turn. -/
def State.left (s : State) : ℕ := s.place.rest.elim 0 fun rest => rest.length + 1

/-- The loop over the fields. -/
def parseFields (fields : Fields) (rest : Text) : State :=
  Loop.final fieldTurn State.left ⟨fields, .inside rest⟩

/-- `"Authorization: Digest "`. -/
def authorizationDigest : Text := "Authorization: Digest ".toList

/-- `strncasecmp` finds the word in front. -/
def StartsHeader (buf : Text) : Prop :=
  (buf.take 22).map Char.toLower = authorizationDigest.map Char.toLower

instance (buf : Text) : Decidable (StartsHeader buf) :=
  inferInstanceAs (Decidable ((buf.take 22).map Char.toLower = authorizationDigest.map Char.toLower))

/-- The loop that finds the header, and the blanks behind it. -/
def findFields : Text → Option Text
  | [] => none
  | c :: rest =>
    if StartsHeader (c :: rest) then some (((c :: rest).drop 22).dropWhile (· = ' ')) else findFields rest

/-- `parseAuthorizationHeader`, `none` for -1. -/
def parseAuthorizationHeader (buf : Text) : Option State :=
  (findFields buf).map (parseFields fun _ => none)

/-! ### What is asked -/

/-- A field, and what separates it from the next. -/
structure Field where
  name : Text
  value : Text
  separators : Text
  deriving DecidableEq, Repr

/-- The text of a field. -/
def Field.text (field : Field) : Text :=
  field.name ++ '=' :: '"' :: (field.value ++ '"' :: field.separators)

/-- A field that is well formed. -/
structure Field.Ok (field : Field) : Prop where
  name_ne : field.name ≠ []
  name : '=' ∉ field.name
  /-- The name does not begin with a separator or the end of the line. -/
  head : ∀ c ∈ field.name.head?, isSeparator c = false ∧ c ≠ '\r' ∧ c ≠ '\n'
  value : '"' ∉ field.value
  separators : ∀ c ∈ field.separators, isSeparator c = true

/-- The text of several fields. -/
def fieldsText (fields : List Field) : Text := fields.flatMap Field.text

/-- The first line `Authorization: Digest` of the request has these fields, every known name at most
once. -/
structure Header (buf : Text) (fields : List Field) : Prop where
  eq : ∃ before word blanks tail, buf = before ++ (word ++ (blanks ++ (fieldsText fields ++ tail))) ∧
    (∀ i < before.length, ¬ StartsHeader (buf.drop i)) ∧ word.length = 22 ∧ StartsHeader word ∧
    (∀ c ∈ blanks, c = ' ') ∧ AtEnd tail
  ok : ∀ field ∈ fields, field.Ok
  once : fields.Pairwise fun a b => ∀ key : Key, a.name = key.text → b.name ≠ key.text

/-- The value of the field of a name is returned, or nothing when there is none. -/
def Right (result : Fields) (fields : List Field) : Prop :=
  ∀ key : Key, (∀ field ∈ fields, field.name = key.text → result key = some field.value) ∧
    ((∀ field ∈ fields, field.name ≠ key.text) → result key = none)

/-- The loop ends inside the request, and the values of the fields are returned. -/
structure Parsed (buf : Text) : Prop where
  inside : ∀ s, parseAuthorizationHeader buf = some s → s.place = .ended
  right : ∀ fields, Header buf fields → ∃ s, parseAuthorizationHeader buf = some s ∧ Right s.fields fields

/-! ### When it is so -/

/-- The name at a place. -/
def nameAt (rest : Text) : Text := rest.takeWhile (· ≠ '=')

/-- The value in quotes behind the name, empty when there is none. -/
def valueAt (rest : Text) : Text :=
  let after := rest.dropWhile (· ≠ '=')
  if ['=', '"'] <+: after then (after.drop 2).takeWhile (· ≠ '"') else []

/-- How far the loop goes on. -/
def stepAt (rest : Text) : ℕ := (nameAt rest).length + 2 + (valueAt rest).length + 1

/-- There is no name, or there are an equals sign and two more characters behind it, and a quote closes
the value if there is one. -/
def Fits (rest : Text) : Prop := nameAt rest = [] ∨ stepAt rest ≤ rest.length

/-- The next place. -/
def next (rest : Text) : Text := (rest.drop (stepAt rest)).dropWhile isSeparator

/-- A place that the loop comes to from the first one. -/
inductive Comes (start : Text) : Text → Prop where
  | first : Comes start start
  | next {rest : Text} : Comes start rest → nameAt rest ≠ [] → stepAt rest ≤ rest.length →
    ¬ AtEnd (next rest) → Comes start (next rest)

/-- Every place that the loop comes to fits; and a line without fields is not followed by a text that the
loop takes for a known field. -/
def Sound (buf : Text) : Prop :=
  ∀ start, findFields buf = some start → ∀ rest, Comes start rest → Fits rest ∧
    (start.head? ∈ [some '\r', some '\n'] → ∀ key : Key, nameAt rest ≠ key.text)

/-! ### One field -/

variable {fields : Fields} {start rest : Text}

/-- The part of the first format behind the name. -/
theorem scan_value (after : Text) :
    (scan [.lit '=', .lit '"', .notIn '"', .lit '"'] after).1 =
      if ['=', '"'] <+: after then
        if (after.drop 2).takeWhile (· ≠ '"') = [] then []
        else [.text ((after.drop 2).takeWhile (· ≠ '"'))]
      else [] := by
  by_cases hprefix : ['=', '"'] <+: after
  · obtain ⟨value, rfl⟩ := hprefix
    rw [if_pos (List.prefix_append _ _)]
    change (scan [.notIn '"', .lit '"'] value).1 = if value.takeWhile (· ≠ '"') = [] then [] else
      [.text (value.takeWhile (· ≠ '"'))]
    rw [scan]
    split_ifs
    · rfl
    · rw [Scanf.convert, scan]
      split_ifs <;> rfl
  · rw [if_neg hprefix, scan]
    split_ifs with heq
    · rw [scan]
      split_ifs with hquote
      · refine absurd ?_ hprefix
        obtain ⟨value, rfl⟩ := List.head?_eq_some_iff.mp heq
        obtain ⟨value, rfl⟩ := List.head?_eq_some_iff.mp hquote
        exact ⟨value, rfl⟩
      · rfl
    · rfl

/-- The two formats, at a place without a name. -/
theorem scan_of_no_name (h : nameAt rest = []) :
    (scan valueFormat rest).1 = [] ∧ (scan emptyFormat rest).1 = [] := by
  rw [valueFormat, emptyFormat, scan, scan]
  exact ⟨congrArg Prod.fst (if_pos h), congrArg Prod.fst (if_pos h)⟩

/-- And at a place with one. -/
theorem scan_of_name (h : nameAt rest ≠ []) :
    (scan valueFormat rest).1 =
        .text (nameAt rest) :: (if valueAt rest = [] then [] else [.text (valueAt rest)]) ∧
      (scan emptyFormat rest).1 = [.text (nameAt rest)] := by
  have hlits : ∀ after, (scan [.lit '=', .lit '"', .lit '"'] after).1 = [] := by
    intro after
    rw [scan]
    split_ifs
    · rw [scan]
      split_ifs
      · rw [scan]
        split_ifs <;> rfl
      · rfl
    · rfl
  have hname : ∀ format, (scan (.notIn '=' :: format) rest).1 =
      .text (nameAt rest) :: (scan format (rest.dropWhile (· ≠ '='))).1 := by
    intro format
    rw [scan]
    exact congrArg Prod.fst (if_neg h)
  rw [valueFormat, emptyFormat, hname, hname, hlits, scan_value, valueAt]
  split_ifs <;> first | exact ⟨rfl, rfl⟩ | contradiction

/-- **The loop body**, at a place with these names and values. -/
theorem readField_eq (fields : Fields) (rest : Text) : readField fields rest =
    if nameAt rest = [] then ⟨fields, .ended⟩
    else ⟨fields.store (nameAt rest) (valueAt rest),
      if rest.length < stepAt rest then .overrun else if AtEnd (next rest) then .ended
      else .inside (next rest)⟩ := by
  rw [readField]
  by_cases hname : nameAt rest = []
  · obtain ⟨hfirst, hsecond⟩ := scan_of_no_name hname
    rw [hfirst, hsecond, if_pos hname]
    rfl
  · obtain ⟨hfirst, hsecond⟩ := scan_of_name hname
    rw [hfirst, hsecond, if_neg hname]
    by_cases hvalue : valueAt rest = []
    · rw [if_pos hvalue, stepAt, next, stepAt, hvalue]
      rfl
    · rw [if_neg hvalue]
      rfl

theorem fieldTurn_decreases : Loop.Decreases fieldTurn State.left := by
  intro s o s' h
  obtain ⟨rest, hrest, heq⟩ := Option.map_eq_some_iff.mp h
  obtain ⟨-, rfl⟩ := Prod.mk.inj heq
  have hleft : s.left = rest.length + 1 := by rw [State.left, hrest, Option.elim_some]
  rw [hleft, readField_eq]
  split_ifs with hname hstep hend
  · exact Nat.succ_pos _
  · exact Nat.succ_pos _
  · exact Nat.succ_pos _
  · have hshorter : (next rest).length ≤ rest.length - stepAt rest := by
      rw [next, ← List.length_drop]
      exact (List.dropWhile_suffix _).length_le
    have hpos : 0 < stepAt rest := Nat.succ_pos _
    change (next rest).length + 1 < rest.length + 1
    omega

/-- The loop, one turn at a time. -/
theorem parseFields_eq (fields : Fields) (rest : Text) : parseFields fields rest =
    if nameAt rest = [] then ⟨fields, .ended⟩
    else if rest.length < stepAt rest then ⟨fields.store (nameAt rest) (valueAt rest), .overrun⟩
    else if AtEnd (next rest) then ⟨fields.store (nameAt rest) (valueAt rest), .ended⟩
    else parseFields (fields.store (nameAt rest) (valueAt rest)) (next rest) := by
  have hturn : fieldTurn ⟨fields, .inside rest⟩ = some ((), readField fields rest) := rfl
  rw [parseFields, Loop.final_of_some fieldTurn_decreases hturn, readField_eq]
  split_ifs
  · exact Loop.final_of_none rfl
  · exact Loop.final_of_none rfl
  · exact Loop.final_of_none rfl
  · rfl

/-! ### The places -/

/-- The first place, and those that come after it. -/
theorem comes_iff : Comes start rest ↔ rest = start ∨
    (nameAt start ≠ [] ∧ stepAt start ≤ start.length ∧ ¬ AtEnd (next start) ∧
      Comes (next start) rest) := by
  constructor
  · intro h
    induction h with
    | first => exact .inl rfl
    | @next rest hrest hname hstep hend ih =>
      obtain rfl | ⟨hname', hstep', hend', hcomes⟩ := ih
      · exact .inr ⟨hname, hstep, hend, .first⟩
      · exact .inr ⟨hname', hstep', hend', .next hcomes hname hstep hend⟩
  · rintro (rfl | ⟨hname, hstep, hend, hcomes⟩)
    · exact .first
    · induction hcomes with
      | first => exact .next .first hname hstep hend
      | next _ hname' hstep' hend' ih => exact .next ih hname' hstep' hend'

theorem length_next_lt (hstep : stepAt rest ≤ rest.length) : (next rest).length < rest.length := by
  have hshorter : (next rest).length ≤ rest.length - stepAt rest := by
    rw [next, ← List.length_drop]
    exact (List.dropWhile_suffix _).length_le
  have hpos : 0 < stepAt rest := Nat.succ_pos _
  omega

/-- Induction on the places. -/
theorem place_induction {P : Text → Prop}
    (h : ∀ start, (nameAt start ≠ [] → stepAt start ≤ start.length → ¬ AtEnd (next start) →
      P (next start)) → P start) (start : Text) : P start := by
  obtain ⟨n, hn⟩ : ∃ n, n = start.length := ⟨_, rfl⟩
  induction n using Nat.strong_induction_on generalizing start with
  | _ n ih =>
    exact h start fun _ hstep _ => ih (next start).length (hn ▸ length_next_lt hstep) _ rfl

/-- **When the loop stays in the request**: every place that it comes to fits. -/
theorem inside_iff (fields : Fields) (start : Text) :
    (parseFields fields start).place = .ended ↔ ∀ rest, Comes start rest → Fits rest := by
  induction start using place_induction generalizing fields with
  | h start ih =>
    rw [parseFields_eq]
    -- where the loop ends, the first place is the only one
    have honly : (nameAt start = [] ∨ AtEnd (next start)) → Fits start →
        ∀ rest, Comes start rest → Fits rest := by
      intro hstop hfits rest hcomes
      obtain rfl | ⟨hname, -, hend, -⟩ := comes_iff.mp hcomes
      · exact hfits
      · exact absurd hstop (not_or.mpr ⟨hname, hend⟩)
    split_ifs with hname hstep hend
    · exact ⟨fun _ => honly (.inl hname) (.inl hname), fun _ => rfl⟩
    · refine ⟨fun h => absurd h (by decide), fun h => ?_⟩
      obtain hempty | hle := h start .first
      · exact absurd hempty hname
      · exact absurd hstep (not_lt.mpr hle)
    · exact ⟨fun _ => honly (.inr hend) (.inr (not_lt.mp hstep)), fun _ => rfl⟩
    · rw [ih hname (not_lt.mp hstep) hend]
      constructor
      · intro h rest hcomes
        obtain rfl | ⟨-, -, -, hlater⟩ := comes_iff.mp hcomes
        · exact .inr (not_lt.mp hstep)
        · exact h rest hlater
      · exact fun h rest hcomes => h rest (comes_iff.mpr (.inr ⟨hname, not_lt.mp hstep, hend, hcomes⟩))

/-- A result is missing when no place that the loop comes to has its name. -/
theorem fields_eq_none_iff (fields : Fields) (start : Text) (key : Key) :
    (parseFields fields start).fields key = none ↔
      fields key = none ∧ ∀ rest, Comes start rest → nameAt rest ≠ key.text := by
  induction start using place_induction generalizing fields with
  | h start ih =>
    rw [parseFields_eq]
    have hstore : fields.store (nameAt start) (valueAt start) key = none ↔
        fields key = none ∧ nameAt start ≠ key.text := by
      rw [Fields.store]
      split_ifs with h
      · exact ⟨fun hsome => hsome.elim, fun hne => absurd h hne.2⟩
      · exact ⟨fun hnone => ⟨hnone, h⟩, fun hnone => hnone.1⟩
    -- where the loop ends, the first place is the only one
    have honly : (nameAt start = [] ∨ start.length < stepAt start ∨ AtEnd (next start)) →
        ((∀ rest, Comes start rest → nameAt rest ≠ key.text) ↔ nameAt start ≠ key.text) := by
      intro hstop
      refine ⟨fun h => h start .first, fun h rest hcomes => ?_⟩
      obtain rfl | ⟨hname, hstep, hend, -⟩ := comes_iff.mp hcomes
      · exact h
      · exact absurd hstop (not_or.mpr ⟨hname, not_or.mpr ⟨not_lt.mpr hstep, hend⟩⟩)
    split_ifs with hname hstep hend
    · rw [honly (.inl hname), hname]
      refine (and_iff_left ?_).symm
      cases key <;> exact (List.cons_ne_nil _ _).symm
    · rw [honly (.inr (.inl hstep))]
      exact hstore
    · rw [honly (.inr (.inr hend))]
      exact hstore
    · rw [ih hname (not_lt.mp hstep) hend, hstore, and_assoc]
      refine and_congr_right fun _ => ⟨fun h rest hcomes => ?_, fun h => ⟨h start .first, ?_⟩⟩
      · obtain rfl | ⟨-, -, -, hlater⟩ := comes_iff.mp hcomes
        · exact h.1
        · exact h.2 rest hlater
      · exact fun rest hcomes => h rest (comes_iff.mpr (.inr ⟨hname, not_lt.mp hstep, hend, hcomes⟩))

/-! ### Fields that are well formed -/

section WellFormed

variable {field : Field} {fs : List Field} {more tail : Text} {result : Fields} {key : Key}

theorem fieldsText_cons (field : Field) (fs : List Field) :
    fieldsText (field :: fs) = field.text ++ fieldsText fs := rfl

/-- The line goes on with a name, which is neither a separator nor the end. -/
theorem head_fieldsText (fs : List Field) (tail : Text) (hok : field.Ok) :
    ∃ c rest, fieldsText (field :: fs) ++ tail = c :: rest ∧ isSeparator c = false ∧ c ≠ '\r' ∧
      c ≠ '\n' := by
  obtain ⟨c, name, hname⟩ := List.exists_cons_of_ne_nil hok.name_ne
  have hhead := hok.head c (by rw [hname]; rfl)
  rw [fieldsText_cons, Field.text, hname]
  exact ⟨c, _, rfl, hhead⟩

theorem isSeparator_of_atEnd (htail : AtEnd tail) : ∀ c ∈ tail.head?, isSeparator c = false := by
  intro c hc
  rw [Option.mem_def] at hc
  rw [AtEnd, hc] at htail
  simp only [List.mem_cons, List.not_mem_nil, or_false, reduceCtorEq, Option.some.injEq, false_or] at htail
  obtain rfl | rfl := htail <;> rfl

/-- The name and the value of a field, and what comes behind it. -/
theorem field_places (hok : field.Ok) (hmore : ∀ c ∈ more.head?, isSeparator c = false) :
    nameAt (field.text ++ more) = field.name ∧ valueAt (field.text ++ more) = field.value ∧
      stepAt (field.text ++ more) ≤ (field.text ++ more).length ∧ next (field.text ++ more) = more := by
  have hsplit : field.text ++ more =
      field.name ++ ('=' :: '"' :: (field.value ++ ('"' :: (field.separators ++ more)))) := by
    rw [Field.text, List.append_assoc, List.cons_append, List.cons_append, List.append_assoc,
      List.cons_append]
  obtain ⟨htake, hdrop⟩ := Scanf.takeWhile_append (p := fun c => c ≠ '=') field.name
    ('=' :: '"' :: (field.value ++ ('"' :: (field.separators ++ more))))
    (fun c hc => decide_eq_true fun h => hok.name (h ▸ hc)) (by rintro c ⟨⟩; rfl)
  obtain ⟨hvalue, -⟩ := Scanf.takeWhile_append (p := fun c => c ≠ '"') field.value
    ('"' :: (field.separators ++ more))
    (fun c hc => decide_eq_true fun h => hok.value (h ▸ hc)) (by rintro c ⟨⟩; rfl)
  obtain ⟨-, hseparators⟩ := Scanf.takeWhile_append field.separators more hok.separators hmore
  have hname : nameAt (field.text ++ more) = field.name := by rw [nameAt, hsplit, htake]
  have hvalueAt : valueAt (field.text ++ more) = field.value := by
    rw [valueAt, hsplit, hdrop]
    exact (if_pos (List.prefix_append ['=', '"'] _)).trans hvalue
  have hstep : stepAt (field.text ++ more) = (field.name ++ ('=' :: '"' :: (field.value ++ ['"']))).length := by
    rw [stepAt, hname, hvalueAt]
    simp only [List.length_append, List.length_cons, List.length_nil]
    omega
  have hparts : field.text ++ more =
      (field.name ++ ('=' :: '"' :: (field.value ++ ['"']))) ++ (field.separators ++ more) := by
    rw [hsplit]
    simp only [List.append_assoc, List.cons_append, List.nil_append]
  refine ⟨hname, hvalueAt, ?_, ?_⟩
  · rw [hstep, hparts]
    exact (List.prefix_append _ _).length_le
  · rw [next, hstep, hparts, List.drop_left, hseparators]

/-- **Fields that are well formed** are found one after another. -/
theorem parseFields_fields (hne : fs ≠ []) (hok : ∀ field ∈ fs, field.Ok) (htail : AtEnd tail) :
    parseFields result (fieldsText fs ++ tail) =
      ⟨fs.foldl (fun result field => result.store field.name field.value) result, .ended⟩ := by
  induction fs generalizing result with
  | nil => exact absurd rfl hne
  | cons field fs ih =>
    have hfield := hok field List.mem_cons_self
    have hmore : ∀ c ∈ (fieldsText fs ++ tail).head?, isSeparator c = false := by
      cases fs with
      | nil => exact isSeparator_of_atEnd htail
      | cons later fs =>
        obtain ⟨c, rest, heq, hc, -⟩ :=
          head_fieldsText fs tail (hok later (List.mem_cons_of_mem _ List.mem_cons_self))
        rw [heq]
        rintro d ⟨⟩
        exact hc
    obtain ⟨hname, hvalue, hstep, hnext⟩ := field_places hfield hmore
    rw [fieldsText_cons, List.append_assoc, parseFields_eq, hname, if_neg hfield.name_ne,
      if_neg (not_lt.mpr hstep), hvalue, hnext]
    cases fs with
    | nil => exact if_pos htail
    | cons later fs =>
      have hlater := hok later (List.mem_cons_of_mem _ List.mem_cons_self)
      obtain ⟨c, rest, heq, -, hcr, hlf⟩ := head_fieldsText fs tail hlater
      have hgoes : ¬ AtEnd (fieldsText (later :: fs) ++ tail) := by
        rw [heq, AtEnd, List.head?_cons]
        simp [hcr, hlf]
      rw [if_neg hgoes]
      exact ih (List.cons_ne_nil _ _) fun f hf => hok f (List.mem_cons_of_mem _ hf)

/-- Fields of other names leave a result as it is. -/
theorem foldl_store_of_ne (hne : ∀ field ∈ fs, field.name ≠ key.text) :
    fs.foldl (fun result field => result.store field.name field.value) result key = result key := by
  induction fs generalizing result with
  | nil => rfl
  | cons field fs ih =>
    rw [List.foldl_cons, ih fun f hf => hne f (List.mem_cons_of_mem _ hf), Fields.store,
      if_neg (hne field List.mem_cons_self)]

/-- The results of fields whose names are known at most once. -/
theorem right_foldl (honce : fs.Pairwise fun a b => ∀ key : Key, a.name = key.text → b.name ≠ key.text) :
    Right (fs.foldl (fun result field => result.store field.name field.value) fun _ => none) fs := by
  intro key
  refine ⟨fun field hfield hname => ?_, fun hne => foldl_store_of_ne hne⟩
  obtain ⟨front, back, rfl⟩ := List.append_of_mem hfield
  have hback := (List.pairwise_cons.mp (List.pairwise_append.mp honce).2.1).1
  rw [List.foldl_append, List.foldl_cons, foldl_store_of_ne fun f hf => hback f hf key hname,
    Fields.store, if_pos hname]

end WellFormed

/-! ### The line -/

/-- The line is found where it is first. -/
theorem findFields_append {before line : Text}
    (hfirst : ∀ i < before.length, ¬ StartsHeader ((before ++ line).drop i)) (hline : StartsHeader line) :
    findFields (before ++ line) = some ((line.drop 22).dropWhile (· = ' ')) := by
  induction before with
  | nil =>
    cases line with
    | nil => exact absurd hline (by decide)
    | cons c line => exact if_pos hline
  | cons c before ih =>
    have hnot : ¬ StartsHeader (c :: (before ++ line)) := hfirst 0 (Nat.succ_pos _)
    rw [List.cons_append, findFields, if_neg hnot]
    exact ih fun i hi => hfirst (i + 1) (Nat.succ_lt_succ hi)

/-- What was found is behind a line. -/
theorem exists_of_findFields {buf start : Text} (h : findFields buf = some start) :
    ∃ before line, buf = before ++ line ∧ (∀ i < before.length, ¬ StartsHeader (buf.drop i)) ∧
      StartsHeader line ∧ start = (line.drop 22).dropWhile (· = ' ') := by
  induction buf with
  | nil => exact absurd h.symm (Option.some_ne_none _)
  | cons c buf ih =>
    rw [findFields] at h
    split_ifs at h with hstarts
    · exact ⟨[], c :: buf, rfl, fun i hi => absurd hi (Nat.not_lt_zero i), hstarts,
        (Option.some.inj h).symm⟩
    · obtain ⟨before, line, rfl, hfirst, hline, hstart⟩ := ih h
      refine ⟨c :: before, line, rfl, fun i hi => ?_, hline, hstart⟩
      cases i with
      | zero => exact hstarts
      | succ i => exact hfirst i (Nat.lt_of_succ_lt_succ hi)

/-- What the line of a request leaves to read. -/
theorem Header.findFields {buf : Text} {fs : List Field} (h : Header buf fs) :
    ∃ tail, AtEnd tail ∧ AuthorizationHeader.findFields buf = some (fieldsText fs ++ tail) := by
  obtain ⟨before, word, blanks, tail, rfl, hfirst, hlength, hword, hblanks, htail⟩ := h.eq
  refine ⟨tail, htail, ?_⟩
  have hline : StartsHeader (word ++ (blanks ++ (fieldsText fs ++ tail))) := by
    rw [StartsHeader, List.take_append_of_le_length hlength.ge]
    exact hword
  have hhead : ∀ c ∈ (fieldsText fs ++ tail).head?, decide (c = ' ') = false := by
    intro c hc
    have hseparator : isSeparator c = false := by
      cases fs with
      | nil => exact isSeparator_of_atEnd htail c hc
      | cons field fs =>
        obtain ⟨d, rest, heq, hd, -⟩ :=
          head_fieldsText fs tail (h.ok field List.mem_cons_self)
        rw [heq] at hc
        obtain rfl := Option.some.inj hc
        exact hd
    exact (Bool.or_eq_false_iff.mp hseparator).2
  rw [findFields_append hfirst hline, List.drop_append_of_le_length hlength.ge, ← hlength,
    List.drop_length, List.nil_append]
  exact congrArg some (Scanf.takeWhile_append (p := fun c => c = ' ') _ _
    (fun c hc => decide_eq_true (hblanks c hc)) hhead).2

/-- A request whose line is at its end has a line without fields. -/
theorem header_nil {buf start : Text} (h : findFields buf = some start) (hend : AtEnd start) :
    Header buf [] := by
  obtain ⟨before, line, rfl, hfirst, hline, rfl⟩ := exists_of_findFields h
  have hblanks : ∀ c ∈ (line.drop 22).takeWhile (· = ' '), c = ' ' := by
    intro c hc
    have hblank := List.mem_takeWhile_imp (p := fun c => decide (c = ' ')) hc
    exact of_decide_eq_true hblank
  refine ⟨⟨before, line.take 22, (line.drop 22).takeWhile (· = ' '), (line.drop 22).dropWhile (· = ' '),
    ?_, hfirst, ?_, ?_, hblanks, hend⟩, fun _ hf => absurd hf List.not_mem_nil, List.Pairwise.nil⟩
  · change _ = before ++ (line.take 22 ++ (_ ++ ([] ++ _)))
    rw [List.nil_append, List.takeWhile_append_dropWhile, List.take_append_drop]
  · have hlength := congrArg List.length hline
    rw [List.length_map, List.length_map] at hlength
    exact hlength
  · rw [StartsHeader, List.take_take, min_self]
    exact hline

/-- **When the function does what it should**: every place that the loop comes to fits, and a line without
fields is not followed by what it takes for a known field. -/
theorem parsed_iff (buf : Text) : Parsed buf ↔ Sound buf := by
  constructor
  · intro h start hstart rest hcomes
    have hparse : parseAuthorizationHeader buf = some (parseFields (fun _ => none) start) := by
      rw [parseAuthorizationHeader, hstart, Option.map_some]
    refine ⟨(inside_iff _ start).mp (h.inside _ hparse) rest hcomes, fun hline key => ?_⟩
    have hend : AtEnd start := List.mem_cons_of_mem _ hline
    obtain ⟨s, hs, hright⟩ := h.right [] (header_nil hstart hend)
    rw [hparse] at hs
    obtain rfl := Option.some.inj hs
    have hnone := (hright key).2 fun _ hf => absurd hf List.not_mem_nil
    exact ((fields_eq_none_iff _ start key).mp hnone).2 rest hcomes
  · intro h
    constructor
    · intro s hs
      obtain ⟨start, hstart, rfl⟩ := Option.map_eq_some_iff.mp hs
      exact (inside_iff _ start).mpr fun rest hcomes => (h start hstart rest hcomes).1
    · intro fs hheader
      obtain ⟨tail, htail, hstart⟩ := hheader.findFields
      refine ⟨_, by rw [parseAuthorizationHeader, hstart, Option.map_some], ?_⟩
      cases fs with
      | nil =>
        intro key
        refine ⟨fun _ hf => absurd hf List.not_mem_nil, fun _ => ?_⟩
        refine (fields_eq_none_iff _ _ key).mpr ⟨rfl, fun rest hcomes => ?_⟩
        change Comes tail rest at hcomes
        cases htext : tail with
        | nil =>
          -- nothing is left, so the loop stays where it is
          rw [htext] at hcomes
          obtain rfl | ⟨hname, -⟩ := comes_iff.mp hcomes
          · cases key <;> exact (List.cons_ne_nil _ _).symm
          · exact absurd rfl hname
        | cons c text =>
          refine (h tail hstart rest hcomes).2 ?_ key
          rw [htext] at htail ⊢
          exact List.mem_of_ne_of_mem (Option.some_ne_none c) htail
      | cons field fs =>
        rw [parseFields_fields (List.cons_ne_nil _ _) hheader.ok htail]
        exact right_foldl hheader.once

/-- A request that ends in a value, where the loop leaves it; and a line without fields in front of one
that is read as its field. -/
theorem value_not_closed :
    let unclosed := authorizationDigest ++ ['u', 'r', 'i', '=', '"', 'x']
    let bare := authorizationDigest ++ ['\r', '\n', 'a', '=', 'b', ',', 'u', 'r', 'i', '=', '"', 'x', '"',
      '\r', '\n']
    (parseAuthorizationHeader unclosed).map State.place = some .overrun ∧ ¬ Parsed unclosed ∧
      (parseAuthorizationHeader bare).map (fun s => s.fields .uri) = some (some ['x']) ∧
      Header bare [] ∧ ¬ Parsed bare := by
  intro unclosed bare
  have hunclosed : (parseAuthorizationHeader unclosed).map State.place = some .overrun := by
    decide
  have hbare : (parseAuthorizationHeader bare).map (fun s => s.fields .uri) = some (some ['x']) := by
    decide
  have hheader : Header bare [] := by
    have hfind : findFields bare = some ['\r', '\n', 'a', '=', 'b', ',', 'u', 'r', 'i', '=', '"', 'x', '"',
        '\r', '\n'] := by
      decide
    exact header_nil hfind (List.mem_cons_of_mem _ List.mem_cons_self)
  refine ⟨hunclosed, fun hparsed => ?_, hbare, hheader, fun hparsed => ?_⟩
  · obtain ⟨s, hs, hplace⟩ := Option.map_eq_some_iff.mp hunclosed
    rw [hparsed.inside s hs] at hplace
    exact absurd hplace (by decide)
  · obtain ⟨s, hs, hright⟩ := hparsed.right [] hheader
    have huri := (hright .uri).2 fun _ hf => absurd hf List.not_mem_nil
    rw [hs, Option.map_some, huri] at hbare
    exact absurd hbare (by decide)

end AuthorizationHeader

end ReachEdukit
