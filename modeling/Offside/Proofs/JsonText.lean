import Offside.Json.Read
import Offside.Json.Render
import Offside.Proofs.Sequences

/-!
# Reading written JSON

What the writer writes, the reader reads: a value all of whose numbers are whole is read back from
its text (`read?_render`). Strings may hold any characters, for the writer's escapes are undone one
by one (`exists_readUnits_escape`); a whole number is read back from its digits, because nothing that
the writer puts behind a number continues it (`EndsNumber`).

The reader's bound on steps is met by the length of the text, so the law of each value is stated for
every bound that is no smaller than its text is long (`ReadsBack`). The induction is on the value; an
array or an object is then read item by item.
-/

namespace Offside.Json

/-! ## Strings -/

section Strings

variable {c : Char} {unit : StringUnit}

/-- The part of a written string stands for the character: it is the character itself, or the code
of a control character. -/
def StringUnit.Spells (unit : StringUnit) (c : Char) : Prop :=
  unit = .char c ∨ unit = .code c.toNat ∧ c.toNat < 0x20

theorem hexValue?_hexDigit (n : Nat) : hexValue? (hexDigit n) = some (n % 16) := by
  have hdigit : ∀ d < 16, hexValue? (Nat.digitChar d) = some d := by decide
  exact hdigit (n % 16) (Nat.mod_lt n (by decide))

theorem hexCode?_control (h : c.toNat < 0x20) :
    hexCode? '0' '0' (hexDigit (c.toNat / 16)) (hexDigit c.toNat) = some c.toNat := by
  have hzero : hexValue? '0' = some 0 := by decide
  simp only [hexCode?, hzero, hexValue?_hexDigit, Option.bind_eq_bind, Option.bind_some,
    Option.pure_def, Option.some.injEq]
  omega

theorem readUnits_plain (hquote : c ≠ '"') (hslash : c ≠ '\\') (h : ¬ c.toNat < 0x20)
    (rest : List Char) : readUnits (c :: rest) = do
      let (units, after) ← readUnits rest
      return (.char c :: units, after) := by
  rw [readUnits, if_neg hquote, if_neg (not_or.mpr ⟨hslash, h⟩)]
  · exact fun _ _ _ _ _ h _ => hslash h
  · exact fun _ _ h _ => hslash h

/-- A character is read back from the form in which it is written. -/
theorem exists_readUnits_escape (c : Char) : ∃ unit : StringUnit, unit.Spells c ∧
    ∀ rest, readUnits (escape c ++ rest) = do
      let (units, after) ← readUnits rest
      return (unit :: units, after) := by
  unfold escape
  -- a backslash and a letter, for seven characters
  iterate 7
    split
    · subst_vars
      exact ⟨.char _, .inl rfl, fun _ => rfl⟩
  split
  · rename_i h
    refine ⟨.code c.toNat, .inr ⟨rfl, h⟩, fun rest => ?_⟩
    simp only [List.cons_append, List.nil_append]
    rw [readUnits, hexCode?_control h]
    rfl
  · rename_i hquote hslash _ _ _ _ _ h
    exact ⟨.char c, .inl rfl, readUnits_plain hquote hslash h⟩

theorem joinUnits_cons (h : unit.Spells c) (units : List StringUnit) :
    joinUnits (unit :: units) = (joinUnits units).map (c :: ·) := by
  obtain rfl | ⟨rfl, hcontrol⟩ := h
  · rw [joinUnits]
  · have hhigh : isHighHalf c.toNat = false := by simp [isHighHalf]; omega
    have hlow : isLowHalf c.toNat = false := by simp [isLowHalf]; omega
    have hc : Char.ofNat c.toNat = c := Char.ofNat_toNat c
    obtain _ | ⟨_ | low, units⟩ := units <;> simp [joinUnits, hhigh, hlow, hc]

/-- A string is read back from its written form, up to its closing quote. -/
theorem readString_escape (s rest : List Char) :
    readString (s.flatMap escape ++ '"' :: rest) = some (String.ofList s, rest) := by
  have hunits : ∃ units, readUnits (s.flatMap escape ++ '"' :: rest) = some (units, rest) ∧
      joinUnits units = some s := by
    induction s with
    | nil => exact ⟨[], rfl, rfl⟩
    | cons c s ih =>
      obtain ⟨units, hread, hjoin⟩ := ih
      obtain ⟨unit, hunit, hescape⟩ := exists_readUnits_escape c
      refine ⟨unit :: units, ?_, ?_⟩
      · rw [List.flatMap_cons, List.append_assoc, hescape, hread]
        rfl
      · rw [joinUnits_cons hunit, hjoin]
        rfl
  obtain ⟨units, hread, hjoin⟩ := hunits
  simp [readString, hread, hjoin]

end Strings

/-! ## Numbers -/

/-- A text that a number in front of it does not run into. -/
def EndsNumber (rest : List Char) : Prop :=
  ∀ c ∈ rest.head?, c.isDigit = false ∧ c ≠ '.' ∧ c ≠ 'e' ∧ c ≠ 'E'

theorem toDigits_head?_ne_zero {n : Nat} (h : n ≠ 0) : (Nat.toDigits 10 n).head? ≠ some '0' := by
  induction n using Nat.strongRecOn with
  | ind n ih =>
    by_cases hn : n < 10
    · rw [Nat.toDigits_of_lt_base hn]
      have hdigit : ∀ d < 10, d ≠ 0 → [Nat.digitChar d].head? ≠ some '0' := by decide
      exact hdigit n hn h
    · rw [Nat.toDigits_of_base_le (by decide) (Nat.le_of_not_lt hn),
        List.head?_append, Option.or_of_isSome (by simp [Nat.toDigits_ne_nil])]
      exact ih (n / 10) (by omega) (by omega)

theorem takeWhile_toDigits (n : Nat) {rest : List Char} (h : EndsNumber rest) :
    (Nat.toDigits 10 n ++ rest).takeWhile Char.isDigit = Nat.toDigits 10 n ∧
      (Nat.toDigits 10 n ++ rest).dropWhile Char.isDigit = rest := by
  have hdigits : ∀ d ∈ Nat.toDigits 10 n, d.isDigit = true :=
    fun d hd => Nat.isDigit_of_mem_toDigits (by decide) (by decide) hd
  have hstops : ∀ c ∈ rest.head?, c.isDigit = false := fun c hc => (h c hc).1
  exact ⟨takeWhile_append_of_stops hdigits hstops, dropWhile_append_of_stops hdigits hstops⟩

theorem readFraction_of_ends {rest : List Char} (h : EndsNumber rest) :
    readFraction rest = some ([], rest) := by
  obtain _ | ⟨c, rest⟩ := rest
  · rfl
  · rw [readFraction]
    rintro _ heq
    exact (h c rfl).2.1 (List.cons_eq_cons.mp heq).1

theorem readExponent_of_ends {rest : List Char} (h : EndsNumber rest) :
    readExponent rest = some ([], rest) := by
  obtain _ | ⟨c, rest⟩ := rest
  · rfl
  · obtain ⟨_, _, hlower, hupper⟩ := h c rfl
    unfold readExponent
    exact if_neg (not_or.mpr ⟨hlower, hupper⟩)

/-- A whole number is read back from its digits. -/
theorem readUnsignedNumber_toDigits (negative : Bool) (n : Nat) {rest : List Char}
    (h : EndsNumber rest) (hzero : negative = false ∨ n ≠ 0) :
    readUnsignedNumber negative (Nat.toDigits 10 n ++ rest) =
      some (.int (if negative then -n else n), rest) := by
  obtain ⟨htake, hdrop⟩ := takeWhile_toDigits n h
  have hnonempty : (Nat.toDigits 10 n).isEmpty = false := by
    simp [List.isEmpty_eq_false_iff, Nat.toDigits_ne_nil]
  have hlead : ¬ ((Nat.toDigits 10 n).head? = some '0' ∧ 1 < (Nat.toDigits 10 n).length) := by
    rintro ⟨hhead, hlength⟩
    obtain rfl | hn := eq_or_ne n 0
    · exact absurd hlength (by decide)
    · exact toDigits_head?_ne_zero hn hhead
  simp only [readUnsignedNumber, htake, hdrop, hnonempty, Nat.ofDigitChars_ten_toDigits,
    Bool.false_eq_true, false_or, if_neg hlead, readFraction_of_ends h, readExponent_of_ends h,
    Option.bind_eq_bind, Option.bind_some]
  rw [if_pos (by simpa using hzero)]
  rfl

theorem exists_toDigits_eq_cons (n : Nat) :
    ∃ d digits, Nat.toDigits 10 n = d :: digits ∧ d.isDigit = true := by
  obtain ⟨d, digits, hdigits⟩ := List.exists_cons_of_ne_nil (Nat.toDigits_ne_nil (n := n) (b := 10))
  refine ⟨d, digits, hdigits, ?_⟩
  exact Nat.isDigit_of_mem_toDigits (by decide) (by decide) (hdigits ▸ List.mem_cons_self)

theorem repr_ofNat_toList (n : Nat) : (Int.ofNat n).repr.toList = Nat.toDigits 10 n := by
  simp [Int.repr, Nat.repr_eq_ofList_toDigits]

theorem repr_negSucc_toList (n : Nat) :
    (Int.negSucc n).repr.toList = '-' :: Nat.toDigits 10 (n + 1) := by
  simp [Int.repr, Nat.repr_eq_ofList_toDigits]

theorem readNumber_repr (n : Int) {rest : List Char} (h : EndsNumber rest) :
    readNumber (n.repr.toList ++ rest) = some (.int n, rest) := by
  obtain n | n := n
  · obtain ⟨d, digits, hdigits, hd⟩ := exists_toDigits_eq_cons n
    have hsign : ∀ text, Nat.toDigits 10 n ++ rest ≠ '-' :: text := by
      rw [hdigits]
      rintro text heq
      cases (List.cons_eq_cons.mp heq).1
      exact absurd hd (by decide)
    rw [repr_ofNat_toList, readNumber]
    · exact readUnsignedNumber_toDigits false n h (.inl rfl)
    · exact hsign
  · rw [repr_negSucc_toList, List.cons_append, readNumber]
    exact readUnsignedNumber_toDigits true (n + 1) h (.inr (Nat.succ_ne_zero n))

/-! ## Values -/

section Values

variable {v item : Json} {items : List Json} {members : List (String × Json)} {space : List Char}

/-- A value all of whose numbers are whole. -/
inductive Whole : Json → Prop where
  | null : Whole .null
  | bool (value : Bool) : Whole (.bool value)
  | int (value : Int) : Whole (.int value)
  | str (value : String) : Whole (.str value)
  | arr {items : List Json} (h : ∀ item ∈ items, Whole item) : Whole (.arr items)
  | obj {members : List (String × Json)} (h : ∀ member ∈ members, Whole member.2) :
    Whole (.obj members)

theorem isSpace_cases {c : Char} (h : isSpace c = true) :
    c = ' ' ∨ c = '\t' ∨ c = '\n' ∨ c = '\r' := by
  simpa [isSpace, or_assoc] using h

theorem not_isSpace_of_isDigit {c : Char} (h : c.isDigit = true) : isSpace c = false := by
  rw [Bool.eq_false_iff]
  intro hspace
  obtain rfl | rfl | rfl | rfl := isSpace_cases hspace <;> cases h

theorem skipSpace_cons {c : Char} (h : isSpace c = false) (s : List Char) :
    skipSpace (c :: s) = c :: s := List.dropWhile_cons_of_neg (by simp [h])

theorem skipSpace_append (h : ∀ c ∈ space, isSpace c = true) (s : List Char) :
    skipSpace (space ++ s) = skipSpace s := List.dropWhile_append_of_pos h

theorem isSpace_of_mem_newline (margin : Nat) : ∀ c ∈ newline margin, isSpace c = true := by
  intro c hc
  obtain rfl | hc := List.mem_cons.mp hc
  · rfl
  · rw [List.eq_of_mem_replicate hc]
    rfl

theorem readValue_append (bound : Nat) (h : ∀ c ∈ space, isSpace c = true) (s : List Char) :
    readValue bound (space ++ s) = readValue bound s := by
  obtain _ | bound := bound
  · rfl
  · rw [readValue, readValue, skipSpace_append h]

theorem readItems_append (bound : Nat) (h : ∀ c ∈ space, isSpace c = true) (s : List Char) :
    readItems bound (space ++ s) = readItems bound s := by
  obtain _ | bound := bound
  · rfl
  · rw [readItems, readItems, readValue_append bound h]

theorem readMembers_append (bound : Nat) (h : ∀ c ∈ space, isSpace c = true) (s : List Char) :
    readMembers bound (space ++ s) = readMembers bound s := by
  obtain _ | bound := bound
  · rfl
  · rw [readMembers, readMembers, skipSpace_append h]

theorem readValue_number (bound : Nat) {c : Char} (h : c.isDigit = true ∨ c = '-')
    (text : List Char) : readValue (bound + 1) (c :: text) = readNumber (c :: text) := by
  have hspace : isSpace c = false := by
    obtain h | rfl := h
    · exact not_isSpace_of_isDigit h
    · rfl
  have hne : ∀ d : Char, d.isDigit = false → d ≠ '-' → c ≠ d := by
    rintro d hdigit hsign rfl
    simp [hdigit, hsign] at h
  rw [readValue, skipSpace_cons hspace]
  split
  case h_7 => rfl
  all_goals
    rename_i heq
    exact absurd (List.cons_eq_cons.mp heq).1 (hne _ (by decide) (by decide))

/-- The value is read back from its pretty form, whatever comes behind it that a number does not run
into. -/
def ReadsBack (v : Json) : Prop :=
  ∀ (margin bound : Nat) (rest : List Char), (pretty margin v).length ≤ bound → EndsNumber rest →
    readValue bound (pretty margin v ++ rest) = some (v, rest)

theorem endsNumber_prettyItems (margin outer : Nat) (items : List Json) (rest : List Char) :
    EndsNumber (prettyItems margin items ++ (newline outer ++ rest)) := by
  cases items <;> rintro _ ⟨⟩ <;> decide

theorem endsNumber_prettyMembers (margin outer : Nat) (members : List (String × Json))
    (rest : List Char) : EndsNumber (prettyMembers margin members ++ (newline outer ++ rest)) := by
  obtain _ | ⟨⟨key, value⟩, members⟩ := members <;> rintro _ ⟨⟩ <;> decide

/-- The pretty form of a value begins with a character that neither is space nor closes an array. -/
theorem Whole.exists_pretty_eq_cons (h : Whole v) (margin : Nat) :
    ∃ c text, pretty margin v = c :: text ∧ isSpace c = false ∧ c ≠ ']' := by
  cases h with
  | null => exact ⟨_, _, rfl, rfl, by decide⟩
  | bool value => cases value <;> exact ⟨_, _, rfl, rfl, by decide⟩
  | int value =>
    obtain n | n := value
    · obtain ⟨d, digits, hdigits, hd⟩ := exists_toDigits_eq_cons n
      refine ⟨d, digits, by rw [pretty, repr_ofNat_toList, hdigits], ?_⟩
      refine ⟨not_isSpace_of_isDigit hd, ?_⟩
      rintro rfl
      cases hd
    · exact ⟨_, _, by rw [pretty, repr_negSucc_toList], rfl, by decide⟩
  | str value => exact ⟨_, _, rfl, rfl, by decide⟩
  | @arr items _ => cases items <;> exact ⟨_, _, rfl, rfl, by decide⟩
  | @obj members _ =>
    obtain _ | ⟨⟨key, value⟩, members⟩ := members <;> exact ⟨_, _, rfl, rfl, by decide⟩

/-- A value is read as an item, if a comma and the other items come behind it, or the closing
bracket. -/
theorem readItems_cons (bound margin : Nat) (hitem : ReadsBack item) {rest after : List Char}
    (hbound : (pretty margin item).length ≤ bound) (hrest : EndsNumber rest)
    (hitems : (∃ text, skipSpace rest = ',' :: text ∧ readItems bound text = some (items, after)) ∨
      skipSpace rest = ']' :: after ∧ items = []) :
    readItems (bound + 1) (pretty margin item ++ rest) = some (item :: items, after) := by
  rw [readItems, hitem margin bound rest hbound hrest]
  obtain ⟨text, hcomma, hread⟩ | ⟨hclose, rfl⟩ := hitems
  · simp [hcomma, hread]
  · simp [hclose]

theorem readItems_pretty (hitem : ReadsBack item) (hitems : ∀ item ∈ items, ReadsBack item)
    (margin outer bound : Nat) (after : List Char)
    (hbound : (pretty margin item).length + (prettyItems margin items).length < bound) :
    readItems bound (pretty margin item ++
        (prettyItems margin items ++ (newline outer ++ ']' :: after))) =
      some (item :: items, after) := by
  induction items generalizing item bound with
  | nil =>
    obtain _ | bound := bound
    · cases hbound
    refine readItems_cons bound margin hitem (by omega)
      (endsNumber_prettyItems margin outer [] (']' :: after)) (.inr ⟨?_, rfl⟩)
    exact skipSpace_append (isSpace_of_mem_newline outer) _
  | cons next items ih =>
    obtain _ | bound := bound
    · cases hbound
    obtain ⟨hnext, hitems⟩ := List.forall_mem_cons.mp hitems
    rw [prettyItems] at hbound
    simp only [List.length_cons, List.length_append] at hbound
    have hcomma : prettyItems margin (next :: items) ++ (newline outer ++ ']' :: after) =
        ',' :: (newline margin ++ (pretty margin next ++
          (prettyItems margin items ++ (newline outer ++ ']' :: after)))) := by
      simp [prettyItems]
    refine readItems_cons bound margin hitem (by omega)
      (endsNumber_prettyItems margin outer (next :: items) (']' :: after))
      (.inl ⟨_, (congrArg skipSpace hcomma).trans (skipSpace_cons rfl _), ?_⟩)
    rw [readItems_append bound (isSpace_of_mem_newline margin)]
    exact ih hnext hitems bound (by omega)

/-- An array that is not closed at once is read item by item. -/
theorem readValue_items (bound : Nat) (hspace : ∀ c ∈ space, isSpace c = true) {c : Char}
    (hc : isSpace c = false) (hclose : c ≠ ']') (text : List Char) :
    readValue (bound + 1) ('[' :: (space ++ c :: text)) = do
      let (items, after) ← readItems bound (c :: text)
      return (.arr items, after) := by
  rw [readValue, skipSpace_cons rfl]
  simp only [skipSpace_append hspace, skipSpace_cons hc]
  split
  · rename_i heq
    exact absurd (List.cons_eq_cons.mp heq).1 hclose
  · rfl

/-- An object that is not closed at once is read member by member. -/
theorem readValue_members (bound : Nat) (hspace : ∀ c ∈ space, isSpace c = true)
    (text : List Char) : readValue (bound + 1) ('\x7b' :: (space ++ '"' :: text)) = do
      let (members, after) ← readMembers bound ('"' :: text)
      return (.obj members, after) := by
  rw [readValue, skipSpace_cons rfl]
  simp only [skipSpace_append hspace, skipSpace_cons (show isSpace '"' = false from rfl)]
  rfl

theorem ReadsBack.arr (hitems : ∀ item ∈ items, Whole item ∧ ReadsBack item) :
    ReadsBack (.arr items) := by
  intro margin bound rest hbound _
  obtain _ | bound := bound
  · cases items <;> cases hbound
  cases items with
  | nil => rfl
  | cons item items =>
    obtain ⟨⟨hwhole, hitem⟩, hitems⟩ := List.forall_mem_cons.mp hitems
    simp only [pretty, List.length_cons, List.length_append, List.length_nil] at hbound
    have hread := readItems_pretty hitem (fun item h => (hitems item h).2) (margin + 1) margin bound
      rest (by omega)
    obtain ⟨c, text, hpretty, hspace, hclose⟩ := hwhole.exists_pretty_eq_cons (margin + 1)
    rw [hpretty, List.cons_append] at hread
    simp only [pretty, hpretty, List.cons_append, List.append_assoc, List.nil_append]
    rw [readValue_items bound (isSpace_of_mem_newline (margin + 1)) hspace hclose, hread]
    rfl

theorem quote_append (s : String) (rest : List Char) :
    quote s ++ rest = '"' :: (s.toList.flatMap escape ++ '"' :: rest) := by
  simp [quote]

/-- A key and its value are read as a member, if a comma and the other members come behind them, or
the closing brace. -/
theorem readMembers_cons (bound margin : Nat) (key : String) (hv : ReadsBack v)
    {rest after : List Char} (hbound : (pretty margin v).length ≤ bound) (hrest : EndsNumber rest)
    (hmembers : (∃ text, skipSpace rest = ',' :: text ∧
        readMembers bound text = some (members, after)) ∨
      skipSpace rest = '\x7d' :: after ∧ members = []) :
    readMembers (bound + 1) (quote key ++ (": ".toList ++ (pretty margin v ++ rest))) =
      some ((key, v) :: members, after) := by
  have hcolon : skipSpace (": ".toList ++ (pretty margin v ++ rest)) =
      ':' :: ([' '] ++ (pretty margin v ++ rest)) := skipSpace_cons rfl _
  have hspace : ∀ c ∈ [' '], isSpace c = true := List.forall_mem_singleton.mpr rfl
  rw [quote_append, readMembers, skipSpace_cons rfl]
  simp only [readString_escape, Option.bind_eq_bind, Option.bind_some, hcolon,
    readValue_append bound hspace, hv margin bound rest hbound hrest, String.ofList_toList]
  obtain ⟨text, hcomma, hread⟩ | ⟨hclose, rfl⟩ := hmembers
  · simp [hcomma, hread]
  · simp [hclose]

theorem readMembers_pretty (key : String) (hv : ReadsBack v)
    (hmembers : ∀ member ∈ members, ReadsBack member.2) (margin outer bound : Nat)
    (after : List Char)
    (hbound : (pretty margin v).length + (prettyMembers margin members).length < bound) :
    readMembers bound (quote key ++ (": ".toList ++ (pretty margin v ++
        (prettyMembers margin members ++ (newline outer ++ '\x7d' :: after))))) =
      some ((key, v) :: members, after) := by
  induction members generalizing key v bound with
  | nil =>
    obtain _ | bound := bound
    · cases hbound
    refine readMembers_cons bound margin key hv (by omega)
      (endsNumber_prettyMembers margin outer [] ('\x7d' :: after)) (.inr ⟨?_, rfl⟩)
    exact skipSpace_append (isSpace_of_mem_newline outer) _
  | cons next members ih =>
    obtain _ | bound := bound
    · cases hbound
    obtain ⟨nextKey, next⟩ := next
    obtain ⟨hnext, hrest⟩ := List.forall_mem_cons.mp hmembers
    dsimp only at hnext
    rw [prettyMembers] at hbound
    simp only [List.length_cons, List.length_append] at hbound
    have hcomma : prettyMembers margin ((nextKey, next) :: members) ++
          (newline outer ++ '\x7d' :: after) =
        ',' :: (newline margin ++ (quote nextKey ++ (": ".toList ++ (pretty margin next ++
          (prettyMembers margin members ++ (newline outer ++ '\x7d' :: after)))))) := by
      simp [prettyMembers]
    refine readMembers_cons bound margin key hv (by omega)
      (endsNumber_prettyMembers margin outer ((nextKey, next) :: members) ('\x7d' :: after))
      (.inl ⟨_, (congrArg skipSpace hcomma).trans (skipSpace_cons rfl _), ?_⟩)
    rw [readMembers_append bound (isSpace_of_mem_newline margin)]
    exact ih nextKey hnext hrest bound (by omega)

theorem ReadsBack.obj (hmembers : ∀ member ∈ members, ReadsBack member.2) :
    ReadsBack (.obj members) := by
  intro margin bound rest hbound _
  obtain _ | ⟨⟨key, value⟩, members⟩ := members
  · obtain _ | bound := bound
    · cases hbound
    · rfl
  · obtain _ | bound := bound
    · cases hbound
    obtain ⟨hvalue, hmembers⟩ := List.forall_mem_cons.mp hmembers
    dsimp only at hvalue
    simp only [pretty, List.length_cons, List.length_append, List.length_nil] at hbound
    have hread := readMembers_pretty key hvalue hmembers (margin + 1) margin bound rest (by omega)
    rw [quote_append] at hread
    simp only [pretty, quote, List.cons_append, List.append_assoc, List.nil_append]
    rw [readValue_members bound (isSpace_of_mem_newline (margin + 1)), hread]
    rfl

theorem ReadsBack.str (value : String) : ReadsBack (.str value) := by
  intro margin bound rest hbound _
  obtain _ | bound := bound
  · cases hbound
  rw [pretty, quote_append, readValue, skipSpace_cons rfl]
  simp [readString_escape]

theorem ReadsBack.int (value : Int) : ReadsBack (.int value) := by
  intro margin bound rest hbound hrest
  obtain ⟨c, text, hpretty, hc⟩ : ∃ c text, value.repr.toList = c :: text ∧
      (c.isDigit = true ∨ c = '-') := by
    obtain n | n := value
    · obtain ⟨d, digits, hdigits, hd⟩ := exists_toDigits_eq_cons n
      exact ⟨d, digits, by rw [repr_ofNat_toList, hdigits], .inl hd⟩
    · exact ⟨_, _, repr_negSucc_toList n, .inr rfl⟩
  have hnumber := readNumber_repr value hrest
  rw [pretty] at hbound ⊢
  rw [hpretty] at hbound hnumber ⊢
  obtain _ | bound := bound
  · cases hbound
  rw [List.cons_append, readValue_number bound hc]
  exact hnumber

/-- Every value whose numbers are whole is read back from its pretty form. -/
theorem Whole.readsBack (h : Whole v) : ReadsBack v := by
  induction h with
  | null =>
    intro margin bound rest hbound _
    obtain _ | bound := bound
    · cases hbound
    · rfl
  | bool value =>
    intro margin bound rest hbound _
    obtain _ | bound := bound
    · cases value <;> cases hbound
    · cases value <;> rfl
  | int value => exact .int value
  | str value => exact .str value
  | arr hitems ih => exact .arr fun item hitem => ⟨hitems item hitem, ih item hitem⟩
  | obj hmembers ih => exact .obj ih

/-- The text of a value whose numbers are whole is read as that value. -/
theorem read?_render (h : Whole v) : read? v.render.toList = some v := by
  have hread := h.readsBack 0 (2 * (pretty 0 v).length + 2) [] (by omega) nofun
  rw [List.append_nil] at hread
  rw [read?, render, String.toList_ofList, hread]
  rfl

end Values

end Offside.Json
