import LicenseStamp.Proofs.Json.Grammar

/-! # Reading JSON

What the grammar spells is read. A value is read up to its end, whatever follows it, except that
a number must not be followed by more of a number; so a document spells one value at most.
-/

namespace LicenseStamp.Json

variable {text rest gap : Text} {value : Json} {fuel : Nat}

/-! ## Gaps -/

theorem skipGap_append (hgap : IsGap gap) (rest : Text) : skipGap (gap ++ rest) = skipGap rest :=
  List.dropWhile_append_of_pos hgap

theorem skipGap_cons {c : Char} (hc : isGap c = false) (rest : Text) :
    skipGap (c :: rest) = c :: rest :=
  List.dropWhile_cons_of_neg (by simp [hc])

/-! ## Numbers -/

/-- Whether a character could go on a number. -/
def goesOn (c : Char) : Bool := c.isDigit || c = '.' || c = 'e' || c = 'E'

/-- A text that does not go on a number in front of it. -/
def EndsNumber (text : Text) : Prop := text.head?.all (!goesOn ·) = true

theorem endsNumber_nil : EndsNumber [] := rfl

theorem endsNumber_cons {c : Char} (hc : goesOn c = false) (rest : Text) : EndsNumber (c :: rest) := by
  simp [EndsNumber, hc]

theorem EndsNumber.uncons {c : Char} (h : EndsNumber (c :: rest)) :
    c.isDigit = false ∧ c ≠ '.' ∧ c ≠ 'e' ∧ c ≠ 'E' := by
  simpa [EndsNumber, goesOn, and_assoc] using h

theorem endsNumber_append (hgap : IsGap gap) (hrest : EndsNumber rest) :
    EndsNumber (gap ++ rest) := by
  cases gap with
  | nil => exact hrest
  | cons c more =>
      have hc := hgap c List.mem_cons_self
      simp only [isGap, Bool.or_eq_true, decide_eq_true_eq] at hc
      refine endsNumber_cons ?_ _
      rcases hc with ((rfl | rfl) | rfl) | rfl <;> decide

theorem readDigits_append {digits : Text} (hdigits : Text.IsDigits digits)
    (hrest : ∀ c ∈ rest.head?, c.isDigit = false) :
    readDigits (digits ++ rest) = some (digits, rest) := by
  have hall : ∀ c ∈ digits, (Text.digit? c).isSome = true := by
    intro c hc
    rw [Text.isSome_digit?]
    exact hdigits.2 c hc
  have hnone : rest.takeWhile (fun c => (Text.digit? c).isSome) = [] ∧
      rest.dropWhile (fun c => (Text.digit? c).isSome) = rest := by
    cases rest with
    | nil => exact ⟨rfl, rfl⟩
    | cons c more =>
        have hc : ¬ (Text.digit? c).isSome = true := by
          rw [Text.isSome_digit?, hrest c rfl]
          exact Bool.false_ne_true
        exact ⟨List.takeWhile_cons_of_neg hc, List.dropWhile_cons_of_neg hc⟩
  have hempty : digits.isEmpty = false := by simpa using hdigits.1
  simp only [readDigits, List.takeWhile_append_of_pos hall, List.dropWhile_append_of_pos hall,
    hnone.1, hnone.2, List.append_nil, hempty, Bool.false_eq_true, if_false]

theorem readWhole_append {whole : Text} (hwhole : IsWhole whole)
    (hrest : ∀ c ∈ rest.head?, c.isDigit = false) :
    readWhole (whole ++ rest) = some (whole, rest) := by
  cases hwhole with
  | zero => rfl
  | digits hdigits hfirst =>
      have hread := readDigits_append hdigits hrest
      obtain ⟨c, more, rfl⟩ := List.exists_cons_of_ne_nil hdigits.1
      have hc : c ≠ '0' := by simpa using hfirst
      rw [readWhole.eq_def]
      split
      next same => exact absurd (List.cons.inj same).1 hc
      · exact hread

theorem readFraction_append {fraction : Text} (hfraction : IsFraction fraction)
    (hrest : ∀ c ∈ rest.head?, c.isDigit = false ∧ c ≠ '.') :
    readFraction (fraction ++ rest) = some (fraction, rest) := by
  cases hfraction with
  | none =>
      rw [List.nil_append, readFraction.eq_def]
      split
      next more => exact absurd rfl (hrest '.' rfl).2
      · rfl
  | digits hdigits =>
      rw [List.cons_append, readFraction, readDigits_append hdigits fun c hc => (hrest c hc).1]
      rfl

theorem readExponent_append {exponent : Text} (hexponent : IsExponent exponent)
    (hrest : ∀ c ∈ rest.head?, c.isDigit = false ∧ c ≠ 'e' ∧ c ≠ 'E') :
    readExponent (exponent ++ rest) = some (exponent, rest) := by
  have hdigit : ∀ c ∈ rest.head?, c.isDigit = false := fun c hc => (hrest c hc).1
  cases hexponent with
  | none =>
      rw [List.nil_append, readExponent.eq_def]
      split
      next mark sign more =>
        have hmark : ¬ (mark = 'e' ∨ mark = 'E') := by simpa using (hrest mark rfl).2
        rw [if_neg hmark]
      · rfl
  | @digits mark sign digits hmark hsign hdigits =>
      have hread := readDigits_append hdigits hdigit
      cases hsign with
      | none =>
          obtain ⟨c, more, rfl⟩ := List.exists_cons_of_ne_nil hdigits.1
          have hc : ¬ (c = '+' ∨ c = '-') := by
            have hisDigit := hdigits.2 c List.mem_cons_self
            rintro (rfl | rfl) <;> cases hisDigit
          rw [List.cons_append] at hread
          simp only [List.nil_append, List.cons_append, readExponent, hmark, hc, hread, if_true,
            if_false, Option.map_some]
      | @sign c hsign =>
          have hc : c = '+' ∨ c = '-' := by simpa using hsign
          simp only [List.cons_append, List.nil_append, readExponent, hmark, hc, hread, if_true,
            Option.map_some]

theorem head?_exponent_append {exponent : Text} (hexponent : IsExponent exponent)
    (hrest : EndsNumber rest) : ∀ c ∈ (exponent ++ rest).head?, c.isDigit = false ∧ c ≠ '.' := by
  intro c hc
  cases hexponent with
  | none =>
      obtain ⟨more, rfl⟩ := List.head?_eq_some_iff.1 hc
      exact ⟨hrest.uncons.1, hrest.uncons.2.1⟩
  | digits hmark =>
      obtain rfl := Option.some.inj hc
      rcases hmark with rfl | rfl <;> decide

theorem head?_fraction_append {fraction : Text} (hfraction : IsFraction fraction)
    (hrest : ∀ c ∈ rest.head?, c.isDigit = false ∧ c ≠ '.') :
    ∀ c ∈ (fraction ++ rest).head?, c.isDigit = false := by
  intro c hc
  cases hfraction with
  | none => exact (hrest c hc).1
  | digits =>
      obtain rfl := Option.some.inj hc
      rfl

theorem head?_whole_append {whole : Text} (hwhole : IsWhole whole) (rest : Text) :
    ∃ c, (whole ++ rest).head? = some c ∧ c.isDigit = true := by
  cases hwhole with
  | zero => exact ⟨'0', rfl, rfl⟩
  | digits hdigits =>
      obtain ⟨c, more, rfl⟩ := List.exists_cons_of_ne_nil hdigits.1
      exact ⟨c, rfl, hdigits.2 c List.mem_cons_self⟩

/-- A number is read up to its end. -/
theorem readNumber_append {lexeme : Text} (hnumber : IsNumber lexeme) (hrest : EndsNumber rest) :
    readNumber (lexeme ++ rest) = some (lexeme, rest) := by
  cases hnumber with
  | @mk sign whole fraction exponent hsign hwhole hfraction hexponent =>
      have hmark : ∀ c ∈ rest.head?, c.isDigit = false ∧ c ≠ 'e' ∧ c ≠ 'E' := by
        intro c hc
        obtain ⟨more, rfl⟩ := List.head?_eq_some_iff.1 hc
        exact ⟨hrest.uncons.1, hrest.uncons.2.2⟩
      have hpoint := head?_exponent_append hexponent hrest
      have hfirst := readWhole_append hwhole (head?_fraction_append hfraction hpoint)
      have hsecond := readFraction_append hfraction hpoint
      have hthird := readExponent_append hexponent hmark
      cases hsign with
      | none =>
          obtain ⟨c, hhead, hdigit⟩ := head?_whole_append hwhole (fraction ++ (exponent ++ rest))
          have hsign : ¬ c = '-' := by
            rintro rfl
            cases hdigit
          simp [readNumber, hhead, hsign, hfirst, hsecond, hthird]
      | sign hminus =>
          obtain rfl := List.mem_singleton.1 hminus
          simp [readNumber, hfirst, hsecond, hthird]

/-! ## Quoted texts -/

theorem readQuoted_plain {c : Char} (hcontrol : 0x20 ≤ c.toNat) (hquote : c ≠ '"')
    (hbackslash : c ≠ '\\') :
    readQuoted (c :: rest) = (readQuoted rest).map fun (text, after) => (c :: text, after) := by
  rw [readQuoted.eq_def]
  split
  next same => cases same
  next same => exact absurd (List.cons.inj same).1 hquote
  next same => exact absurd (List.cons.inj same).1 hbackslash
  next same => exact absurd (List.cons.inj same).1 hbackslash
  next same => exact absurd (List.cons.inj same).1 hbackslash
  next same =>
    obtain ⟨rfl, rfl⟩ := List.cons.inj same
    rw [if_neg (Nat.not_lt.2 hcontrol)]

theorem readQuoted_short {c mark : Char} (hmark : shortEscape? mark = some c) :
    readQuoted ('\\' :: mark :: rest) =
      (readQuoted rest).map fun (text, after) => (c :: text, after) := by
  have hcode : mark ≠ 'u' := by
    rintro rfl
    cases hmark
  rw [readQuoted.eq_def]
  split
  next same => cases same
  next same => cases same
  next same => exact absurd (List.cons.inj (List.cons.inj same).2).1 hcode
  next same => exact absurd (List.cons.inj (List.cons.inj same).2).1 hcode
  next same =>
    obtain ⟨rfl, rfl⟩ := List.cons.inj (List.cons.inj same).2
    rw [hmark]
    cases readQuoted rest <;> rfl
  next hother same =>
    obtain ⟨rfl, rfl⟩ := List.cons.inj same
    exact absurd rfl (hother mark rest rfl)

theorem readQuoted_code {c a₁ a₂ a₃ a₄ : Char} {code : Nat}
    (hcode : hexValue4? a₁ a₂ a₃ a₄ = some code) (hsingle : single? code = some c) :
    readQuoted ('\\' :: 'u' :: a₁ :: a₂ :: a₃ :: a₄ :: rest) =
      (readQuoted rest).map fun (text, after) => (c :: text, after) := by
  rw [readQuoted.eq_def]
  split
  next same => cases same
  next same => cases same
  next same =>
    cases same
    simp only [hcode, Option.bind_some, hsingle]
  next hother same =>
    cases same
    simp only [hcode, hsingle, Option.bind_eq_bind, Option.bind_some]
    cases readQuoted rest <;> rfl
  next hother same =>
    cases same
    exact (hother _ _ _ _ _ rfl rfl).elim
  next hother same =>
    cases same
    exact (hother _ _ rfl rfl).elim

theorem readQuoted_pair {c a₁ a₂ a₃ a₄ b₁ b₂ b₃ b₄ : Char} {high low : Nat}
    (hhigh : hexValue4? a₁ a₂ a₃ a₄ = some high) (hlow : hexValue4? b₁ b₂ b₃ b₄ = some low)
    (hpair : pair? high low = some c) :
    readQuoted ('\\' :: 'u' :: a₁ :: a₂ :: a₃ :: a₄ :: '\\' :: 'u' :: b₁ :: b₂ :: b₃ :: b₄ :: rest) =
      (readQuoted rest).map fun (text, after) => (c :: text, after) := by
  -- half of a pair is no character of its own
  have hsingle : single? high = none := by
    unfold pair? at hpair
    split at hpair
    next hrange => exact if_pos ⟨hrange.1, by omega⟩
    · cases hpair
  rw [readQuoted]
  simp only [hhigh, hlow, hpair, hsingle, Option.bind_eq_bind, Option.bind_some]
  cases readQuoted rest <;> rfl

/-- A character is read in whichever way it is written. -/
theorem readQuoted_char {c : Char} {piece : Text} (h : SpellsChar c piece) (rest : Text) :
    readQuoted (piece ++ rest) = (readQuoted rest).map fun (text, after) => (c :: text, after) := by
  cases h with
  | plain hcontrol hquote hbackslash => exact readQuoted_plain hcontrol hquote hbackslash
  | short hmark => exact readQuoted_short hmark
  | code hcode hsingle => exact readQuoted_code hcode hsingle
  | pair hhigh hlow hpair => exact readQuoted_pair hhigh hlow hpair

theorem readQuoted_append {quoted : Text} (h : SpellsQuoted text quoted) (rest : Text) :
    readQuoted (quoted ++ rest) = some (text, rest) := by
  induction h with
  | close => rfl
  | char hchar _ ih =>
      rw [List.append_assoc, readQuoted_char hchar, ih]
      rfl

/-! ## Values -/

theorem readValue_gap (hgap : IsGap gap) (fuel : Nat) (rest : Text) :
    readValue fuel (gap ++ rest) = readValue fuel rest := by
  cases fuel with
  | zero => rfl
  | succ fuel => rw [readValue, readValue, skipGap_append hgap]

theorem isNumber_uncons {lexeme : Text} (h : IsNumber lexeme) :
    ∃ c rest, lexeme = c :: rest ∧ (c.isDigit = true ∨ c = '-') := by
  cases h with
  | @mk sign whole fraction exponent hsign hwhole =>
      cases hsign with
      | none =>
          obtain ⟨c, hhead, hdigit⟩ := head?_whole_append hwhole (fraction ++ exponent)
          obtain ⟨rest, hrest⟩ := List.head?_eq_some_iff.1 hhead
          exact ⟨c, rest, by simpa using hrest, .inl hdigit⟩
      | sign hminus =>
          obtain rfl := List.mem_singleton.1 hminus
          exact ⟨'-', whole ++ fraction ++ exponent, by simp, .inr rfl⟩

theorem isGap_eq_false_of_number {c : Char} (hc : c.isDigit = true ∨ c = '-') : isGap c = false := by
  rw [Bool.eq_false_iff]
  intro hgap
  simp only [isGap, Bool.or_eq_true, decide_eq_true_eq] at hgap
  rcases hgap with ((rfl | rfl) | rfl) | rfl <;> simp at hc

theorem readValue_number {c : Char} (hc : c.isDigit = true ∨ c = '-') (rest : Text) :
    readValue (fuel + 1) (c :: rest) =
      (readNumber (c :: rest)).map fun (lexeme, after) => (.number lexeme, after) := by
  rw [readValue, skipGap_cons (isGap_eq_false_of_number hc)]
  -- a number starts like no other value
  split
  iterate 6
    next same =>
      obtain ⟨rfl, -⟩ := List.cons.inj same
      simp at hc
  · rfl

theorem readValue_array (hitem : ∀ after, skipGap text ≠ ']' :: after) :
    readValue (fuel + 1) ('[' :: text) =
      (readItems fuel text).map fun (items, after) => (.array items, after) := by
  rw [readValue, skipGap_cons (by decide)]
  simp only

theorem readValue_object (hmember : ∀ after, skipGap text ≠ '\x7d' :: after) :
    readValue (fuel + 1) ('\x7b' :: text) =
      (readMembers fuel text).map fun (members, after) => (.object members, after) := by
  rw [readValue, skipGap_cons (by decide)]
  simp only

/-- A value starts with no gap and with no bracket that closes a list. -/
theorem Spells.uncons (h : Spells value text) :
    ∃ c rest, text = c :: rest ∧ isGap c = false ∧ c ≠ ']' := by
  cases h with
  | null | yes | no | string | noItems | array | noMembers | object =>
      exact ⟨_, _, rfl, by decide, by decide⟩
  | number hnumber =>
      obtain ⟨c, rest, rfl, hc⟩ := isNumber_uncons hnumber
      refine ⟨c, rest, rfl, isGap_eq_false_of_number hc, ?_⟩
      rintro rfl
      simp at hc

theorem SpellsItems.skipGap_ne {items : List Json} (h : SpellsItems items text) (rest after : Text) :
    skipGap (text ++ rest) ≠ ']' :: after := by
  have starts : ∀ {item text}, SpellsElement item text → ∀ later,
      skipGap (text ++ later) ≠ ']' :: after := by
    intro item text hitem later
    cases hitem with
    | mk hbefore hvalue =>
        obtain ⟨c, more, rfl, hc, hne⟩ := hvalue.uncons
        simp only [List.append_assoc, skipGap_append hbefore, List.cons_append, skipGap_cons hc]
        exact fun same => hne (List.cons.inj same).1
  cases h with
  | last hitem | more hitem =>
      rw [List.append_assoc]
      exact starts hitem _

theorem SpellsMember.skipGap_append {member : Text × Json} (h : SpellsMember member text)
    (rest : Text) : ∃ later, skipGap (text ++ rest) = '"' :: later := by
  cases h with
  | mk hbefore =>
      rw [List.append_assoc, Json.skipGap_append hbefore, List.cons_append, skipGap_cons (by decide)]
      exact ⟨_, rfl⟩

theorem SpellsMembers.skipGap_ne {members : List (Text × Json)} (h : SpellsMembers members text)
    (rest after : Text) : skipGap (text ++ rest) ≠ '\x7d' :: after := by
  cases h with
  | last hmember | more hmember =>
      rw [List.append_assoc]
      obtain ⟨later, hlater⟩ := hmember.skipGap_append _
      rw [hlater]
      exact fun same => absurd (List.cons.inj same).1 (by decide)

/-- After a name and its colon, a value is read and then the end or the other members. -/
theorem readMembers_name {before quoted middle name : Text} (hbefore : IsGap before)
    (hname : SpellsQuoted name quoted) (hmiddle : IsGap middle) :
    readMembers (fuel + 1) (before ++ '"' :: (quoted ++ (middle ++ ':' :: text))) =
      (readValue fuel text).bind fun (value, text) =>
        match skipGap text with
        | '\x7d' :: after => some ([(name, value)], after)
        | ',' :: rest => (readMembers fuel rest).bind fun (members, after) =>
            some ((name, value) :: members, after)
        | _ => none := by
  rw [readMembers, skipGap_append hbefore, skipGap_cons (by decide)]
  simp only [readQuoted_append hname, Option.bind_eq_bind, Option.bind_some, skipGap_append hmiddle,
    skipGap_cons (c := ':') (by decide)]
  rfl

-- The recursion is on the derivation of the grammar. A list hands its fuel on twice for each element,
-- once to the element and once to the rest, and each time a character is behind: so the fuel of two
-- steps a character is enough.
mutual

/-- A value is read up to its end. -/
theorem readValue_append {value : Json} {text rest : Text} {fuel : Nat} (h : Spells value text)
    (hrest : EndsNumber rest) (hfuel : 2 * text.length < fuel) :
    readValue fuel (text ++ rest) = some (value, rest) := by
  obtain ⟨fuel, rfl⟩ : ∃ n, fuel = n + 1 := ⟨fuel - 1, by omega⟩
  cases h with
  | null | yes | no => rfl
  | number hnumber =>
      obtain ⟨c, more, rfl, hc⟩ := isNumber_uncons hnumber
      rw [List.cons_append, readValue_number hc, ← List.cons_append, readNumber_append hnumber hrest]
      rfl
  | string hquoted =>
      rw [List.cons_append, readValue, skipGap_cons (by decide)]
      simp only [readQuoted_append hquoted]
      rfl
  | noItems hgap | noMembers hgap =>
      rw [List.cons_append, readValue, skipGap_cons (by decide)]
      simp only [List.append_assoc, skipGap_append hgap]
      rfl
  | array hitems =>
      rw [List.length_cons] at hfuel
      rw [List.cons_append, readValue_array (hitems.skipGap_ne rest),
        readItems_append hitems (by omega)]
      rfl
  | object hmembers =>
      rw [List.length_cons] at hfuel
      rw [List.cons_append, readValue_object (hmembers.skipGap_ne rest),
        readMembers_append hmembers (by omega)]
      rfl

theorem readElement_append {value : Json} {text rest : Text} (fuel : Nat)
    (h : SpellsElement value text) (hrest : EndsNumber rest) (hfuel : 2 * text.length < fuel) :
    ∃ after, readValue fuel (text ++ rest) = some (value, after) ∧ skipGap after = skipGap rest := by
  cases h with
  | @mk value before inner after hbefore hvalue hafter =>
      simp only [List.length_append] at hfuel
      refine ⟨after ++ rest, ?_, skipGap_append hafter rest⟩
      rw [List.append_assoc, List.append_assoc, readValue_gap hbefore]
      exact readValue_append hvalue (endsNumber_append hafter hrest) (by omega)

theorem readItems_append {items : List Json} {text rest : Text} {fuel : Nat}
    (h : SpellsItems items text) (hfuel : 2 * text.length + 1 < fuel) :
    readItems fuel (text ++ rest) = some (items, rest) := by
  obtain ⟨fuel, rfl⟩ : ∃ n, fuel = n + 1 := ⟨fuel - 1, by omega⟩
  cases h with
  | @last item text hitem =>
      simp only [List.length_append, List.length_cons] at hfuel
      obtain ⟨after, hread, hafter⟩ := readElement_append fuel hitem
        (endsNumber_cons (c := ']') (by decide) rest) (by omega)
      rw [List.append_assoc, List.singleton_append, readItems, hread]
      simp only [Option.bind_eq_bind, Option.bind_some, hafter, skipGap_cons (c := ']') (by decide)]
      rfl
  | @more item items text later hitem onward =>
      simp only [List.length_append, List.length_cons] at hfuel
      obtain ⟨after, hread, hafter⟩ := readElement_append fuel hitem
        (endsNumber_cons (c := ',') (by decide) (later ++ rest)) (by omega)
      rw [List.append_assoc, List.cons_append, readItems, hread]
      simp only [Option.bind_eq_bind, Option.bind_some, hafter, skipGap_cons (c := ',') (by decide),
        readItems_append onward (by omega : 2 * later.length + 1 < fuel)]
      rfl

theorem readMembers_append {members : List (Text × Json)} {text rest : Text} {fuel : Nat}
    (h : SpellsMembers members text) (hfuel : 2 * text.length + 1 < fuel) :
    readMembers fuel (text ++ rest) = some (members, rest) := by
  obtain ⟨fuel, rfl⟩ : ∃ n, fuel = n + 1 := ⟨fuel - 1, by omega⟩
  cases h with
  | last hmember =>
      obtain ⟨hbefore, hname, hmiddle, hvalue⟩ := hmember
      simp only [List.length_append, List.length_cons] at hfuel
      obtain ⟨after, hread, hafter⟩ := readElement_append fuel hvalue
        (endsNumber_cons (c := '\x7d') (by decide) rest) (by omega)
      simp only [List.append_assoc, List.cons_append, List.nil_append,
        readMembers_name hbefore hname hmiddle, hread, Option.bind_some, hafter,
        skipGap_cons (c := '\x7d') (by decide)]
  | @more member members text later hmember onward =>
      obtain ⟨hbefore, hname, hmiddle, hvalue⟩ := hmember
      simp only [List.length_append, List.length_cons] at hfuel
      obtain ⟨after, hread, hafter⟩ := readElement_append fuel hvalue
        (endsNumber_cons (c := ',') (by decide) (later ++ rest)) (by omega)
      simp only [List.append_assoc, List.cons_append, readMembers_name hbefore hname hmiddle, hread,
        Option.bind_some, hafter, skipGap_cons (c := ',') (by decide),
        readMembers_append onward (by omega : 2 * later.length + 1 < fuel)]

end

/-- What spells a value is read as that value. -/
theorem read?_of_spells (h : SpellsElement value text) : read? text = some value := by
  obtain ⟨after, hread, hafter⟩ := readElement_append (2 * text.length + 2) h endsNumber_nil (by omega)
  rw [List.append_nil] at hread
  simp only [read?, hread, Option.bind_eq_bind, Option.bind_some, hafter]
  rfl

/-- A document spells one value at most. -/
theorem SpellsElement.value_unique {other : Json} (h : SpellsElement value text)
    (hother : SpellsElement other text) : value = other :=
  Option.some.inj ((read?_of_spells h).symm.trans (read?_of_spells hother))

end LicenseStamp.Json
